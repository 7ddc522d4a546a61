import GoroutineDump.Proofs.Markup.Asking
import GoroutineDump.Proofs.Markup.Failing

set_option autoImplicit false
set_option relaxedAutoImplicit false

namespace GoroutineDump.Highlight

open Source (ReadAnswer Token)

/-- A frame of one of the first goroutines, as many as the options say, stands in the file at a
path. -/
def NeedsFile (h : Highlighter) (options : MarkupOptions) (gs : List Goroutine) (path : String) :
    Prop :=
  ∃ g ∈ gs.take (if options.limit = 0 then gs.length else min options.limit.toNat gs.length),
    ∃ frame ∈ g.stack, h.roots.pathOf frame.location = path

/-- What a pass over goroutines has read, from the cache that it found and the one that it left. -/
structure ReadsOnce (h : Highlighter) (options : MarkupOptions) (gs : List Goroutine)
    (before after : TokenCache) : Prop where
  /-- each path that was needed and not held was read once, unless someone else was loading it when
  the pass began, and no other path was read -/
  reads : ∃ later, after.readPaths = before.readPaths ++ later ∧ later.Nodup ∧
    (∀ path ∈ later, NeedsFile h options gs path ∧ before.contains path = false) ∧
    ∀ path, NeedsFile h options gs path → before.contains path = false →
      before.underWay? path = none → path ∈ later
  /-- each path that was needed is held -/
  held : ∀ path, NeedsFile h options gs path → after.contains path = true
  /-- the pass leaves no load of its own under way -/
  idle : ∀ path, before.underWay? path = none → after.underWay? path = none

def Stage.goesWell : Stage → Bool
  | .loading _ _ _ (.load _) => false
  | .failing _ | .aborting | .failed => false
  | _ => true

/-- The first goroutines, as many as the options say, show what a cache gives for their frames. -/
def ShownFrom (h : Highlighter) (options : MarkupOptions) (c : TokenCache) (gs : List Goroutine) :
    Prop :=
  ∀ g ∈ gs.take (options.count gs.length), ∀ frame ∈ g.stack,
    h.Shows options.context c frame.location frame.excerpt

private theorem shows_of_frameMarked {h : Highlighter} {context : Int} (hcontext : 0 ≤ context)
    {read : String → Id ReadAnswer} {c : TokenCache} {before after : Frame}
    (hmarked : FrameMarked h context read c before after) :
    h.Shows context c after.location after.excerpt := by
  obtain ⟨tokens, hfind⟩ := Option.isSome_iff_exists.mp hmarked.held
  have hlocation : after.location = before.location := by rw [hmarked.rest]
  have hrequest : c.request (h.roots.pathOf before.location) = (.tokens tokens, c) := by
    simp only [TokenCache.request, hfind]
  have hshown := congrArg Prod.fst hmarked.shown
  rw [Highlighter.highlight, if_neg (Int.not_lt.mpr hcontext), TokenCache.get, hrequest] at hshown
  exact ⟨tokens, hlocation ▸ hfind, hlocation ▸ hshown⟩

private theorem shownFrom_of_marked {h : Highlighter} {options : MarkupOptions}
    (hcontext : 0 ≤ options.context) {read : String → Id ReadAnswer} {c : TokenCache}
    {before after : List Goroutine}
    (hmarked : Marked h options.context read c (options.count before.length) before after) :
    ShownFrom h options c after := by
  intro g hg
  rw [hmarked.length] at hg
  obtain ⟨place, hplace⟩ := List.mem_iff_getElem?.mp hg
  rw [List.getElem?_take, Option.ite_none_right_eq_some] at hplace
  obtain ⟨hlt, hafter⟩ := hplace
  have hsize : place < before.length := hmarked.length ▸ (List.getElem?_eq_some_iff.mp hafter).1
  obtain ⟨same, hsame, hframes, -⟩ :=
    hmarked.marked place hlt _ (List.getElem?_eq_getElem hsize)
  obtain rfl : same = g := Option.some.inj (hsame.symm.trans hafter)
  have hboth : List.Forall₂ (fun f before => h.Shows options.context c f.location f.excerpt ∧
      FrameMarked h options.context read c before f) same.stack before[place].stack :=
    hframes.flip.imp fun _ _ hframe => ⟨shows_of_frameMarked hcontext hframe, hframe⟩
  exact ((List.forall₂_and_left _ _).mp hboth).1

private theorem fillFrames_self (frames : List Frame) :
    fillFrames frames (frames.map (·.excerpt)) = frames := by
  induction frames with
  | nil => rfl
  | cons frame frames ih => rw [List.map_cons, fillFrames, ih]

namespace Pass

variable {h : Highlighter} {context : Int} {first p q : Pass} {locations : List (List Location)}

/-! ### The loads of a pass -/

private theorem Step.lt_or_loading (hstep : p.Step h context q) {index : Nat}
    (hindex : index < q.cache.loads.length) :
    index < p.cache.loads.length ∨
      ∃ (task : Nat) (done : List Excerpt) (l : Location) (todo : List Location),
        q.tasks[task]? = some (.loading done l todo (.load index)) := by
  cases hstep with
  | @ask task done l todo hstage =>
    have hlookup := getElem?_put
      (p := { p with cache := (p.cache.request (h.roots.pathOf l)).2 }) hstage
      (.loading done l todo (p.cache.request (h.roots.pathOf l)).1) task
    rw [if_pos rfl] at hlookup
    rcases p.cache.request_cases (h.roots.pathOf l) with ⟨_, _, hr⟩ | ⟨_, _, _, hr⟩ | ⟨_, _, hr⟩
    · exact .inl (by simpa [hr] using hindex)
    · exact .inl (by simpa [hr] using hindex)
    · have hlast : index < p.cache.loads.length + 1 := by simpa [hr] using hindex
      rcases Nat.lt_or_eq_of_le (Nat.le_of_lt_succ hlast) with hlt | rfl
      · exact .inl hlt
      · exact .inr ⟨task, done, l, todo, by simpa [hr] using hlookup⟩
  | answer answer hload =>
    rw [TokenCache.loads_complete answer hload, List.length_set] at hindex
    exact .inl hindex
  | _ => exact .inl hindex

private theorem pending_of_leads (hfirst : first.cache.Coherent)
    (hleads : Leads h context first p) {index : Nat} (hge : first.cache.loads.length ≤ index)
    (hlt : index < p.cache.loads.length) :
    ∃ path, Asking.Pending h p (path, .load index) := by
  induction hleads with
  | refl => omega
  | tail hsteps hstep ih =>
    -- A load that this step begins is waited for by the task that takes it.
    rcases hstep.lt_or_loading hlt with hold | ⟨task, done, l, todo, hstage⟩
    · obtain ⟨path, hpending⟩ := ih hold
      have hc := coherent_of_leads hsteps hfirst
      exact ⟨path, Asking.pending_step hc hstep hpending⟩
    · exact ⟨_, .inl ⟨task, done, l, todo, hstage, rfl⟩⟩

/-- All loads that a pass began have succeeded, if it has. -/
private theorem succeedsFrom_of_leads (hfirst : first.Faithful h context locations)
    (hleads : Leads h context first p) (hover : p.isOver = true) (hnone : p.failure = none) :
    p.cache.SucceedsFrom first.cache.loads.length := by
  intro index load hge hload
  have hlt : index < p.cache.loads.length := (List.getElem?_eq_some_iff.mp hload).1
  obtain ⟨path, hpending⟩ := pending_of_leads hfirst.coherent hleads hge hlt
  obtain ⟨outcome, hout, hfails⟩ :=
    hpending.exists_outcome (faithful_of_leads hfirst hleads) hover
  obtain ⟨same, hsame, hload'⟩ := TokenCache.redeem?_load_eq_some.mp hout
  obtain rfl : same = load := Option.some.inj (hsame.symm.trans hload)
  cases outcome with
  | ok tokens => exact ⟨tokens, hload'⟩
  | error failure =>
    obtain ⟨f, hf⟩ := hfails failure rfl
    rw [hnone] at hf
    cases hf

variable {options : MarkupOptions} {permits : Nat} {cancelled : Bool} {cache : TokenCache}
  {gs after : List Goroutine}

private theorem needsFile_iff (hcontext : 0 ≤ options.context) {path : String} :
    NeedsFile h options gs path ↔
      ∃ todo ∈ (gs.take (options.count gs.length)).map (·.locations), ∃ l ∈ todo,
        h.roots.pathOf l = path := by
  simp only [NeedsFile, MarkupOptions.count_of_nonneg hcontext, Goroutine.locations, List.mem_map,
    exists_exists_and_eq_and]

private theorem needsFile_of_requesting (hcontext : 0 ≤ options.context)
    (hp : p.Faithful h context ((gs.take (options.count gs.length)).map (·.locations)))
    {task : Nat} {done : List Excerpt} {l : Location} {todo : List Location}
    (hstage : p.tasks[task]? = some (.requesting done l todo)) :
    NeedsFile h options gs (h.roots.pathOf l) := by
  obtain ⟨all, hall, front, rfl, -⟩ := hp.fits task _ hstage
  exact (needsFile_iff hcontext).mpr ⟨_, List.mem_of_getElem? hall, l, by simp, rfl⟩

theorem readsOnce (hcache : cache.Reachable) (hcontext : 0 ≤ options.context)
    (hleads : Leads h options.context (start cache permits cancelled
      ((gs.take (options.count gs.length)).map (·.locations))) p)
    (hover : p.isOver = true) (hnone : p.failure = none) :
    ReadsOnce h options gs cache p.cache := by
  have hfirst : (start cache permits cancelled
      ((gs.take (options.count gs.length)).map (·.locations))).Faithful h options.context
        ((gs.take (options.count gs.length)).map (·.locations)) :=
    faithful_start hcache.coherent permits cancelled _
  have hp := faithful_of_leads hfirst hleads
  have hgrows := (extends_of_leads hleads hcache.coherent).cache
  have hgood := succeedsFrom_of_leads hfirst hleads hover hnone
  have hheld : ∀ path, NeedsFile h options gs path → p.cache.contains path = true := by
    intro path hneeds
    obtain ⟨todo, htodo, l, hl, rfl⟩ := (needsFile_iff hcontext).mp hneeds
    obtain ⟨e, tokens, hfind, -⟩ := exists_shows hp hover hnone htodo hl
    rw [TokenCache.contains, hfind]
    rfl
  obtain ⟨later, hlater, hneeded⟩ := exists_readPaths_of_leads
    (P := NeedsFile h options gs) hleads fun r task done l todo hsteps hstage =>
      needsFile_of_requesting hcontext (faithful_of_leads hfirst hsteps) hstage
  obtain ⟨same, hsame, hnodup, hfree, hall⟩ := TokenCache.exists_reads_of_succeeds
    hcache.coherent (reachable_of_leads hleads hcache) hgrows hgood
  obtain rfl : later = same := List.append_cancel_left (hlater.symm.trans hsame)
  refine ⟨⟨later, hlater, hnodup, ?_, ?_⟩, hheld, ?_⟩
  · exact fun path hmem => ⟨hneeded path hmem, hfree path hmem⟩
  · exact fun path hneeds => hall path (hheld path hneeds)
  · exact fun path => TokenCache.underWay?_of_succeeds hcache.coherent
      (coherent_of_leads hleads hcache.coherent) hgrows hgood

/-! ### A pass that finds everything in the cache -/

/-- A pass whose locations are all shown from the cache with which it began: no task waits, none has
failed and nothing is read. -/
structure Smooth (h : Highlighter) (context : Int) (cache : TokenCache)
    (locations : List (List Location)) (p : Pass) : Prop where
  faithful : p.Faithful h context locations
  grows : TokenCache.Grows cache p.cache
  stages : ∀ (task : Nat) (stage : Stage), p.tasks[task]? = some stage → stage.goesWell = true
  aborted : p.aborted = false
  failure : p.failure = none
  reads : p.cache.readPaths = cache.readPaths
  cache : (∀ path, cache.underWay? path = none) → p.cache = cache

private theorem smooth_start (hc : cache.Coherent) (permits : Nat) :
    (start cache permits false locations).Smooth h context cache locations where
  faithful := faithful_start hc permits false locations
  grows := .refl cache
  stages task stage hstage := by
    simp only [start, List.getElem?_toArray, List.getElem?_map, Option.map_eq_some_iff] at hstage
    obtain ⟨todo, -, rfl⟩ := hstage
    rfl
  aborted := rfl
  failure := rfl
  reads := rfl
  cache _ := rfl

private theorem request_of_requesting (hp : p.Smooth h context cache locations)
    (hshown : ∀ todo ∈ locations, ∀ l ∈ todo, ∃ e, h.Shows context cache l e)
    {task : Nat} {done : List Excerpt} {l : Location} {todo : List Location}
    (hstage : p.tasks[task]? = some (.requesting done l todo)) :
    ∃ tokens, p.cache.request (h.roots.pathOf l) = (.tokens tokens, p.cache) := by
  obtain ⟨all, hall, front, rfl, -⟩ := hp.faithful.fits task _ hstage
  obtain ⟨e, tokens, hfind, -⟩ := hshown _ (List.mem_of_getElem? hall) l (by simp)
  exact ⟨tokens, by rw [TokenCache.request, hp.grows.held _ _ hfind]⟩

private theorem ok_of_loading (hp : p.Smooth h context cache locations)
    (hshown : ∀ todo ∈ locations, ∀ l ∈ todo, ∃ e, h.Shows context cache l e)
    {task : Nat} {done : List Excerpt} {l : Location} {todo : List Location} {ticket : Ticket}
    (hstage : p.tasks[task]? = some (.loading done l todo ticket)) {outcome : Outcome}
    (hredeem : p.cache.redeem? ticket = some outcome) :
    ∃ e, h.excerptOf context l outcome = .ok e := by
  obtain ⟨all, hall, ⟨front, rfl, -⟩, hserves⟩ := hp.faithful.fits task _ hstage
  obtain ⟨e, tokens, hfind, he⟩ := hshown _ (List.mem_of_getElem? hall) l (by simp)
  have hwell := hp.stages task _ hstage
  cases ticket with
  | load index => cases hwell
  | tokens held =>
    obtain rfl := Option.some.inj hredeem
    obtain rfl := Option.some.inj ((hp.grows.held _ _ hfind).symm.trans hserves)
    exact ⟨e, he⟩

private theorem goesWell_of_moves (hp : p.Smooth h context cache locations)
    (hshown : ∀ todo ∈ locations, ∀ l ∈ todo, ∃ e, h.Shows context cache l e)
    (hclear : p.cancelled = false) {task : Nat} {stage next : Stage}
    (hstage : p.tasks[task]? = some stage) (hmoves : Moves h context p stage next) :
    next.goesWell = true := by
  cases hmoves with
  | stop hflag => simp [hclear, hp.aborted] at hflag
  | ask =>
    obtain ⟨tokens, hr⟩ := request_of_requesting hp hshown hstage
    rw [hr]
    rfl
  | fail hredeem hfails =>
    obtain ⟨e, he⟩ := ok_of_loading hp hshown hstage hredeem
    rw [he] at hfails
    cases hfails
  | report => cases hp.stages task _ hstage
  | abort => cases hp.stages task _ hstage
  | _ => rfl

private theorem smooth_step (hp : p.Smooth h context cache locations)
    (hshown : ∀ todo ∈ locations, ∀ l ∈ todo, ∃ e, h.Shows context cache l e)
    (hstep : p.Step h context q) (hclear : q.cancelled = false) :
    q.Smooth h context cache locations := by
  have hbefore := hstep.not_cancelled hclear
  -- What is asked for is held, so the cache changes only where someone else's load ends.
  have hcache : q.cache = p.cache ∨ ∃ (load : Nat) (path : String) (answer : ReadAnswer),
      p.cache.loads[load]? = some ⟨path, none⟩ ∧ q.cache = p.cache.complete load answer := by
    rcases hstep.cache_cases with hsame | ⟨task, done, l, todo, hstage, hask⟩ | hend
    · exact .inl hsame
    · obtain ⟨tokens, hr⟩ := request_of_requesting hp hshown hstage
      exact .inl (by rw [hask, hr])
    · exact .inr hend
  refine ⟨faithful_step hp.faithful hstep,
    hp.grows.trans (hstep.extends hp.faithful.coherent).cache, ?_, ?_, ?_, ?_, ?_⟩
  · intro task next hnext
    obtain ⟨stage, hstage, rfl | hmoves⟩ := hstep.moves hnext
    · exact hp.stages task next hstage
    · exact goesWell_of_moves hp hshown hbefore hstage hmoves
  · rcases hstep.aborted_cases with hsame | ⟨task, hstage⟩
    · exact hsame.trans hp.aborted
    · cases hp.stages task _ hstage
  · rcases hstep.failure_cases with hsame | ⟨task, failure, hstage, -, -⟩
    · exact hsame.trans hp.failure
    · cases hp.stages task _ hstage
  · rcases hcache with hsame | ⟨load, path, answer, -, hend⟩
    · rw [hsame, hp.reads]
    · rw [hend, TokenCache.readPaths_complete, hp.reads]
  · intro hidle
    rcases hcache with hsame | ⟨load, path, answer, hload, -⟩
    · exact hsame.trans (hp.cache hidle)
    · have hbusy := (hp.faithful.coherent.register_iff path load).mpr hload
      rw [hp.cache hidle, hidle] at hbusy
      cases hbusy

private theorem smooth_of_leads (hp : p.Smooth h context cache locations)
    (hshown : ∀ todo ∈ locations, ∀ l ∈ todo, ∃ e, h.Shows context cache l e)
    (hleads : Leads h context p q) (hclear : q.cancelled = false) :
    q.Smooth h context cache locations := by
  induction hleads with
  | refl => exact hp
  | tail _ hstep ih => exact smooth_step (ih (hstep.not_cancelled hclear)) hshown hstep hclear

private theorem fillGoroutine_of_smooth (hshown : ShownFrom h options cache gs)
    (hp : p.Smooth h options.context cache
      ((gs.take (options.count gs.length)).map (·.locations)))
    {place : Nat} {excerpts : List Excerpt} (hresult : (place, excerpts) ∈ p.results)
    {g : Goroutine} (hg : gs[place]? = some g) : fillGoroutine excerpts g = g := by
  obtain ⟨todo, htodo, done, hdone, hshows⟩ :=
    hp.faithful.fits place .finished (hp.faithful.finished _ hresult)
  have hsole : (place, done) = (place, excerpts) :=
    List.inj_on_of_nodup_map hp.faithful.nodup hdone hresult rfl
  obtain ⟨-, rfl⟩ := Prod.mk.inj hsole
  rw [List.getElem?_map, Option.map_eq_some_iff] at htodo
  obtain ⟨same, hsame, rfl⟩ := htodo
  have hmem := List.mem_of_getElem? hsame
  rw [List.getElem?_take, Option.ite_none_right_eq_some] at hsame
  obtain rfl : same = g := Option.some.inj (hsame.2.symm.trans hg)
  have hheld : List.Forall₂ (h.Shows options.context p.cache) same.locations
      (same.stack.map (·.excerpt)) := by
    rw [Goroutine.locations, List.forall₂_map_left_iff, List.forall₂_map_right_iff,
      List.forall₂_same]
    exact fun frame hframe => shows_mono hp.grows (hshown same hmem frame hframe)
  have hunique : Relator.RightUnique (h.Shows options.context p.cache) :=
    fun _ _ _ hl hl' => shows_unique (.refl p.cache) hl hl'
  have hexcerpts : done = same.stack.map (·.excerpt) :=
    List.right_unique_forall₂' hunique hshows hheld
  rw [fillGoroutine, hexcerpts, fillFrames_self]

/-- What holds of a pass at any time at which its caller has not cancelled it, if it is over
goroutines that show what its cache gives. -/
structure Replay (h : Highlighter) (options : MarkupOptions) (permits : Nat) (cache : TokenCache)
    (gs : List Goroutine) (p : Pass) : Prop where
  /-- nothing is read -/
  reads : p.cache.readPaths = cache.readPaths
  /-- unless someone else's load ends, the cache is as it was -/
  cache : (∀ path, cache.underWay? path = none) → p.cache = cache
  /-- the pass goes on until it is over -/
  goesOn : 1 ≤ permits → p.isOver = false →
    ∃ q, p.Step h options.context q ∧ q.cancelled = false
  nearer : ∀ q, p.Step h options.context q → q.cancelled = false → q.stepsLeft < p.stepsLeft
  /-- at its end it has succeeded, and the goroutines are as they were -/
  ends : p.isOver = true → p.conclude gs = .ok gs ∧ p.goroutines gs = gs

private theorem replay (hc : cache.Coherent) (hshown : ShownFrom h options cache gs)
    (hleads : Leads h options.context (start cache permits false
      ((gs.take (options.count gs.length)).map (·.locations))) p)
    (hclear : p.cancelled = false) : p.Replay h options permits cache gs := by
  have hlocations : ∀ todo ∈ (gs.take (options.count gs.length)).map (·.locations), ∀ l ∈ todo,
      ∃ e, h.Shows options.context cache l e := by
    intro todo htodo l hl
    obtain ⟨g, hg, rfl⟩ := List.mem_map.mp htodo
    obtain ⟨frame, hframe, rfl⟩ := List.mem_map.mp hl
    exact ⟨frame.excerpt, hshown g hg frame hframe⟩
  have hp := smooth_of_leads (smooth_start hc permits) hlocations hleads hclear
  refine ⟨hp.reads, hp.cache, ?_, ?_, ?_⟩
  · intro hpermits hover
    have hstaffed := staffed_of_leads (staffed_start hc permits false _) hleads
    obtain ⟨q, hquiet⟩ : ∃ q, QuietStep h options.context (fun _ => pure (.error .missing)) p q :=
      exists_quietStep hstaffed hpermits hover
    exact ⟨q, hquiet.step, hquiet.cancelled_eq.trans hclear⟩
  · intro q hstep hstill
    rcases hstep.stepsLeft_lt with hless | rfl
    · exact hless
    · cases hstill
  · intro _
    have hgoroutines : p.goroutines gs = gs := by
      rw [goroutines, hp.failure]
      exact fillAll_eq_self fun _ hresult _ hg => fillGoroutine_of_smooth hshown hp hresult hg
    exact ⟨conclude_eq_ok_iff.mpr ⟨hp.failure, hgoroutines⟩, hgoroutines⟩

/-- A pass that succeeds has read each file that it needed once, unless it was held, and holds them
all. Whatever becomes of the sources, another pass over the goroutines that it leaves, if its caller
does not cancel it, then reads nothing, comes to its end in whatever order its steps are taken, and
leaves the goroutines as they are, and the cache too unless someone else is still loading. -/
theorem repeats_for_free (hcache : cache.Reachable) (hcontext : 0 ≤ options.context)
    (hrun : Run h options permits cancelled cache gs p) (hok : p.conclude gs = .ok after) :
    ReadsOnce h options gs cache p.cache ∧
    (∀ permits q, Leads h options.context (start p.cache permits false
        ((after.take (options.count after.length)).map (·.locations))) q → q.cancelled = false →
      q.Replay h options permits p.cache after) ∧
    ((∀ path, cache.underWay? path = none) → ∀ read : String → Id ReadAnswer, ∃ q,
      (enrich h read {} p.cache options after).run = (.ok after, q) ∧ q.cache = p.cache) := by
  cases hrun with
  | disabled hnegative => omega
  | ended _ hleads hover =>
    obtain ⟨hnone, hafter⟩ := conclude_eq_ok_iff.mp hok
    have hlast := reachable_of_leads hleads hcache
    have hreads := readsOnce hcache hcontext hleads hover hnone
    have hfaithful := faithful_of_leads (faithful_start hcache.coherent permits cancelled _) hleads
    have hmarked := marked_of_faithful hcontext (fun _ => (pure (.error .missing) : Id ReadAnswer))
      hfaithful hover hnone
    rw [goroutines, hnone] at hafter
    obtain rfl : fillAll gs p.results = after := hafter
    have hshown := shownFrom_of_marked hcontext hmarked
    refine ⟨hreads, fun _ _ hleads hclear => replay hlast.coherent hshown hleads hclear, ?_⟩
    intro hidle read
    obtain ⟨q, hquiet, hends, heq⟩ := enrich_quiet h read hlast hcontext (fillAll gs p.results)
    have hclear : q.cancelled = false := cancelled_of_quietLeads hquiet rfl
    have hreplay := replay hlast.coherent hshown hquiet.leads hclear
    refine ⟨q, ?_, hreplay.cache fun path => hreads.idle path (hidle path)⟩
    rw [heq, (hreplay.ends hends).1]

theorem repeats_for_free_lastComesFirst :
    ∃ p after, Run {} ⟨2, 0⟩ 2 false {} threeGoroutines p ∧
      p.conclude threeGoroutines = .ok after ∧ p.cache.readPaths = ["a.txt"] ∧
      ReadsOnce {} ⟨2, 0⟩ threeGoroutines {} p.cache ∧
      ∃ q, (enrich {} (fun _ => (pure (.error .missing) : Id ReadAnswer)) {} p.cache ⟨2, 0⟩
        after).run = (.ok after, q) ∧ q.cache = p.cache := by
  let first := start {} 2 false ((threeGoroutines.take 2).map (·.locations))
  have hends : ((lastComesFirst.foldlM (step? {} 0) first).any fun p =>
      p.isOver && p.failure.isNone && p.cache.readPaths == ["a.txt"]) = true := by decide +kernel
  obtain ⟨p, hevents, hp⟩ := (Option.any_eq_true _ _).mp hends
  simp only [Bool.and_eq_true, Option.isNone_iff_eq_none, beq_iff_eq] at hp
  obtain ⟨⟨hover, hnone⟩, hreads⟩ := hp
  have hrun : Run {} ⟨2, 0⟩ 2 false {} threeGoroutines p :=
    .ended (by decide) (leads_iff.mpr ⟨lastComesFirst, hevents⟩) hover
  have hok : p.conclude threeGoroutines = .ok (p.goroutines threeGoroutines) :=
    conclude_eq_ok_iff.mpr ⟨hnone, rfl⟩
  have hall := repeats_for_free .empty (by decide) hrun hok
  exact ⟨p, _, hrun, hok, hreads, hall.1, hall.2.2 (fun _ => rfl) _⟩

end Pass

end GoroutineDump.Highlight
