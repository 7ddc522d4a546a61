import Mathlib.Data.List.Forall2
import GoroutineDump.Proofs.Markup.Steps

/-!
Tokens are held for good, so every excerpt that a task has done is still, at the end, the one that
the tokens held for its file give. What a pass fills in is a matter of the cache it ends with.
-/

set_option autoImplicit false
set_option relaxedAutoImplicit false

namespace GoroutineDump.Highlight

open Source (ReadAnswer Token)

/-- An excerpt is the one around a location, from the tokens that a cache holds for its file. -/
def Highlighter.Shows (h : Highlighter) (context : Int) (c : TokenCache) (l : Location)
    (e : Excerpt) : Prop :=
  ∃ tokens, c.find? (h.roots.pathOf l) = some tokens ∧ h.excerpt context l tokens = .ok e

theorem shows_mono {h : Highlighter} {context : Int} {c d : TokenCache}
    (hgrows : TokenCache.Grows c d) {l : Location} {e : Excerpt} (hshows : h.Shows context c l e) :
    h.Shows context d l e := by
  obtain ⟨tokens, hfind, he⟩ := hshows
  exact ⟨tokens, hgrows.held _ _ hfind, he⟩

theorem shows_unique {h : Highlighter} {context : Int} {c d : TokenCache}
    (hgrows : TokenCache.Grows c d) {l : Location} {e e' : Excerpt} (hc : h.Shows context c l e)
    (hd : h.Shows context d l e') : e = e' := by
  obtain ⟨tokens, hfind, he⟩ := shows_mono hgrows hc
  obtain ⟨same, hsame, he'⟩ := hd
  obtain rfl := Option.some.inj (hfind.symm.trans hsame)
  exact Except.ok.inj (he.symm.trans he')

namespace Pass

/-- A stage is right for a task with the given locations: what is done and what is to do make up the
locations, and what is done is shown from the cache. -/
def Fits (h : Highlighter) (context : Int) (p : Pass) (task : Nat) (locations : List Location) :
    Stage → Prop
  | .waiting todo => todo = locations
  | .checking done todo =>
    ∃ front, locations = front ++ todo ∧ List.Forall₂ (h.Shows context p.cache) front done
  | .requesting done l todo =>
    ∃ front, locations = front ++ l :: todo ∧ List.Forall₂ (h.Shows context p.cache) front done
  | .loading done l todo ticket =>
    (∃ front, locations = front ++ l :: todo ∧
      List.Forall₂ (h.Shows context p.cache) front done) ∧
      p.cache.Serves (h.roots.pathOf l) ticket
  | .failing _ => True
  | .aborting | .failed => p.failure.isSome = true
  | .finished =>
    ∃ done, (task, done) ∈ p.results ∧ List.Forall₂ (h.Shows context p.cache) locations done

variable {h : Highlighter} {context : Int} {p q : Pass}

private theorem fits_mono (hext : p.Extends q) {task : Nat} {locations : List Location}
    {stage : Stage} (hfits : p.Fits h context task locations stage) :
    q.Fits h context task locations stage := by
  have hshown : ∀ {front : List Location} {done : List Excerpt},
      List.Forall₂ (h.Shows context p.cache) front done →
        List.Forall₂ (h.Shows context q.cache) front done :=
    fun hall => hall.imp fun _ _ hs => shows_mono hext.cache hs
  have hfailed : p.failure.isSome = true → q.failure.isSome = true := by
    intro hsome
    obtain ⟨failure, hf⟩ := Option.isSome_iff_exists.mp hsome
    rw [hext.failure failure hf, Option.isSome_some]
  cases stage with
  | waiting todo => exact hfits
  | checking done todo =>
    obtain ⟨front, happend, hall⟩ := hfits
    exact ⟨front, happend, hshown hall⟩
  | requesting done l todo =>
    obtain ⟨front, happend, hall⟩ := hfits
    exact ⟨front, happend, hshown hall⟩
  | loading done l todo ticket =>
    obtain ⟨⟨front, happend, hall⟩, hserves⟩ := hfits
    exact ⟨⟨front, happend, hshown hall⟩, hserves.mono hext.cache⟩
  | failing failure => trivial
  | aborting => exact hfailed hfits
  | failed => exact hfailed hfits
  | finished =>
    obtain ⟨done, hmem, hall⟩ := hfits
    exact ⟨done, hext.results _ hmem, hshown hall⟩

/-- Every task is at a stage that is right for its locations, and the results are those of the tasks
that are finished, one each. -/
structure Faithful (h : Highlighter) (context : Int) (locations : List (List Location))
    (p : Pass) : Prop where
  coherent : p.cache.Coherent
  size : p.tasks.size = locations.length
  fits : ∀ (task : Nat) (stage : Stage), p.tasks[task]? = some stage →
    ∃ todo, locations[task]? = some todo ∧ p.Fits h context task todo stage
  finished : ∀ result ∈ p.results, p.tasks[result.1]? = some .finished
  nodup : (p.results.map Prod.fst).Nodup

theorem faithful_start {cache : TokenCache} (hc : cache.Coherent) (permits : Nat)
    (cancelled : Bool) (locations : List (List Location)) :
    (start cache permits cancelled locations).Faithful h context locations where
  coherent := hc
  size := by simp [start]
  fits task stage hstage := by
    simp only [start, List.getElem?_toArray, List.getElem?_map, Option.map_eq_some_iff] at hstage
    obtain ⟨todo, htodo, rfl⟩ := hstage
    exact ⟨todo, htodo, rfl⟩
  finished _ hmem := by simp [start] at hmem
  nodup := by simp [start]

private theorem faithful_put {locations : List (List Location)} {task : Nat} {stage next : Stage}
    (hp : p.Faithful h context locations) (hstage : p.tasks[task]? = some stage)
    (hbusy : stage ≠ .finished) (htasks : q.tasks = p.tasks) (hresults : q.results = p.results)
    (hcoherent : (q.put task next).cache.Coherent) (hext : p.Extends (q.put task next))
    (hfits : ∀ todo, p.Fits h context task todo stage →
      (q.put task next).Fits h context task todo next) :
    (q.put task next).Faithful h context locations := by
  have hq : q.tasks[task]? = some stage := htasks ▸ hstage
  refine ⟨hcoherent, ?_, ?_, ?_, ?_⟩
  · rw [put, Array.size_setIfInBounds, htasks, hp.size]
  · intro other found hfound
    rw [getElem?_put hq] at hfound
    by_cases ho : other = task
    · subst ho
      rw [if_pos rfl, Option.some.injEq] at hfound
      subst hfound
      obtain ⟨todo, htodo, hold⟩ := hp.fits other stage hstage
      exact ⟨todo, htodo, hfits todo hold⟩
    · rw [if_neg ho, htasks] at hfound
      obtain ⟨todo, htodo, hold⟩ := hp.fits other found hfound
      exact ⟨todo, htodo, fits_mono hext hold⟩
  · intro result hmem
    rw [results_put, hresults] at hmem
    have hdone := hp.finished result hmem
    have hne : result.1 ≠ task := by
      rintro heq
      rw [heq, hstage, Option.some.injEq] at hdone
      exact hbusy hdone
    rw [getElem?_put hq, if_neg hne, htasks, hdone]
  · rw [results_put, hresults]
    exact hp.nodup

private theorem faithful_finish {locations : List (List Location)} {task : Nat}
    {done : List Excerpt} (hp : p.Faithful h context locations)
    (hstage : p.tasks[task]? = some (.checking done [])) :
    ({ p.release with results := p.results ++ [(task, done)] }.put task
      .finished).Faithful h context locations := by
  obtain ⟨todo, htodo, front, happend, hall⟩ := hp.fits task _ hstage
  rw [List.append_nil] at happend
  subst happend
  have hfresh : ∀ result ∈ p.results, result.1 ≠ task := by
    rintro result hmem heq
    have hdone := hp.finished result hmem
    rw [heq, hstage] at hdone
    cases hdone
  have hext := (Step.finish hstage : p.Step h context _).extends hp.coherent
  have hlookup (other : Nat) := getElem?_put
    (p := { p.release with results := p.results ++ [(task, done)] }) hstage .finished other
  refine ⟨hp.coherent, ?_, ?_, ?_, ?_⟩
  · rw [put, Array.size_setIfInBounds]
    exact hp.size
  · intro other found hfound
    rw [hlookup] at hfound
    by_cases ho : other = task
    · subst ho
      rw [if_pos rfl, Option.some.injEq] at hfound
      subst hfound
      exact ⟨todo, htodo, done, List.mem_append_right _ (List.mem_singleton_self _), hall⟩
    · rw [if_neg ho] at hfound
      obtain ⟨todo, htodo, hold⟩ := hp.fits other found hfound
      exact ⟨todo, htodo, fits_mono hext hold⟩
  · intro result hmem
    rcases List.mem_append.mp hmem with hold | hnew
    · rw [hlookup, if_neg (hfresh result hold)]
      exact hp.finished result hold
    · rw [List.mem_singleton.mp hnew, hlookup, if_pos rfl]
  · show ((p.results ++ [(task, done)]).map Prod.fst).Nodup
    rw [List.map_append, List.nodup_append]
    refine ⟨hp.nodup, by simp, ?_⟩
    rintro i hi j hj rfl
    obtain ⟨result, hmem, rfl⟩ := List.mem_map.mp hi
    exact hfresh result hmem (by simpa using hj)

private theorem faithful_same {locations : List (List Location)}
    (hp : p.Faithful h context locations) (htasks : q.tasks = p.tasks)
    (hresults : q.results = p.results) (hcoherent : q.cache.Coherent) (hext : p.Extends q) :
    q.Faithful h context locations where
  coherent := hcoherent
  size := htasks ▸ hp.size
  fits task stage hstage := by
    obtain ⟨todo, htodo, hold⟩ := hp.fits task stage (htasks ▸ hstage)
    exact ⟨todo, htodo, fits_mono hext hold⟩
  finished result hmem := htasks ▸ hp.finished result (hresults ▸ hmem)
  nodup := hresults ▸ hp.nodup

theorem faithful_step {locations : List (List Location)}
    (hp : p.Faithful h context locations) (hstep : p.Step h context q) :
    q.Faithful h context locations := by
  have hcoherent := hstep.coherent hp.coherent
  have hext := hstep.extends hp.coherent
  cases hstep with
  | grant hstage _ =>
    refine faithful_put hp hstage (by simp) rfl rfl hcoherent hext ?_
    rintro todo rfl
    exact ⟨[], rfl, .nil⟩
  | finish hstage => exact faithful_finish hp hstage
  | stop hstage _ =>
    exact faithful_put hp hstage (by simp) rfl rfl hcoherent hext fun _ _ => trivial
  | proceed hstage _ =>
    exact faithful_put hp hstage (by simp) rfl rfl hcoherent hext fun _ hfits => hfits
  | ask hstage =>
    refine faithful_put hp hstage (by simp) rfl rfl hcoherent hext ?_
    rintro todo ⟨front, happend, hall⟩
    exact ⟨⟨front, happend, hall.imp fun _ _ hs => shows_mono hext.cache hs⟩,
      hp.coherent.serves_request _⟩
  | @present task done l todo ticket outcome e hstage hredeem he =>
    refine faithful_put hp hstage (by simp) rfl rfl hcoherent hext ?_
    rintro locations ⟨⟨front, rfl, hall⟩, hserves⟩
    obtain ⟨tokens, rfl⟩ : ∃ tokens, outcome = .ok tokens := by
      cases outcome with
      | ok tokens => exact ⟨tokens, rfl⟩
      | error failure => cases he
    have hfind := hp.coherent.find?_of_redeem? hserves hredeem
    refine ⟨front ++ [l], by simp, ?_⟩
    exact List.rel_append hall (.cons ⟨tokens, hfind, he⟩ .nil)
  | fail hstage _ _ =>
    exact faithful_put hp hstage (by simp) rfl rfl hcoherent hext fun _ _ => trivial
  | report hstage =>
    refine faithful_put hp hstage (by simp) rfl rfl hcoherent hext ?_
    intro _ _
    cases p.failure <;> simp [Fits]
  | abort hstage =>
    exact faithful_put hp hstage (by simp) rfl rfl hcoherent hext fun _ hfits => hfits
  | answer answer _ => exact faithful_same hp rfl rfl hcoherent hext
  | cancel => exact faithful_same hp rfl rfl hcoherent hext

theorem faithful_of_leads {locations : List (List Location)}
    (hp : p.Faithful h context locations) (hleads : Leads h context p q) :
    q.Faithful h context locations := by
  induction hleads with
  | refl => exact hp
  | tail _ hstep ih => exact faithful_step ih hstep

end Pass

/-! ### Filling in -/

private theorem getElem?_fillAll_of_notMem {results : List (Nat × List Excerpt)} {place : Nat}
    (gs : List Goroutine) (hfree : place ∉ results.map Prod.fst) :
    (fillAll gs results)[place]? = gs[place]? := by
  induction results generalizing gs with
  | nil => rfl
  | cons result results ih =>
    obtain ⟨other, excerpts⟩ := result
    simp only [List.map_cons, List.mem_cons, not_or] at hfree
    rw [fillAll, List.foldl_cons, ← fillAll, ih _ hfree.2, List.getElem?_modify]
    simp [Ne.symm hfree.1]

private theorem getElem?_fillAll_of_mem {results : List (Nat × List Excerpt)} {place : Nat}
    {excerpts : List Excerpt} (gs : List Goroutine) (hnodup : (results.map Prod.fst).Nodup)
    (hmem : (place, excerpts) ∈ results) :
    (fillAll gs results)[place]? = gs[place]?.map (fillGoroutine excerpts) := by
  induction results generalizing gs with
  | nil => cases hmem
  | cons result results ih =>
    obtain ⟨other, done⟩ := result
    simp only [List.map_cons, List.nodup_cons] at hnodup
    rw [fillAll, List.foldl_cons, ← fillAll]
    rcases List.mem_cons.mp hmem with heq | hold
    · obtain ⟨rfl, rfl⟩ := Prod.mk.inj heq
      rw [getElem?_fillAll_of_notMem _ hnodup.1, List.getElem?_modify]
      simp
    · have hne : other ≠ place := by
        rintro rfl
        exact hnodup.1 (List.mem_map_of_mem hold)
      rw [ih _ hnodup.2 hold, List.getElem?_modify]
      simp [hne]

private theorem length_fillAll (gs : List Goroutine) (results : List (Nat × List Excerpt)) :
    (fillAll gs results).length = gs.length := by
  induction results generalizing gs with
  | nil => rfl
  | cons result results ih => rw [fillAll, List.foldl_cons, ← fillAll, ih, List.length_modify]

theorem fillAll_eq_self {gs : List Goroutine} {results : List (Nat × List Excerpt)}
    (hsame : ∀ result ∈ results, ∀ g, gs[result.1]? = some g → fillGoroutine result.2 g = g) :
    fillAll gs results = gs := by
  induction results with
  | nil => rfl
  | cons result results ih =>
    obtain ⟨place, excerpts⟩ := result
    rw [List.forall_mem_cons] at hsame
    have hmodify : gs.modify place (fillGoroutine excerpts) = gs := by
      apply List.ext_getElem?
      intro i
      rw [List.getElem?_modify]
      split
      · next heq =>
        subst heq
        cases hg : gs[place]? with
        | none => rfl
        | some g => exact congrArg some (hsame.1 g hg)
      · exact Option.map_id' ..
    show fillAll (gs.modify place (fillGoroutine excerpts)) results = gs
    rw [hmodify]
    exact ih hsame.2

/-! ### What a pass comes to -/

variable {m : Type → Type} [Monad m]

/-- A frame as a pass leaves it: it has the excerpt that the highlighter shows for its location,
from tokens that the cache holds, and is otherwise as it was. -/
structure FrameMarked (h : Highlighter) (context : Int) (read : String → m ReadAnswer)
    (c : TokenCache) (before after : Frame) : Prop where
  held : c.contains (h.roots.pathOf before.location) = true
  shown : h.highlight read c before.location context = pure (.ok after.excerpt, c)
  rest : after = { before with excerpt := after.excerpt }

/-- A goroutine as a pass leaves it: its frames are marked up, one by one, and nothing else about it
is changed. -/
structure GoroutineMarked (h : Highlighter) (context : Int) (read : String → m ReadAnswer)
    (c : TokenCache) (before after : Goroutine) : Prop where
  frames : List.Forall₂ (FrameMarked h context read c) before.stack after.stack
  rest : after = { before with stack := after.stack }

/-- Goroutines as a pass leaves them: the first `count` are marked up where they stand, and the
others are as they were. -/
structure Marked (h : Highlighter) (context : Int) (read : String → m ReadAnswer) (c : TokenCache)
    (count : Nat) (before after : List Goroutine) : Prop where
  length : after.length = before.length
  marked : ∀ place < count, ∀ g, before[place]? = some g →
    ∃ g', after[place]? = some g' ∧ GoroutineMarked h context read c g g'
  rest : ∀ place, count ≤ place → after[place]? = before[place]?

private theorem highlight_of_shows [LawfulMonad m] {h : Highlighter} {context : Int}
    (hcontext : 0 ≤ context) (read : String → m ReadAnswer) {c : TokenCache} {l : Location}
    {e : Excerpt} (hshows : h.Shows context c l e) :
    h.highlight read c l context = pure (.ok e, c) := by
  obtain ⟨tokens, hfind, he⟩ := hshows
  have hrequest : c.request (h.roots.pathOf l) = (.tokens tokens, c) := by
    simp [TokenCache.request, hfind]
  simp [Highlighter.highlight, Int.not_lt.mpr hcontext, TokenCache.get, hrequest, TokenCache.await,
    TokenCache.redeem, TokenCache.redeem?, Highlighter.excerptOf, Except.bind, he]

private theorem frames_marked [LawfulMonad m] {h : Highlighter} {context : Int}
    (hcontext : 0 ≤ context) (read : String → m ReadAnswer) {c : TokenCache} {frames : List Frame}
    {excerpts : List Excerpt}
    (hshows : List.Forall₂ (h.Shows context c) (frames.map (·.location)) excerpts) :
    List.Forall₂ (FrameMarked h context read c) frames (fillFrames frames excerpts) := by
  induction frames generalizing excerpts with
  | nil =>
    cases hshows
    exact .nil
  | cons f frames ih =>
    cases hshows with
    | cons hf hfs =>
      refine .cons ⟨?_, highlight_of_shows hcontext read hf, rfl⟩ (ih hfs)
      obtain ⟨tokens, hfind, _⟩ := hf
      simp [TokenCache.contains, hfind]

namespace Pass

variable {h : Highlighter} {context : Int} {p : Pass}

private theorem exists_result {locations : List (List Location)}
    (hp : p.Faithful h context locations) (hover : p.isOver = true) (hnone : p.failure = none)
    {task : Nat} {todo : List Location} (htodo : locations[task]? = some todo) :
    ∃ done, (task, done) ∈ p.results ∧ List.Forall₂ (h.Shows context p.cache) todo done := by
  have hlt : task < p.tasks.size := by
    rw [hp.size]
    exact (List.getElem?_eq_some_iff.mp htodo).1
  have hstage : p.tasks[task]? = some p.tasks[task] := Array.getElem?_eq_getElem hlt
  obtain ⟨same, hsame, hfits⟩ := hp.fits task _ hstage
  obtain rfl : same = todo := Option.some.inj (hsame.symm.trans htodo)
  have hdone := isOver_stage hover hstage
  cases hs : p.tasks[task] with
  | finished => rwa [hs] at hfits
  | failed =>
    rw [hs] at hfits
    simp [Fits, hnone] at hfits
  | _ => simp [hs, Stage.isOver] at hdone

theorem exists_shows {locations : List (List Location)}
    (hp : p.Faithful h context locations) (hover : p.isOver = true) (hnone : p.failure = none)
    {todo : List Location} (htodo : todo ∈ locations) {l : Location} (hl : l ∈ todo) :
    ∃ e, h.Shows context p.cache l e := by
  obtain ⟨task, htask⟩ := List.mem_iff_getElem?.mp htodo
  obtain ⟨done, -, hshown⟩ := exists_result hp hover hnone htask
  have hall : ∀ l ∈ todo, ∃ e, h.Shows context p.cache l e :=
    ((List.forall₂_and_left todo done).mp (hshown.imp fun _ e hs => ⟨⟨e, hs⟩, hs⟩)).1
  exact hall l hl

theorem marked_of_faithful [LawfulMonad m] (hcontext : 0 ≤ context)
    (read : String → m ReadAnswer) {gs : List Goroutine} {count : Nat}
    (hp : p.Faithful h context ((gs.take count).map (·.locations))) (hover : p.isOver = true)
    (hnone : p.failure = none) :
    Marked h context read p.cache count gs (fillAll gs p.results) where
  length := length_fillAll gs p.results
  marked place hplace g hg := by
    have htodo : ((gs.take count).map (·.locations))[place]? = some g.locations := by
      rw [List.getElem?_map, List.getElem?_take_of_lt hplace, hg]
      rfl
    obtain ⟨done, hmem, hshows⟩ := exists_result hp hover hnone htodo
    refine ⟨fillGoroutine done g, ?_, frames_marked hcontext read hshows, rfl⟩
    rw [getElem?_fillAll_of_mem gs hp.nodup hmem, hg]
    rfl
  rest place hplace := by
    apply getElem?_fillAll_of_notMem
    intro hmem
    obtain ⟨result, hresult, rfl⟩ := List.mem_map.mp hmem
    have hlt := (Array.getElem?_eq_some_iff.mp (hp.finished result hresult)).1
    rw [hp.size, List.length_map, List.length_take] at hlt
    omega

/-- A pass that fails leaves every goroutine as it was. A pass that succeeds has marked up exactly
the first goroutines, as many as the options say, each frame with the excerpt that its location has
on the tokens held at the end; in which order the tasks took their steps makes no difference. With a
negative context a pass succeeds and touches nothing. -/
theorem all_or_nothing [LawfulMonad m] (read : String → m ReadAnswer) {options : MarkupOptions}
    {permits : Nat} {cancelled : Bool} {cache : TokenCache} {gs : List Goroutine}
    (hcache : cache.Reachable) (hrun : Run h options permits cancelled cache gs p) :
    (∀ failure, p.conclude gs = .error failure → p.goroutines gs = gs) ∧
    (0 ≤ options.context → ∀ after, p.conclude gs = .ok after → p.goroutines gs = after ∧
      Marked h options.context read p.cache
        (if options.limit = 0 then gs.length else min options.limit.toNat gs.length) gs after) ∧
    (options.context < 0 → p.conclude gs = .ok gs ∧ p.goroutines gs = gs ∧ p.cache = cache) := by
  refine ⟨?_, ?_, ?_⟩
  · intro failure hfail
    cases hf : p.failure with
    | none => simp [conclude, hf] at hfail
    | some _ => simp [goroutines, hf]
  · intro hcontext after hok
    cases hf : p.failure with
    | some _ => simp [conclude, hf] at hok
    | none =>
      have hgoroutines : p.goroutines gs = fillAll gs p.results := by simp [goroutines, hf]
      have hafter : after = fillAll gs p.results := by
        simp only [conclude, hf, Except.ok.injEq] at hok
        rw [← hok, hgoroutines]
      cases hrun with
      | disabled hnegative => omega
      | ended _ hleads hover =>
        have hp := faithful_of_leads (faithful_start hcache.coherent permits cancelled _) hleads
        rw [MarkupOptions.count_of_nonneg hcontext] at hp
        rw [hgoroutines, hafter]
        exact ⟨rfl, marked_of_faithful hcontext read hp hover hf⟩
  · intro hnegative
    cases hrun with
    | disabled _ => exact ⟨rfl, rfl, rfl⟩
    | ended hcontext _ _ => omega

def threeGoroutines : List Goroutine :=
  let frame (line : UInt64) : Frame :=
    ⟨⟨.generated, "a.txt", line⟩, { package := "", method := "" }, {}⟩
  [{ id := 1, state := "running", stack := [frame 1] },
    { id := 2, state := "select", stack := [frame 2] },
    { id := 3, state := "select", stack := [frame 3] }]

def lastComesFirst : List Event :=
  [.advance 0, .advance 1, .advance 0, .advance 0, .advance 1, .advance 1, .answer 0 (.ok [104, 10]),
    .advance 1, .advance 1, .advance 0, .advance 0]

theorem all_or_nothing_lastComesFirst :
    ∃ p after, Run {} ⟨2, 0⟩ 2 false {} threeGoroutines p ∧ p.results.map Prod.fst = [1, 0] ∧
      p.conclude threeGoroutines = .ok after ∧
      Marked (m := Id) {} 0 (fun _ => pure (.error .missing)) p.cache 2 threeGoroutines after := by
  let first := start {} 2 false ((threeGoroutines.take 2).map (·.locations))
  have hends : ((lastComesFirst.foldlM (step? {} 0) first).any fun p =>
      p.isOver && p.failure.isNone && p.results.map Prod.fst == [1, 0]) = true := by decide +kernel
  obtain ⟨p, hevents, hp⟩ := (Option.any_eq_true _ _).mp hends
  simp only [Bool.and_eq_true, Option.isNone_iff_eq_none, beq_iff_eq] at hp
  obtain ⟨⟨hover, hnone⟩, hresults⟩ := hp
  have hrun : Run {} ⟨2, 0⟩ 2 false {} threeGoroutines p :=
    .ended (by decide) (leads_iff.mpr ⟨lastComesFirst, hevents⟩) hover
  have hok : p.conclude threeGoroutines = .ok (p.goroutines threeGoroutines) := by
    simp [conclude, hnone]
  have hmarked := (all_or_nothing (m := Id) (fun _ => pure (.error .missing)) .empty hrun).2.1
    (by decide) _ hok
  exact ⟨p, _, hrun, hresults, hok, hmarked.2⟩

end Pass

end GoroutineDump.Highlight
