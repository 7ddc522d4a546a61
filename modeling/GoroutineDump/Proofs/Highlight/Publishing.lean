import GoroutineDump.Highlight.Session
import GoroutineDump.Proofs.Markup.Asking

/-!
`Session.Step` says how a cache serves the requests of a session while sources come, change and go,
with tasks and loads in any order; `Session.answer` is one way of doing it.
-/

set_option autoImplicit false
set_option relaxedAutoImplicit false

namespace GoroutineDump.Highlight

open Source (ReadAnswer Token)
open TokenCache (Served Answered)

namespace Session

/-- What happens when a session is asked something: the requests that are made of its cache, each
with its ticket, the reply, and the session afterwards. -/
inductive Step (s : Session) : Request → List (String × Ticket) → Reply → Session → Prop
  | put (path : String) (bytes : List UInt8) :
      Step s (.put path bytes) [] (s.change (s.sources.put path bytes)).1
        (s.change (s.sources.put path bytes)).2
  | remove (path : String) :
      Step s (.remove path) [] (s.change (s.sources.remove? path)).1
        (s.change (s.sources.remove? path)).2
  | contains (path : String) : Step s (.contains path) [] (.contains (s.cache.contains path)) s
  | roots : Step s .roots [] (.roots s.highlighter.roots s.cache.size) s
  | get {path : String} {ticket : Ticket} {cache : TokenCache} :
      Served s.read s.cache [(path, ticket)] cache → Answered [(path, ticket)] cache →
      Step s (.get path) [(path, ticket)] (.tokens (cache.redeem ticket)) { s with cache }
  | getAll {asked : List (String × Ticket)} {cache : TokenCache} :
      Served s.read s.cache asked cache → Answered asked cache →
      Step s (.getAll (asked.map Prod.fst)) asked
        (.allTokens (asked.map fun entry => cache.redeem entry.2)) { s with cache }
  | skip (l : Location) {context : Int} : context < 0 →
      Step s (.highlight l context) [] (.excerpt (.ok {})) s
  | highlight {l : Location} {context : Int} {ticket : Ticket} {cache : TokenCache} :
      0 ≤ context → Served s.read s.cache [(s.highlighter.roots.pathOf l, ticket)] cache →
      Answered [(s.highlighter.roots.pathOf l, ticket)] cache →
      Step s (.highlight l context) [(s.highlighter.roots.pathOf l, ticket)]
        (.excerpt (s.highlighter.excerptOf context l (cache.redeem ticket))) { s with cache }
  | ignore (gs : List Goroutine) {options : MarkupOptions} (cancellation : Cancellation) :
      options.context < 0 →
      Step s (.enrich gs options cancellation) [] (.enriched gs none cancellation.beforehand) s
  | enrich {gs : List Goroutine} {options : MarkupOptions} {cancellation : Cancellation}
      {permits : Nat} {asked : List (String × Ticket)} {p : Pass} :
      0 ≤ options.context →
      Pass.Asking s.highlighter options.context s.read
        (.start s.cache permits cancellation.beforehand
          ((gs.take (options.count gs.length)).map (·.locations))) asked p →
      p.isOver = true →
      Step s (.enrich gs options cancellation) asked
        (.enriched (p.goroutines gs) p.failure p.cancelled) { s with cache := p.cache }

abbrev Leads : Session → Session → Prop :=
  Relation.ReflTransGen fun s next => ∃ request asked reply, s.Step request asked reply next

def Reachable (s : Session) : Prop :=
  ∃ sources highlighter, Leads { sources, highlighter } s

/-! ### The cache of a session -/

structure Quiet (s : Session) : Prop where
  reachable : s.cache.Reachable
  idle : ∀ path, s.cache.underWay? path = none

variable {s next later : Session} {request : Request} {asked : List (String × Ticket)}
  {reply : Reply}

private theorem cache_change (s : Session) (sources : Option Sources) :
    (s.change sources).2.cache = s.cache := by
  cases sources <;> rfl

/-- Whatever a session is asked, its cache serves the requests that are made and answers them. -/
private theorem Step.served (hs : s.Quiet) (hstep : s.Step request asked reply next) :
    Served s.read s.cache asked next.cache ∧ Answered asked next.cache := by
  cases hstep with
  | put path bytes =>
    rw [cache_change]
    exact ⟨.start, nofun⟩
  | remove path =>
    rw [cache_change]
    exact ⟨.start, nofun⟩
  | get hserved hanswered => exact ⟨hserved, hanswered⟩
  | getAll hserved hanswered => exact ⟨hserved, hanswered⟩
  | highlight _ hserved hanswered => exact ⟨hserved, hanswered⟩
  | enrich _ hasking hover =>
    have hc := hs.reachable.coherent
    exact ⟨hasking.served hc hs.idle, hasking.answered hc hs.idle hover⟩
  | _ => exact ⟨.start, nofun⟩

private theorem quiet_step (hs : s.Quiet) (hstep : s.Step request asked reply next) :
    next.Quiet := by
  obtain ⟨hserved, hanswered⟩ := hstep.served hs
  refine ⟨hserved.reachable hs.reachable, ?_⟩
  intro path
  rw [(hserved.find?_underWay?_eq hs.reachable.coherent hanswered path).2, hs.idle]
  split <;> rfl

private theorem quiet_of_leads (hs : s.Quiet) (hleads : Leads s later) : later.Quiet := by
  induction hleads with
  | refl => exact hs
  | tail _ hstep ih =>
    obtain ⟨request, asked, reply, hstep⟩ := hstep
    exact quiet_step ih hstep

private theorem Reachable.quiet (hs : s.Reachable) : s.Quiet := by
  obtain ⟨sources, highlighter, hleads⟩ := hs
  exact quiet_of_leads ⟨.empty, fun _ => rfl⟩ hleads

/-! ### One step -/

structure ReadsForRequests (s : Session) (asked : List (String × Ticket)) (next : Session) :
    Prop where
  /-- a path is read if it is asked for and not cached, and each read gives what its source holds at
  the time -/
  answers : ∀ path, ∃ n, next.cache.answersOf path =
    s.cache.answersOf path ++ List.replicate n (s.sources.read path) ∧
      (0 < n ↔ path ∈ asked.map Prod.fst ∧ s.cache.contains path = false)
  /-- whoever asks gets the tokens held, or else what follows from the answer to the read -/
  tickets : ∀ path ticket, (path, ticket) ∈ asked →
    next.cache.redeem? ticket = some (match s.cache.find? path with
      | some tokens => .ok tokens
      | none => tokensOf path (s.sources.read path))
  /-- a path that was not cached is cached now if it was asked for and can be tokenized -/
  cached : ∀ path, s.cache.contains path = false → (next.cache.contains path = true ↔
    path ∈ asked.map Prod.fst ∧ ∃ tokens, Yields path (s.sources.read path) tokens)
  /-- if everything that had to be read fails, the cache is as it was -/
  unchanged : (∀ path ∈ asked.map Prod.fst, s.cache.contains path = false →
    ∃ failure, tokensOf path (s.sources.read path) = .error failure) →
      next.cache.held = s.cache.held

private theorem settled_eq (s : Session) (path : String) :
    s.cache.settled s.read path = match s.cache.find? path with
      | some tokens => .ok tokens
      | none => tokensOf path (s.sources.read path) := rfl

private theorem count_answersOf (hs : s.Quiet) (path : String) :
    (s.cache.answersOf path).length = s.cache.readPaths.count path := by
  rw [hs.reachable.count_readPaths, hs.idle]
  rfl

private theorem answersOf_step (hs : s.Quiet) (hstep : s.Step request asked reply next)
    (path : String) : ∃ n, next.cache.answersOf path =
      s.cache.answersOf path ++ List.replicate n (s.sources.read path) ∧
        (0 < n ↔ path ∈ asked.map Prod.fst ∧ s.cache.contains path = false) := by
  have hc := hs.reachable.coherent
  have hserved := (hstep.served hs).1
  obtain ⟨n, hn⟩ := hserved.answersOf_eq hs.reachable path
  have hcount : next.cache.readPaths.count path = s.cache.readPaths.count path + n := by
    rw [← count_answersOf hs, ← count_answersOf (quiet_step hs hstep), hn, List.length_append,
      List.length_replicate]
  refine ⟨n, hn, ?_⟩
  by_cases hmem : path ∈ asked.map Prod.fst
  · cases hfind : s.cache.find? path with
    | none =>
      have hone : s.cache.readsFor path = 1 := by
        rw [TokenCache.readsFor, if_pos ⟨hfind, hs.idle path⟩]
      have hlow := (hserved.count_readPaths hc hmem).1
      simp only [hmem, TokenCache.contains, hfind, Option.isSome_none, and_self, iff_true]
      omega
    | some tokens =>
      have hzero : s.cache.readsFor path = 0 := by
        rw [TokenCache.readsFor, if_neg (by simp [hfind])]
      have hok : s.cache.settled s.read path = .ok tokens := by rw [settled_eq, hfind]
      have hexact := hserved.count_readPaths_of_ok hc hmem hok
      simp only [TokenCache.contains, hfind, Option.isSome_some, Bool.true_eq_false, and_false,
        iff_false]
      omega
  · have hexact := (hserved.unasked hc hmem).2.2
    simp only [hmem, false_and, iff_false]
    omega

private theorem find?_of_not_contains {path : String} (hnot : s.cache.contains path = false) :
    s.cache.find? path = none := by
  simpa [TokenCache.contains] using hnot

private theorem readsForRequests (hs : s.Quiet) (hstep : s.Step request asked reply next) :
    ReadsForRequests s asked next := by
  have hc := hs.reachable.coherent
  obtain ⟨hserved, hanswered⟩ := hstep.served hs
  refine ⟨answersOf_step hs hstep, ?_, ?_, ?_⟩
  · intro path ticket hmem
    obtain ⟨outcome, hout⟩ := Option.isSome_iff_exists.mp (hanswered _ hmem)
    rw [hout, hserved.redeem?_eq hc _ hmem outcome hout, settled_eq]
  · intro path hnot
    have hfree := find?_of_not_contains hnot
    rw [TokenCache.contains, (hserved.find?_underWay?_eq hc hanswered path).1]
    by_cases hmem : path ∈ asked.map Prod.fst
    · simp only [hmem, if_true, true_and, settled_eq, hfree, ← tokensOf_eq_ok_iff]
      cases tokensOf path (s.sources.read path) <;> simp [Except.toOption]
    · simp [hmem, hfree]
  · intro hfails
    apply hserved.held_eq hc
    intro path hmem tokens hok
    by_contra hnot
    rw [Bool.not_eq_true] at hnot
    obtain ⟨failure, hfailed⟩ := hfails path hmem hnot
    rw [settled_eq, find?_of_not_contains hnot] at hok
    cases hok.symm.trans hfailed

/-- What a session replies to a request that needs the tokens of files. A pass in which a file fails
leaves the goroutines as they were. -/
def RepliesFor (s : Session) (asked : List (String × Ticket)) (reply : Reply) : Request → Prop
  | .get path => asked.map Prod.fst = [path] ∧ reply = .tokens (s.cache.settled s.read path)
  | .getAll paths =>
    asked.map Prod.fst = paths ∧ reply = .allTokens (paths.map (s.cache.settled s.read))
  | .highlight l context => 0 ≤ context →
    asked.map Prod.fst = [s.highlighter.roots.pathOf l] ∧
      reply = .excerpt (s.highlighter.excerptOf context l
        (s.cache.settled s.read (s.highlighter.roots.pathOf l)))
  | .enrich gs _ _ =>
    (∃ path ∈ asked.map Prod.fst, ∃ failure, s.cache.settled s.read path = .error failure) →
      ∃ failure cancelled, reply = .enriched gs (some failure) cancelled
  | _ => True

private theorem redeem_eq_settled {cache : TokenCache} (hc : s.cache.Coherent)
    (hserved : Served s.read s.cache asked cache) (hanswered : Answered asked cache)
    {entry : String × Ticket} (hmem : entry ∈ asked) :
    cache.redeem entry.2 = s.cache.settled s.read entry.1 := by
  obtain ⟨outcome, hout⟩ := Option.isSome_iff_exists.mp (hanswered entry hmem)
  rw [TokenCache.redeem, hout, hserved.redeem?_eq hc entry hmem outcome hout, Option.getD_some]

private theorem repliesFor (hs : s.Quiet) (hstep : s.Step request asked reply next) :
    RepliesFor s asked reply request := by
  have hc := hs.reachable.coherent
  cases hstep with
  | @get path ticket cache hserved hanswered =>
    have hworth := redeem_eq_settled hc hserved hanswered (List.mem_singleton_self _)
    exact ⟨rfl, congrArg Reply.tokens hworth⟩
  | @getAll asked cache hserved hanswered =>
    refine ⟨rfl, congrArg Reply.allTokens ?_⟩
    rw [List.map_map]
    exact List.map_congr_left fun entry hmem => redeem_eq_settled hc hserved hanswered hmem
  | @highlight l context ticket cache _ hserved hanswered =>
    intro _
    have hworth := redeem_eq_settled hc hserved hanswered (List.mem_singleton_self _)
    exact ⟨rfl, by rw [← hworth]⟩
  | skip l hnegative =>
    intro hcontext
    omega
  | ignore gs cancellation _ =>
    intro hfails
    obtain ⟨_, hmem, _⟩ := hfails
    cases hmem
  | @enrich gs options cancellation permits asked p _ hasking hover =>
    intro hfails
    obtain ⟨path, hmem, failure, hfails⟩ := hfails
    obtain ⟨entry, hentry, rfl⟩ := List.mem_map.mp hmem
    have hserved := hasking.served hc hs.idle
    have hanswered := hasking.answered hc hs.idle hover
    obtain ⟨outcome, hout⟩ := Option.isSome_iff_exists.mp (hanswered entry hentry)
    obtain rfl := hserved.redeem?_eq hc entry hentry outcome hout
    rw [show s.cache.settled s.read entry.1 = .error failure from hfails] at hout
    obtain ⟨first, hfirst⟩ := hasking.exists_failure hc hs.idle
      (Pass.faithful_start hc permits _ _) hover hentry hout
    refine ⟨first, p.cancelled, ?_⟩
    rw [hfirst, Pass.goroutines, hfirst]
    rfl
  | _ => trivial

/-! ### What a session does by itself -/

private theorem served_join {cache : TokenCache} (hc : s.cache.Coherent)
    (h : Served s.read s.cache asked cache) (path : String) :
    ∃ ticket, (s.join cache path).1 = ticket ∧
      Served s.read s.cache (asked ++ [(path, ticket)]) (s.join cache path).2 := by
  have hasked := h.ask path fun _ => trivial
  refine ⟨(cache.request path).1, ?_⟩
  unfold join
  cases hbusy : cache.underWay? path with
  | none => exact ⟨rfl, hasked⟩
  | some index =>
    have hload := ((h.follows hc).coherent.register_iff path index).mp hbusy
    have hfree := (h.follows hc).coherent.apart path index hbusy
    have hsame : cache.request path = (.load index, cache) := by
      rw [TokenCache.request, hfree, hbusy]
    rw [hsame] at hasked ⊢
    refine ⟨rfl, ?_⟩
    show Served s.read s.cache _ (if s.sources.failsAtOnce path then
      cache.complete index (s.sources.read path) else cache)
    split
    · exact hasked.answer (by simp) hload
    · exact hasked

private theorem exists_served_joinAll {cache : TokenCache} (hc : s.cache.Coherent)
    (paths : List String) (h : Served s.read s.cache asked cache) :
    ∃ more, more.map Prod.fst = paths ∧ (s.joinAll cache paths).1 = more.map Prod.snd ∧
      Served s.read s.cache (asked ++ more) (s.joinAll cache paths).2 := by
  induction paths generalizing asked cache with
  | nil => exact ⟨[], rfl, rfl, by rwa [List.append_nil]⟩
  | cons path paths ih =>
    obtain ⟨ticket, hticket, hserved⟩ := served_join hc h path
    obtain ⟨more, hpaths, htickets, hlater⟩ := ih hserved
    refine ⟨(path, ticket) :: more, by rw [List.map_cons, hpaths], ?_, ?_⟩
    · rw [List.map_cons, ← htickets, ← hticket]
      rfl
    · rw [List.append_assoc, List.singleton_append] at hlater
      exact hlater

private theorem exists_step_getAll (hs : s.Quiet) (paths : List String) :
    ∃ asked, s.Step (.getAll paths) asked (s.getAll paths).1 (s.getAll paths).2 := by
  have hc := hs.reachable.coherent
  obtain ⟨asked, rfl, htickets, hserved⟩ :=
    exists_served_joinAll hc paths (.start : Served s.read s.cache [] s.cache)
  rw [List.nil_append] at hserved
  rcases hall : s.joinAll s.cache (asked.map Prod.fst) with ⟨tickets, cache⟩
  rw [hall] at htickets hserved
  obtain rfl : tickets = asked.map Prod.snd := htickets
  obtain ⟨hlast, -, hanswered⟩ := hserved.awaitAll hc fun _ hmem => hmem
  have hstep := Step.getAll hlast hanswered
  refine ⟨asked, ?_⟩
  simp only [getAll, hall, List.map_map]
  exact hstep

private theorem exists_step_enrich (hs : s.Quiet) (gs : List Goroutine) (options : MarkupOptions)
    (cancellation : Cancellation) : ∃ asked, s.Step (.enrich gs options cancellation) asked
      (s.enrich gs options cancellation).1 (s.enrich gs options cancellation).2 := by
  by_cases hnegative : options.context < 0
  · have henrich : s.enrich gs options cancellation =
        (.enriched gs none cancellation.beforehand, s) := by
      simp [Session.enrich, Highlight.enrich, MarkupOptions.isDisabled, hnegative, Pass.start,
        Pass.goroutines, fillAll]
    rw [henrich]
    exact ⟨[], .ignore gs cancellation hnegative⟩
  · have hcontext : 0 ≤ options.context := by omega
    let first := Pass.start s.cache workers cancellation.beforehand
      ((gs.take (options.count gs.length)).map (·.locations))
    let last := (first.run s.highlighter options.context s.read cancellation.whileReading).run
    have hstaffed : first.Staffed workers := Pass.staffed_start hs.reachable.coherent _ _ _
    have hover : last.isOver = true :=
      (Pass.runFor_over s.read cancellation.whileReading hstaffed (by decide) (Nat.le_refl _)).2
    obtain ⟨asked, hasking⟩ := Pass.Asking.exists_runFor cancellation.whileReading first.stepsLeft
      (.start : Pass.Asking s.highlighter options.context s.read first [] first)
    rw [List.nil_append] at hasking
    have henrich : s.enrich gs options cancellation =
        (.enriched (last.goroutines gs) last.failure last.cancelled,
          { s with cache := last.cache }) := by
      rw [Session.enrich, Highlight.enrich,
        if_neg (by simpa [MarkupOptions.isDisabled] using hcontext)]
      refine Prod.ext (congrArg (Reply.enriched (last.goroutines gs) · last.cancelled) ?_) rfl
      split
      · next after hok => exact (Pass.conclude_eq_ok_iff.mp hok).1.symm
      · next failure hfails => exact (Pass.conclude_eq_error_iff.mp hfails).symm
    rw [henrich]
    exact ⟨asked, .enrich hcontext hasking hover⟩

theorem exists_step_answer (hs : s.Quiet) (request : Request) :
    ∃ asked, s.Step request asked (s.answer request).1 (s.answer request).2 := by
  have hc := hs.reachable.coherent
  cases request with
  | put path bytes => exact ⟨[], .put path bytes⟩
  | remove path => exact ⟨[], .remove path⟩
  | contains path => exact ⟨[], .contains path⟩
  | roots => exact ⟨[], .roots⟩
  | get path =>
    obtain ⟨hserved, hanswered⟩ := (.start : Served s.read s.cache [] s.cache).get hc nofun path
      fun _ => trivial
    exact ⟨_, .get hserved hanswered⟩
  | getAll paths => exact exists_step_getAll hs paths
  | highlight l context =>
    by_cases hnegative : context < 0
    · have hanswer : s.answer (.highlight l context) = (.excerpt (.ok {}), s) := by
        simp [answer, Highlighter.highlight, hnegative]
      rw [hanswer]
      exact ⟨[], .skip l hnegative⟩
    · have hcontext : 0 ≤ context := by omega
      obtain ⟨hserved, hanswered⟩ := (.start : Served s.read s.cache [] s.cache).get hc nofun
        (s.highlighter.roots.pathOf l) fun _ => trivial
      have hstep := Step.highlight hcontext hserved hanswered
      rw [answer, Highlighter.highlight, if_neg hnegative]
      exact ⟨_, hstep⟩
  | enrich gs options cancellation => exact exists_step_enrich hs gs options cancellation

def after (s : Session) (requests : List Request) : Session :=
  requests.foldl (fun s request => (s.answer request).2) s

private theorem Reachable.after (hs : s.Reachable) (requests : List Request) :
    (s.after requests).Reachable := by
  induction requests generalizing s with
  | nil => exact hs
  | cons request requests ih =>
    obtain ⟨asked, hstep⟩ := exists_step_answer hs.quiet request
    obtain ⟨sources, highlighter, hleads⟩ := hs
    exact ih ⟨sources, highlighter, hleads.tail ⟨request, asked, _, hstep⟩⟩

/-! ### The tokens that are held -/

private theorem find?_lasting (hs : s.Quiet) (hleads : Leads s later) {path : String}
    {tokens : List Token} (hfind : s.cache.find? path = some tokens) :
    later.cache.find? path = some tokens := by
  induction hleads with
  | refl => exact hfind
  | tail hbefore hstep ih =>
    obtain ⟨request, asked, reply, hstep⟩ := hstep
    have hquiet := quiet_of_leads hs hbefore
    have hserved := (hstep.served hquiet).1
    exact (hserved.follows hquiet.reachable.coherent).grows.held path tokens ih

private theorem answersOf_lasting (hs : s.Quiet) (hleads : Leads s later) {path : String}
    (hcached : s.cache.contains path = true) :
    later.cache.answersOf path = s.cache.answersOf path := by
  obtain ⟨tokens, hfind⟩ := Option.isSome_iff_exists.mp hcached
  induction hleads with
  | refl => rfl
  | @tail middle last hbefore hstep ih =>
    obtain ⟨request, asked, reply, hstep⟩ := hstep
    have hquiet := quiet_of_leads hs hbefore
    have hstill : middle.cache.contains path = true := by
      rw [TokenCache.contains, find?_lasting hs hbefore hfind]
      rfl
    obtain ⟨n, hn, hreads⟩ := answersOf_step hquiet hstep path
    have hzero : n = 0 := by
      by_contra hne
      have hnot := (hreads.mp (by omega)).2
      rw [hstill] at hnot
      cases hnot
    rw [hn, hzero, List.replicate_zero, List.append_nil, ih]

private theorem contains_iff {c : TokenCache} (hc : c.Coherent) (path : String) :
    c.contains path = true ↔ ∃ answer ∈ c.answersOf path, ∃ tokens, Yields path answer tokens := by
  rw [TokenCache.contains, Option.isSome_iff_exists]
  constructor
  · intro hcached
    obtain ⟨tokens, hfind⟩ := hcached
    obtain ⟨index, load, hload, rfl, hok⟩ := (hc.held_iff path tokens).mp hfind
    rw [Load.outcome?_eq, Option.map_eq_some_iff] at hok
    obtain ⟨answer, hanswer, hok⟩ := hok
    have hmem := List.mem_of_getElem? hload
    exact ⟨answer, TokenCache.mem_answersOf_iff.mpr ⟨load, hmem, rfl, hanswer⟩, tokens,
      tokensOf_eq_ok_iff.mp hok⟩
  · intro hread
    obtain ⟨answer, hmem, tokens, hyields⟩ := hread
    obtain ⟨load, hload, rfl, hanswer⟩ := TokenCache.mem_answersOf_iff.mp hmem
    obtain ⟨index, hindex⟩ := List.mem_iff_getElem?.mp hload
    refine ⟨tokens, (hc.held_iff load.path tokens).mpr ⟨index, load, hindex, rfl, ?_⟩⟩
    rw [Load.outcome?_eq, hanswer, Option.map_some, tokensOf_eq_ok_iff.mpr hyields]

private theorem find?_eq_some_iff_first {c : TokenCache} (hc : c.Reachable) (path : String)
    (tokens : List Token) : c.find? path = some tokens ↔
      ∃ before answer, c.answersOf path = before ++ [answer] ∧ Yields path answer tokens ∧
        ∀ earlier ∈ before, ¬∃ others, Yields path earlier others := by
  have hfails (earlier : ReadAnswer) : (∃ failure, tokensOf path earlier = .error failure) ↔
      ¬∃ others, Yields path earlier others := by
    simp only [← tokensOf_eq_ok_iff]
    cases tokensOf path earlier <;> simp
  simp only [TokenCache.find?_eq_some_iff hc, tokensOf_eq_ok_iff, hfails]

/-- Where the tokens that a session holds come from, and what becomes of them. -/
structure PublishOnce (s : Session) : Prop where
  /-- what is held for a path is held ever after -/
  lasting : ∀ later, Leads s later → ∀ path tokens, s.cache.find? path = some tokens →
    later.cache.find? path = some tokens
  cached_iff : ∀ path, s.cache.contains path = true ↔
    ∃ answer ∈ s.cache.answersOf path, ∃ tokens, Yields path answer tokens
  /-- what is held comes from the first read that could be tokenized, and that was the last one -/
  first : ∀ path tokens, s.cache.find? path = some tokens ↔
    ∃ before answer, s.cache.answersOf path = before ++ [answer] ∧ Yields path answer tokens ∧
      ∀ earlier ∈ before, ¬∃ others, Yields path earlier others
  /-- a path that is held is not read again -/
  unread : ∀ later, Leads s later → ∀ path, s.cache.contains path = true →
    later.cache.readPaths.count path = s.cache.readPaths.count path ∧
      later.cache.answersOf path = s.cache.answersOf path
  /-- each read has been answered -/
  answered : ∀ path, (s.cache.answersOf path).length = s.cache.readPaths.count path
  size : ∃ paths : List String, paths.Nodup ∧ s.cache.size = paths.length ∧
    ∀ path, path ∈ paths ↔ s.cache.contains path = true
  steps : ∀ request asked reply next, s.Step request asked reply next →
    ReadsForRequests s asked next ∧ RepliesFor s asked reply request

private theorem publishOnce (hs : s.Quiet) : s.PublishOnce where
  lasting _ hleads _ _ hfind := find?_lasting hs hleads hfind
  cached_iff := contains_iff hs.reachable.coherent
  first := find?_eq_some_iff_first hs.reachable
  unread later hleads path hcached := by
    have hsame := answersOf_lasting hs hleads hcached
    have hlater := quiet_of_leads hs hleads
    exact ⟨by rw [← count_answersOf hs, ← count_answersOf hlater, hsame], hsame⟩
  answered := count_answersOf hs
  size := by
    refine ⟨s.cache.heldPaths, hs.reachable.nodup_heldPaths, ?_, ?_⟩
    · rw [TokenCache.length_heldPaths]
    · exact fun _ => TokenCache.mem_heldPaths_iff
  steps _ _ _ _ hstep := ⟨readsForRequests hs hstep, repliesFor hs hstep⟩

/-- A session that began with an empty cache publishes the tokens of each path once: those of the
first read that could be tokenized, for good. Whatever it is asked next, its answer is one that the
steps of a session allow. -/
theorem publish_once (hs : s.Reachable) : s.PublishOnce ∧
    ∀ request, ∃ asked, s.Step request asked (s.answer request).1 (s.answer request).2 :=
  ⟨publishOnce hs.quiet, exists_step_answer hs.quiet⟩

def writtenLate : Session :=
  ({ sources := .collection {} } : Session).after
    [.get "a.txt", .put "a.txt" [104], .getAll ["a.txt", "a.txt"], .put "a.txt" [105], .get "a.txt",
      .remove "a.txt"]

theorem publish_once_writtenLate : writtenLate.PublishOnce ∧
    (∃ asked, writtenLate.Step (.get "a.txt") asked (writtenLate.answer (.get "a.txt")).1
      (writtenLate.answer (.get "a.txt")).2) ∧
    writtenLate.cache.answersOf "a.txt" = [.error (.unknownSource "a.txt"), .ok [104]] ∧
    writtenLate.cache.contains "a.txt" = true ∧ writtenLate.cache.size = 1 := by
  have hstart : ({ sources := .collection {} } : Session).Reachable := ⟨_, _, .refl⟩
  have hall := publish_once (hstart.after [.get "a.txt", .put "a.txt" [104],
    .getAll ["a.txt", "a.txt"], .put "a.txt" [105], .get "a.txt", .remove "a.txt"])
  exact ⟨hall.1, hall.2 _, by decide, by decide, by decide⟩

end Session

end GoroutineDump.Highlight
