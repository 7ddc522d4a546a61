import GoroutineDump.Proofs.Markup.Commit
import GoroutineDump.Proofs.Markup.Progress

/-!
Once the flag is raised no task gets past another check, so only those tasks still ask the cache
that had passed their check before.
-/

set_option autoImplicit false
set_option relaxedAutoImplicit false

namespace GoroutineDump.Highlight

open Source (ReadAnswer)

def Stage.pastChecks : Stage → Bool
  | .waiting todo | .checking _ todo | .requesting _ _ todo | .loading _ _ todo _ => todo.isEmpty
  | .failing _ | .aborting | .failed => false
  | .finished => true

def Stage.hasChecks : Stage → Bool
  | .waiting todo | .checking _ todo | .requesting _ _ todo | .loading _ _ todo _ => !todo.isEmpty
  | _ => false

def Stage.Untouched : Stage → Prop
  | .checking done _ => done = []
  | .requesting _ _ _ | .loading _ _ _ _ => False
  | _ => True

private theorem Stage.hasChecks_of_pastChecks {stage : Stage} (h : stage.pastChecks = true) :
    stage.hasChecks = false := by
  cases stage <;> simp_all [pastChecks, hasChecks]

namespace Pass

variable {h : Highlighter} {context : Int} {first p q : Pass}

/-- A frame at a location fails by itself between two states of a pass: the task that waits for the
tokens of its file gets the outcome of loading it, and that gives no excerpt for the location. -/
def FailsBetween (h : Highlighter) (context : Int) (first last : Pass) (l : Location)
    (failure : Failure) : Prop :=
  ∃ p, Leads h context first p ∧ Leads h context p last ∧
    ∃ (task : Nat) (done : List Excerpt) (todo : List Location) (ticket : Ticket)
      (outcome : Outcome),
      p.tasks[task]? = some (.loading done l todo ticket) ∧
        p.cache.redeem? ticket = some outcome ∧ h.excerptOf context l outcome = .error failure

/-! ### Stages -/

private theorem forall_stage_of_leads {P : Stage → Prop} (hleads : Leads h context p q)
    (hkeeps : ∀ r stage next, Leads h context p r → Moves h context r stage next → P stage → P next)
    (hall : ∀ (task : Nat) (stage : Stage), p.tasks[task]? = some stage → P stage) :
    ∀ (task : Nat) (stage : Stage), q.tasks[task]? = some stage → P stage := by
  induction hleads with
  | refl => exact hall
  | @tail middle last hsteps hstep ih =>
    intro task next hnext
    obtain ⟨stage, hstage, rfl | hmoves⟩ := hstep.moves hnext
    · exact ih task next hstage
    · exact hkeeps middle stage next hsteps hmoves (ih task stage hstage)

private theorem exists_stage_of_leads {P : Stage → Prop} (hleads : Leads h context p q)
    (hkeeps : ∀ r stage next, Leads h context p r → Moves h context r stage next → P stage → P next)
    {task : Nat} {stage : Stage} (hstage : p.tasks[task]? = some stage) (hP : P stage) :
    ∃ later, q.tasks[task]? = some later ∧ P later := by
  induction hleads with
  | refl => exact ⟨stage, hstage, hP⟩
  | @tail middle last hsteps hstep ih =>
    obtain ⟨later, hlater, hPlater⟩ := ih
    obtain ⟨next, hnext, rfl | hmoves⟩ := hstep.exists_moves hlater
    · exact ⟨next, hnext, hPlater⟩
    · exact ⟨next, hnext, hkeeps middle later next hsteps hmoves hPlater⟩

private theorem Moves.hasChecks {stage next : Stage} (hmoves : Moves h context p stage next)
    (hnone : stage.hasChecks = false) : next.hasChecks = false := by
  cases hmoves with
  | stop _ => rfl
  | proceed _ => simp [Stage.hasChecks] at hnone
  | fail _ _ => rfl
  | finish => rfl
  | report => rfl
  | abort => rfl
  | _ => exact hnone

/-! ### After the flag is raised -/

private theorem cancelled_of_leads (hleads : Leads h context p q) (hflag : p.cancelled = true) :
    q.cancelled = true := by
  induction hleads with
  | refl => exact hflag
  | tail _ hstep ih => exact hstep.cancelled ih

private theorem Moves.pastChecks {stage next : Stage} (hmoves : Moves h context p stage next)
    (hflag : p.cancelled = true) (hnot : stage.pastChecks = false) : next.pastChecks = false := by
  cases hmoves with
  | finish => cases hnot
  | stop _ => rfl
  | proceed hclear => simp [hflag] at hclear
  | fail _ _ => rfl
  | report => rfl
  | abort => rfl
  | _ => exact hnot

private theorem Moves.untouched {stage next : Stage} (hmoves : Moves h context p stage next)
    (hflag : p.cancelled = true) (huntouched : stage.Untouched) : next.Untouched := by
  cases hmoves with
  | proceed hclear => simp [hflag] at hclear
  | ask => exact huntouched.elim
  | present _ _ => exact huntouched.elim
  | grant => rfl
  | _ => trivial

private theorem requesting_of_leads (hleads : Leads h context p q) (hflag : p.cancelled = true)
    {task : Nat} {done : List Excerpt} {l : Location} {todo : List Location}
    (hstage : q.tasks[task]? = some (.requesting done l todo)) :
    p.tasks[task]? = some (.requesting done l todo) := by
  induction hleads with
  | refl => exact hstage
  | tail hsteps hstep ih =>
    obtain ⟨stage, hbefore, rfl | hmoves⟩ := hstep.moves hstage
    · exact ih hbefore
    · cases hmoves with
      | proceed hclear => simp [cancelled_of_leads hsteps hflag] at hclear

private theorem readPaths_of_leads (hleads : Leads h context p q) (hflag : p.cancelled = true) :
    ∃ later, q.cache.readPaths = p.cache.readPaths ++ later ∧
      ∀ path ∈ later, ∃ (task : Nat) (done : List Excerpt) (l : Location) (todo : List Location),
        p.tasks[task]? = some (.requesting done l todo) ∧ path = h.roots.pathOf l :=
  exists_readPaths_of_leads hleads fun _ task done l todo hsteps hstage =>
    ⟨task, done, l, todo, requesting_of_leads hsteps hflag hstage, rfl⟩

private theorem eq_waiting_of_start {cache : TokenCache} {permits : Nat} {cancelled : Bool}
    {locations : List (List Location)} {task : Nat} {stage : Stage}
    (hstage : (start cache permits cancelled locations).tasks[task]? = some stage) :
    ∃ todo ∈ locations, stage = .waiting todo := by
  simp only [start, List.getElem?_toArray, List.getElem?_map, Option.map_eq_some_iff] at hstage
  obtain ⟨todo, htodo, rfl⟩ := hstage
  exact ⟨todo, List.mem_of_getElem? htodo, rfl⟩

/-! ### Whose failure it is -/

/-- There is a reason for each failure that a task is about to report or that was reported first. -/
structure Accounts (why : Failure → Prop) (p : Pass) : Prop where
  failing : ∀ (task : Nat) (failure : Failure), p.tasks[task]? = some (.failing failure) →
    why failure
  failure : ∀ failure, p.failure = some failure → why failure

private theorem accounts_start {why : Failure → Prop} {cache : TokenCache} {permits : Nat}
    {cancelled : Bool} {locations : List (List Location)} :
    (start cache permits cancelled locations).Accounts why where
  failing task failure hstage := by
    obtain ⟨todo, -, heq⟩ := eq_waiting_of_start hstage
    cases heq
  failure failure hsome := by cases hsome

private theorem accounts_step {why why' : Failure → Prop} (hp : p.Accounts why)
    (hstep : p.Step h context q) (hmono : ∀ failure, why failure → why' failure)
    (hmoves : ∀ (task : Nat) (stage : Stage) (failure : Failure), p.tasks[task]? = some stage →
      Moves h context p stage (.failing failure) → why' failure) : q.Accounts why' where
  failing task failure hfailing := by
    obtain ⟨stage, hstage, rfl | hmove⟩ := hstep.moves hfailing
    · exact hmono _ (hp.failing task failure hstage)
    · exact hmoves task stage failure hstage hmove
  failure failure hfirst := by
    rcases hstep.failure_cases with hsame | ⟨task, reported, hstage, -, hor⟩
    · exact hmono _ (hp.failure failure (hsame ▸ hfirst))
    · rw [hor, Option.or_eq_some_iff] at hfirst
      rcases hfirst with hold | ⟨-, hnew⟩
      · exact hmono _ (hp.failure failure hold)
      · exact hmono _ (Option.some.inj hnew ▸ hp.failing task reported hstage)

private def SomeFails (h : Highlighter) (context : Int) (locations : List (List Location))
    (first last : Pass) (failure : Failure) : Prop :=
  ∃ todo ∈ locations, ∃ l ∈ todo, FailsBetween h context first last l failure

private theorem SomeFails.mono {locations : List (List Location)} {failure : Failure}
    (hfails : SomeFails h context locations first p failure) (hleads : Leads h context p q) :
    SomeFails h context locations first q failure := by
  obtain ⟨todo, htodo, l, hl, r, hfirst, hlast, htask⟩ := hfails
  exact ⟨todo, htodo, l, hl, r, hfirst, hlast.trans hleads, htask⟩

private theorem Moves.failing {locations : List (List Location)} {task : Nat} {stage : Stage}
    {failure : Failure} (hmoves : Moves h context p stage (.failing failure))
    (hp : p.Faithful h context locations) (hstage : p.tasks[task]? = some stage)
    (hfirst : Leads h context first p) (hstep : p.Step h context q) :
    stage.hasChecks = true ∧ failure = .cancelled ∨
      SomeFails h context locations first q failure := by
  cases hmoves with
  | stop _ => exact .inl ⟨rfl, rfl⟩
  | @fail done l todo ticket outcome _ hredeem hfails =>
    obtain ⟨all, hall, ⟨front, rfl, -⟩, -⟩ := hp.fits task _ hstage
    exact .inr ⟨_, List.mem_of_getElem? hall, l, by simp, p, hfirst, .single hstep, task, done,
      todo, ticket, outcome, hstage, hredeem, hfails⟩

/-- A failure is that of a frame, or it says that a task stopped which had checks to do at first. -/
private theorem accounts_of_leads {locations : List (List Location)}
    (hfirst : first.Faithful h context locations) (hnone : first.Accounts fun _ => False)
    (hleads : Leads h context first p) :
    p.Accounts fun failure => (failure = .cancelled ∧ ∃ (task : Nat) (stage : Stage),
      first.tasks[task]? = some stage ∧ stage.hasChecks = true) ∨
        SomeFails h context locations first p failure := by
  induction hleads with
  | refl => exact ⟨fun task failure hf => (hnone.failing task failure hf).elim,
      fun failure hf => (hnone.failure failure hf).elim⟩
  | tail hsteps hstep ih =>
    refine accounts_step ih hstep ?_ ?_
    · exact fun failure hwhy => hwhy.imp_right fun hfails => hfails.mono (.single hstep)
    · intro task stage failure hstage hmoves
      rcases hmoves.failing (faithful_of_leads hfirst hsteps) hstage hsteps hstep with
        ⟨hmore, hcancelled⟩ | hfails
      · refine .inl ⟨hcancelled, ?_⟩
        by_contra hpast
        have hall : ∀ (task : Nat) (stage : Stage), first.tasks[task]? = some stage →
            stage.hasChecks = false := by
          intro other found hfound
          rw [← Bool.not_eq_true]
          exact fun htrue => hpast ⟨other, found, hfound, htrue⟩
        have hfalse := forall_stage_of_leads hsteps (fun _ _ _ _ => Moves.hasChecks) hall task stage
          hstage
        rw [hfalse] at hmore
        cases hmore
      · exact .inr hfails

private theorem exists_failed_of_leads (hleads : Leads h context first p)
    (hnone : first.failure = none) (hsome : p.failure.isSome = true) :
    ∃ (task : Nat) (stage : Stage), p.tasks[task]? = some stage ∧
      (stage = .aborting ∨ stage = .failed) := by
  induction hleads with
  | refl =>
    rw [hnone] at hsome
    cases hsome
  | @tail middle last _ hstep ih =>
    have hstays : middle.failure.isSome = true → ∃ (task : Nat) (stage : Stage),
        last.tasks[task]? = some stage ∧ (stage = .aborting ∨ stage = .failed) := by
      intro hbefore
      obtain ⟨task, stage, hstage, hfailed⟩ := ih hbefore
      obtain ⟨next, hnext, rfl | hmoves⟩ := hstep.exists_moves hstage
      · exact ⟨task, next, hnext, hfailed⟩
      · rcases hfailed with rfl | rfl
        · cases hmoves
          exact ⟨task, _, hnext, .inr rfl⟩
        · cases hmoves
    rcases hstep.failure_cases with hsame | ⟨task, _, -, habort, -⟩
    · exact hstays (hsame ▸ hsome)
    · exact ⟨task, _, habort, .inl rfl⟩

private theorem accounts_of_pastChecks (hleads : Leads h context first p)
    (hnone : first.failure = none)
    (hpast : ∀ (task : Nat) (stage : Stage), p.tasks[task]? = some stage →
      stage.pastChecks = true) : p.Accounts fun _ => False where
  failing task failure hstage := by
    cases hpast task _ hstage
  failure failure hsome := by
    obtain ⟨task, stage, hstage, hfailed⟩ :=
      exists_failed_of_leads hleads hnone (by rw [hsome]; rfl)
    have htrue := hpast task stage hstage
    rcases hfailed with rfl | rfl <;> cases htrue

/-! ### What a pass comes to -/

/-- What becomes of a pass whose caller raises the flag at some time. The pass began with `first`,
the flag was raised when it had come to `raised`, and it is now at `p`; it is over the first `count`
of some goroutines. -/
structure StopsCleanly (h : Highlighter) (context : Int) (count : Nat) (gs : List Goroutine)
    (first raised p : Pass) : Prop where
  /-- whoever is about to ask for a file had passed the check for that frame before -/
  requesting : ∀ (task : Nat) (done : List Excerpt) (l : Location) (todo : List Location),
    p.tasks[task]? = some (.requesting done l todo) →
      raised.tasks[task]? = some (.requesting done l todo)
  /-- what was read since is the files of such frames -/
  reads : ∃ later, p.cache.readPaths = raised.cache.readPaths ++ later ∧
    ∀ path ∈ later, ∃ (task : Nat) (done : List Excerpt) (l : Location) (todo : List Location),
      raised.tasks[task]? = some (.requesting done l todo) ∧ path = h.roots.pathOf l
  /-- a task that comes to a check fails there, and the cache is left alone -/
  check : ∀ (task : Nat) (done : List Excerpt) (l : Location) (todo : List Location),
    p.tasks[task]? = some (.checking done (l :: todo)) →
      ∃ q, p.advance? h context task = some q ∧ q.cache = p.cache ∧
        q.tasks[task]? = some (.failing .cancelled)
  /-- the pass succeeds only if all checks had been passed when the flag was raised -/
  success : p.isOver = true → ∀ after, p.conclude gs = .ok after →
    ∀ (task : Nat) (stage : Stage), raised.tasks[task]? = some stage → stage.pastChecks = true
  /-- otherwise it fails, and the goroutines are as they were -/
  unchanged : p.isOver = true → ∀ failure, p.conclude gs = .error failure → p.goroutines gs = gs
  /-- it says that someone stopped, unless some frame failed by itself -/
  reason : p.isOver = true → ∀ failure, p.conclude gs = .error failure → failure = .cancelled ∨
    ∃ g ∈ gs.take count, ∃ f ∈ g.stack, FailsBetween h context first p f.location failure
  /-- if all checks had been passed, it can fail only by a frame that fails later on -/
  commits : (∀ (task : Nat) (stage : Stage), raised.tasks[task]? = some stage →
      stage.pastChecks = true) →
    p.isOver = true → ∀ failure, p.conclude gs = .error failure →
      ∃ g ∈ gs.take count, ∃ f ∈ g.stack,
        FailsBetween h context { raised with cancelled := true } p f.location failure

/-- What becomes of a pass whose caller raised the flag beforehand. -/
structure NeverBegins (h : Highlighter) (context : Int) (count : Nat) (cache : TokenCache)
    (gs : List Goroutine) (p : Pass) : Prop where
  /-- no task ever comes to ask for a file -/
  untouched : ∀ (task : Nat) (stage : Stage), p.tasks[task]? = some stage → stage.Untouched
  /-- no task does anything to the cache -/
  steps : ∀ task q, p.advance? h context task = some q → q.cache = p.cache
  reads : p.cache.readPaths = cache.readPaths
  /-- unless someone else's load ends, the cache is as it was -/
  cache : (∀ (load : Nat) (path : String), cache.loads[load]? ≠ some ⟨path, none⟩) → p.cache = cache
  stopped : p.isOver = true → (∃ g ∈ gs.take count, g.stack ≠ []) →
    p.conclude gs = .error .cancelled ∧ p.goroutines gs = gs
  empty : p.isOver = true → (∀ g ∈ gs.take count, g.stack = []) → p.conclude gs = .ok gs

variable {count : Nat} {gs : List Goroutine} {cache : TokenCache} {raised : Pass}

private theorem someFails_iff {last : Pass} {failure : Failure} :
    SomeFails h context ((gs.take count).map (·.locations)) first last failure ↔
      ∃ g ∈ gs.take count, ∃ f ∈ g.stack, FailsBetween h context first last f.location failure := by
  simp only [SomeFails, Goroutine.locations, List.mem_map, exists_exists_and_eq_and]

/-- A pass that succeeds although a flag was raised before had passed all checks by then. -/
private theorem pastChecks_of_success {locations : List (List Location)}
    (hp : p.Faithful h context locations) (hlater : Leads h context raised p)
    (hflag : raised.cancelled = true) (hover : p.isOver = true) (hnone : p.failure = none)
    {task : Nat} {stage : Stage} (hstage : raised.tasks[task]? = some stage) :
    stage.pastChecks = true := by
  rw [← Bool.not_eq_false]
  intro hnot
  obtain ⟨last, hlast, hfailed⟩ := exists_stage_of_leads hlater
    (fun _ _ _ hsteps hmoves => hmoves.pastChecks (cancelled_of_leads hsteps hflag)) hstage hnot
  have hdone := isOver_stage hover hlast
  cases last with
  | failed =>
    obtain ⟨_, -, hsome⟩ := hp.fits task _ hlast
    simp [Fits, hnone] at hsome
  | finished => cases hfailed
  | _ => cases hdone

private theorem stopsCleanly (hc : first.Faithful h context ((gs.take count).map (·.locations)))
    (hnone : first.Accounts fun _ => False) (hbefore : Leads h context first raised)
    (hlater : Leads h context { raised with cancelled := true } p) :
    StopsCleanly h context count gs first raised p := by
  have hraise : Leads h context first { raised with cancelled := true } := .tail hbefore .cancel
  have hfirstNone : first.failure = none := by
    cases hf : first.failure with
    | none => rfl
    | some failure => exact (hnone.failure failure hf).elim
  have hp := faithful_of_leads hc (hraise.trans hlater)
  have hreads := readPaths_of_leads hlater rfl
  refine ⟨?_, hreads, ?_, ?_, ?_, ?_, ?_⟩
  · exact fun task done l todo hstage => requesting_of_leads hlater rfl hstage
  · intro task done l todo hstage
    have hflag : p.cancelled = true := cancelled_of_leads hlater rfl
    refine ⟨p.release.put task (.failing .cancelled), ?_, rfl, ?_⟩
    · simp [advance?, hstage, advanceFrom?, hflag]
    · rw [getElem?_put (p := p.release) hstage, if_pos rfl]
  · intro hover after hok task stage hstage
    exact pastChecks_of_success hp hlater rfl hover (conclude_eq_ok_iff.mp hok).1 hstage
  · intro _ failure hfails
    rw [goroutines, conclude_eq_error_iff.mp hfails]
    rfl
  · intro _ failure hfails
    have hwhy := (accounts_of_leads hc hnone (hraise.trans hlater)).failure failure
      (conclude_eq_error_iff.mp hfails)
    exact hwhy.imp And.left someFails_iff.mp
  · intro hpast _ failure hfails
    have hraised := accounts_of_pastChecks hraise hfirstNone hpast
    have hwhy := (accounts_of_leads (faithful_of_leads hc hraise) hraised hlater).failure failure
      (conclude_eq_error_iff.mp hfails)
    rcases hwhy with ⟨-, task, stage, hstage, hchecks⟩ | hfails
    · rw [Stage.hasChecks_of_pastChecks (hpast task stage hstage)] at hchecks
      cases hchecks
    · exact someFails_iff.mp hfails

/-! ### The flag is raised beforehand -/

private theorem fillAll_of_nil {results : List (Nat × List Excerpt)}
    (hnil : ∀ result ∈ results, result.2 = []) (gs : List Goroutine) : fillAll gs results = gs := by
  refine fillAll_eq_self fun result hmem g _ => ?_
  simp [hnil result hmem, fillGoroutine, fillFrames]

private theorem untouched_of_leads (hflag : first.cancelled = true)
    (hfirst : ∀ (task : Nat) (stage : Stage), first.tasks[task]? = some stage → stage.Untouched)
    (hleads : Leads h context first p) :
    ∀ (task : Nat) (stage : Stage), p.tasks[task]? = some stage → stage.Untouched :=
  forall_stage_of_leads hleads
    (fun _ _ _ hsteps hmoves => hmoves.untouched (cancelled_of_leads hsteps hflag)) hfirst

private theorem results_of_untouched (hflag : first.cancelled = true)
    (hfirst : ∀ (task : Nat) (stage : Stage), first.tasks[task]? = some stage → stage.Untouched)
    (hnone : first.results = []) (hleads : Leads h context first p) :
    ∀ result ∈ p.results, result.2 = [] := by
  induction hleads with
  | refl =>
    rw [hnone]
    exact nofun
  | tail hsteps hstep ih =>
    rcases hstep.results_cases with hsame | ⟨task, done, hstage, hadd⟩
    · rwa [hsame]
    · have huntouched := untouched_of_leads hflag hfirst hsteps task _ hstage
      intro result hmem
      rw [hadd] at hmem
      rcases List.mem_append.mp hmem with hold | hnew
      · exact ih result hold
      · rw [List.mem_singleton.mp hnew]
        exact huntouched

private theorem cache_of_untouched (hflag : first.cancelled = true)
    (hfirst : ∀ (task : Nat) (stage : Stage), first.tasks[task]? = some stage → stage.Untouched)
    (hidle : ∀ (load : Nat) (path : String), first.cache.loads[load]? ≠ some ⟨path, none⟩)
    (hleads : Leads h context first p) : p.cache = first.cache := by
  induction hleads with
  | refl => rfl
  | tail hsteps hstep ih =>
    rcases hstep.cache_cases with hsame | ⟨task, _, _, _, hstage, -⟩ | ⟨load, path, _, hload, -⟩
    · exact hsame.trans ih
    · exact (untouched_of_leads hflag hfirst hsteps task _ hstage).elim
    · rw [ih] at hload
      exact absurd hload (hidle load path)

private theorem cache_advance?_of_untouched {task : Nat}
    (hall : ∀ (task : Nat) (stage : Stage), p.tasks[task]? = some stage → stage.Untouched)
    (hq : p.advance? h context task = some q) : q.cache = p.cache := by
  obtain ⟨stage, hstage, -⟩ := Option.bind_eq_some_iff.mp hq
  have huntouched := hall task stage hstage
  have hcache := cache_advance? hstage hq
  cases stage with
  | requesting done l todo => exact huntouched.elim
  | _ => exact hcache

private theorem neverBegins (hcache : cache.Coherent) {permits : Nat}
    (hleads : Leads h context
      (start cache permits true ((gs.take count).map (·.locations))) p) :
    NeverBegins h context count cache gs p := by
  let first := start cache permits true ((gs.take count).map (·.locations))
  have hfirst : ∀ (task : Nat) (stage : Stage), first.tasks[task]? = some stage →
      stage.Untouched := by
    intro task stage hstage
    obtain ⟨todo, -, rfl⟩ := eq_waiting_of_start hstage
    trivial
  have hfaithful : first.Faithful h context ((gs.take count).map (·.locations)) :=
    faithful_start hcache permits true _
  have huntouched := untouched_of_leads rfl hfirst hleads
  have hreads : p.cache.readPaths = cache.readPaths := by
    obtain ⟨later, hlater, hall⟩ := readPaths_of_leads hleads rfl
    cases later with
    | nil => rwa [List.append_nil] at hlater
    | cons path later =>
      obtain ⟨task, done, l, todo, hstage, -⟩ := hall path List.mem_cons_self
      exact (hfirst task _ hstage).elim
  have hwhy := (accounts_of_leads hfaithful accounts_start hleads).failure
  refine ⟨huntouched, fun task q hq => cache_advance?_of_untouched huntouched hq, hreads,
    fun hidle => cache_of_untouched rfl hfirst hidle hleads, ?_, ?_⟩
  · rintro hover ⟨g, hg, hframes⟩
    cases hf : p.failure with
    | none =>
      obtain ⟨task, htask⟩ := List.mem_iff_getElem?.mp hg
      have hstage : first.tasks[task]? = some (.waiting g.locations) := by
        simp only [first, start, List.getElem?_toArray, List.getElem?_map, htask, Option.map_some]
      have hpast := pastChecks_of_success (faithful_of_leads hfaithful hleads) hleads rfl hover hf
        hstage
      simp [Stage.pastChecks, Goroutine.locations, hframes] at hpast
    | some failure =>
      have hcancelled : failure = .cancelled := by
        rcases hwhy failure hf with ⟨hcancelled, -⟩ | ⟨_, -, _, -, r, hr, -, hfails⟩
        · exact hcancelled
        · obtain ⟨task, _, _, _, _, hloading, -⟩ := hfails
          exact (untouched_of_leads rfl hfirst hr task _ hloading).elim
      rw [conclude, goroutines, hf, hcancelled]
      exact ⟨rfl, rfl⟩
  · intro _ hempty
    have hsuccess : p.failure = none := by
      cases hf : p.failure with
      | none => rfl
      | some failure =>
        have hnothing : ∀ todo ∈ (gs.take count).map (·.locations), todo = [] := by
          intro todo htodo
          obtain ⟨g, hg, rfl⟩ := List.mem_map.mp htodo
          rw [Goroutine.locations, hempty g hg, List.map_nil]
        rcases hwhy failure hf with ⟨-, task, stage, hstage, hchecks⟩ | ⟨todo, htodo, l, hl, -⟩
        · obtain ⟨todo, htodo, rfl⟩ := eq_waiting_of_start hstage
          rw [hnothing todo htodo] at hchecks
          cases hchecks
        · rw [hnothing todo htodo] at hl
          cases hl
    have hresults := results_of_untouched rfl hfirst rfl hleads
    rw [conclude, goroutines, hsuccess]
    exact congrArg Except.ok (fillAll_of_nil hresults gs)

private theorem cancelled_of_foldlM {events : List Event} (hquiet : Event.cancel ∉ events)
    (hq : events.foldlM (step? h context) p = some q) : q.cancelled = p.cancelled := by
  induction events generalizing p with
  | nil =>
    cases hq
    rfl
  | cons event events ih =>
    rw [List.foldlM_cons] at hq
    obtain ⟨middle, hevent, hrest⟩ := Option.bind_eq_some_iff.mp hq
    rw [List.mem_cons, not_or] at hquiet
    rw [ih hquiet.2 hrest]
    cases event with
    | advance task => exact cancelled_advance? hevent
    | answer load answer =>
      obtain ⟨_, -, rfl⟩ := answer?_eq_some_iff.mp hevent
      rfl
    | cancel => exact absurd rfl hquiet.1

/-- Whenever the caller of a pass raises its flag, in whatever order the steps are taken before and
after, the pass stops cleanly; if the flag was raised beforehand, the pass never begins. A pass
comes to its end whether or not the flag is raised, and it does not raise the flag itself. -/
theorem stops_cleanly (h : Highlighter) {options : MarkupOptions} {permits : Nat}
    {cache : TokenCache} {gs : List Goroutine} (hcache : cache.Reachable)
    (hcontext : 0 ≤ options.context) :
    (∀ raised p,
      Leads h options.context (start cache permits false
        ((gs.take (options.count gs.length)).map (·.locations))) raised →
      Leads h options.context { raised with cancelled := true } p →
        StopsCleanly h options.context
          (if options.limit = 0 then gs.length else min options.limit.toNat gs.length) gs
          (start cache permits false ((gs.take (options.count gs.length)).map (·.locations)))
          raised p) ∧
    (∀ p, Leads h options.context (start cache permits true
        ((gs.take (options.count gs.length)).map (·.locations))) p →
      NeverBegins h options.context
        (if options.limit = 0 then gs.length else min options.limit.toNat gs.length) cache gs p) ∧
    (∀ cancelled p, 1 ≤ permits →
      Leads h options.context (start cache permits cancelled
        ((gs.take (options.count gs.length)).map (·.locations))) p →
      ∃ q, Leads h options.context p q ∧ q.isOver = true) ∧
    ∀ (p q : Pass) (events : List Event), events.foldlM (step? h options.context) p = some q →
      events.countP takesStep ≤ p.stepsLeft ∧
        (Event.cancel ∉ events → q.cancelled = p.cancelled) := by
  rw [MarkupOptions.count_of_nonneg hcontext]
  refine ⟨?_, ?_, ?_, ?_⟩
  · intro raised p hbefore hlater
    exact stopsCleanly (faithful_start hcache.coherent permits false _) accounts_start hbefore
      hlater
  · exact fun p hleads => neverBegins hcache.coherent hleads
  · exact fun cancelled p hpermits hleads => exists_over hcache hpermits hleads
  · intro p q events hq
    have hbound := countP_takesStep_le hq
    exact ⟨by omega, fun hquiet => cancelled_of_foldlM hquiet hq⟩

def twoFrames : List Goroutine :=
  let frame (file : String) : Frame := ⟨⟨.generated, file, 1⟩, { package := "", method := "" }, {}⟩
  [{ id := 1, state := "running", stack := [frame "a.txt", frame "b.txt"] }]

def firstRead : List Event := [.advance 0, .advance 0, .advance 0]

def lastRead : List Event :=
  firstRead ++ [.answer 0 (.ok [104, 10]), .advance 0, .advance 0, .advance 0]

theorem stops_cleanly_twoFrames :
    ∃ early late before : Pass,
      early.conclude twoFrames = .error .cancelled ∧ early.cache.readPaths = ["a.txt"] ∧
      (∃ raised, StopsCleanly {} 0 1 twoFrames (start {} 2 false (twoFrames.map (·.locations)))
        raised early) ∧
      (∃ after, late.conclude twoFrames = .ok after) ∧ late.isOver = true ∧
      late.cache.readPaths = ["a.txt", "b.txt"] ∧
      (∃ raised, StopsCleanly {} 0 1 twoFrames (start {} 2 false (twoFrames.map (·.locations)))
        raised late) ∧
      before.conclude twoFrames = .error .cancelled ∧ before.cache.readPaths = [] ∧
      NeverBegins {} 0 1 {} twoFrames before := by
  let first (cancelled : Bool) := start {} 2 cancelled (twoFrames.map (·.locations))
  let finish (p : Pass) (events : List Event) :=
    events.foldlM (step? {} 0) { p with cancelled := true }
  have hruns :
      ((firstRead.foldlM (step? {} 0) (first false)).any fun raised =>
        (finish raised
          [.answer 0 (.ok [104, 10]), .advance 0, .advance 0, .advance 0, .advance 0]).any
          fun p => p.failure == some .cancelled && p.cache.readPaths == ["a.txt"]) = true ∧
      ((lastRead.foldlM (step? {} 0) (first false)).any fun raised =>
        (finish raised [.answer 1 (.ok [104, 10]), .advance 0, .advance 0]).any fun p =>
          p.failure.isNone && p.isOver && p.cache.readPaths == ["a.txt", "b.txt"]) = true ∧
      (([.advance 0, .advance 0, .advance 0, .advance 0].foldlM (step? {} 0) (first true)).any
        fun p => p.failure == some .cancelled && p.isOver && p.cache.readPaths == []) = true := by
    decide +kernel
  obtain ⟨hearly, hlate, hbefore⟩ := hruns
  have hall := @stops_cleanly {} {} 2 {} twoFrames .empty (by decide)
  obtain ⟨raised, hraised, hearly⟩ := (Option.any_eq_true _ _).mp hearly
  obtain ⟨early, hearlyEnds, hearly⟩ := (Option.any_eq_true _ _).mp hearly
  obtain ⟨close, hclose, hlate⟩ := (Option.any_eq_true _ _).mp hlate
  obtain ⟨late, hlateEnds, hlate⟩ := (Option.any_eq_true _ _).mp hlate
  obtain ⟨before, hends, hbefore⟩ := (Option.any_eq_true _ _).mp hbefore
  simp only [Bool.and_eq_true, beq_iff_eq, Option.isNone_iff_eq_none] at hearly hlate hbefore
  have hok : late.conclude twoFrames = .ok (late.goroutines twoFrames) :=
    conclude_eq_ok_iff.mpr ⟨hlate.1.1, rfl⟩
  exact ⟨early, late, before, conclude_eq_error_iff.mpr hearly.1, hearly.2,
    ⟨raised, hall.1 raised early (leads_iff.mpr ⟨_, hraised⟩) (leads_iff.mpr ⟨_, hearlyEnds⟩)⟩,
    ⟨_, hok⟩, hlate.1.2, hlate.2,
    ⟨close, hall.1 close late (leads_iff.mpr ⟨_, hclose⟩) (leads_iff.mpr ⟨_, hlateEnds⟩)⟩,
    conclude_eq_error_iff.mpr hbefore.1.1, hbefore.2,
    hall.2.1 before (leads_iff.mpr ⟨_, hends⟩)⟩

end Pass

end GoroutineDump.Highlight
