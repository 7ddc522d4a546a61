import GoroutineDump.Proofs.Cache.Serving
import GoroutineDump.Proofs.Markup.Commit
import GoroutineDump.Proofs.Markup.Progress

/-!
A task that stops because of another one leaves its own failure only after the flag was raised, and
then the first failure is there already.
-/

set_option autoImplicit false
set_option relaxedAutoImplicit false

namespace GoroutineDump.Highlight

open Source (ReadAnswer)

/-- What can happen in a pass that its caller does not cancel: a task takes its next step, or a load
ends with what reading its path gives. -/
inductive QuietEvent
  | advance (task : Nat)
  | answer (load : Nat)

/-- The failure is that of a frame which is highlighted by itself. The frame is one of the first
goroutines, of which there are as many as the options say. -/
def FailsAlone (h : Highlighter) (options : MarkupOptions) (read : String → Id ReadAnswer)
    (c : TokenCache) (gs : List Goroutine) (failure : Failure) : Prop :=
  ∃ g ∈ gs.take (if options.limit = 0 then gs.length else min options.limit.toNat gs.length),
    ∃ frame ∈ g.stack, (h.highlight read c frame.location options.context).run.1 = .error failure

namespace Pass

variable {h : Highlighter} {context : Int} {read : String → Id ReadAnswer} {p q : Pass}

def quietStep? (h : Highlighter) (context : Int) (read : String → Id ReadAnswer) (p : Pass) :
    QuietEvent → Option Pass
  | .advance task => p.advance? h context task
  | .answer load => p.cache.loads[load]?.bind fun l => p.answer? load (read l.path).run

def QuietStep (h : Highlighter) (context : Int) (read : String → Id ReadAnswer) (p q : Pass) :
    Prop :=
  ∃ event, p.quietStep? h context read event = some q

abbrev QuietLeads (h : Highlighter) (context : Int) (read : String → Id ReadAnswer) :
    Pass → Pass → Prop :=
  Relation.ReflTransGen (QuietStep h context read)

private theorem quietLeads_of_foldlM {events : List QuietEvent}
    (hq : events.foldlM (quietStep? h context read) p = some q) :
    QuietLeads h context read p q := by
  induction events generalizing p with
  | nil =>
    cases hq
    exact .refl
  | cons event events ih =>
    rw [List.foldlM_cons] at hq
    obtain ⟨middle, hevent, hrest⟩ := Option.bind_eq_some_iff.mp hq
    exact .head ⟨event, hevent⟩ (ih hrest)

private theorem quietStep?_answer {load : Nat}
    (hq : p.quietStep? h context read (.answer load) = some q) :
    ∃ path, p.cache.loads[load]? = some ⟨path, none⟩ ∧
      q = { p with cache := p.cache.complete load (read path).run } := by
  obtain ⟨l, hl, hanswer⟩ := Option.bind_eq_some_iff.mp hq
  obtain ⟨path, hload, rfl⟩ := answer?_eq_some_iff.mp hanswer
  obtain rfl := Option.some.inj (hl.symm.trans hload)
  exact ⟨path, hload, rfl⟩

theorem QuietStep.step (hstep : QuietStep h context read p q) : p.Step h context q := by
  obtain ⟨event, hq⟩ := hstep
  cases event with
  | advance task => exact exists_step?_iff.mp ⟨.advance task, hq⟩
  | answer load =>
    obtain ⟨path, hload, rfl⟩ := quietStep?_answer hq
    exact .answer _ hload

theorem QuietLeads.leads (hleads : QuietLeads h context read p q) : Leads h context p q :=
  Relation.ReflTransGen.mono (fun _ _ => QuietStep.step) _ _ hleads

theorem QuietStep.cancelled_eq (hstep : QuietStep h context read p q) :
    q.cancelled = p.cancelled := by
  obtain ⟨event, hq⟩ := hstep
  cases event with
  | advance task => exact cancelled_advance? hq
  | answer load =>
    obtain ⟨path, hload, rfl⟩ := quietStep?_answer hq
    rfl

theorem cancelled_of_quietLeads (hleads : QuietLeads h context read p q)
    (hclear : p.cancelled = false) : q.cancelled = false := by
  induction hleads with
  | refl => exact hclear
  | tail _ hstep ih => exact hstep.cancelled_eq.trans ih

private theorem QuietStep.result_eq (hstep : QuietStep h context read p q) {index : Nat}
    {path : String}
    {result : LoadResult path} (hload : p.cache.loads[index]? = some ⟨path, none⟩)
    (hresult : q.cache.loads[index]? = some ⟨path, some result⟩) :
    result = .ofAnswer path (read path).run := by
  obtain ⟨event, hq⟩ := hstep
  cases event with
  | advance task =>
    obtain ⟨stage, hstage, -⟩ := Option.bind_eq_some_iff.mp hq
    have hnone : p.cache.redeem? (.load index) = none := by
      rw [TokenCache.redeem?, hload]
      rfl
    have hsome : q.cache.redeem? (.load index) = some result.outcome :=
      TokenCache.redeem?_load_eq_some.mpr ⟨_, hresult, rfl⟩
    have hsame : q.cache.redeem? (.load index) = p.cache.redeem? (.load index) := by
      rw [cache_advance? hstage hq]
      cases stage with
      | requesting done l todo => exact TokenCache.redeem?_request ..
      | _ => rfl
    rw [hsame, hnone] at hsome
    cases hsome
  | answer load =>
    obtain ⟨found, hfound, rfl⟩ := quietStep?_answer hq
    rw [TokenCache.loads_complete _ hfound, List.getElem?_set] at hresult
    split at hresult
    · next hindex =>
      subst hindex
      obtain rfl := congrArg Load.path (Option.some.inj (hload.symm.trans hfound))
      split at hresult
      · cases hresult
        rfl
      · cases hresult
    · rw [hload] at hresult
      cases hresult

/-! ### Whose failure it is -/

variable {cache : TokenCache} {locations : List (List Location)}

def Genuine (h : Highlighter) (context : Int) (read : String → Id ReadAnswer) (cache : TokenCache)
    (locations : List (List Location)) (failure : Failure) : Prop :=
  ∃ todo ∈ locations, ∃ l ∈ todo,
    h.excerptOf context l (cache.settled read (h.roots.pathOf l)) = .error failure

private theorem Genuine.ne_cancelled {failure : Failure}
    (hf : Genuine h context read cache locations failure) : failure ≠ .cancelled := by
  rintro rfl
  obtain ⟨todo, -, l, -, hfails⟩ := hf
  have hne := cache.settled_ne_cancelled read (h.roots.pathOf l)
  cases houtcome : cache.settled read (h.roots.pathOf l) with
  | error failure =>
    rw [houtcome] at hfails hne
    obtain rfl := Except.error.inj hfails
    exact hne rfl
  | ok tokens =>
    rw [houtcome, Highlighter.excerptOf, Except.bind, Highlighter.excerpt] at hfails
    split at hfails <;> cases hfails

/-- Tickets are worth what their paths come to by themselves; a task fails for a reason of its own,
or because the flag is raised; and before the flag is raised there is a first failure, which is
genuine. -/
structure Honest (h : Highlighter) (context : Int) (read : String → Id ReadAnswer)
    (cache : TokenCache) (locations : List (List Location)) (p : Pass) : Prop where
  faithful : p.Faithful h context locations
  follows : cache.Follows read p.cache
  uncancelled : p.cancelled = false
  tickets : ∀ (task : Nat) (done : List Excerpt) (l : Location) (todo : List Location)
    (ticket : Ticket) (outcome : Outcome), p.tasks[task]? = some (.loading done l todo ticket) →
      p.cache.redeem? ticket = some outcome → outcome = cache.settled read (h.roots.pathOf l)
  failing : ∀ (task : Nat) (failure : Failure), p.tasks[task]? = some (.failing failure) →
    Genuine h context read cache locations failure ∨ failure = .cancelled ∧ p.aborted = true
  failure : ∀ failure, p.failure = some failure → Genuine h context read cache locations failure
  aborted : p.aborted = true → p.failure.isSome = true

private theorem honest_start (hc : cache.Coherent) (permits : Nat) :
    (start cache permits false locations).Honest h context read cache locations where
  faithful := faithful_start hc permits false locations
  follows := .refl hc
  uncancelled := rfl
  tickets task done l todo ticket outcome hstage := by simp [start] at hstage
  failing task failure hstage := by simp [start] at hstage
  failure failure hf := by cases hf
  aborted hflag := by cases hflag

private theorem honest_put {task : Nat} {stage next : Stage}
    (hp : p.Honest h context read cache locations) (hstage : p.tasks[task]? = some stage)
    (hfaithful : (q.put task next).Faithful h context locations) (htasks : q.tasks = p.tasks)
    (hfollows : cache.Follows read q.cache) (hcancelled : q.cancelled = p.cancelled)
    (hworth : ∀ ticket, q.cache.redeem? ticket = p.cache.redeem? ticket)
    (hflag : p.aborted = true → q.aborted = true)
    (hticket : ∀ done l todo ticket outcome, next = .loading done l todo ticket →
      q.cache.redeem? ticket = some outcome → outcome = cache.settled read (h.roots.pathOf l))
    (hfailing : ∀ failure, next = .failing failure →
      Genuine h context read cache locations failure ∨ failure = .cancelled ∧ q.aborted = true)
    (hfailure : ∀ failure, q.failure = some failure →
      Genuine h context read cache locations failure)
    (haborted : q.aborted = true → q.failure.isSome = true) :
    (q.put task next).Honest h context read cache locations := by
  have hq : q.tasks[task]? = some stage := htasks ▸ hstage
  refine ⟨hfaithful, hfollows, hcancelled.trans hp.uncancelled, ?_, ?_, hfailure, haborted⟩
  · intro other done l todo ticket outcome hother hredeem
    rw [getElem?_put hq] at hother
    split at hother
    · exact hticket done l todo ticket outcome (Option.some.inj hother) hredeem
    · refine hp.tickets other done l todo ticket outcome (htasks ▸ hother) ?_
      rw [← hworth]
      exact hredeem
  · intro other failure hother
    rw [getElem?_put hq] at hother
    split at hother
    · exact hfailing failure (Option.some.inj hother)
    · refine (hp.failing other failure (htasks ▸ hother)).imp_right ?_
      exact fun hstopped => ⟨hstopped.1, hflag hstopped.2⟩

/-- A task that gives or takes its permit, or that is finished, tells the others nothing: only what
it fails with itself has to be looked at. -/
private theorem honest_move {task permits : Nat} {results : List (Nat × List Excerpt)}
    {stage next : Stage} (hp : p.Honest h context read cache locations)
    (hstage : p.tasks[task]? = some stage)
    (hfaithful : ({ p with permits, results }.put task next).Faithful h context locations)
    (hticket : ∀ done l todo ticket, next ≠ .loading done l todo ticket)
    (hfailing : ∀ failure, next = .failing failure →
      Genuine h context read cache locations failure ∨ failure = .cancelled ∧ p.aborted = true) :
    ({ p with permits, results }.put task next).Honest h context read cache locations :=
  honest_put hp hstage hfaithful rfl hp.follows rfl (fun _ => rfl) id
    (fun done l todo ticket _ hnext => absurd hnext (hticket done l todo ticket)) hfailing
    hp.failure hp.aborted

private theorem honest_step (hp : p.Honest h context read cache locations)
    (hquiet : QuietStep h context read p q) : q.Honest h context read cache locations := by
  have hstep := hquiet.step
  have hfaithful := faithful_step hp.faithful hstep
  have hcancelled := hquiet.cancelled_eq
  cases hstep with
  | grant hstage _ => exact honest_move hp hstage hfaithful nofun nofun
  | finish hstage => exact honest_move (p := p) hp hstage hfaithful nofun nofun
  | stop hstage hflag =>
    refine honest_move hp hstage hfaithful nofun ?_
    rintro _ ⟨⟩
    rw [hp.uncancelled, Bool.false_or] at hflag
    exact .inr ⟨rfl, hflag⟩
  | proceed hstage _ => exact honest_move hp hstage hfaithful nofun nofun
  | ask hstage =>
    refine honest_put hp hstage hfaithful rfl (hp.follows.request _) rfl
      (p.cache.redeem?_request _) id ?_ nofun hp.failure hp.aborted
    rintro _ _ _ _ outcome ⟨⟩ hredeem
    exact hp.follows.redeem?_ticket hredeem
  | present hstage _ _ => exact honest_move hp hstage hfaithful nofun nofun
  | fail hstage hredeem hfailed =>
    refine honest_move hp hstage hfaithful nofun ?_
    rintro _ ⟨⟩
    obtain ⟨todo, htodo, ⟨front, rfl, -⟩, -⟩ := hp.faithful.fits _ _ hstage
    rw [hp.tickets _ _ _ _ _ _ hstage hredeem] at hfailed
    exact .inl ⟨_, List.mem_of_getElem? htodo, _, by simp, hfailed⟩
  | @report task failure hstage =>
    refine honest_put hp hstage hfaithful rfl hp.follows rfl (fun _ => rfl) id nofun nofun ?_ ?_
    · intro first hfirst
      cases hf : p.failure with
      | some earlier =>
        simp only [hf, Option.some_or, Option.some.injEq] at hfirst
        exact hfirst ▸ hp.failure earlier hf
      | none =>
        simp only [hf, Option.none_or, Option.some.injEq] at hfirst
        rcases hp.failing task failure hstage with hgenuine | ⟨-, hflag⟩
        · exact hfirst ▸ hgenuine
        · -- The flag would be raised without a first failure.
          have hsome := hp.aborted hflag
          rw [hf] at hsome
          cases hsome
    · intro _
      cases p.failure <;> rfl
  | abort hstage =>
    obtain ⟨_, -, hsome⟩ := hp.faithful.fits _ _ hstage
    exact honest_put hp hstage hfaithful rfl hp.follows rfl (fun _ => rfl) (fun _ => rfl) nofun
      nofun hp.failure fun _ => hsome
  | @answer load path answer hload =>
    have hlt : load < p.cache.loads.length := (List.getElem?_eq_some_iff.mp hload).1
    have hended : (p.cache.complete load answer).loads[load]? =
        some ⟨path, some (.ofAnswer path answer)⟩ := by
      rw [TokenCache.loads_complete answer hload, List.getElem?_set_self hlt]
    obtain rfl : answer = (read path).run :=
      congrArg LoadResult.answer (hquiet.result_eq hload hended)
    refine ⟨hfaithful, hp.follows.complete hload, hp.uncancelled, ?_, hp.failing, hp.failure,
      hp.aborted⟩
    intro task done l todo ticket outcome hstage hredeem
    obtain ⟨_, -, -, hserves⟩ := hp.faithful.fits task _ hstage
    exact hp.follows.redeem?_complete hload hserves
      (fun outcome => hp.tickets task done l todo ticket outcome hstage) hredeem
  | cancel =>
    rw [hp.uncancelled] at hcancelled
    cases hcancelled

private theorem honest_of_leads (hp : p.Honest h context read cache locations)
    (hleads : QuietLeads h context read p q) : q.Honest h context read cache locations := by
  induction hleads with
  | refl => exact hp
  | tail _ hstep ih => exact honest_step ih hstep

/-! ### What a pass comes to -/

private theorem highlight_eq (hc : cache.Coherent) (hcontext : 0 ≤ context) (l : Location) :
    (h.highlight read cache l context).run.1 =
      h.excerptOf context l (cache.settled read (h.roots.pathOf l)) := by
  rw [Highlighter.highlight, if_neg (Int.not_lt.mpr hcontext), ← hc.get_eq_settled read]
  rfl

private theorem genuine_iff (hc : cache.Coherent) {options : MarkupOptions}
    (hcontext : 0 ≤ options.context) {gs : List Goroutine} {failure : Failure} :
    Genuine h options.context read cache ((gs.take (options.count gs.length)).map (·.locations))
        failure ↔ FailsAlone h options read cache gs failure := by
  simp only [Genuine, FailsAlone, MarkupOptions.count_of_nonneg hcontext,
    highlight_eq hc hcontext, Goroutine.locations, List.mem_map, exists_exists_and_eq_and]

theorem exists_quietStep {workers : Nat} (hp : p.Staffed workers) (hworkers : 1 ≤ workers)
    (hover : p.isOver = false) : ∃ q, QuietStep h context read p q := by
  by_contra hnone
  rw [not_exists] at hnone
  have hstuck : ∀ task < p.tasks.size, p.advance? h context task = none := by
    intro task _
    cases hadvance : p.advance? h context task with
    | none => rfl
    | some q => exact absurd ⟨.advance task, hadvance⟩ (hnone q)
  have hidle : ∀ (load : Nat) (path : String), p.cache.loads[load]? ≠ some ⟨path, none⟩ := by
    intro load path hload
    refine hnone { p with cache := p.cache.complete load (read path).run } ⟨.answer load, ?_⟩
    simp [quietStep?, answer?, hload]
  rw [isOver_of_stuck hp hworkers hstuck hidle] at hover
  cases hover

private theorem stepsLeft_lt_of_quietStep (hp : p.Honest h context read cache locations)
    (hstep : QuietStep h context read p q) : q.stepsLeft < p.stepsLeft := by
  rcases hstep.step.stepsLeft_lt with hless | hq
  · exact hless
  · have hcancelled := hstep.cancelled_eq
    rw [hq, hp.uncancelled] at hcancelled
    cases hcancelled

private theorem exists_failure_of_genuine (hp : p.Honest h context read cache locations)
    (hover : p.isOver = true) {failure : Failure}
    (hgenuine : Genuine h context read cache locations failure) :
    ∃ first, p.failure = some first := by
  cases hf : p.failure with
  | some first => exact ⟨first, rfl⟩
  | none =>
    obtain ⟨todo, htodo, l, hl, hfails⟩ := hgenuine
    obtain ⟨e, tokens, hfind, he⟩ := exists_shows hp.faithful hover hf htodo hl
    rw [hp.follows.held _ _ hfind, Highlighter.excerptOf, Except.bind, he] at hfails
    cases hfails

private theorem failure_of_quietLeads (hp : p.Honest h context read cache locations)
    (hlater : QuietLeads h context read p q) {failure : Failure} (hf : p.failure = some failure) :
    q.failure = some failure := by
  induction hlater with
  | refl => exact hf
  | tail hsteps hstep ih =>
    have hcoherent := (honest_of_leads hp hsteps).follows.coherent
    exact (hstep.step.extends hcoherent).failure failure ih

private theorem quietLeads_runFor (steps : Nat) :
    QuietLeads h context read p (runFor h context read (fun _ => false) steps p).run := by
  refine runFor_induction read (fun _ => false) ?advance ?answer ?cancel steps .refl
  case advance =>
    intro middle q task hleads hq
    exact hleads.tail ⟨.advance task, hq⟩
  case answer =>
    intro middle load path hleads hload
    refine hleads.tail ⟨.answer load, ?_⟩
    rw [quietStep?, hload]
    exact answer?_eq_some_iff.mpr ⟨path, hload, rfl⟩
  case cancel =>
    intro middle path _ hflag
    cases hflag

/-- What `enrich` returns, if it is not cancelled, is what such a pass comes to. -/
theorem enrich_quiet (h : Highlighter) (read : String → Id ReadAnswer) (hcache : cache.Reachable)
    {options : MarkupOptions} (hcontext : 0 ≤ options.context) (gs : List Goroutine) :
    ∃ p, QuietLeads h options.context read (start cache workers false
        ((gs.take (options.count gs.length)).map (·.locations))) p ∧ p.isOver = true ∧
      (enrich h read {} cache options gs).run = (p.conclude gs, p) := by
  let first := start cache workers false
    ((gs.take (options.count gs.length)).map (·.locations))
  have hstaffed : first.Staffed workers := staffed_start hcache.coherent workers false _
  have hover : (first.run h options.context read (fun _ => false)).run.isOver = true :=
    (runFor_over read _ hstaffed (by decide) (Nat.le_refl _)).2
  refine ⟨_, quietLeads_runFor _, hover, ?_⟩
  rw [enrich, if_neg (by simpa [MarkupOptions.isDisabled] using hcontext)]
  rfl

/-- A pass that its caller does not cancel, and in which each path is always answered in the same
way, comes to an end whatever the order of its steps. It fails exactly if a frame of the first
goroutines fails by itself, on the cache that the pass began with, and what it says is the failure
of such a frame and never that someone stopped. At any time before, once the flag is raised there
is a first failure, which does not say that either, and the first failure stays; tasks that then
come to their next frame do stop, and no others. -/
theorem failure_genuine (h : Highlighter) (read : String → Id ReadAnswer) {options : MarkupOptions}
    {permits : Nat} {gs : List Goroutine} (hcache : cache.Reachable)
    (hcontext : 0 ≤ options.context) (hpermits : 1 ≤ permits)
    (hleads : QuietLeads h options.context read (start cache permits false
      ((gs.take (options.count gs.length)).map (·.locations))) p) :
    (p.isOver = true →
      ((∃ failure, p.conclude gs = .error failure) ↔
        ∃ failure, FailsAlone h options read cache gs failure) ∧
      ∀ failure, p.conclude gs = .error failure →
        failure ≠ .cancelled ∧ FailsAlone h options read cache gs failure) ∧
    (p.isOver = false → ∃ q, QuietStep h options.context read p q) ∧
    (∀ q, QuietStep h options.context read p q → q.stepsLeft < p.stepsLeft) ∧
    (p.aborted = true → ∃ failure, p.failure = some failure ∧ failure ≠ .cancelled) ∧
    (∀ q failure, QuietLeads h options.context read p q → p.failure = some failure →
      q.failure = some failure) ∧
    (∀ task : Nat, p.tasks[task]? = some (.failing .cancelled) → p.aborted = true) ∧
    (∀ (task : Nat) (done : List Excerpt) (l : Location) (todo : List Location),
      p.aborted = true → p.tasks[task]? = some (.checking done (l :: todo)) →
        ∃ q, p.advance? h options.context task = some q ∧
          q.tasks[task]? = some (.failing .cancelled)) := by
  have hc := hcache.coherent
  have hp := honest_of_leads (honest_start hc permits) hleads
  have hstaffed := staffed_of_leads (staffed_start hc permits false _) hleads.leads
  refine ⟨?_, exists_quietStep hstaffed hpermits, fun _ => stepsLeft_lt_of_quietStep hp, ?_, ?_, ?_,
    ?_⟩
  · intro hover
    have hreported : ∀ failure, p.conclude gs = .error failure →
        failure ≠ .cancelled ∧ FailsAlone h options read cache gs failure := by
      intro failure hfails
      have hgenuine := hp.failure failure (conclude_eq_error_iff.mp hfails)
      exact ⟨hgenuine.ne_cancelled, (genuine_iff hc hcontext).mp hgenuine⟩
    refine ⟨⟨fun ⟨failure, hfails⟩ => ⟨failure, (hreported failure hfails).2⟩, ?_⟩, hreported⟩
    rintro ⟨failure, hfails⟩
    obtain ⟨first, hfirst⟩ :=
      exists_failure_of_genuine hp hover ((genuine_iff hc hcontext).mpr hfails)
    exact ⟨first, conclude_eq_error_iff.mpr hfirst⟩
  · intro hflag
    obtain ⟨failure, hf⟩ := Option.isSome_iff_exists.mp (hp.aborted hflag)
    exact ⟨failure, hf, (hp.failure failure hf).ne_cancelled⟩
  · exact fun q failure hlater hf => failure_of_quietLeads hp hlater hf
  · intro task hstage
    rcases hp.failing task _ hstage with hgenuine | ⟨-, hflag⟩
    · exact absurd rfl hgenuine.ne_cancelled
    · exact hflag
  · intro task done l todo hflag hstage
    refine ⟨p.release.put task (.failing .cancelled), ?_, ?_⟩
    · simp [advance?, hstage, advanceFrom?, hflag]
    · rw [getElem?_put (p := p.release) hstage, if_pos rfl]

def oneMissing : List Goroutine :=
  let frame (file : String) : Frame := ⟨⟨.generated, file, 1⟩, { package := "", method := "" }, {}⟩
  [{ id := 1, state := "running", stack := [frame "b.txt"] },
    { id := 2, state := "select", stack := [frame "a.txt"] }]

def onlySource (path : String) : Id ReadAnswer :=
  pure (if path = "a.txt" then .ok [104, 10] else .error .missing)

def firstFails : List QuietEvent :=
  [.advance 0, .advance 1, .advance 0, .advance 0, .answer 0, .advance 0, .advance 0, .advance 0,
    .advance 1]

theorem failure_genuine_oneMissing :
    ∃ p q, QuietLeads {} 0 onlySource (start {} 2 false (oneMissing.map (·.locations))) p ∧
      p.tasks[1]? = some (.failing .cancelled) ∧ QuietLeads {} 0 onlySource p q ∧
      q.isOver = true ∧ q.conclude oneMissing = .error (.unreadable "b.txt" .missing) ∧
      FailsAlone {} {} onlySource {} oneMissing (.unreadable "b.txt" .missing) := by
  let first := start {} 2 false (oneMissing.map (·.locations))
  have hmiddle : ((firstFails.foldlM (quietStep? {} 0 onlySource) first).any fun p =>
      p.tasks[1]? == some (.failing .cancelled) &&
        (([.advance 1, .advance 1].foldlM (quietStep? {} 0 onlySource) p).any fun q =>
          q.isOver && q.failure == some (.unreadable "b.txt" .missing))) = true := by
    decide +kernel
  obtain ⟨p, hp, hends⟩ := (Option.any_eq_true _ _).mp hmiddle
  rw [Bool.and_eq_true, beq_iff_eq] at hends
  obtain ⟨q, hq, hover⟩ := (Option.any_eq_true _ _).mp hends.2
  rw [Bool.and_eq_true, beq_iff_eq] at hover
  have hfirst := quietLeads_of_foldlM hp
  have hlast := quietLeads_of_foldlM hq
  have hfails : q.conclude oneMissing = .error (.unreadable "b.txt" .missing) :=
    conclude_eq_error_iff.mpr hover.2
  have hgenuine := (@failure_genuine q {} {} onlySource {} 2 oneMissing .empty (by decide)
    (by decide) (hfirst.trans hlast)).1 hover.1
  exact ⟨p, q, hfirst, hends.1, hlast, hover.1, hfails, (hgenuine.2 _ hfails).2⟩

end Pass

end GoroutineDump.Highlight
