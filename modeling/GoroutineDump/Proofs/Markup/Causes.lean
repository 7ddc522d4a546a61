import GoroutineDump.Proofs.Cache.Holding
import GoroutineDump.Proofs.Markup.Commit

set_option autoImplicit false
set_option relaxedAutoImplicit false

namespace GoroutineDump.Highlight

open Source (Token)

/-- A load of a path that had not ended before has since ended, with an answer that gives no tokens. -/
def TokenCache.FailedSince (before after : TokenCache) (path : String) (failure : Failure) : Prop :=
  ∃ index load answer, before.redeem? (.load index) = none ∧ after.loads[index]? = some load ∧
    load.path = path ∧ load.answer? = some answer ∧ tokensOf path answer = .error failure

/-- Why there is no excerpt around a location: a load of its source has failed, or there is no
line 0. -/
inductive CausedAt (h : Highlighter) (before after : TokenCache) (l : Location) : Failure → Prop
  | source {failure : Failure} : before.FailedSince after (h.roots.pathOf l) failure →
      CausedAt h before after l failure
  | line : l.line = 0 → CausedAt h before after l .noSuchLine

theorem excerpt?_eq_none_iff {options : RenderOptions} {tokens : List Token} {line : UInt64}
    {context : Int} : excerpt? options tokens line context = none ↔ 0 ≤ context ∧ line = 0 := by
  unfold excerpt?
  split
  · next hnegative =>
    exact iff_of_false nofun fun hboth => absurd hnegative (Int.not_lt.mpr hboth.1)
  · next hcontext =>
    rw [Int.not_lt] at hcontext
    split
    · next hline => simp [hcontext, hline]
    · next hline => simp [hline]

namespace TokenCache

variable {before after : TokenCache} {path : String}

private theorem redeem?_of_request {c : TokenCache} (hc : c.Coherent) {index : Nat}
    (hticket : (c.request path).1 = .load index) : c.redeem? (.load index) = none := by
  rcases c.request_cases path with ⟨_, _, hr⟩ | ⟨_, _, hbusy, hr⟩ | ⟨_, _, hr⟩
  · rw [hr] at hticket
    cases hticket
  · rw [hr, Ticket.load.injEq] at hticket
    subst hticket
    have hload := (hc.register_iff _ _).mp hbusy
    rw [redeem?, hload]
    rfl
  · rw [hr, Ticket.load.injEq] at hticket
    subst hticket
    rw [redeem?, List.getElem?_eq_none (Nat.le_refl _)]
    rfl

private theorem failedSince_iff {failure : Failure} : before.FailedSince after path failure ↔
    ∃ index, before.redeem? (.load index) = none ∧ after.Serves path (.load index) ∧
      after.redeem? (.load index) = some (.error failure) := by
  constructor
  · rintro ⟨index, load, answer, hopen, hload, rfl, hanswer, hfails⟩
    refine ⟨index, hopen, ⟨load, hload, rfl⟩, redeem?_load_eq_some.mpr ⟨load, hload, ?_⟩⟩
    rw [Load.outcome?_eq, hanswer, Option.map_some, hfails]
  · rintro ⟨index, hopen, ⟨load, hload, rfl⟩, hredeem⟩
    obtain ⟨same, hsame, houtcome⟩ := redeem?_load_eq_some.mp hredeem
    obtain rfl := Option.some.inj (hsame.symm.trans hload)
    rw [Load.outcome?_eq, Option.map_eq_some_iff] at houtcome
    obtain ⟨answer, hanswer, hfails⟩ := houtcome
    exact ⟨index, same, answer, hopen, hload, rfl, hanswer, hfails⟩

private theorem FailedSince.mono {later : TokenCache} {failure : Failure}
    (h : before.FailedSince after path failure) (hgrows : Grows after later) :
    before.FailedSince later path failure := by
  obtain ⟨index, hopen, hserves, hredeem⟩ := failedSince_iff.mp h
  exact failedSince_iff.mpr ⟨index, hopen, hserves.mono hgrows, hgrows.outcomes _ _ hredeem⟩

end TokenCache

private theorem CausedAt.mono {h : Highlighter} {before after later : TokenCache} {l : Location}
    {failure : Failure} (hcause : CausedAt h before after l failure)
    (hgrows : TokenCache.Grows after later) : CausedAt h before later l failure := by
  cases hcause with
  | source hfailed => exact .source (hfailed.mono hgrows)
  | line hzero => exact .line hzero

private theorem causedAt_of_excerptOf {h : Highlighter} {context : Int} {before c : TokenCache}
    {l : Location} {ticket : Ticket} {outcome : Outcome} {failure : Failure}
    (hopen : ∀ index, ticket = .load index → before.redeem? (.load index) = none)
    (hserves : c.Serves (h.roots.pathOf l) ticket) (hredeem : c.redeem? ticket = some outcome)
    (hfails : h.excerptOf context l outcome = .error failure) :
    CausedAt h before c l failure := by
  cases outcome with
  | error cause =>
    obtain rfl := Except.error.inj hfails
    cases ticket with
    | tokens held => cases hredeem
    | load index =>
      exact .source (TokenCache.failedSince_iff.mpr ⟨index, hopen index rfl, hserves, hredeem⟩)
  | ok tokens =>
    rw [Highlighter.excerptOf, Except.bind, Highlighter.excerpt] at hfails
    split at hfails
    · cases hfails
    · next hnone =>
      obtain rfl := Except.error.inj hfails
      exact .line (excerpt?_eq_none_iff.mp hnone).2

namespace Pass

variable {h : Highlighter} {context : Int} {locations : List (List Location)} {p q : Pass}

private theorem Step.aborted (hstep : p.Step h context q) (hflag : p.aborted = true) :
    q.aborted = true := by
  cases hstep with
  | abort _ => rfl
  | _ => exact hflag

/-- A task fails because of its frame or because a flag is raised. Before the tasks raise theirs there
is a first failure, so that it is the caller's flag for which the first one to stop has stopped. The
loads that tasks wait for had not ended at the start. -/
structure Explained (h : Highlighter) (context : Int) (locations : List (List Location))
    (before : TokenCache) (p : Pass) : Prop where
  faithful : p.Faithful h context locations
  grows : TokenCache.Grows before p.cache
  waits : ∀ (task : Nat) (done : List Excerpt) (l : Location) (todo : List Location) (index : Nat),
    p.tasks[task]? = some (.loading done l todo (.load index)) →
      before.redeem? (.load index) = none
  failing : ∀ (task : Nat) (failure : Failure), p.tasks[task]? = some (.failing failure) →
    (failure = .cancelled ∧ (p.cancelled = true ∨ p.aborted = true)) ∨
      ∃ todo ∈ locations, ∃ l ∈ todo, CausedAt h before p.cache l failure
  failure : ∀ failure, p.failure = some failure →
    (failure = .cancelled ∧ p.cancelled = true) ∨
      ∃ todo ∈ locations, ∃ l ∈ todo, CausedAt h before p.cache l failure
  aborted : p.aborted = true → p.failure.isSome = true

variable {before : TokenCache}

private theorem explained_start (hc : before.Coherent) (permits : Nat) (cancelled : Bool) :
    (start before permits cancelled locations).Explained h context locations before where
  faithful := faithful_start hc permits cancelled locations
  grows := .refl before
  waits task done l todo index hstage := by simp [start] at hstage
  failing task failure hstage := by simp [start] at hstage
  failure failure hfirst := by cases hfirst
  aborted hflag := by cases hflag

private theorem waits_step (hp : p.Explained h context locations before)
    (hstep : p.Step h context q) {task index : Nat} {done : List Excerpt} {l : Location}
    {todo : List Location} (hloading : q.tasks[task]? = some (.loading done l todo (.load index))) :
    before.redeem? (.load index) = none := by
  obtain ⟨stage, hstage, rfl | hmoves⟩ := hstep.moves hloading
  · exact hp.waits task done l todo index hstage
  · generalize hnext : Stage.loading done l todo (.load index) = next at hmoves
    cases hmoves with
    | ask =>
      obtain ⟨-, -, -, hticket⟩ := Stage.loading.inj hnext
      have hopen := TokenCache.redeem?_of_request hp.faithful.coherent hticket.symm
      -- what has ended before is still ended
      rw [Option.eq_none_iff_forall_ne_some]
      intro outcome hended
      rw [hp.grows.outcomes index outcome hended] at hopen
      cases hopen
    | _ => cases hnext

private theorem explained_step (hp : p.Explained h context locations before)
    (hstep : p.Step h context q) : q.Explained h context locations before := by
  have hlater := (hstep.extends hp.faithful.coherent).cache
  have hcauses {failure : Failure}
      (hcause : ∃ todo ∈ locations, ∃ l ∈ todo, CausedAt h before p.cache l failure) :
      ∃ todo ∈ locations, ∃ l ∈ todo, CausedAt h before q.cache l failure := by
    obtain ⟨todo, htodo, l, hl, hcause⟩ := hcause
    exact ⟨todo, htodo, l, hl, hcause.mono hlater⟩
  constructor
  case faithful => exact faithful_step hp.faithful hstep
  case grows => exact hp.grows.trans hlater
  case waits =>
    intro task done l todo index hloading
    exact waits_step hp hstep hloading
  case failing =>
    intro task failure hfailing
    obtain ⟨stage, hstage, rfl | hmoves⟩ := hstep.moves hfailing
    · refine (hp.failing task failure hstage).imp (fun hstopped => ⟨hstopped.1, ?_⟩) hcauses
      exact hstopped.2.imp hstep.cancelled hstep.aborted
    · cases hmoves with
      | stop hflag =>
        rw [Bool.or_eq_true] at hflag
        exact .inl ⟨rfl, hflag.imp hstep.cancelled hstep.aborted⟩
      | @fail done l todo ticket outcome _ hredeem hfails =>
        obtain ⟨all, hall, ⟨front, rfl, -⟩, hserves⟩ := hp.faithful.fits task _ hstage
        have hcause : CausedAt h before p.cache l failure := by
          refine causedAt_of_excerptOf ?_ hserves hredeem hfails
          rintro index rfl
          exact hp.waits task done l todo index hstage
        exact .inr ⟨_, List.mem_of_getElem? hall, l, by simp, hcause.mono hlater⟩
  case failure =>
    intro failure hfirst
    have hkept (hbefore : p.failure = some failure) : (failure = .cancelled ∧ q.cancelled = true) ∨
        ∃ todo ∈ locations, ∃ l ∈ todo, CausedAt h before q.cache l failure :=
      (hp.failure failure hbefore).imp
        (fun hstopped => ⟨hstopped.1, hstep.cancelled hstopped.2⟩) hcauses
    rcases hstep.failure_cases with hsame | ⟨task, reported, hstage, -, hor⟩
    · exact hkept (hsame ▸ hfirst)
    · rw [hor, Option.or_eq_some_iff] at hfirst
      rcases hfirst with hbefore | ⟨hnone, hnew⟩
      · exact hkept hbefore
      · obtain rfl := Option.some.inj hnew
        refine (hp.failing task reported hstage).imp (fun hstopped => ⟨hstopped.1, ?_⟩) hcauses
        rcases hstopped.2 with hcancelled | haborted
        · exact hstep.cancelled hcancelled
        · -- The flag would be raised without a first failure.
          have hsome := hp.aborted haborted
          rw [hnone] at hsome
          cases hsome
  case aborted =>
    intro hflag
    have hsome : p.failure.isSome = true := by
      rcases hstep.aborted_cases with hsame | ⟨task, hstage⟩
      · exact hp.aborted (hsame ▸ hflag)
      · obtain ⟨_, -, hsome⟩ := hp.faithful.fits task _ hstage
        exact hsome
    obtain ⟨first, hfirst⟩ := Option.isSome_iff_exists.mp hsome
    rw [(hstep.extends hp.faithful.coherent).failure first hfirst]
    rfl

private theorem explained_of_leads (hp : p.Explained h context locations before)
    (hleads : Leads h context p q) : q.Explained h context locations before := by
  induction hleads with
  | refl => exact hp
  | tail _ hstep ih => exact explained_step ih hstep

/-- A pass that fails was cancelled by its caller, or there is a cause at a frame of the goroutines it
is over. -/
theorem Run.exists_cause {options : MarkupOptions} {permits : Nat} {cancelled : Bool}
    {gs : List Goroutine} (hcache : before.Reachable)
    (hrun : Run h options permits cancelled before gs p) {failure : Failure}
    (hfails : p.conclude gs = .error failure) :
    (failure = .cancelled ∧ p.cancelled = true) ∨
      ∃ g ∈ gs.take (options.count gs.length), ∃ f ∈ g.stack,
        CausedAt h before p.cache f.location failure := by
  rw [conclude_eq_error_iff] at hfails
  cases hrun with
  | disabled hcontext => cases hfails
  | ended hcontext hleads hover =>
    have hp := explained_of_leads (explained_start hcache.coherent permits cancelled) hleads
    refine (hp.failure failure hfails).imp_right ?_
    rintro ⟨todo, htodo, l, hl, hcause⟩
    obtain ⟨g, hg, rfl⟩ := List.mem_map.mp htodo
    obtain ⟨f, hf, rfl⟩ := List.mem_map.mp hl
    exact ⟨g, hg, f, hf, hcause⟩

end Pass

end GoroutineDump.Highlight
