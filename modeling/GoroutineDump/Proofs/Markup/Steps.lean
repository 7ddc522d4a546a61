import Mathlib.Logic.Relation
import GoroutineDump.Highlight.Pass
import GoroutineDump.Proofs.Cache.Coherence

/-!
`Pass.Step` lists the steps of a pass, each with what it needs and what it makes of the pass, so
that no proof about passes has to open the function.
-/

set_option autoImplicit false
set_option relaxedAutoImplicit false

namespace GoroutineDump.Highlight

open Source (ReadAnswer)

theorem MarkupOptions.count_of_nonneg {options : MarkupOptions} (hcontext : 0 ≤ options.context)
    (n : Nat) :
    options.count n = if options.limit = 0 then n else min options.limit.toNat n := by
  simp [count, isDisabled, Int.not_lt.mpr hcontext]

def Stage.cacheAfter (h : Highlighter) (c : TokenCache) : Stage → TokenCache
  | .requesting _ l _ => (c.request (h.roots.pathOf l)).2
  | _ => c

namespace Pass

/-- One step of a pass. -/
inductive Step (h : Highlighter) (context : Int) (p : Pass) : Pass → Prop
  | grant {task : Nat} {todo : List Location} :
      p.tasks[task]? = some (.waiting todo) → p.permits ≠ 0 →
      Step h context p ({ p with permits := p.permits - 1 }.put task (.checking [] todo))
  | finish {task : Nat} {done : List Excerpt} :
      p.tasks[task]? = some (.checking done []) →
      Step h context p
        ({ p.release with results := p.results ++ [(task, done)] }.put task .finished)
  | stop {task : Nat} {done : List Excerpt} {l : Location} {todo : List Location} :
      p.tasks[task]? = some (.checking done (l :: todo)) → (p.cancelled || p.aborted) = true →
      Step h context p (p.release.put task (.failing .cancelled))
  | proceed {task : Nat} {done : List Excerpt} {l : Location} {todo : List Location} :
      p.tasks[task]? = some (.checking done (l :: todo)) → (p.cancelled || p.aborted) = false →
      Step h context p (p.put task (.requesting done l todo))
  | ask {task : Nat} {done : List Excerpt} {l : Location} {todo : List Location} :
      p.tasks[task]? = some (.requesting done l todo) →
      Step h context p ({ p with cache := (p.cache.request (h.roots.pathOf l)).2 }.put task
        (.loading done l todo (p.cache.request (h.roots.pathOf l)).1))
  | present {task : Nat} {done : List Excerpt} {l : Location} {todo : List Location}
      {ticket : Ticket} {outcome : Outcome} {e : Excerpt} :
      p.tasks[task]? = some (.loading done l todo ticket) → p.cache.redeem? ticket = some outcome →
      h.excerptOf context l outcome = .ok e →
      Step h context p (p.put task (.checking (done ++ [e]) todo))
  | fail {task : Nat} {done : List Excerpt} {l : Location} {todo : List Location} {ticket : Ticket}
      {outcome : Outcome} {failure : Failure} :
      p.tasks[task]? = some (.loading done l todo ticket) → p.cache.redeem? ticket = some outcome →
      h.excerptOf context l outcome = .error failure →
      Step h context p (p.release.put task (.failing failure))
  | report {task : Nat} {failure : Failure} :
      p.tasks[task]? = some (.failing failure) →
      Step h context p ({ p with failure := p.failure.or (some failure) }.put task .aborting)
  | abort {task : Nat} :
      p.tasks[task]? = some .aborting →
      Step h context p ({ p with aborted := true }.put task .failed)
  | answer {load : Nat} {path : String} (answer : ReadAnswer) :
      p.cache.loads[load]? = some ⟨path, none⟩ →
      Step h context p { p with cache := p.cache.complete load answer }
  | cancel : Step h context p { p with cancelled := true }

variable {h : Highlighter} {context : Int} {p q : Pass}

private theorem step_of_advanceFrom? {task : Nat} {stage : Stage}
    (hstage : p.tasks[task]? = some stage) (hq : p.advanceFrom? h context task stage = some q) :
    p.Step h context q := by
  cases stage with
  | waiting todo =>
    simp only [advanceFrom?] at hq
    split at hq
    · cases hq
    · next hpermits =>
      cases hq
      exact .grant hstage hpermits
  | checking done todo =>
    cases todo with
    | nil =>
      cases hq
      exact .finish hstage
    | cons l todo =>
      simp only [advanceFrom?] at hq
      split at hq
      · next hflag =>
        cases hq
        exact .stop hstage hflag
      · next hflag =>
        cases hq
        exact .proceed hstage (by simpa using hflag)
  | requesting done l todo =>
    cases hq
    exact .ask hstage
  | loading done l todo ticket =>
    simp only [advanceFrom?, Option.map_eq_some_iff] at hq
    obtain ⟨outcome, hredeem, hq⟩ := hq
    split at hq
    · next e he =>
      subst hq
      exact .present hstage hredeem he
    · next failure he =>
      subst hq
      exact .fail hstage hredeem he
  | failing failure =>
    cases hq
    exact .report hstage
  | aborting =>
    cases hq
    exact .abort hstage
  | failed => cases hq
  | finished => cases hq

theorem answer?_eq_some_iff {load : Nat} {answer : ReadAnswer} : p.answer? load answer = some q ↔
    ∃ path, p.cache.loads[load]? = some ⟨path, none⟩ ∧
      q = { p with cache := p.cache.complete load answer } := by
  rw [answer?]
  constructor
  · intro hq
    split at hq
    · next hany =>
      obtain ⟨⟨path, result⟩, hload, hresult⟩ := (Option.any_eq_true _ _).mp hany
      obtain rfl : result = none := Option.isNone_iff_eq_none.mp hresult
      exact ⟨path, hload, (Option.some.inj hq).symm⟩
    · cases hq
  · rintro ⟨path, hload, rfl⟩
    rw [hload]
    rfl

theorem exists_step?_iff : (∃ event, p.step? h context event = some q) ↔ p.Step h context q := by
  constructor
  · rintro ⟨event, hq⟩
    cases event with
    | advance task =>
      obtain ⟨stage, hstage, hq⟩ := Option.bind_eq_some_iff.mp hq
      exact step_of_advanceFrom? hstage hq
    | answer load answer =>
      obtain ⟨path, hload, rfl⟩ := answer?_eq_some_iff.mp hq
      exact .answer answer hload
    | cancel =>
      cases hq
      exact .cancel
  · intro hstep
    cases hstep with
    | @grant task todo hstage hpermits =>
      exact ⟨.advance task, by simp [step?, advance?, hstage, advanceFrom?, hpermits]⟩
    | @finish task done hstage =>
      exact ⟨.advance task, by simp [step?, advance?, hstage, advanceFrom?]⟩
    | @stop task done l todo hstage hflag =>
      exact ⟨.advance task, by simp only [step?, advance?, hstage, Option.bind_some, advanceFrom?,
        hflag, if_true]⟩
    | @proceed task done l todo hstage hflag =>
      exact ⟨.advance task, by simp [step?, advance?, hstage, advanceFrom?, hflag]⟩
    | @ask task done l todo hstage =>
      exact ⟨.advance task, by simp [step?, advance?, hstage, advanceFrom?]⟩
    | @present task done l todo ticket outcome e hstage hredeem he =>
      exact ⟨.advance task, by simp [step?, advance?, hstage, advanceFrom?, hredeem, he]⟩
    | @fail task done l todo ticket outcome failure hstage hredeem he =>
      exact ⟨.advance task, by simp [step?, advance?, hstage, advanceFrom?, hredeem, he]⟩
    | @report task failure hstage =>
      exact ⟨.advance task, by simp [step?, advance?, hstage, advanceFrom?]⟩
    | @abort task hstage =>
      exact ⟨.advance task, by simp [step?, advance?, hstage, advanceFrom?]⟩
    | @answer load path answer hload =>
      exact ⟨.answer load answer, answer?_eq_some_iff.mpr ⟨path, hload, rfl⟩⟩
    | cancel => exact ⟨.cancel, rfl⟩

abbrev Leads (h : Highlighter) (context : Int) : Pass → Pass → Prop :=
  Relation.ReflTransGen (Step h context)

theorem leads_iff : Leads h context p q ↔
    ∃ events : List Event, events.foldlM (step? h context) p = some q := by
  constructor
  · intro hleads
    induction hleads with
    | refl => exact ⟨[], rfl⟩
    | @tail middle last _ hstep ih =>
      obtain ⟨events, hevents⟩ := ih
      obtain ⟨event, hevent⟩ := exists_step?_iff.mpr hstep
      exact ⟨events ++ [event], by simp [List.foldlM_append, hevents, hevent]⟩
  · rintro ⟨events, hevents⟩
    induction events generalizing p with
    | nil =>
      cases hevents
      exact .refl
    | cons event events ih =>
      rw [List.foldlM_cons] at hevents
      obtain ⟨middle, hevent, hrest⟩ := Option.bind_eq_some_iff.mp hevents
      exact .head (exists_step?_iff.mp ⟨event, hevent⟩) (ih hrest)

/-- How a pass can end. With a negative context there is nothing to do; otherwise the tasks of the
first goroutines take their steps in any order until all are over. -/
inductive Run (h : Highlighter) (options : MarkupOptions) (permits : Nat) (cancelled : Bool)
    (cache : TokenCache) (gs : List Goroutine) : Pass → Prop
  | disabled : options.context < 0 → Run h options permits cancelled cache gs
      (start cache permits cancelled [])
  | ended {p : Pass} : 0 ≤ options.context →
      Leads h options.context (start cache permits cancelled
        ((gs.take (options.count gs.length)).map (·.locations))) p →
      p.isOver = true → Run h options permits cancelled cache gs p

theorem conclude_eq_error_iff {gs : List Goroutine} {failure : Failure} :
    p.conclude gs = .error failure ↔ p.failure = some failure := by
  rw [conclude]
  cases p.failure <;> simp

theorem conclude_eq_ok_iff {gs after : List Goroutine} :
    p.conclude gs = .ok after ↔ p.failure = none ∧ p.goroutines gs = after := by
  rw [conclude, goroutines]
  cases p.failure <;> simp

/-! ### What a step keeps -/

/-- What a pass can become: nothing that it has achieved is lost. -/
structure Extends (p q : Pass) : Prop where
  cache : TokenCache.Grows p.cache q.cache
  failure : ∀ failure, p.failure = some failure → q.failure = some failure
  results : ∀ result ∈ p.results, result ∈ q.results

theorem Extends.refl (p : Pass) : Extends p p where
  cache := .refl p.cache
  failure _ h := h
  results _ h := h

theorem Extends.trans {r : Pass} (hpq : Extends p q) (hqr : Extends q r) : Extends p r where
  cache := hpq.cache.trans hqr.cache
  failure failure h := hqr.failure failure (hpq.failure failure h)
  results result h := hqr.results result (hpq.results result h)

@[simp] theorem cache_put (p : Pass) (task : Nat) (stage : Stage) :
    (p.put task stage).cache = p.cache := rfl

@[simp] theorem failure_put (p : Pass) (task : Nat) (stage : Stage) :
    (p.put task stage).failure = p.failure := rfl

@[simp] theorem results_put (p : Pass) (task : Nat) (stage : Stage) :
    (p.put task stage).results = p.results := rfl

theorem getElem?_put {task : Nat} {stage : Stage} (hstage : p.tasks[task]? = some stage)
    (next : Stage) (other : Nat) :
    (p.put task next).tasks[other]? = if other = task then some next else p.tasks[other]? := by
  have hlt : task < p.tasks.size := (Array.getElem?_eq_some_iff.mp hstage).1
  rw [put, Array.getElem?_setIfInBounds]
  by_cases ho : task = other
  · subst ho
    simp [hlt]
  · simp [ho, Ne.symm ho]

theorem isOver_stage (hover : p.isOver = true) {task : Nat} {stage : Stage}
    (hstage : p.tasks[task]? = some stage) : stage.isOver = true := by
  obtain ⟨hlt, hget⟩ := Array.getElem?_eq_some_iff.mp hstage
  rw [isOver, Array.all_eq_true] at hover
  exact hget ▸ hover task hlt

theorem Step.coherent (hstep : p.Step h context q) (hc : p.cache.Coherent) : q.cache.Coherent := by
  cases hstep with
  | ask _ => exact hc.request _
  | answer answer _ => exact hc.complete _ answer
  | _ => exact hc

theorem Step.extends (hstep : p.Step h context q) (hc : p.cache.Coherent) : p.Extends q := by
  cases hstep with
  | finish _ =>
    exact ⟨.refl _, fun _ hf => hf, fun _ hmem => List.mem_append_left _ hmem⟩
  | ask _ => exact ⟨p.cache.grows_request _, fun _ hf => hf, fun _ hmem => hmem⟩
  | report _ => exact ⟨.refl _, fun _ hf => by simp [hf], fun _ hmem => hmem⟩
  | answer answer _ => exact ⟨hc.grows_complete _ answer, fun _ hf => hf, fun _ hmem => hmem⟩
  | _ => exact ⟨.refl _, fun _ hf => hf, fun _ hmem => hmem⟩

/-! ### What a step does to one task -/

/-- How a task gets from one stage to the next. -/
inductive Moves (h : Highlighter) (context : Int) (p : Pass) : Stage → Stage → Prop
  | grant {todo : List Location} : Moves h context p (.waiting todo) (.checking [] todo)
  | finish {done : List Excerpt} : Moves h context p (.checking done []) .finished
  | stop {done : List Excerpt} {l : Location} {todo : List Location} :
      (p.cancelled || p.aborted) = true →
      Moves h context p (.checking done (l :: todo)) (.failing .cancelled)
  | proceed {done : List Excerpt} {l : Location} {todo : List Location} :
      (p.cancelled || p.aborted) = false →
      Moves h context p (.checking done (l :: todo)) (.requesting done l todo)
  | ask {done : List Excerpt} {l : Location} {todo : List Location} :
      Moves h context p (.requesting done l todo)
        (.loading done l todo (p.cache.request (h.roots.pathOf l)).1)
  | present {done : List Excerpt} {l : Location} {todo : List Location} {ticket : Ticket}
      {outcome : Outcome} {e : Excerpt} :
      p.cache.redeem? ticket = some outcome → h.excerptOf context l outcome = .ok e →
      Moves h context p (.loading done l todo ticket) (.checking (done ++ [e]) todo)
  | fail {done : List Excerpt} {l : Location} {todo : List Location} {ticket : Ticket}
      {outcome : Outcome} {failure : Failure} :
      p.cache.redeem? ticket = some outcome → h.excerptOf context l outcome = .error failure →
      Moves h context p (.loading done l todo ticket) (.failing failure)
  | report {failure : Failure} : Moves h context p (.failing failure) .aborting
  | abort : Moves h context p .aborting .failed

private theorem moves_put {task other : Nat} {stage next found : Stage}
    (hstage : p.tasks[task]? = some stage) (htasks : q.tasks = p.tasks)
    (hmoves : Moves h context p stage next)
    (hfound : (q.put task next).tasks[other]? = some found) :
    ∃ before, p.tasks[other]? = some before ∧
      (found = before ∨ Moves h context p before found) := by
  rw [getElem?_put (htasks ▸ hstage : q.tasks[task]? = some stage), htasks] at hfound
  split at hfound
  · next heq =>
    obtain rfl := Option.some.inj hfound
    exact ⟨stage, heq ▸ hstage, .inr hmoves⟩
  · exact ⟨found, hfound, .inl rfl⟩

/-- Whatever stage a task is at after a step, it was there before or has moved there. -/
theorem Step.moves (hstep : p.Step h context q) {task : Nat} {next : Stage}
    (hnext : q.tasks[task]? = some next) :
    ∃ stage, p.tasks[task]? = some stage ∧ (next = stage ∨ Moves h context p stage next) := by
  cases hstep with
  | grant hstage _ => exact moves_put hstage rfl .grant hnext
  | finish hstage => exact moves_put hstage rfl .finish hnext
  | stop hstage hflag => exact moves_put hstage rfl (.stop hflag) hnext
  | proceed hstage hflag => exact moves_put hstage rfl (.proceed hflag) hnext
  | ask hstage => exact moves_put hstage rfl .ask hnext
  | present hstage hredeem he => exact moves_put hstage rfl (.present hredeem he) hnext
  | fail hstage hredeem he => exact moves_put hstage rfl (.fail hredeem he) hnext
  | report hstage => exact moves_put hstage rfl .report hnext
  | abort hstage => exact moves_put hstage rfl .abort hnext
  | answer _ _ => exact ⟨next, hnext, .inl rfl⟩
  | cancel => exact ⟨next, hnext, .inl rfl⟩

private theorem Step.size_tasks (hstep : p.Step h context q) : q.tasks.size = p.tasks.size := by
  cases hstep <;> simp [put, release]

theorem Step.exists_moves (hstep : p.Step h context q) {task : Nat} {stage : Stage}
    (hstage : p.tasks[task]? = some stage) :
    ∃ next, q.tasks[task]? = some next ∧ (next = stage ∨ Moves h context p stage next) := by
  have hlt : task < q.tasks.size := by
    rw [hstep.size_tasks]
    exact (Array.getElem?_eq_some_iff.mp hstage).1
  have hnext : q.tasks[task]? = some q.tasks[task] := Array.getElem?_eq_getElem hlt
  obtain ⟨before, hbefore, hmoves⟩ := hstep.moves hnext
  obtain rfl := Option.some.inj (hstage.symm.trans hbefore)
  exact ⟨_, hnext, hmoves⟩

theorem Step.cache_cases (hstep : p.Step h context q) :
    q.cache = p.cache ∨
    (∃ (task : Nat) (done : List Excerpt) (l : Location) (todo : List Location),
      p.tasks[task]? = some (.requesting done l todo) ∧
        q.cache = (p.cache.request (h.roots.pathOf l)).2) ∨
    ∃ (load : Nat) (path : String) (answer : ReadAnswer),
      p.cache.loads[load]? = some ⟨path, none⟩ ∧ q.cache = p.cache.complete load answer := by
  cases hstep with
  | ask hstage => exact .inr (.inl ⟨_, _, _, _, hstage, rfl⟩)
  | answer answer hload => exact .inr (.inr ⟨_, _, answer, hload, rfl⟩)
  | _ => exact .inl rfl

theorem advance?_eq_some {task : Nat} (hq : p.advance? h context task = some q) :
    ∃ stage r next, p.tasks[task]? = some stage ∧ q = put r task next ∧ r.tasks = p.tasks ∧
      next ≠ stage ∧ r.cancelled = p.cancelled ∧ r.cache = stage.cacheAfter h p.cache := by
  obtain ⟨stage, hstage, hq⟩ := Option.bind_eq_some_iff.mp hq
  cases stage with
  | waiting todo =>
    simp only [advanceFrom?] at hq
    split at hq
    · cases hq
    · cases hq
      exact ⟨_, _, _, hstage, rfl, rfl, Stage.noConfusion, rfl, rfl⟩
  | checking done todo =>
    cases todo with
    | nil =>
      cases hq
      exact ⟨_, _, _, hstage, rfl, rfl, Stage.noConfusion, rfl, rfl⟩
    | cons l todo =>
      simp only [advanceFrom?] at hq
      split at hq
      · cases hq
        exact ⟨_, _, _, hstage, rfl, rfl, Stage.noConfusion, rfl, rfl⟩
      · cases hq
        exact ⟨_, _, _, hstage, rfl, rfl, Stage.noConfusion, rfl, rfl⟩
  | loading done l todo ticket =>
    simp only [advanceFrom?, Option.map_eq_some_iff] at hq
    obtain ⟨outcome, -, hq⟩ := hq
    split at hq
    · subst hq
      exact ⟨_, _, _, hstage, rfl, rfl, Stage.noConfusion, rfl, rfl⟩
    · subst hq
      exact ⟨_, _, _, hstage, rfl, rfl, Stage.noConfusion, rfl, rfl⟩
  | failed => cases hq
  | finished => cases hq
  | _ =>
    cases hq
    exact ⟨_, _, _, hstage, rfl, rfl, Stage.noConfusion, rfl, rfl⟩

theorem cache_advance? {task : Nat} {stage : Stage} (hstage : p.tasks[task]? = some stage)
    (hq : p.advance? h context task = some q) :
    q.cache = stage.cacheAfter h p.cache := by
  obtain ⟨_, r, next, hsame, rfl, -, -, -, hcache⟩ := advance?_eq_some hq
  obtain rfl := Option.some.inj (hstage.symm.trans hsame)
  exact hcache

theorem cancelled_advance? {task : Nat} (hq : p.advance? h context task = some q) :
    q.cancelled = p.cancelled := by
  obtain ⟨_, r, next, -, rfl, -, -, hcancelled, -⟩ := advance?_eq_some hq
  exact hcancelled

theorem Step.failure_cases (hstep : p.Step h context q) :
    q.failure = p.failure ∨ ∃ (task : Nat) (failure : Failure),
      p.tasks[task]? = some (.failing failure) ∧ q.tasks[task]? = some .aborting ∧
        q.failure = p.failure.or (some failure) := by
  cases hstep with
  | @report task failure hstage =>
    refine .inr ⟨task, failure, hstage, ?_, rfl⟩
    rw [getElem?_put (p := { p with failure := p.failure.or (some failure) }) hstage, if_pos rfl]
  | _ => exact .inl rfl

theorem Step.results_cases (hstep : p.Step h context q) :
    q.results = p.results ∨ ∃ (task : Nat) (done : List Excerpt),
      p.tasks[task]? = some (.checking done []) ∧ q.results = p.results ++ [(task, done)] := by
  cases hstep with
  | finish hstage => exact .inr ⟨_, _, hstage, rfl⟩
  | _ => exact .inl rfl

/-- The flag of the tasks is raised by a task that has left its failure. -/
theorem Step.aborted_cases (hstep : p.Step h context q) :
    q.aborted = p.aborted ∨ ∃ task : Nat, p.tasks[task]? = some .aborting := by
  cases hstep with
  | abort hstage => exact .inr ⟨_, hstage⟩
  | _ => exact .inl rfl

theorem Step.cancelled (hstep : p.Step h context q) (hflag : p.cancelled = true) :
    q.cancelled = true := by
  cases hstep with
  | cancel => rfl
  | _ => exact hflag

theorem Step.not_cancelled (hstep : p.Step h context q) (hclear : q.cancelled = false) :
    p.cancelled = false := by
  rw [← Bool.not_eq_true]
  intro hflag
  rw [hstep.cancelled hflag] at hclear
  cases hclear

/-! ### Whole executions -/

theorem reachable_of_leads (hleads : Leads h context p q) (hp : p.cache.Reachable) :
    q.cache.Reachable := by
  induction hleads with
  | refl => exact hp
  | tail _ hstep ih =>
    rcases hstep.cache_cases with hsame | ⟨_, _, _, _, -, hask⟩ | ⟨load, _, answer, -, hend⟩
    · exact hsame ▸ ih
    · exact hask ▸ ih.request _
    · exact hend ▸ ih.complete load answer

theorem coherent_of_leads (hleads : Leads h context p q) (hp : p.cache.Coherent) :
    q.cache.Coherent := by
  induction hleads with
  | refl => exact hp
  | tail _ hstep ih => exact hstep.coherent ih

theorem extends_of_leads (hleads : Leads h context p q) (hp : p.cache.Coherent) :
    p.Extends q := by
  induction hleads with
  | refl => exact .refl p
  | tail hsteps hstep ih => exact ih.trans (hstep.extends (coherent_of_leads hsteps hp))

theorem exists_readPaths_of_leads {P : String → Prop} (hleads : Leads h context p q)
    (hasks : ∀ (r : Pass) (task : Nat) (done : List Excerpt) (l : Location) (todo : List Location),
      Leads h context p r → r.tasks[task]? = some (.requesting done l todo) →
        P (h.roots.pathOf l)) :
    ∃ later, q.cache.readPaths = p.cache.readPaths ++ later ∧ ∀ path ∈ later, P path := by
  induction hleads with
  | refl => exact ⟨[], (List.append_nil _).symm, nofun⟩
  | tail hsteps hstep ih =>
    obtain ⟨later, hlater, hall⟩ := ih
    rcases hstep.cache_cases with hsame | ⟨task, done, l, todo, hstage, hask⟩ | ⟨_, _, _, -, hend⟩
    · exact ⟨later, by rw [hsame, hlater], hall⟩
    · rw [hask]
      rcases TokenCache.request_cases _ (h.roots.pathOf l) with
        ⟨_, _, hr⟩ | ⟨_, _, _, hr⟩ | ⟨_, _, hr⟩
      · exact ⟨later, by rw [hr, hlater], hall⟩
      · exact ⟨later, by rw [hr, hlater], hall⟩
      · refine ⟨later ++ [h.roots.pathOf l], ?_, ?_⟩
        · rw [hr, TokenCache.readPaths_start, hlater, List.append_assoc]
        · intro path hmem
          rcases List.mem_append.mp hmem with hold | hnew
          · exact hall path hold
          · rw [List.mem_singleton.mp hnew]
            exact hasks _ task done l todo hsteps hstage
    · exact ⟨later, by rw [hend, TokenCache.readPaths_complete, hlater], hall⟩

end Pass

end GoroutineDump.Highlight
