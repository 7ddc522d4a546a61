import Mathlib.Algebra.GroupWithZero.Nat
import GoroutineDump.Proofs.Markup.Steps

/-!
Every step but the caller's cancellation lessens the steps that are left, and as long as some task
is not over there is a step: a task at work goes on or waits for a load under way, and if none is at
work all permits are there.
-/

set_option autoImplicit false
set_option relaxedAutoImplicit false

namespace GoroutineDump.Highlight

open Source (ReadAnswer)

private theorem sum_map_set {α : Type} {f : α → Nat} {l : List α} {i : Nat} {old : α}
    (h : l[i]? = some old) (new : α) :
    ((l.set i new).map f).sum + f old = (l.map f).sum + f new := by
  induction l generalizing i with
  | nil => cases h
  | cons a l ih =>
    cases i with
    | zero =>
      obtain rfl := Option.some.inj h
      simp only [List.set_cons_zero, List.map_cons, List.sum_cons]
      omega
    | succ i =>
      have htail := ih h
      simp only [List.set_cons_succ, List.map_cons, List.sum_cons]
      omega

def TokenCache.pending (c : TokenCache) : Nat := c.loads.countP (·.result.isNone)

def Stage.staff : Stage → Nat
  | .checking _ _ | .requesting _ _ _ | .loading _ _ _ _ => 1
  | _ => 0

private theorem TokenCache.pending_request (c : TokenCache) (path : String) :
    (c.request path).2.pending ≤ c.pending + 1 := by
  rcases c.request_cases path with ⟨_, _, h⟩ | ⟨_, _, _, h⟩ | ⟨_, _, h⟩
  · rw [h]
    exact Nat.le_succ _
  · rw [h]
    exact Nat.le_succ _
  · rw [h, pending, loads_start, List.countP_append]
    exact Nat.le_refl _

private theorem TokenCache.pending_complete {c : TokenCache} {index : Nat} {path : String}
    (answer : ReadAnswer) (h : c.loads[index]? = some ⟨path, none⟩) :
    (c.complete index answer).pending + 1 = c.pending := by
  obtain ⟨hlt, hload⟩ := List.getElem?_eq_some_iff.mp h
  have hpositive : 0 < c.loads.countP (·.result.isNone) := by
    rw [List.countP_pos_iff]
    exact ⟨_, List.mem_of_getElem? h, rfl⟩
  rw [pending, pending, loads_complete answer h, List.countP_set hlt, hload]
  simp only [Option.isNone_none, Option.isNone_some, if_true, Bool.false_eq_true, if_false]
  omega

namespace Pass

variable {h : Highlighter} {context : Int} {p q : Pass} {workers : Nat}

def staff (p : Pass) : Nat := (p.tasks.toList.map Stage.staff).sum

private theorem sum_tasks_put {f : Stage → Nat} {task : Nat} {stage : Stage}
    (hstage : p.tasks[task]? = some stage) (next : Stage) :
    ((p.put task next).tasks.toList.map f).sum + f stage =
      (p.tasks.toList.map f).sum + f next := by
  rw [put, Array.toList_setIfInBounds]
  exact sum_map_set (by simpa using hstage) next

/-! ### The steps that are left -/

private theorem stepsLeft_put_lt {task : Nat} {stage next : Stage}
    (hstage : p.tasks[task]? = some stage) (htasks : q.tasks = p.tasks)
    (hless : next.stepsLeft + q.cache.pending < stage.stepsLeft + p.cache.pending) :
    (q.put task next).stepsLeft < p.stepsLeft := by
  have hsum := sum_tasks_put (f := Stage.stepsLeft) (htasks ▸ hstage : q.tasks[task]? = some stage)
    next
  have hsame : (q.tasks.toList.map Stage.stepsLeft).sum =
      (p.tasks.toList.map Stage.stepsLeft).sum := by rw [htasks]
  have hnew : (q.put task next).stepsLeft =
      ((q.put task next).tasks.toList.map Stage.stepsLeft).sum + q.cache.pending := rfl
  have hold : p.stepsLeft = (p.tasks.toList.map Stage.stepsLeft).sum + p.cache.pending := rfl
  omega

private theorem stepsLeft_lt_of_answer {load : Nat} {path : String} (answer : ReadAnswer)
    (hload : p.cache.loads[load]? = some ⟨path, none⟩) (htasks : q.tasks = p.tasks)
    (hcache : q.cache = p.cache.complete load answer) : q.stepsLeft < p.stepsLeft := by
  have hpending := TokenCache.pending_complete answer hload
  have hnew : q.stepsLeft = (q.tasks.toList.map Stage.stepsLeft).sum + q.cache.pending := rfl
  have hold : p.stepsLeft = (p.tasks.toList.map Stage.stepsLeft).sum + p.cache.pending := rfl
  rw [htasks, hcache] at hnew
  omega

/-- Every step but the caller's cancellation takes the pass nearer to its end. -/
theorem Step.stepsLeft_lt (hstep : p.Step h context q) :
    q.stepsLeft < p.stepsLeft ∨ q = { p with cancelled := true } := by
  cases hstep with
  | cancel => exact .inr rfl
  | answer answer hload => exact .inl (stepsLeft_lt_of_answer answer hload rfl rfl)
  | grant hstage _ =>
    refine .inl (stepsLeft_put_lt hstage rfl ?_)
    simp only [Stage.stepsLeft]
    omega
  | finish hstage =>
    refine .inl (stepsLeft_put_lt hstage rfl ?_)
    simp only [Stage.stepsLeft, release]
    omega
  | stop hstage _ =>
    refine .inl (stepsLeft_put_lt hstage rfl ?_)
    simp only [Stage.stepsLeft, release, List.length_cons]
    omega
  | proceed hstage _ =>
    refine .inl (stepsLeft_put_lt hstage rfl ?_)
    simp only [Stage.stepsLeft, List.length_cons]
    omega
  | @ask task done l todo hstage =>
    have hpending := p.cache.pending_request (h.roots.pathOf l)
    refine .inl (stepsLeft_put_lt hstage rfl ?_)
    simp only [Stage.stepsLeft]
    omega
  | present hstage _ _ =>
    refine .inl (stepsLeft_put_lt hstage rfl ?_)
    simp only [Stage.stepsLeft]
    omega
  | fail hstage _ _ =>
    refine .inl (stepsLeft_put_lt hstage rfl ?_)
    simp only [Stage.stepsLeft, release]
    omega
  | report hstage =>
    refine .inl (stepsLeft_put_lt hstage rfl ?_)
    simp only [Stage.stepsLeft]
    omega
  | abort hstage =>
    refine .inl (stepsLeft_put_lt hstage rfl ?_)
    simp only [Stage.stepsLeft]
    omega

private theorem stepsLeft_advance?_lt {task : Nat} (hq : p.advance? h context task = some q) :
    q.stepsLeft < p.stepsLeft := by
  rcases (exists_step?_iff.mp ⟨.advance task, hq⟩).stepsLeft_lt with hless | hsame
  · exact hless
  · -- Cancelling moves no task.
    obtain ⟨stage, r, next, hstage, hput, htasks, hne, -, -⟩ := advance?_eq_some hq
    have hnext : q.tasks[task]? = some next := by
      rw [hput, getElem?_put (htasks ▸ hstage : r.tasks[task]? = some stage), if_pos rfl]
    rw [hsame, hstage] at hnext
    exact absurd (Option.some.inj hnext).symm hne

def takesStep : Event → Bool
  | .cancel => false
  | _ => true

private theorem stepsLeft_step? {event : Event} (hq : p.step? h context event = some q) :
    q.stepsLeft + (if takesStep event then 1 else 0) ≤ p.stepsLeft := by
  cases event with
  | advance task => exact stepsLeft_advance?_lt hq
  | cancel =>
    cases hq
    exact Nat.le_refl _
  | answer load answer =>
    obtain ⟨path, hload, rfl⟩ := answer?_eq_some_iff.mp hq
    exact stepsLeft_lt_of_answer answer hload rfl rfl

/-- No execution, in whatever order its steps are taken, is longer than the steps that were left. -/
theorem countP_takesStep_le {events : List Event}
    (hq : events.foldlM (step? h context) p = some q) :
    events.countP takesStep + q.stepsLeft ≤ p.stepsLeft := by
  induction events generalizing p with
  | nil =>
    cases hq
    simp
  | cons event events ih =>
    rw [List.foldlM_cons] at hq
    obtain ⟨middle, hevent, hrest⟩ := Option.bind_eq_some_iff.mp hq
    have hfirst := stepsLeft_step? hevent
    have htail := ih hrest
    rw [List.countP_cons]
    omega

/-! ### Who can go on -/

/-- The permits are those that are free and those of the tasks at work, and a task that waits for
tokens holds a ticket that is good. -/
structure Staffed (workers : Nat) (p : Pass) : Prop where
  coherent : p.cache.Coherent
  permits : p.permits + p.staff = workers
  tickets : ∀ (task : Nat) (done : List Excerpt) (l : Location) (todo : List Location)
    (ticket : Ticket), p.tasks[task]? = some (.loading done l todo ticket) →
      ∃ path, p.cache.Serves path ticket

theorem staffed_start {cache : TokenCache} (hc : cache.Coherent) (workers : Nat)
    (cancelled : Bool) (locations : List (List Location)) :
    (start cache workers cancelled locations).Staffed workers where
  coherent := hc
  permits := by
    have hidle : (locations.map Stage.waiting).map Stage.staff = locations.map fun _ => 0 := by
      rw [List.map_map]
      rfl
    simp [start, staff, hidle]
  tickets task done l todo ticket hstage := by
    simp [start] at hstage

private theorem staffed_put {task : Nat} {stage next : Stage} (hp : p.Staffed workers)
    (hstage : p.tasks[task]? = some stage) (htasks : q.tasks = p.tasks)
    (hcoherent : q.cache.Coherent) (hgrows : TokenCache.Grows p.cache q.cache)
    (hpermits : q.permits + next.staff = p.permits + stage.staff)
    (hticket : ∀ done l todo ticket, next = .loading done l todo ticket →
      ∃ path, q.cache.Serves path ticket) :
    (q.put task next).Staffed workers := by
  have hq : q.tasks[task]? = some stage := htasks ▸ hstage
  refine ⟨hcoherent, ?_, ?_⟩
  · have hsum := sum_tasks_put (f := Stage.staff) hq next
    have hsame : (q.tasks.toList.map Stage.staff).sum = p.staff := by rw [htasks]; rfl
    have hall := hp.permits
    show q.permits + ((q.put task next).tasks.toList.map Stage.staff).sum = workers
    omega
  · intro other done l todo ticket hother
    rw [getElem?_put hq] at hother
    split at hother
    · exact hticket done l todo ticket (Option.some.inj hother)
    · rw [htasks] at hother
      obtain ⟨path, hserves⟩ := hp.tickets other done l todo ticket hother
      exact ⟨path, hserves.mono hgrows⟩

private theorem staffed_same (hp : p.Staffed workers) (htasks : q.tasks = p.tasks)
    (hpermits : q.permits = p.permits) (hcoherent : q.cache.Coherent)
    (hgrows : TokenCache.Grows p.cache q.cache) : q.Staffed workers where
  coherent := hcoherent
  permits := by
    rw [hpermits, staff, htasks]
    exact hp.permits
  tickets task done l todo ticket hstage := by
    obtain ⟨path, hserves⟩ := hp.tickets task done l todo ticket (htasks ▸ hstage)
    exact ⟨path, hserves.mono hgrows⟩

private theorem staffed_step (hp : p.Staffed workers) (hstep : p.Step h context q) :
    q.Staffed workers := by
  have hcoherent := hstep.coherent hp.coherent
  have hgrows := (hstep.extends hp.coherent).cache
  cases hstep with
  | grant hstage hpermits =>
    refine staffed_put hp hstage rfl hcoherent hgrows ?_ nofun
    show p.permits - 1 + 1 = p.permits + 0
    omega
  | finish hstage => exact staffed_put hp hstage rfl hcoherent hgrows rfl nofun
  | stop hstage _ => exact staffed_put hp hstage rfl hcoherent hgrows rfl nofun
  | proceed hstage _ => exact staffed_put hp hstage rfl hcoherent hgrows rfl nofun
  | @ask task done l todo hstage =>
    refine staffed_put hp hstage rfl hcoherent hgrows rfl ?_
    intro _ _ _ ticket heq
    cases heq
    exact ⟨_, hp.coherent.serves_request (h.roots.pathOf l)⟩
  | present hstage _ _ => exact staffed_put hp hstage rfl hcoherent hgrows rfl nofun
  | fail hstage _ _ => exact staffed_put hp hstage rfl hcoherent hgrows rfl nofun
  | report hstage => exact staffed_put hp hstage rfl hcoherent hgrows rfl nofun
  | abort hstage => exact staffed_put hp hstage rfl hcoherent hgrows rfl nofun
  | answer answer _ => exact staffed_same hp rfl rfl hcoherent hgrows
  | cancel => exact staffed_same hp rfl rfl hcoherent hgrows

theorem staffed_of_leads (hp : p.Staffed workers) (hleads : Leads h context p q) :
    q.Staffed workers := by
  induction hleads with
  | refl => exact hp
  | tail _ hstep ih => exact staffed_step ih hstep

private theorem exists_advance_of_staff (hp : p.Staffed workers)
    (hidle : ∀ (load : Nat) (path : String), p.cache.loads[load]? ≠ some ⟨path, none⟩)
    {task : Nat} {stage : Stage}
    (hstage : p.tasks[task]? = some stage) (hwork : stage.staff ≠ 0) :
    p.advance? h context task ≠ none := by
  rw [advance?, hstage, Option.bind_some]
  cases stage with
  | checking done todo =>
    cases todo with
    | nil => simp [advanceFrom?]
    | cons l todo =>
      simp only [advanceFrom?]
      split <;> simp
  | requesting done l todo => simp [advanceFrom?]
  | loading done l todo ticket =>
    obtain ⟨path, hserves⟩ := hp.tickets task done l todo ticket hstage
    have hredeem : p.cache.redeem? ticket ≠ none := by
      cases ticket with
      | tokens held => simp [TokenCache.redeem?]
      | load index =>
        obtain ⟨load, hload, hpath⟩ := hserves
        obtain ⟨found, result⟩ := load
        cases result with
        | none => exact absurd hload (hidle index found)
        | some result => simp [TokenCache.redeem?, hload, Load.outcome?]
    simpa [advanceFrom?] using hredeem
  | _ => exact absurd rfl hwork

private theorem exists_staff (hsum : p.staff ≠ 0) :
    ∃ (task : Nat) (stage : Stage), p.tasks[task]? = some stage ∧ stage.staff ≠ 0 := by
  obtain ⟨n, hn, hpositive⟩ := List.sum_pos_iff_exists_pos_nat.mp (Nat.pos_of_ne_zero hsum)
  obtain ⟨stage, hmem, rfl⟩ := List.mem_map.mp hn
  obtain ⟨task, hstage⟩ := List.mem_iff_getElem?.mp hmem
  exact ⟨task, stage, by simpa using hstage, Nat.ne_of_gt hpositive⟩

theorem isOver_of_stuck (hp : p.Staffed workers) (hworkers : 1 ≤ workers)
    (hstuck : ∀ task < p.tasks.size, p.advance? h context task = none)
    (hidle : ∀ (load : Nat) (path : String), p.cache.loads[load]? ≠ some ⟨path, none⟩) :
    p.isOver = true := by
  rw [isOver, Array.all_eq_true]
  intro task hlt
  have hstage : p.tasks[task]? = some p.tasks[task] := Array.getElem?_eq_getElem hlt
  have hnone := hstuck task hlt
  cases hs : p.tasks[task] with
  | waiting todo =>
    rw [hs] at hstage
    have hpermits : p.permits = 0 := by
      rw [advance?, hstage, Option.bind_some] at hnone
      simpa [advanceFrom?] using hnone
    have hstaff : p.staff ≠ 0 := by
      have := hp.permits
      omega
    obtain ⟨other, stage, hother, hwork⟩ := exists_staff hstaff
    have hbound : other < p.tasks.size := (Array.getElem?_eq_some_iff.mp hother).1
    exact absurd (hstuck other hbound) (exists_advance_of_staff hp hidle hother hwork)
  | failing failure =>
    rw [hs] at hstage
    simp [advance?, hstage, advanceFrom?] at hnone
  | aborting =>
    rw [hs] at hstage
    simp [advance?, hstage, advanceFrom?] at hnone
  | failed => rfl
  | finished => rfl
  | _ =>
    have hwork : p.tasks[task].staff ≠ 0 := by simp [hs, Stage.staff]
    exact absurd hnone (exists_advance_of_staff hp hidle hstage hwork)

/-! ### Running to the end -/

private theorem advanceFirst?_eq_some (hq : p.advanceFirst? h context = some q) :
    p.Step h context q ∧ q.stepsLeft < p.stepsLeft := by
  obtain ⟨task, -, hadvance⟩ := List.exists_of_findSome?_eq_some hq
  exact ⟨exists_step?_iff.mp ⟨.advance task, hadvance⟩, stepsLeft_advance?_lt hadvance⟩

private theorem advanceFirst?_eq_none (hnone : p.advanceFirst? h context = none) :
    ∀ task < p.tasks.size, p.advance? h context task = none := by
  intro task hlt
  exact List.findSome?_eq_none_iff.mp hnone task (List.mem_range.mpr hlt)

private theorem firstUnderWay?_eq_some {c : TokenCache} {load : Nat} {path : String}
    (hsome : c.firstUnderWay? = some (load, path)) : c.loads[load]? = some ⟨path, none⟩ := by
  simp only [TokenCache.firstUnderWay?, Option.bind_eq_some_iff, Option.map_eq_some_iff,
    Prod.mk.injEq] at hsome
  obtain ⟨index, hindex, found, hload, rfl, rfl⟩ := hsome
  obtain ⟨hlt, hpending, -⟩ := List.findIdx?_eq_some_iff_getElem.mp hindex
  rw [List.getElem?_eq_getElem hlt, Option.some.injEq] at hload
  rw [hload, Option.isNone_iff_eq_none] at hpending
  rw [List.getElem?_eq_getElem hlt, hload, Option.some.injEq]
  obtain ⟨path, result⟩ := found
  obtain rfl : result = none := hpending
  rfl

private theorem firstUnderWay?_eq_none {c : TokenCache} (hnone : c.firstUnderWay? = none)
    (load : Nat) (path : String) : c.loads[load]? ≠ some ⟨path, none⟩ := by
  intro hload
  cases hindex : c.loads.findIdx? fun load => load.result.isNone with
  | none =>
    have hall := List.findIdx?_eq_none_iff.mp hindex _ (List.mem_of_getElem? hload)
    simp at hall
  | some index =>
    obtain ⟨hlt, -, -⟩ := List.findIdx?_eq_some_iff_getElem.mp hindex
    simp [TokenCache.firstUnderWay?, hindex, List.getElem?_eq_getElem hlt] at hnone

private theorem isOver_of_stepsLeft (hzero : p.stepsLeft = 0) : p.isOver = true := by
  have hsum : (p.tasks.toList.map Stage.stepsLeft).sum = 0 := by
    have hold : p.stepsLeft = (p.tasks.toList.map Stage.stepsLeft).sum + p.cache.pending := rfl
    omega
  rw [isOver, Array.all_eq_true]
  intro task hlt
  have hmem : p.tasks[task].stepsLeft ∈ p.tasks.toList.map Stage.stepsLeft :=
    List.mem_map_of_mem (Array.getElem_mem_toList hlt)
  have hstage := List.sum_eq_zero_iff_forall_eq_nat.mp hsum _ hmem
  cases hs : p.tasks[task] <;> simp_all [Stage.stepsLeft, Stage.isOver]

/-- What holds of a pass, and is kept by steps of its tasks, by the ends of loads with what reading
their paths gives, and by cancelling it during a read, holds of it after any number of steps. -/
theorem runFor_induction {motive : Pass → Prop} (read : String → Id ReadAnswer)
    (cancelling : String → Bool)
    (hadvance : ∀ (p q : Pass) (task : Nat), motive p → p.advance? h context task = some q →
      motive q)
    (hanswer : ∀ (p : Pass) (load : Nat) (path : String), motive p →
      p.cache.loads[load]? = some ⟨path, none⟩ →
        motive { p with cache := p.cache.complete load (read path).run })
    (hcancel : ∀ (p : Pass) (path : String), motive p → cancelling path = true →
      motive { p with cancelled := true })
    (steps : Nat) (hp : motive p) : motive (runFor h context read cancelling steps p).run := by
  induction steps generalizing p with
  | zero => exact hp
  | succ steps ih =>
    rw [runFor]
    cases hfirst : p.advanceFirst? h context with
    | some q =>
      obtain ⟨task, -, hq⟩ := List.exists_of_findSome?_eq_some hfirst
      exact ih (hadvance p q task hp hq)
    | none =>
      cases hbusy : p.cache.firstUnderWay? with
      | none => exact hp
      | some found =>
        obtain ⟨load, path⟩ := found
        have hanswered := hanswer p load path hp (firstUnderWay?_eq_some hbusy)
        cases hflag : cancelling path with
        | false => simpa [hflag] using ih hanswered
        | true => simpa [hflag] using ih (hcancel _ path hanswered hflag)

private theorem leads_runFor (read : String → Id ReadAnswer) (cancelling : String → Bool)
    (steps : Nat) : Leads h context p (runFor h context read cancelling steps p).run :=
  runFor_induction read cancelling
    (fun _ _ task hleads hq => hleads.tail (exists_step?_iff.mp ⟨.advance task, hq⟩))
    (fun _ _ _ hleads hload => hleads.tail (.answer _ hload))
    (fun _ _ hleads _ => hleads.tail .cancel) steps .refl

theorem runFor_over (read : String → Id ReadAnswer) (cancelling : String → Bool) {steps : Nat}
    (hp : p.Staffed workers) (hworkers : 1 ≤ workers) (hsteps : p.stepsLeft ≤ steps) :
    Leads h context p (runFor h context read cancelling steps p).run ∧
      (runFor h context read cancelling steps p).run.isOver = true := by
  refine ⟨leads_runFor read cancelling steps, ?_⟩
  induction steps generalizing p with
  | zero => exact isOver_of_stepsLeft (Nat.le_zero.mp hsteps)
  | succ steps ih =>
    rw [runFor]
    cases hadvance : p.advanceFirst? h context with
    | some q =>
      obtain ⟨hstep, hless⟩ := advanceFirst?_eq_some hadvance
      exact ih (staffed_step hp hstep) (by omega)
    | none =>
      cases hfirst : p.cache.firstUnderWay? with
      | none =>
        exact isOver_of_stuck hp hworkers (advanceFirst?_eq_none hadvance)
          (firstUnderWay?_eq_none hfirst)
      | some found =>
        obtain ⟨load, path⟩ := found
        have hload := firstUnderWay?_eq_some hfirst
        have hanswer : p.Step h context { p with cache := p.cache.complete load (read path).run } :=
          .answer (read path).run hload
        let next : Pass := { p with
          cancelled := p.cancelled || cancelling path
          cache := p.cache.complete load (read path).run }
        have hnext : next.Staffed workers := staffed_same hp rfl rfl (hanswer.coherent hp.coherent)
          (hanswer.extends hp.coherent).cache
        have hless : next.stepsLeft < p.stepsLeft :=
          stepsLeft_lt_of_answer (read path).run hload rfl rfl
        exact ih hnext (Nat.le_of_lt_succ (Nat.lt_of_lt_of_le hless hsteps))

/-- However far a pass has come, it can come to its end, provided that there is a permit at all. -/
theorem exists_over {cache : TokenCache} (hcache : cache.Reachable) (hworkers : 1 ≤ workers)
    {cancelled : Bool} {locations : List (List Location)}
    (hleads : Leads h context (start cache workers cancelled locations) p) :
    ∃ q, Leads h context p q ∧ q.isOver = true := by
  have hp := staffed_of_leads (staffed_start hcache.coherent workers cancelled locations) hleads
  exact ⟨_, runFor_over (fun _ => pure (.error .missing)) (fun _ => false) hp hworkers
    (Nat.le_refl _)⟩

/-- What `enrich` returns is what a run comes to. -/
theorem enrich_run (h : Highlighter) (read : String → Id ReadAnswer) (cancellation : Cancellation)
    {cache : TokenCache} (hcache : cache.Reachable) (options : MarkupOptions)
    (gs : List Goroutine) :
    ∃ p, Run h options Highlight.workers cancellation.beforehand cache gs p ∧
      (enrich h read cancellation cache options gs).run = (p.conclude gs, p) := by
  by_cases hdisabled : options.isDisabled = true
  · refine ⟨_, .disabled (by simpa [MarkupOptions.isDisabled] using hdisabled), ?_⟩
    rw [enrich, if_pos hdisabled]
    rfl
  · have hcontext : 0 ≤ options.context := by
      simpa [MarkupOptions.isDisabled] using hdisabled
    let first := start cache Highlight.workers cancellation.beforehand
      ((gs.take (options.count gs.length)).map (·.locations))
    have hfirst : first.Staffed Highlight.workers := staffed_start hcache.coherent _ _ _
    have hend : Leads h options.context first
          (first.run h options.context read cancellation.whileReading).run ∧
        (first.run h options.context read cancellation.whileReading).run.isOver = true :=
      runFor_over read cancellation.whileReading hfirst (by decide) (Nat.le_refl _)
    obtain ⟨hleads, hover⟩ := hend
    refine ⟨_, .ended hcontext hleads hover, ?_⟩
    rw [enrich, if_neg hdisabled]
    rfl

end Pass

end GoroutineDump.Highlight
