import GoroutineDump.Proofs.Cache.Serving
import GoroutineDump.Proofs.Markup.Commit
import GoroutineDump.Proofs.Markup.Progress

set_option autoImplicit false
set_option relaxedAutoImplicit false

namespace GoroutineDump.Highlight

open Source (ReadAnswer Token)

def Stage.asks (h : Highlighter) (c : TokenCache) : Stage → List (String × Ticket)
  | .requesting _ l _ => [(h.roots.pathOf l, (c.request (h.roots.pathOf l)).1)]
  | _ => []

def Stage.hasFailed : Stage → Bool
  | .failing _ | .aborting | .failed => true
  | _ => false

namespace Pass

variable {h : Highlighter} {context : Int} {read : String → Id ReadAnswer} {first p q : Pass}
  {asked : List (String × Ticket)}

/-- An execution of a pass in which loads end with what reading their paths gives, with the requests
that its tasks make. The caller may cancel at any time. -/
inductive Asking (h : Highlighter) (context : Int) (read : String → Id ReadAnswer) (first : Pass) :
    List (String × Ticket) → Pass → Prop
  | start : Asking h context read first [] first
  | advance {asked : List (String × Ticket)} {p q : Pass} {task : Nat} {stage : Stage} :
      Asking h context read first asked p → p.tasks[task]? = some stage →
      p.advance? h context task = some q →
      Asking h context read first (asked ++ stage.asks h p.cache) q
  | answer {asked : List (String × Ticket)} {p : Pass} {load : Nat} {path : String} :
      Asking h context read first asked p → p.cache.loads[load]? = some ⟨path, none⟩ →
      Asking h context read first asked { p with cache := p.cache.complete load (read path).run }
  | cancel {asked : List (String × Ticket)} {p : Pass} :
      Asking h context read first asked p →
      Asking h context read first asked { p with cancelled := true }

namespace Asking

theorem leads (hp : Asking h context read first asked p) : Leads h context first p := by
  induction hp with
  | start => exact .refl
  | advance _ _ hq ih => exact .tail ih (exists_step?_iff.mp ⟨.advance _, hq⟩)
  | answer _ hload ih => exact .tail ih (.answer _ hload)
  | cancel _ ih => exact .tail ih .cancel

theorem served (hfirst : first.cache.Coherent) (hidle : ∀ path, first.cache.underWay? path = none)
    (hp : Asking h context read first asked p) :
    TokenCache.Served read first.cache asked p.cache := by
  induction hp with
  | start => exact .start
  | @advance asked p q task stage _ hstage hq ih =>
    have hcache := cache_advance? hstage hq
    cases stage with
    | requesting done l todo =>
      rw [hcache]
      exact ih.ask (h.roots.pathOf l) fun _ => trivial
    | _ =>
      rw [hcache]
      exact (List.append_nil asked).symm ▸ ih
  | @answer asked p load path _ hload ih =>
    have hbusy := ((ih.follows hfirst).coherent.register_iff path load).mpr hload
    refine ih.answer ?_ hload
    by_contra hnot
    rw [(ih.unasked hfirst hnot).2.1, hidle] at hbusy
    cases hbusy
  | cancel _ ih => exact ih

/-- Where a request stands: a task waits for it, or it has been answered, and if that was a failure
some task has failed. -/
def Pending (h : Highlighter) (p : Pass) (entry : String × Ticket) : Prop :=
  (∃ (task : Nat) (done : List Excerpt) (l : Location) (todo : List Location),
    p.tasks[task]? = some (.loading done l todo entry.2) ∧ h.roots.pathOf l = entry.1) ∨
  ∃ outcome, p.cache.redeem? entry.2 = some outcome ∧
    ∀ failure, outcome = .error failure → ∃ (task : Nat) (stage : Stage),
      p.tasks[task]? = some stage ∧ stage.hasFailed = true

private theorem hasFailed_of_moves {stage next : Stage} (hmoves : Moves h context p stage next)
    (hfailed : stage.hasFailed = true) : next.hasFailed = true := by
  cases hmoves with
  | report => rfl
  | abort => rfl
  | _ => cases hfailed

theorem pending_step (hc : p.cache.Coherent) (hstep : p.Step h context q)
    {entry : String × Ticket} (hpending : Pending h p entry) : Pending h q entry := by
  have hgrows := (hstep.extends hc).cache
  rcases hpending with ⟨task, done, l, todo, hstage, hpath⟩ | ⟨outcome, hout, hfails⟩
  · obtain ⟨next, hnext, rfl | hmoves⟩ := hstep.exists_moves hstage
    · exact .inl ⟨task, done, l, todo, hnext, hpath⟩
    · cases hmoves with
      | @present _ _ _ _ outcome e hredeem he =>
        refine .inr ⟨outcome, hgrows.redeem?_eq_some hredeem, ?_⟩
        rintro failure rfl
        cases he
      | @fail _ _ _ _ outcome failure hredeem _ =>
        exact .inr ⟨outcome, hgrows.redeem?_eq_some hredeem,
          fun _ _ => ⟨task, _, hnext, rfl⟩⟩
  · refine .inr ⟨outcome, hgrows.redeem?_eq_some hout, ?_⟩
    intro failure heq
    obtain ⟨task, stage, hstage, hfailed⟩ := hfails failure heq
    obtain ⟨next, hnext, rfl | hmoves⟩ := hstep.exists_moves hstage
    · exact ⟨task, next, hnext, hfailed⟩
    · exact ⟨task, next, hnext, hasFailed_of_moves hmoves hfailed⟩

theorem Pending.exists_outcome {locations : List (List Location)} {entry : String × Ticket}
    (hpending : Pending h p entry) (hp : p.Faithful h context locations)
    (hover : p.isOver = true) :
    ∃ outcome, p.cache.redeem? entry.2 = some outcome ∧
      ∀ failure, outcome = .error failure → ∃ f, p.failure = some f := by
  rcases hpending with ⟨_, _, _, _, hstage, -⟩ | ⟨outcome, hout, hfails⟩
  · cases isOver_stage hover hstage
  · refine ⟨outcome, hout, fun failure heq => ?_⟩
    obtain ⟨task, stage, hstage, hfailed⟩ := hfails failure heq
    have hdone := isOver_stage hover hstage
    obtain ⟨_, -, hfits⟩ := hp.fits task stage hstage
    cases stage with
    | failed => exact Option.isSome_iff_exists.mp hfits
    | finished => cases hfailed
    | _ => cases hdone

private theorem pending (hfirst : first.cache.Coherent)
    (hidle : ∀ path, first.cache.underWay? path = none)
    (hp : Asking h context read first asked p) : ∀ entry ∈ asked, Pending h p entry := by
  induction hp with
  | start => exact nofun
  | @advance asked p q task stage hasking hstage hq ih =>
    have hc := ((hasking.served hfirst hidle).follows hfirst).coherent
    have hstep : p.Step h context q := exists_step?_iff.mp ⟨.advance task, hq⟩
    intro entry hmem
    rcases List.mem_append.mp hmem with hold | hnew
    · exact pending_step hc hstep (ih entry hold)
    · cases stage with
      | requesting done l todo =>
        rw [List.mem_singleton.mp hnew]
        let asking : Pass := { p with cache := (p.cache.request (h.roots.pathOf l)).2 }
        have hlookup := getElem?_put (p := asking) hstage
          (.loading done l todo (p.cache.request (h.roots.pathOf l)).1) task
        rw [if_pos rfl] at hlookup
        rw [advance?, hstage, Option.bind_some] at hq
        exact .inl ⟨task, done, l, todo, Option.some.inj hq ▸ hlookup, rfl⟩
      | _ => cases hnew
  | @answer asked p load path hasking hload ih =>
    have hc := ((hasking.served hfirst hidle).follows hfirst).coherent
    have hstep : p.Step h context { p with cache := p.cache.complete load (read path).run } :=
      .answer _ hload
    exact fun entry hmem => pending_step hc hstep (ih entry hmem)
  | @cancel asked p hasking ih =>
    have hc := ((hasking.served hfirst hidle).follows hfirst).coherent
    have hstep : p.Step h context { p with cancelled := true } := .cancel
    exact fun entry hmem => pending_step hc hstep (ih entry hmem)

theorem answered (hfirst : first.cache.Coherent)
    (hidle : ∀ path, first.cache.underWay? path = none)
    (hp : Asking h context read first asked p) (hover : p.isOver = true) :
    TokenCache.Answered asked p.cache := by
  intro entry hmem
  rcases hp.pending hfirst hidle entry hmem with ⟨_, _, _, _, hstage, -⟩ | ⟨outcome, hout, -⟩
  · cases isOver_stage hover hstage
  · rw [hout]
    rfl

/-- A pass in which a request is answered with a failure fails. -/
theorem exists_failure {locations : List (List Location)} (hfirst : first.cache.Coherent)
    (hidle : ∀ path, first.cache.underWay? path = none)
    (hfaithful : first.Faithful h context locations)
    (hp : Asking h context read first asked p) (hover : p.isOver = true)
    {entry : String × Ticket} (hmem : entry ∈ asked) {failure : Failure}
    (hfails : p.cache.redeem? entry.2 = some (.error failure)) : ∃ f, p.failure = some f := by
  have hpending := hp.pending hfirst hidle entry hmem
  obtain ⟨outcome, hout, hfailed⟩ :=
    hpending.exists_outcome (faithful_of_leads hfaithful hp.leads) hover
  obtain rfl := Option.some.inj (hfails.symm.trans hout)
  exact hfailed failure rfl

theorem exists_runFor (cancelling : String → Bool) (steps : Nat)
    (hp : Asking h context read first asked p) :
    ∃ more, Asking h context read first (asked ++ more)
      (runFor h context read cancelling steps p).run := by
  refine runFor_induction (motive := fun q => ∃ more, Asking h context read first (asked ++ more) q)
    read cancelling ?advance ?answer ?cancel steps ⟨[], by rwa [List.append_nil]⟩
  case advance =>
    rintro middle q task ⟨more, hmore⟩ hq
    obtain ⟨stage, hstage, -⟩ := Option.bind_eq_some_iff.mp hq
    refine ⟨more ++ stage.asks h middle.cache, ?_⟩
    rw [← List.append_assoc]
    exact hmore.advance hstage hq
  case answer =>
    rintro middle load path ⟨more, hmore⟩ hload
    exact ⟨more, hmore.answer hload⟩
  case cancel =>
    rintro middle path ⟨more, hmore⟩ _
    exact ⟨more, hmore.cancel⟩

end Asking

end Pass

end GoroutineDump.Highlight
