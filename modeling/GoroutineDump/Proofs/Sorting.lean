import Mathlib.Data.List.Basic

/-!
What stable sorting gives is determined by two facts: the result ascends, and the members that
compare as equal to any given one stand in it as they stood in the list.
-/

set_option autoImplicit false
set_option relaxedAutoImplicit false

namespace GoroutineDump.Sorting

open Std (OrientedCmp ReflCmp TransCmp)

variable {α : Type} {cmp : α → α → Ordering} {l m : List α}

/-- No member stands behind one that comes after it in the order. -/
abbrev Ascends (cmp : α → α → Ordering) (l : List α) : Prop :=
  l.Pairwise fun a b => (cmp a b).isLE = true

/-- The members that compare as equal to any given one are the same in both lists, in the same
order. -/
def SameTies (cmp : α → α → Ordering) (l m : List α) : Prop :=
  ∀ a, l.filter (cmp a · == .eq) = m.filter (cmp a · == .eq)

theorem isLE_total [OrientedCmp cmp] (a b : α) : ((cmp a b).isLE || (cmp b a).isLE) = true := by
  have hswap : cmp b a = (cmp a b).swap := OrientedCmp.eq_swap
  rw [hswap]
  cases cmp a b <;> rfl

private theorem eq_of_isLE [OrientedCmp cmp] {a b : α} (hab : (cmp a b).isLE = true)
    (hba : (cmp b a).isLE = true) : cmp a b = .eq := by
  have hswap : cmp b a = (cmp a b).swap := OrientedCmp.eq_swap
  rw [hswap] at hba
  cases h : cmp a b with
  | lt =>
    rw [h] at hba
    cases hba
  | eq => rfl
  | gt =>
    rw [h] at hab
    cases hab

private theorem SameTies.symm (h : SameTies cmp l m) : SameTies cmp m l := fun a => (h a).symm

private theorem SameTies.tail {a : α} (h : SameTies cmp (a :: l) (a :: m)) : SameTies cmp l m := by
  intro c
  have hc := h c
  rw [List.filter_cons, List.filter_cons] at hc
  split at hc
  · exact (List.cons.inj hc).2
  · exact hc

private theorem SameTies.mem [ReflCmp cmp] (h : SameTies cmp l m) {a : α} (ha : a ∈ l) : a ∈ m := by
  have hself : a ∈ l.filter (cmp a · == .eq) :=
    List.mem_filter.mpr ⟨ha, beq_iff_eq.mpr ReflCmp.compare_self⟩
  rw [h a] at hself
  exact (List.mem_filter.mp hself).1

private theorem Ascends.head_isLE [ReflCmp cmp] {a b : α} (h : Ascends cmp (a :: l))
    (hb : b ∈ a :: l) : (cmp a b).isLE = true := by
  rcases List.mem_cons.mp hb with rfl | hb
  · have hself : cmp b b = .eq := ReflCmp.compare_self
    rw [hself]
    rfl
  · exact (List.pairwise_cons.mp h).1 b hb

theorem SameTies.eq_of_ascends [OrientedCmp cmp] (h : SameTies cmp l m) (hl : Ascends cmp l)
    (hm : Ascends cmp m) : l = m := by
  induction l generalizing m with
  | nil =>
    cases m with
    | nil => rfl
    | cons b m => cases h.symm.mem List.mem_cons_self
  | cons a l ih =>
    cases m with
    | nil => cases h.mem List.mem_cons_self
    | cons b m =>
      -- Each head is in the other list, so neither comes before the other one.
      have htie : cmp a b = .eq :=
        eq_of_isLE (hl.head_isLE (h.symm.mem List.mem_cons_self))
          (hm.head_isLE (h.mem List.mem_cons_self))
      have hself : cmp a a = .eq := ReflCmp.compare_self
      have hheads := h a
      rw [List.filter_cons, List.filter_cons, if_pos (beq_iff_eq.mpr hself),
        if_pos (beq_iff_eq.mpr htie)] at hheads
      obtain rfl := (List.cons.inj hheads).1
      rw [ih h.tail hl.of_cons hm.of_cons]

variable [TransCmp cmp]

theorem ascends_mergeSort (l : List α) : Ascends cmp (l.mergeSort fun a b => (cmp a b).isLE) :=
  List.pairwise_mergeSort (fun _ _ _ => TransCmp.isLE_trans) isLE_total l

private theorem sameTies_mergeSort (l : List α) :
    SameTies cmp (l.mergeSort fun a b => (cmp a b).isLE) l := by
  intro a
  have hequal : Ascends cmp (l.filter (cmp a · == .eq)) := by
    refine List.pairwise_of_forall_mem_list ?_
    intro b hb c hc
    have hab : cmp a b = .eq := beq_iff_eq.mp (List.mem_filter.mp hb).2
    have hac : cmp a c = .eq := beq_iff_eq.mp (List.mem_filter.mp hc).2
    rw [← TransCmp.congr_left hab, hac]
    rfl
  have hsublist : (l.filter (cmp a · == .eq)).Sublist (l.mergeSort fun b c => (cmp b c).isLE) :=
    List.sublist_mergeSort (fun _ _ _ => TransCmp.isLE_trans) isLE_total hequal List.filter_sublist
  have hties := hsublist.filter (cmp a · == .eq)
  simp only [List.filter_filter, Bool.and_self] at hties
  have hlength :=
    ((List.mergeSort_perm l fun b c => (cmp b c).isLE).filter (cmp a · == .eq)).length_eq
  exact (hties.eq_of_length hlength.symm).symm

/-- The sorted list is the one that ascends and keeps the order of ties. -/
theorem eq_mergeSort_iff :
    m = (l.mergeSort fun a b => (cmp a b).isLE) ↔ Ascends cmp m ∧ SameTies cmp m l := by
  constructor
  · rintro rfl
    exact ⟨ascends_mergeSort l, sameTies_mergeSort l⟩
  · rintro ⟨hm, hties⟩
    refine SameTies.eq_of_ascends ?_ hm (ascends_mergeSort l)
    exact fun a => (hties a).trans (sameTies_mergeSort l a).symm

theorem filter_mergeSort (p : α → Bool) (l : List α) :
    (l.mergeSort fun a b => (cmp a b).isLE).filter p =
      (l.filter p).mergeSort fun a b => (cmp a b).isLE := by
  refine eq_mergeSort_iff.mpr ⟨(ascends_mergeSort l).filter p, ?_⟩
  intro a
  simp only [List.filter_filter, Bool.and_comm _ (p _)]
  rw [← List.filter_filter, ← List.filter_filter, sameTies_mergeSort l a]

/-- Where only equals compare as equal, the order of the list does not matter. -/
theorem mergeSort_eq_of_perm (h : l.Perm m)
    (hdistinct : ∀ a ∈ l, ∀ b ∈ l, cmp a b = .eq → a = b) :
    (l.mergeSort fun a b => (cmp a b).isLE) = m.mergeSort fun a b => (cmp a b).isLE := by
  have hl := List.mergeSort_perm l fun a b => (cmp a b).isLE
  have hm := List.mergeSort_perm m fun a b => (cmp a b).isLE
  refine List.Perm.eq_of_pairwise ?_ (ascends_mergeSort l) (ascends_mergeSort m)
    (hl.trans (h.trans hm.symm))
  intro a b ha hb hab hba
  exact hdistinct a (hl.mem_iff.mp ha) b (h.mem_iff.mpr (hm.mem_iff.mp hb)) (eq_of_isLE hab hba)

end GoroutineDump.Sorting
