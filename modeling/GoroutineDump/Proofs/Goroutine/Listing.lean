import Mathlib.Data.List.Nodup
import GoroutineDump.Proofs.Goroutine.Order
import GoroutineDump.Proofs.Sorting

set_option autoImplicit false
set_option relaxedAutoImplicit false

namespace GoroutineDump

open Sorting (Ascends SameTies)
open Std (OrientedCmp TransCmp)

namespace Goroutine

variable {a b : Goroutine}

/-- Two goroutines agree in all that decides their places in a listing. -/
def SameKeys (a b : Goroutine) : Prop :=
  (a.IsEntry ↔ b.IsEntry) ∧ a.blocked = b.blocked ∧ a.id = b.id

instance (a b : Goroutine) : Decidable (SameKeys a b) := instDecidableAnd

/-- A goroutine may stand before another one if, first, it is an entry goroutine or the other one is
none; if, where this does not tell them apart, it has been blocked for at least as long; and if its
number is at most that of the other one, where this does not either. -/
structure MayPrecede (a b : Goroutine) : Prop where
  entry : b.IsEntry → a.IsEntry
  blocked : (a.IsEntry ↔ b.IsEntry) → b.blocked.nanoseconds ≤ a.blocked.nanoseconds
  id : (a.IsEntry ↔ b.IsEntry) → a.blocked = b.blocked → a.id ≤ b.id

private theorem blocked_eq_iff : a.blocked = b.blocked ↔
    b.blocked.nanoseconds = a.blocked.nanoseconds := by
  rw [Duration.mk.injEq, eq_comm]

private theorem compare_eq_then (a b : Goroutine) :
    Goroutine.compare a b = (Ord.compare b.isEntry a.isEntry).then
      ((Ord.compare b.blocked.nanoseconds a.blocked.nanoseconds).then (Ord.compare a.id b.id)) :=
  rfl

private theorem compare_isEntry_eq_lt_iff :
    Ord.compare b.isEntry a.isEntry = .lt ↔ a.IsEntry ∧ ¬ b.IsEntry := by
  rw [← isEntry_iff, ← isEntry_iff]
  cases a.isEntry <;> cases b.isEntry <;> decide

private theorem compare_isEntry_eq_eq_iff :
    Ord.compare b.isEntry a.isEntry = .eq ↔ (a.IsEntry ↔ b.IsEntry) := by
  rw [← isEntry_iff, ← isEntry_iff]
  cases a.isEntry <;> cases b.isEntry <;> decide

theorem compare_isLE_iff : (Goroutine.compare a b).isLE = true ↔ MayPrecede a b := by
  rw [compare_eq_then, Ordering.isLE_then_iff_or, Ordering.isLE_then_iff_or,
    compare_isEntry_eq_lt_iff, compare_isEntry_eq_eq_iff, Nat.compare_eq_lt, Nat.compare_eq_eq,
    Std.isLE_compare, ← blocked_eq_iff]
  constructor
  · rintro (⟨ha, hb⟩ | ⟨hsame, hless | ⟨heq, hid⟩⟩)
    · exact ⟨fun _ => ha, fun hsame => absurd (hsame.mp ha) hb, fun hsame => absurd (hsame.mp ha) hb⟩
    · refine ⟨hsame.mpr, fun _ => Nat.le_of_lt hless, fun _ heq => ?_⟩
      exact absurd (blocked_eq_iff.mp heq) (Nat.ne_of_lt hless)
    · exact ⟨hsame.mpr, fun _ => Nat.le_of_eq (blocked_eq_iff.mp heq), fun _ _ => hid⟩
  · intro h
    by_cases hsame : a.IsEntry ↔ b.IsEntry
    · right
      refine ⟨hsame, (Nat.lt_or_eq_of_le (h.blocked hsame)).imp_right fun heq => ?_⟩
      have heq := blocked_eq_iff.mpr heq
      exact ⟨heq, h.id hsame heq⟩
    · left
      have hb : ¬ b.IsEntry := fun hb => hsame ⟨fun _ => hb, fun _ => h.entry hb⟩
      exact ⟨by_contra fun ha => hsame (iff_of_false ha hb), hb⟩

theorem compare_eq_iff : Goroutine.compare a b = .eq ↔ SameKeys a b := by
  rw [compare_eq_then, Ordering.then_eq_eq, Ordering.then_eq_eq, compare_isEntry_eq_eq_iff,
    Nat.compare_eq_eq, Std.LawfulEqOrd.compare_eq_iff_eq, ← blocked_eq_iff]
  rfl

end Goroutine

/-- A list of the same goroutines in the order of a listing: none stands before one that has to come
before it, and those with the same keys are in the order in which `gs` has them. -/
structure IsListing (gs listed : List Goroutine) : Prop where
  perm : listed.Perm gs
  ordered : listed.Pairwise Goroutine.MayPrecede
  stable : ∀ g, listed.filter (Goroutine.SameKeys g) = gs.filter (Goroutine.SameKeys g)

private theorem sameTies_iff {gs listed : List Goroutine} :
    SameTies Goroutine.compare listed gs ↔
      ∀ g, listed.filter (Goroutine.SameKeys g) = gs.filter (Goroutine.SameKeys g) := by
  have hties (g other : Goroutine) :
      (Goroutine.compare g other == .eq) = decide (Goroutine.SameKeys g other) := by
    rw [Bool.eq_iff_iff, beq_iff_eq, decide_eq_true_iff, Goroutine.compare_eq_iff]
  simp only [SameTies, hties]

/-- Each list of goroutines has one listing, which is what sorting gives. -/
private theorem isListing_iff {gs listed : List Goroutine} :
    IsListing gs listed ↔ listed = sortGoroutines gs := by
  have hordered : listed.Pairwise Goroutine.MayPrecede ↔ Ascends Goroutine.compare listed := by
    simp only [Ascends, Goroutine.compare_isLE_iff]
  rw [sortGoroutines, Sorting.eq_mergeSort_iff, ← hordered, sameTies_iff]
  constructor
  · exact fun h => ⟨h.ordered, h.stable⟩
  · rintro ⟨hascends, hstable⟩
    have heq := Sorting.eq_mergeSort_iff.mpr ⟨hordered.mp hascends, sameTies_iff.mpr hstable⟩
    exact ⟨heq ▸ List.mergeSort_perm gs _, hascends, hstable⟩

private theorem sortGoroutines_eq_of_perm {gs others : List Goroutine} (h : gs.Perm others)
    (hids : (gs.map (·.id)).Nodup) : sortGoroutines gs = sortGoroutines others := by
  refine Sorting.mergeSort_eq_of_perm h ?_
  intro a ha b hb htie
  exact List.inj_on_of_nodup_map hids ha hb (Goroutine.compare_eq_iff.mp htie).2.2

/-- Sorting goroutines gives the one right order. It lists them with entry goroutines first, then
from the longest blocked to the least, then by number, and goroutines that agree in all of these as
they were (`IsListing`); there is no other such list. The comparison behind it is a total preorder.
Where numbers differ, the order of the list that is sorted does not matter. -/
theorem sortGoroutines_one_order :
    (∀ gs listed, IsListing gs listed ↔ listed = sortGoroutines gs) ∧
    ((∀ a b, Goroutine.compare b a = (Goroutine.compare a b).swap) ∧
      (∀ a b, (Goroutine.compare a b).isLE = true ∨ (Goroutine.compare b a).isLE = true) ∧
      ∀ a b c, (Goroutine.compare a b).isLE = true → (Goroutine.compare b c).isLE = true →
        (Goroutine.compare a c).isLE = true) ∧
    (∀ gs others, gs.Perm others → (gs.map (·.id)).Nodup →
      sortGoroutines gs = sortGoroutines others) ∧
    ∀ gs, sortGoroutines (sortGoroutines gs) = sortGoroutines gs := by
  refine ⟨fun _ _ => isListing_iff, ⟨fun _ _ => OrientedCmp.eq_swap, fun a b => ?_, fun _ _ _ =>
    TransCmp.isLE_trans⟩, fun _ _ => sortGoroutines_eq_of_perm, fun gs => ?_⟩
  · exact Bool.or_eq_true_iff.mp (Sorting.isLE_total a b)
  · exact List.mergeSort_of_pairwise (Sorting.ascends_mergeSort gs)

private def startedWorker (id minutes : UInt64) : Goroutine where
  id := id
  state := "select"
  blocked := Duration.ofMinutes minutes
  stack := [⟨⟨.project, "w.go", 1⟩, { package := "main", method := "w", origin := true }, {}⟩]

private def initialGoroutine : Goroutine where
  id := 9
  state := "running"
  stack := [⟨⟨.project, "m.go", 1⟩, { package := "main", method := "main" }, {}⟩]

private def dumped : List Goroutine :=
  [startedWorker 3 2, startedWorker 2 2, startedWorker 4 7, initialGoroutine]

theorem sortGoroutines_one_order_reversed :
    dumped.Perm dumped.reverse ∧ (dumped.map (·.id)).Nodup ∧
      (sortGoroutines dumped).map (·.id) = [9, 4, 2, 3] ∧
      sortGoroutines dumped = sortGoroutines dumped.reverse := by
  have hperm : dumped.Perm dumped.reverse := by decide
  have hids : (dumped.map (·.id)).Nodup := by decide
  obtain ⟨-, -, hsame, -⟩ := sortGoroutines_one_order
  have hlisted : sortGoroutines dumped =
      [initialGoroutine, startedWorker 4 7, startedWorker 2 2, startedWorker 3 2] :=
    (hsame dumped _ (by decide) hids).trans (List.mergeSort_of_pairwise (by decide))
  refine ⟨hperm, hids, ?_, hsame dumped dumped.reverse hperm hids⟩
  rw [hlisted]
  rfl

end GoroutineDump
