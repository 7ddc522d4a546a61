import GoroutineDump.Goroutine

set_option autoImplicit false
set_option relaxedAutoImplicit false

namespace GoroutineDump

open Std (LawfulEqCmp OrientedCmp TransCmp)

private theorem SourceTree.rank_injective {a b : SourceTree} (h : a.rank = b.rank) : a = b := by
  revert h
  cases a <;> cases b <;> decide

instance : TransCmp Location.compare :=
  inferInstanceAs (TransCmp (compareLex _ (compareLex _ _)))

instance : LawfulEqCmp Location.compare where
  compare_self := Std.ReflCmp.compare_self
  eq_of_compare {a b} h := by
    obtain ⟨htree, hrest⟩ := compareLex_eq_eq.mp h
    obtain ⟨hfile, hline⟩ := compareLex_eq_eq.mp hrest
    have hfile : compare a.file b.file = .eq := hfile
    have hline : compare a.line b.line = .eq := hline
    have hrank : a.tree.rank = b.tree.rank := LawfulEqCmp.eq_of_compare htree
    have hkind := SourceTree.rank_injective hrank
    have hsame : a.file = b.file := LawfulEqCmp.eq_of_compare hfile
    have hnumber : a.line = b.line := LawfulEqCmp.eq_of_compare hline
    cases a
    cases b
    simp_all

instance : TransCmp compareStacks := inferInstanceAs (TransCmp (List.compareLex _))

instance : LawfulEqCmp compareStacks := inferInstanceAs (LawfulEqCmp (List.compareLex _))

theorem compareStacks_eq_iff {s t : List Location} : compareStacks s t = .eq ↔ s = t :=
  Std.LawfulEqCmp.compare_eq_iff_eq

@[simp] theorem compareStacks_self (s : List Location) : compareStacks s s = .eq :=
  compareStacks_eq_iff.mpr rfl

instance : TransCmp fun a b : Goroutine => compareStacks a.locations b.locations where
  eq_swap := Std.OrientedCmp.eq_swap
  isLE_trans := TransCmp.isLE_trans

namespace Goroutine

private theorem transCmp_isEntry : TransCmp fun a b => compareOn isEntry b a :=
  TransCmp.opposite

private theorem transCmp_blocked :
    TransCmp fun a b => compareOn (fun g : Goroutine => g.blocked.nanoseconds) b a :=
  TransCmp.opposite

instance : TransCmp Goroutine.compare :=
  have := transCmp_isEntry
  have := transCmp_blocked
  inferInstanceAs (TransCmp (compareLex _ (compareLex _ _)))

def IsEntry (g : Goroutine) : Prop :=
  ∃ frame, g.stack.getLast? = some frame ∧ frame.call.origin = false

theorem isEntry_iff {g : Goroutine} : g.isEntry = true ↔ g.IsEntry := by
  simp [isEntry, IsEntry, Option.any_eq_true]

instance (g : Goroutine) : Decidable g.IsEntry := decidable_of_iff _ isEntry_iff

end Goroutine

/-- A comparison by which things stand in a line: only equals tie, the other way round it says the
opposite, and what comes before something comes before all that follows it. -/
structure IsLinear {α : Type} (cmp : α → α → Ordering) : Prop where
  eq_iff : ∀ a b, cmp a b = .eq ↔ a = b
  swap : ∀ a b, cmp b a = (cmp a b).swap
  trans : ∀ a b c, cmp a b = .lt → cmp b c = .lt → cmp a c = .lt

private theorem isLinear_of_transCmp {α : Type} (cmp : α → α → Ordering) [TransCmp cmp]
    [LawfulEqCmp cmp] : IsLinear cmp where
  eq_iff _ _ := LawfulEqCmp.compare_eq_iff_eq
  swap _ _ := OrientedCmp.eq_swap
  trans _ _ _ := TransCmp.lt_trans

/-- A location comes before another one if its tree does; within one tree if its file does, by the
code point in which they first differ; and within one file if its line does. -/
inductive Location.Precedes (a b : Location) : Prop
  | tree : [a.tree, b.tree].Sublist [.project, .runtime, .library, .generated] → Precedes a b
  | file : a.tree = b.tree →
      List.Lex (fun c d : Char => c.toNat < d.toNat) a.file.toList b.file.toList → Precedes a b
  | line : a.tree = b.tree → a.file = b.file → a.line < b.line → Precedes a b

private theorem SourceTree.rank_lt_iff (a b : SourceTree) :
    a.rank < b.rank ↔ [a, b].Sublist [.project, .runtime, .library, .generated] := by
  cases a <;> cases b <;> decide

private theorem compare_file_eq_lt_iff (s t : String) :
    compare s t = .lt ↔ List.Lex (fun c d : Char => c.toNat < d.toNat) s.toList t.toList :=
  compareOfLessAndEq_eq_lt.trans String.lt_iff

private theorem Location.compare_eq_then (a b : Location) :
    Location.compare a b = (Ord.compare a.tree.rank b.tree.rank).then
      ((Ord.compare a.file b.file).then (Ord.compare a.line b.line)) :=
  rfl

theorem Location.compare_eq_lt_iff {a b : Location} :
    Location.compare a b = .lt ↔ a.Precedes b := by
  have hrank : a.tree.rank = b.tree.rank ↔ a.tree = b.tree :=
    ⟨SourceTree.rank_injective, congrArg SourceTree.rank⟩
  rw [compare_eq_then, Ordering.then_eq_lt, Ordering.then_eq_lt, Nat.compare_eq_lt,
    Nat.compare_eq_eq, SourceTree.rank_lt_iff, hrank, compare_file_eq_lt_iff,
    LawfulEqCmp.compare_eq_iff_eq, Std.compare_eq_lt]
  constructor
  · rintro (htree | ⟨htree, hfile | ⟨hfile, hline⟩⟩)
    · exact .tree htree
    · exact .file htree hfile
    · exact .line htree hfile hline
  · intro h
    cases h with
    | tree htree => exact .inl htree
    | file htree hfile => exact .inr ⟨htree, .inl hfile⟩
    | line htree hfile hline => exact .inr ⟨htree, .inr ⟨hfile, hline⟩⟩

/-- A stack comes before another one if the other one goes on where it ends, or if of the first two
locations that differ its own comes before the other one. -/
inductive StackPrecedes : List Location → List Location → Prop
  | beginning (s : List Location) (l : Location) (rest : List Location) :
      StackPrecedes s (s ++ l :: rest)
  | difference (common : List Location) {a b : Location} (s t : List Location) :
      a.Precedes b → StackPrecedes (common ++ a :: s) (common ++ b :: t)

private theorem compareStacks_cons (a b : Location) (s t : List Location) :
    compareStacks (a :: s) (b :: t) = (Location.compare a b).then (compareStacks s t) :=
  List.compareLex_cons_cons

private theorem compareStacks_append (common s t : List Location) :
    compareStacks (common ++ s) (common ++ t) = compareStacks s t := by
  induction common with
  | nil => rfl
  | cons l common ih =>
    have hself : Location.compare l l = .eq := LawfulEqCmp.compare_eq_iff_eq.mpr rfl
    rw [List.cons_append, List.cons_append, compareStacks_cons, hself, ih]
    rfl

private theorem StackPrecedes.cons (l : Location) {s t : List Location} (h : StackPrecedes s t) :
    StackPrecedes (l :: s) (l :: t) := by
  cases h with
  | beginning s l' rest => exact .beginning (l :: s) l' rest
  | difference common s t hab => exact .difference (l :: common) s t hab

theorem compareStacks_eq_lt_iff {s t : List Location} :
    compareStacks s t = .lt ↔ StackPrecedes s t := by
  constructor
  · intro h
    induction s generalizing t with
    | nil =>
      cases t with
      | nil => cases h
      | cons l t => exact .beginning [] l t
    | cons a s ih =>
      cases t with
      | nil => cases h
      | cons b t =>
        rw [compareStacks_cons, Ordering.then_eq_lt] at h
        rcases h with hless | ⟨hequal, hrest⟩
        · exact .difference [] s t (Location.compare_eq_lt_iff.mp hless)
        · obtain rfl : a = b := LawfulEqCmp.eq_of_compare hequal
          exact (ih hrest).cons a
  · intro h
    cases h with
    | beginning _ l rest =>
      have hshort := compareStacks_append s [] (l :: rest)
      rw [List.append_nil] at hshort
      exact hshort
    | @difference common a b s t hab =>
      rw [compareStacks_append, compareStacks_cons, Location.compare_eq_lt_iff.mpr hab]
      rfl

/-- Locations stand in a line, ordered by tree, file and line, and so do stacks. A stack comes before
all that it is a proper beginning of, and two stacks with a common beginning compare as what follows
it does. -/
theorem compareStacks_linear :
    (IsLinear Location.compare ∧ ∀ a b, Location.compare a b = .lt ↔ a.Precedes b) ∧
    (IsLinear compareStacks ∧ ∀ s t, compareStacks s t = .lt ↔ StackPrecedes s t) ∧
    (∀ s t, s <+: t → s ≠ t → compareStacks s t = .lt) ∧
    ∀ common s t, compareStacks (common ++ s) (common ++ t) = compareStacks s t := by
  refine ⟨⟨isLinear_of_transCmp _, fun _ _ => Location.compare_eq_lt_iff⟩,
    ⟨isLinear_of_transCmp _, fun _ _ => compareStacks_eq_lt_iff⟩, ?_, compareStacks_append⟩
  rintro s _ ⟨rest, rfl⟩ hne
  cases rest with
  | nil => exact absurd (List.append_nil s).symm hne
  | cons l rest => exact compareStacks_eq_lt_iff.mpr (.beginning s l rest)

private def stackInto (file : String) : List Location :=
  [⟨.generated, "_cgo_a", 1⟩, ⟨.runtime, file, 1⟩]

theorem compareStacks_linear_wideNames :
    compareStacks (stackInto "\uffff.go") (stackInto "😀.go") = .lt ∧
      compareStacks (stackInto "😀.go") (stackInto "😀.go" ++ stackInto "a.go") = .lt ∧
      compareStacks (stackInto "\uffff.go") (stackInto "😀.go" ++ stackInto "a.go") = .lt := by
  obtain ⟨-, ⟨hlinear, -⟩, hbeginning, -⟩ := compareStacks_linear
  have hfirst : compareStacks (stackInto "\uffff.go") (stackInto "😀.go") = .lt := by
    decide +kernel
  have hsecond := hbeginning (stackInto "😀.go") (stackInto "😀.go" ++ stackInto "a.go")
    (List.prefix_append _ _) (by decide)
  exact ⟨hfirst, hsecond, hlinear.trans _ _ _ hfirst hsecond⟩

end GoroutineDump
