import Mathlib.Algebra.GroupWithZero.Nat
import Mathlib.Data.List.SplitBy
import GoroutineDump.Proofs.Goroutine.Order
import GoroutineDump.Proofs.Sorting

/-!
Sorting puts the goroutines of one stack next to each other and leaves them in their order, so the
runs of equal neighbours are the classes of the goroutines with equal stacks.
-/

set_option autoImplicit false
set_option relaxedAutoImplicit false

namespace GoroutineDump

open Std (TransCmp)

variable {gs : List Goroutine} {runs : List (List Goroutine)}

private theorem locations_ne_of_lt {a b : Goroutine}
    (hless : compareStacks a.locations b.locations = .lt) : a.locations ≠ b.locations := by
  intro heq
  rw [heq, compareStacks_self] at hless
  cases hless

abbrev NotAbove (a b : Goroutine) : Prop := (compareStacks a.locations b.locations).isLE = true

theorem perm_sortByStack (gs : List Goroutine) : (sortByStack gs).Perm gs :=
  List.mergeSort_perm gs _

theorem pairwise_sortByStack (gs : List Goroutine) : (sortByStack gs).Pairwise NotAbove :=
  Sorting.ascends_mergeSort gs

private theorem filter_sortByStack (gs : List Goroutine) (stack : List Location) :
    (sortByStack gs).filter (·.locations = stack) = gs.filter (·.locations = stack) := by
  have hequal : (gs.filter (·.locations = stack)).Pairwise NotAbove := by
    refine List.pairwise_of_forall_mem_list ?_
    intro a ha b hb
    have hab : a.locations = b.locations := by
      rw [of_decide_eq_true (List.mem_filter.mp ha).2, of_decide_eq_true (List.mem_filter.mp hb).2]
    rw [NotAbove, hab, compareStacks_self]
    rfl
  rw [sortByStack, Sorting.filter_mergeSort]
  exact List.mergeSort_of_pairwise hequal

/-- Runs of goroutines with equal stacks, one run for each stack, by ascending stack. -/
structure StackRuns (runs : List (List Goroutine)) : Prop where
  same : ∀ run ∈ runs, ∀ a ∈ run, ∀ b ∈ run, a.locations = b.locations
  ascending : runs.Pairwise fun first second =>
    ∀ a ∈ first, ∀ b ∈ second, compareStacks a.locations b.locations = .lt

def Ends (first second : List Goroutine) : Prop :=
  ∃ a ∈ first, ∃ b, second.head? = some b ∧ a.locations ≠ b.locations

private theorem locations_eq_of_mem_splitBy {run : List Goroutine}
    (hrun : run ∈ gs.splitBy fun a b => compareStacks a.locations b.locations == .eq) :
    ∀ a ∈ run, ∀ b ∈ run, a.locations = b.locations := by
  have hchain : run.IsChain fun a b => a.locations = b.locations := by
    refine (List.isChain_of_mem_splitBy hrun).imp ?_
    intro a b hab
    exact compareStacks_eq_iff.mp (beq_iff_eq.mp hab)
  have htrans : IsTrans Goroutine fun a b => a.locations = b.locations := ⟨fun _ _ _ => Eq.trans⟩
  have hsymm : Std.Symm fun a b : Goroutine => a.locations = b.locations := ⟨fun _ _ => Eq.symm⟩
  have hpairwise : run.Pairwise fun a b => a.locations = b.locations :=
    List.isChain_iff_pairwise.mp hchain
  intro a ha b hb
  exact hpairwise.forall_of_forall (fun g _ => (rfl : g.locations = g.locations)) ha hb

private theorem isChain_ends_splitBy (gs : List Goroutine) :
    (gs.splitBy fun a b => compareStacks a.locations b.locations == .eq).IsChain Ends := by
  refine (List.isChain_getLast_head_splitBy _ gs).imp ?_
  rintro first second ⟨hfirst, hsecond, hdiffer⟩
  refine ⟨first.getLast hfirst, List.getLast_mem hfirst, second.head hsecond,
    List.head?_eq_some_head hsecond, ?_⟩
  intro heq
  rw [heq, compareStacks_self] at hdiffer
  cases hdiffer

private theorem lt_of_isChain {run : List Goroutine}
    (hsame : ∀ a ∈ run, ∀ b ∈ run, a.locations = b.locations)
    (hsorted : (run :: runs).flatten.Pairwise NotAbove) (hchain : (run :: runs).IsChain Ends) :
    ∀ a ∈ run, ∀ b ∈ runs.flatten, compareStacks a.locations b.locations = .lt := by
  intro a ha b hb
  cases runs with
  | nil => simp at hb
  | cons next rest =>
    obtain ⟨⟨last, hlast, head, hhead, hdiffer⟩, -⟩ := List.isChain_cons_cons.mp hchain
    obtain ⟨tail, rfl⟩ := List.head?_eq_some_iff.mp hhead
    rw [List.flatten_cons, List.pairwise_append] at hsorted
    obtain ⟨-, hrest, hacross⟩ := hsorted
    have hless : compareStacks a.locations head.locations = .lt := by
      have hle : NotAbove a head := hacross a ha head (by simp)
      cases hcompare : compareStacks a.locations head.locations with
      | lt => rfl
      | eq => exact absurd ((hsame last hlast a ha).trans (compareStacks_eq_iff.mp hcompare)) hdiffer
      | gt => simp [NotAbove, hcompare] at hle
    rw [List.flatten_cons, List.cons_append] at hrest hb
    rcases List.mem_cons.mp hb with rfl | hb
    · exact hless
    · exact TransCmp.lt_of_lt_of_isLE hless ((List.pairwise_cons.mp hrest).1 b hb)

private theorem ascending_of_isChain
    (hsame : ∀ run ∈ runs, ∀ a ∈ run, ∀ b ∈ run, a.locations = b.locations)
    (hsorted : runs.flatten.Pairwise NotAbove) (hchain : runs.IsChain Ends) :
    runs.Pairwise fun first second =>
      ∀ a ∈ first, ∀ b ∈ second, compareStacks a.locations b.locations = .lt := by
  induction runs with
  | nil => exact .nil
  | cons run runs ih =>
    have hbefore := lt_of_isChain (hsame run List.mem_cons_self) hsorted hchain
    rw [List.flatten_cons, List.pairwise_append] at hsorted
    refine .cons ?_ (ih (fun r hr => hsame r (List.mem_cons_of_mem run hr)) hsorted.2.1 hchain.tail)
    intro other hother a ha b hb
    exact hbefore a ha b (List.mem_flatten.mpr ⟨other, hother, hb⟩)

private theorem stackRuns_splitBy (hsorted : gs.Pairwise NotAbove) :
    StackRuns (gs.splitBy fun a b => compareStacks a.locations b.locations == .eq) where
  same _ := locations_eq_of_mem_splitBy
  ascending := by
    refine ascending_of_isChain (fun _ => locations_eq_of_mem_splitBy) ?_ (isChain_ends_splitBy gs)
    rw [List.flatten_splitBy]
    exact hsorted

private theorem StackRuns.filter_flatten (h : StackRuns runs) {run : List Goroutine}
    (hrun : run ∈ runs)
    {g : Goroutine} (hg : g ∈ run) : runs.flatten.filter (·.locations = g.locations) = run := by
  obtain ⟨before, after, rfl⟩ := List.append_of_mem hrun
  have hascending := h.ascending
  rw [List.pairwise_append, List.pairwise_cons] at hascending
  obtain ⟨-, ⟨hafter, -⟩, hbefore⟩ := hascending
  have hfront : before.flatten.filter (·.locations = g.locations) = [] := by
    rw [List.filter_eq_nil_iff]
    intro a ha
    obtain ⟨first, hfirst, ha⟩ := List.mem_flatten.mp ha
    simpa using locations_ne_of_lt (hbefore first hfirst run List.mem_cons_self a ha g hg)
  have hback : after.flatten.filter (·.locations = g.locations) = [] := by
    rw [List.filter_eq_nil_iff]
    intro b hb
    obtain ⟨second, hsecond, hb⟩ := List.mem_flatten.mp hb
    simpa using (locations_ne_of_lt (hafter second hsecond g hg b hb)).symm
  have hown : run.filter (·.locations = g.locations) = run := by
    rw [List.filter_eq_self]
    intro a ha
    simpa using h.same run hrun a ha g hg
  rw [List.flatten_append, List.flatten_cons, List.filter_append, List.filter_append, hfront, hown,
    hback, List.append_nil, List.nil_append]

private theorem StackGroup.ofRun?_eq_some_iff {run : List Goroutine} {group : StackGroup} :
    ofRun? run = some group ↔
      ∃ g ∈ run, run.head? = some g ∧ group = ⟨g.locations, run.map (·.calls)⟩ := by
  cases run with
  | nil => simp [ofRun?]
  | cons g run => simp [ofRun?, eq_comm]

private theorem exists_ofRun? {run : List Goroutine}
    (hsame : ∀ a ∈ run, ∀ b ∈ run, a.locations = b.locations) {g : Goroutine} (hg : g ∈ run) :
    ∃ group, StackGroup.ofRun? run = some group ∧ group.stack = g.locations := by
  cases run with
  | nil => cases hg
  | cons head run => exact ⟨_, rfl, hsame head List.mem_cons_self g hg⟩

private theorem sum_size_filterMap (runs : List (List Goroutine)) :
    ((runs.filterMap StackGroup.ofRun?).map StackGroup.size).sum =
      (runs.map List.length).sum := by
  induction runs with
  | nil => rfl
  | cons run runs ih =>
    cases run with
    | nil =>
      rw [List.filterMap_cons_none rfl, ih]
      simp
    | cons g run => simp [StackGroup.ofRun?, StackGroup.size, ih]

private theorem StackRuns.groups_ascending (h : StackRuns runs) :
    (runs.filterMap StackGroup.ofRun?).Pairwise fun first second =>
      first.stack ≠ second.stack ∧ compareStacks first.stack second.stack = .lt := by
  refine List.pairwise_filterMap.mpr (h.ascending.imp ?_)
  intro first second hless a ha b hb
  obtain ⟨g, hg, -, rfl⟩ := StackGroup.ofRun?_eq_some_iff.mp ha
  obtain ⟨other, hother, -, rfl⟩ := StackGroup.ofRun?_eq_some_iff.mp hb
  exact ⟨locations_ne_of_lt (hless g hg other hother), hless g hg other hother⟩

private theorem stackRuns_sortByStack (gs : List Goroutine) :
    StackRuns ((sortByStack gs).splitBy fun a b =>
      compareStacks a.locations b.locations == .eq) :=
  stackRuns_splitBy (pairwise_sortByStack gs)

private theorem exists_of_mem_groupByStack {group : StackGroup} (h : group ∈ groupByStack gs) :
    ∃ g ∈ gs, g.locations = group.stack ∧
      group.calls = (gs.filter (·.locations = group.stack)).map (·.calls) := by
  obtain ⟨run, hrun, hof⟩ := List.mem_filterMap.mp h
  obtain ⟨g, hg, -, rfl⟩ := StackGroup.ofRun?_eq_some_iff.mp hof
  have hclass := (stackRuns_sortByStack gs).filter_flatten hrun hg
  rw [List.flatten_splitBy, filter_sortByStack] at hclass
  have hmem : g ∈ gs.filter (·.locations = g.locations) := hclass ▸ hg
  exact ⟨g, (List.mem_filter.mp hmem).1, rfl, by rw [hclass]⟩

private theorem exists_group_of_mem {g : Goroutine} (hg : g ∈ gs) :
    ∃ group ∈ groupByStack gs, group.stack = g.locations := by
  have hsorted : g ∈ sortByStack gs := (perm_sortByStack gs).mem_iff.mpr hg
  rw [← List.flatten_splitBy (fun a b => compareStacks a.locations b.locations == .eq)
    (sortByStack gs)] at hsorted
  obtain ⟨run, hrun, hg⟩ := List.mem_flatten.mp hsorted
  obtain ⟨group, hof, hstack⟩ := exists_ofRun? ((stackRuns_sortByStack gs).same run hrun) hg
  exact ⟨group, List.mem_filterMap.mpr ⟨run, hrun, hof⟩, hstack⟩

theorem sum_size_groupByStack (gs : List Goroutine) :
    ((groupByStack gs).map StackGroup.size).sum = gs.length := by
  rw [groupByStack, sum_size_filterMap, ← List.length_flatten, List.flatten_splitBy]
  exact (perm_sortByStack gs).length_eq

/-- Grouping loses no goroutine, adds none and puts none with another stack: the groups are the
classes of the goroutines with equal stacks, by strictly ascending stack, each with the calls of its
goroutines in the order of the list. -/
theorem groupByStack_partition (gs : List Goroutine) :
    (groupByStack gs).Pairwise (fun first second => first.stack ≠ second.stack ∧
      compareStacks first.stack second.stack = .lt) ∧
    (∀ stack, (∃ group ∈ groupByStack gs, group.stack = stack) ↔
      ∃ g ∈ gs, g.locations = stack) ∧
    (∀ group ∈ groupByStack gs,
      group.calls = (gs.filter (·.locations = group.stack)).map (·.calls) ∧
      (∀ calls ∈ group.calls, calls.length = group.stack.length) ∧ group.isEmpty = false) ∧
    ((groupByStack gs).map StackGroup.size).sum = gs.length := by
  refine ⟨(stackRuns_sortByStack gs).groups_ascending, ?_, ?_, sum_size_groupByStack gs⟩
  · intro stack
    constructor
    · rintro ⟨group, hgroup, rfl⟩
      obtain ⟨g, hg, hstack, -⟩ := exists_of_mem_groupByStack hgroup
      exact ⟨g, hg, hstack⟩
    · rintro ⟨g, hg, rfl⟩
      exact exists_group_of_mem hg
  · intro group hgroup
    obtain ⟨g, hg, hstack, hcalls⟩ := exists_of_mem_groupByStack hgroup
    refine ⟨hcalls, ?_, ?_⟩
    · intro calls hmem
      rw [hcalls] at hmem
      obtain ⟨member, hmember, rfl⟩ := List.mem_map.mp hmem
      have hlocations := of_decide_eq_true (List.mem_filter.mp hmember).2
      rw [← hlocations, Goroutine.calls, Goroutine.locations, List.length_map, List.length_map]
    · have hmember : g ∈ gs.filter (·.locations = group.stack) :=
        List.mem_filter.mpr ⟨hg, decide_eq_true hstack⟩
      rw [StackGroup.isEmpty, hcalls, List.isEmpty_eq_false_iff, ne_eq, List.map_eq_nil_iff]
      exact List.ne_nil_of_mem hmember

example :
    let waiting (line : UInt64) (method : String) : Goroutine :=
      { id := line, state := "running",
        stack := [⟨⟨.project, "a.go", line⟩, { package := "main", method }, {}⟩] }
    ((groupByStack [waiting 2 "f", waiting 1 "g", waiting 2 "h"]).map fun group =>
      (group.stack.map (·.line), group.calls.map fun calls => calls.map (·.method))) =
        [([1], [["g"]]), ([2], [["f"], ["h"]])] := by
  cbv

end GoroutineDump
