import GoroutineDump.Proofs.Dump.Lookups

set_option autoImplicit false
set_option relaxedAutoImplicit false

namespace GoroutineDump

/-- What is found for a path when roots that `r` does not have are taken from `d`: the same as
before, or something in a tree whose root is taken from `d` and is tried sooner. -/
def Roots.Promotes (r d : Roots) (found found' : SourceTree × String) : Prop :=
  found' = found ∨
    (r.root found'.1 = "" ∧ d.root found'.1 ≠ "" ∧ TriedBefore found'.1 found.1)

/-- A frame of a dump that is read with the roots of `d` where `r` has none: only its tree and its
file may differ, only towards a tree whose root is taken from `d` and is tried sooner, and not if it
is generated. -/
structure Frame.Promoted (r d : Roots) (f f' : Frame) : Prop where
  rest : f' = f.movedTo (f'.location.tree, f'.location.file)
  place : f' = f ∨ (r.root f'.location.tree = "" ∧ d.root f'.location.tree ≠ "" ∧
    Roots.TriedBefore f'.location.tree f.location.tree)
  generated : f.location.tree = .generated → f' = f

namespace Roots

variable {r d : Roots} {tree : SourceTree} {path : String}

private theorem root_withDefaults_of_set (h : r.root tree ≠ "") :
    (r.withDefaults d).root tree = r.root tree := by
  rw [root_withDefaults, if_neg (mt String.isEmpty_iff.mp h)]

private theorem root_withDefaults_of_unset (h : r.root tree = "") :
    (r.withDefaults d).root tree = d.root tree := by
  rw [root_withDefaults, if_pos (String.isEmpty_iff.mpr h)]

private theorem fileIn?_withDefaults_of_set (h : r.root tree ≠ "") (path : List Char) :
    (r.withDefaults d).fileIn? path tree = r.fileIn? path tree := by
  rw [fileIn?, fileIn?, root_withDefaults_of_set h]

private theorem matches_withDefaults_of_set (h : r.root tree ≠ "") :
    (r.withDefaults d).Matches tree path ↔ r.Matches tree path := by
  rw [Matches, Matches, root_withDefaults_of_set h]

/-- With defaults filled in, a path that was found is found again, in the same place or in a tree
whose root was not set and is tried sooner. -/
theorem carries_withDefaults (r d : Roots) :
    Dump.Carries (Promotes r d) r (r.withDefaults d) := by
  rintro path ⟨tree, file⟩ hfound
  by_cases htree : tree = .generated
  · subst htree
    obtain ⟨hmark, rfl⟩ := classify_generated_iff.mp hfound
    exact ⟨_, classify_of_mark hmark, .inl rfl⟩
  · obtain ⟨hmark, hfile, hearlier⟩ := (classify_eq_some_iff htree).mp hfound
    have hset : r.root tree ≠ "" := (fileIn?_eq_some_iff.mp hfile).2.1
    have hmatches : (r.withDefaults d).Matches tree path :=
      (matches_withDefaults_of_set hset).mpr (matches_of_fileIn? hfile)
    cases hfound' : (r.withDefaults d).classify path with
    | none => exact absurd hmatches ((classify_eq_none_iff.mp hfound').2 tree)
    | some found =>
      obtain ⟨tree', file'⟩ := found
      have htree' : tree' ≠ .generated := by
        rintro rfl
        exact hmark (classify_generated_iff.mp hfound').1
      obtain ⟨-, hfile', hearlier'⟩ := (classify_eq_some_iff htree').mp hfound'
      refine ⟨(tree', file'), rfl, ?_⟩
      rcases eq_or_triedBefore htree htree' with rfl | hsooner | hlater
      · left
        rw [fileIn?_withDefaults_of_set hset, hfile] at hfile'
        exact (Option.some.inj hfile').symm
      · right
        have hunset : r.root tree' = "" := by
          by_contra hset'
          -- A root that was set claims no more than before, when it was tried without success.
          apply hearlier tree' hsooner
          exact (matches_withDefaults_of_set hset').mp (matches_of_fileIn? hfile')
        have hset' : (r.withDefaults d).root tree' ≠ "" := (fileIn?_eq_some_iff.mp hfile').2.1
        rw [root_withDefaults_of_unset hunset] at hset'
        exact ⟨hunset, hset', hsooner⟩
      · exact absurd hmatches (hearlier' tree hlater)

end Roots

private theorem Frame.promoted_of_follows {r d : Roots} {f f' : Frame}
    (h : Dump.Follows (r.Promotes d) f f') : f.Promoted r d f' := by
  obtain ⟨found, hmove, rfl⟩ := h
  rcases hmove with rfl | hsooner
  · exact ⟨rfl, .inl rfl, fun _ => rfl⟩
  · refine ⟨rfl, .inr hsooner, fun hgenerated => ?_⟩
    exact absurd (hgenerated ▸ hsooner.2.2) (Roots.not_triedBefore_generated found.1)

/-- Filling in roots that are not set never breaks a dump. It is read as the same goroutines, with
the same frames but for those that a root which was not set before, and is tried sooner, claims. -/
theorem Dump.parse_withDefaults {r : Roots} {text : String} {gs : List Goroutine}
    (h : parse r text = .ok gs) (d : Roots) :
    ∃ gs', parse (r.withDefaults d) text = .ok gs' ∧ gs'.length = gs.length ∧
      List.Forall₂ (Goroutine.SameBut (Frame.Promoted r d)) gs gs' := by
  obtain ⟨gs', hparse, hsame⟩ := parse_of_carries (r.carries_withDefaults d) h
  refine ⟨gs', hparse, hsame.length_eq.symm, ?_⟩
  exact hsame.imp fun g g' hg => hg.imp fun f f' => Frame.promoted_of_follows

namespace Dump

def belowLibrary : String :=
  "goroutine 1 [x]:\nf(1)\n\t/go/src/app/a.go:3\ng(2)\n\t/go/pkg/b.go:4\nh()\n\t_cgo_c:5"

private theorem records_belowLibrary : records (Text.dumpLines belowLibrary.toList) =
    [["goroutine 1 [x]:".toList, "f(1)".toList, "\t/go/src/app/a.go:3".toList, "g(2)".toList,
      "\t/go/pkg/b.go:4".toList, "h()".toList, "\t_cgo_c:5".toList]] := by
  decide +kernel

private def threeFrames (first second third : Location) : Goroutine where
  id := 1
  state := "x"
  stack :=
    [⟨first, { package := "", method := "f", args := "1" }, {}⟩,
      ⟨second, { package := "", method := "g", args := "2" }, {}⟩,
      ⟨third, { package := "", method := "h" }, {}⟩]

def libraryOnly : Roots := ⟨"", "", "/go"⟩

def projectInLibrary : Roots := ⟨"/go/src/app", "/usr/go", "/src"⟩

theorem parse_withDefaults_project :
    ∃ gs, parse libraryOnly belowLibrary = .ok gs ∧
      gs.map (·.locations) = [[⟨.library, "src/app/a.go", 3⟩, ⟨.library, "pkg/b.go", 4⟩,
        ⟨.generated, "_cgo_c", 5⟩]] ∧
      ∃ gs', parse (libraryOnly.withDefaults projectInLibrary) belowLibrary = .ok gs' ∧
        gs'.map (·.locations) = [[⟨.project, "a.go", 3⟩, ⟨.library, "pkg/b.go", 4⟩,
          ⟨.generated, "_cgo_c", 5⟩]] ∧
        List.Forall₂ (Goroutine.SameBut (Frame.Promoted libraryOnly projectInLibrary)) gs gs' := by
  have hparse : parse libraryOnly belowLibrary =
      .ok [threeFrames ⟨.library, "src/app/a.go", 3⟩ ⟨.library, "pkg/b.go", 4⟩
        ⟨.generated, "_cgo_c", 5⟩] := by
    rw [parse, records_belowLibrary]
    rfl
  have hfilled : parse (libraryOnly.withDefaults projectInLibrary) belowLibrary =
      .ok [threeFrames ⟨.project, "a.go", 3⟩ ⟨.library, "pkg/b.go", 4⟩
        ⟨.generated, "_cgo_c", 5⟩] := by
    rw [parse, records_belowLibrary]
    rfl
  obtain ⟨gs', hparse', -, hsame⟩ := parse_withDefaults hparse projectInLibrary
  obtain rfl := Except.ok.inj (hfilled.symm.trans hparse')
  exact ⟨_, hparse, rfl, _, hfilled, rfl, hsame⟩

end Dump

end GoroutineDump
