import GoroutineDump.Proofs.Dump.Lookups

set_option autoImplicit false
set_option relaxedAutoImplicit false

namespace GoroutineDump

/-- A root without the slash at its end; the root of the file system is left as it is. -/
def Path.withoutSlash (root : String) : String :=
  if root = "/" then root else String.ofList (Text.chop '/' root.toList)

namespace Roots

def bare (r : Roots) : Roots :=
  ⟨Path.withoutSlash r.project, Path.withoutSlash r.runtime, Path.withoutSlash r.library⟩

def IsBareRoot (r : Roots) (path : String) : Prop :=
  ∃ tree, r.bare.root tree ≠ r.root tree ∧ path = r.bare.root tree

end Roots

namespace Path

theorem withoutSlash_normalize (path : String) :
    withoutSlash (normalize path) = normalize path ∨
      withoutSlash (normalize path) ≠ "" ∧
        (withoutSlash (normalize path)).toList.getLast? ≠ some '/' ∧
        (normalize path).toList = (withoutSlash (normalize path)).toList ++ ['/'] := by
  by_cases hpath : path = ""
  · rw [hpath]
    exact .inl rfl
  · have hclean := Directory.isClean_walk (path.toList.head?.any isSeparator) path.toList
    have htext := toList_normalize_walk hpath rfl
    rcases hclean.exists_text_eq with hroot | ⟨front, hne, hlast, hfront⟩
    · left
      have hnormal : normalize path = "/" := String.toList_injective (htext.trans hroot)
      rw [withoutSlash, if_pos hnormal]
    · right
      rw [hfront] at htext
      have hother : normalize path ≠ "/" := by
        intro heq
        rw [heq] at htext
        have hnone : front ++ ['/'] = [] ++ ['/'] := htext.symm
        exact hne (List.append_cancel_right hnone)
      have hbare : (withoutSlash (normalize path)).toList = front := by
        rw [withoutSlash, if_neg hother, htext, Text.chop_append_self, String.toList_ofList]
      rw [hbare]
      refine ⟨?_, hlast, htext⟩
      intro hempty
      rw [hempty] at hbare
      exact hne hbare.symm

end Path

namespace Roots

variable {r : Roots} {tree : SourceTree} {front : List Char}

@[simp]
theorem root_bare (r : Roots) (tree : SourceTree) :
    r.bare.root tree = Path.withoutSlash (r.root tree) := by
  cases tree <;> rfl

private theorem bare_root_cases (r : Roots) (tree : SourceTree) :
    r.normalized.bare.root tree = r.normalized.root tree ∨
      r.normalized.bare.root tree ≠ "" ∧
        (r.normalized.bare.root tree).toList.getLast? ≠ some '/' ∧
        (r.normalized.root tree).toList = (r.normalized.bare.root tree).toList ++ ['/'] := by
  rw [root_bare, root_normalized]
  exact Path.withoutSlash_normalize (r.root tree)

private theorem ne_of_append_slash {root bare : String} (h : root.toList = bare.toList ++ ['/']) :
    bare ≠ root ∧ root ≠ "" := by
  refine ⟨?_, ?_⟩
  · rintro rfl
    simp at h
  · rintro rfl
    simp at h

private theorem below?_bare (hlast : front.getLast? ≠ some '/') {path : List Char}
    (hpath : path ≠ front) :
    (below? front path).map dropSlashes = (below? (front ++ ['/']) path).map dropSlashes := by
  cases hwhole : below? (front ++ ['/']) path with
  | some rest =>
    obtain ⟨rfl, -⟩ := below?_eq_some_iff.mp hwhole
    have hbare : below? front (front ++ ['/'] ++ rest) = some ('/' :: rest) := by
      rw [below?_eq_some_iff, List.append_assoc]
      exact ⟨rfl, .inr (.inr rfl)⟩
    rw [hbare]
    rfl
  | none =>
    have hbare : below? front path = none := by
      rw [below?_eq_none_iff] at hwhole ⊢
      rintro ⟨rest, rfl, hends⟩
      cases rest with
      | nil => exact hpath (List.append_nil front)
      | cons c rest =>
        obtain rfl : c = '/' := by simpa [hlast] using hends
        exact hwhole ⟨rest, by simp, .inl List.getLast?_concat⟩
    rw [hbare]

private theorem not_covers_of_ne_slash (hlast : front.getLast? ≠ some '/') {c : Char} (hc : c ≠ '/')
    (more : List Char) :
    ¬ Covers (front ++ ['/']) (front ++ c :: more) ∧ ¬ Covers front (front ++ c :: more) := by
  refine ⟨?_, ?_⟩
  · rintro ⟨rest, hpath, -⟩
    rw [List.append_assoc] at hpath
    exact hc (List.cons.inj (List.append_cancel_left hpath)).1
  · rintro ⟨rest, hpath, hends⟩
    obtain rfl := List.append_cancel_left hpath
    simp [hlast, hc] at hends

private theorem fileIn?_bare {path : String} (h : ¬ r.normalized.IsBareRoot path)
    (tree : SourceTree) :
    r.normalized.bare.fileIn? path.toList tree = r.normalized.fileIn? path.toList tree := by
  rcases bare_root_cases r tree with hsame | ⟨hne, hlast, hwhole⟩
  · rw [fileIn?, fileIn?, hsame]
  · have hroot := ne_of_append_slash hwhole
    have hpath : path.toList ≠ (r.normalized.bare.root tree).toList := fun heq =>
      h ⟨tree, hroot.1, String.toList_injective heq⟩
    have hfile (found : Option (List Char)) :
        found.map (fun rest => (tree, String.ofList (dropSlashes rest))) =
          (found.map dropSlashes).map fun file => (tree, String.ofList file) := by
      rw [Option.map_map]
      rfl
    rw [fileIn?, fileIn?, if_neg (mt String.isEmpty_iff.mp hne),
      if_neg (mt String.isEmpty_iff.mp hroot.2), hfile, hfile, below?_bare hlast hpath, hwhole]

theorem classify_bare {path : String} (h : ¬ r.normalized.IsBareRoot path) :
    r.normalized.bare.classify path = r.normalized.classify path := by
  have hfile : r.normalized.bare.fileIn? path.toList = r.normalized.fileIn? path.toList :=
    funext (fileIn?_bare h)
  rw [classify, classify, hfile]

private theorem pathOf_bare (r : Roots) (l : Location) :
    r.normalized.bare.pathOf l = r.normalized.pathOf l := by
  rw [pathOf, pathOf]
  rcases bare_root_cases r l.tree with hsame | ⟨hne, hlast, hwhole⟩
  · rw [resolve, resolve, hsame]
  · have hroot := ne_of_append_slash hwhole
    apply String.toList_injective
    rw [toList_resolve hne, toList_resolve hroot.2, hwhole, joint, if_neg hlast, joint,
      if_pos List.getLast?_concat, List.append_nil]

private theorem fileIn?_of_ne_slash (hlost : r.normalized.bare.root tree ≠ r.normalized.root tree)
    {c : Char}
    (hc : c ≠ '/') {more : List Char} {path : String}
    (hpath : path.toList = (r.normalized.bare.root tree).toList ++ c :: more) :
    r.normalized.fileIn? path.toList tree = none ∧
      r.normalized.bare.fileIn? path.toList tree = none := by
  obtain ⟨-, hlast, hwhole⟩ := (bare_root_cases r tree).resolve_left hlost
  obtain ⟨hslash, hbare⟩ := not_covers_of_ne_slash hlast hc more
  rw [← hwhole, ← hpath] at hslash
  rw [← hpath] at hbare
  rw [fileIn?_eq_none_iff, fileIn?_eq_none_iff]
  exact ⟨fun hmatches => hslash hmatches.2, fun hmatches => hbare hmatches.2⟩

/-- Canonical roots are as good without the slashes at their ends. A path that is not that of such a
root is looked up with the same result, every place has the same path, and what goes on in the last
component of a root is not below it, with the slash and without. So a dump that does not name the
path of such a root is read with the same result. -/
theorem bare_agrees (r : Roots) :
    (∀ path, ¬ r.normalized.IsBareRoot path →
      r.normalized.bare.classify path = r.normalized.classify path) ∧
    (∀ l : Location, r.normalized.bare.pathOf l = r.normalized.pathOf l) ∧
    (∀ (tree : SourceTree) (path : String) (c : Char) (more : List Char),
      r.normalized.bare.root tree ≠ r.normalized.root tree → c ≠ '/' →
      path.toList = (r.normalized.bare.root tree).toList ++ c :: more →
        r.normalized.fileIn? path.toList tree = none ∧
          r.normalized.bare.fileIn? path.toList tree = none) ∧
    ∀ text, (∀ path, Dump.NamesPath text path → ¬ r.normalized.IsBareRoot path) →
      Dump.parse r.normalized.bare text = Dump.parse r.normalized text := by
  refine ⟨fun path h => classify_bare h, pathOf_bare r, ?_, ?_⟩
  · intro tree path c more hlost hc hpath
    exact fileIn?_of_ne_slash hlost hc hpath
  · intro text h
    apply Dump.parse_congr
    intro path hpath
    exact classify_bare (h path hpath)

def projectAndAll : Roots := ⟨"/proj/.", "", "/"⟩

def besideProject : String :=
  "goroutine 1 [x]:\nf(1)\n\t/proj//a.go:3\ng(2)\n\t/project/x.go:4"

private theorem not_isBareRoot {path : String} (h : path ≠ "/proj") :
    ¬ projectAndAll.normalized.IsBareRoot path := by
  rintro ⟨tree, hlost, rfl⟩
  cases tree with
  | project => exact h (by decide)
  | runtime | library | generated => exact hlost (by decide)

private theorem ne_of_namesPath {path : String} (h : Dump.NamesPath besideProject path) :
    path ≠ "/proj" := by
  have hall : (Dump.records (Text.dumpLines besideProject.toList)).all (fun record =>
      record.all fun line => (Dump.LocationFields.ofLine? line).all fun fields =>
        String.ofList fields.path != "/proj") = true := by
    decide +kernel
  obtain ⟨record, hrecord, line, hline, fields, hfields, rfl⟩ := h.exists_line
  have hpath := List.all_eq_true.mp (List.all_eq_true.mp hall record hrecord) line hline
  simpa [hfields] using hpath

private theorem parse_besideProject :
    Dump.parse projectAndAll.normalized besideProject =
      .ok [{ id := 1, state := "x",
             stack :=
               [⟨⟨.project, "a.go", 3⟩, { package := "", method := "f", args := "1" }, {}⟩,
                 ⟨⟨.library, "project/x.go", 4⟩,
                   { package := "", method := "g", args := "2" }, {}⟩] }] := by
  have hrecords : Dump.records (Text.dumpLines besideProject.toList) =
      [["goroutine 1 [x]:".toList, "f(1)".toList, "\t/proj//a.go:3".toList, "g(2)".toList,
        "\t/project/x.go:4".toList]] := by
    decide +kernel
  rw [Dump.parse, hrecords]
  rfl

theorem bare_agrees_besideProject :
    projectAndAll.normalized = ⟨"/proj/", "", "/"⟩ ∧
      projectAndAll.normalized.bare = ⟨"/proj", "", "/"⟩ ∧
      ¬ projectAndAll.normalized.IsBareRoot "/proj//a.go" ∧
      projectAndAll.normalized.bare.classify "/proj//a.go" = some (.project, "a.go") ∧
      projectAndAll.normalized.bare.pathOf ⟨.project, "a.go", 3⟩ = "/proj/a.go" ∧
      projectAndAll.normalized.bare.fileIn? "/project/x.go".toList .project = none ∧
      (∀ path, Dump.NamesPath besideProject path → ¬ projectAndAll.normalized.IsBareRoot path) ∧
      ∃ gs, Dump.parse projectAndAll.normalized.bare besideProject = .ok gs ∧
        gs.map (·.locations) = [[⟨.project, "a.go", 3⟩, ⟨.library, "project/x.go", 4⟩]] := by
  obtain ⟨hclassify, hpath, hbeside, hparse⟩ := bare_agrees projectAndAll
  have hnames : ∀ path, Dump.NamesPath besideProject path →
      ¬ projectAndAll.normalized.IsBareRoot path :=
    fun path h => not_isBareRoot (ne_of_namesPath h)
  have hother : ¬ projectAndAll.normalized.IsBareRoot "/proj//a.go" := not_isBareRoot (by decide)
  refine ⟨by decide, by decide, hother, ?_, ?_, ?_, hnames, ?_⟩
  · rw [hclassify "/proj//a.go" hother]
    decide
  · rw [hpath]
    decide
  · exact (hbeside .project "/project/x.go" 'e' "ct/x.go".toList (by decide) (by decide)
      (by decide)).2
  · exact ⟨_, (hparse besideProject hnames).trans parse_besideProject, rfl⟩

end Roots

end GoroutineDump
