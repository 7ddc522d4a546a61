import Mathlib.Data.List.Basic
import GoroutineDump.Goroutine
import GoroutineDump.Proofs.Path
import GoroutineDump.Proofs.Text

set_option autoImplicit false
set_option relaxedAutoImplicit false

namespace GoroutineDump

/-- A tree is configured, unless it is the one of generated sources, whose files bear their mark. -/
structure Roots.Holds (roots : Roots) (tree : SourceTree) (file : String) : Prop where
  generated : tree = .generated → "_cgo_".toList <+: file.toList
  configured : tree ≠ .generated → roots.root tree ≠ ""
  relative : tree ≠ .generated → file.toList.head? ≠ some '/'

namespace Roots

variable {r : Roots} {tree : SourceTree}

@[simp]
theorem root_normalized (r : Roots) (tree : SourceTree) :
    r.normalized.root tree = Path.normalize (r.root tree) := by
  cases tree <;> rfl

theorem root_withDefaults (r d : Roots) (tree : SourceTree) :
    (r.withDefaults d).root tree = if (r.root tree).isEmpty then d.root tree else r.root tree := by
  cases tree <;> rfl

/-- A path is that of a directory or leads on from it with a further component. -/
def Covers (root path : List Char) : Prop :=
  ∃ rest, path = root ++ rest ∧
    (root.getLast? = some '/' ∨ rest = [] ∨ rest.head? = some '/')

theorem below?_eq_some_iff {root path rest : List Char} :
    below? root path = some rest ↔ path = root ++ rest ∧
      (root.getLast? = some '/' ∨ rest = [] ∨ rest.head? = some '/') := by
  unfold below?
  cases hcut : root.isPrefixOf? path with
  | none =>
    simp only [reduceCtorEq, false_iff, not_and]
    rintro rfl
    rw [Text.isPrefixOf?_append] at hcut
    cases hcut
  | some other =>
    obtain rfl := Text.isPrefixOf?_eq_some_iff.mp hcut
    simp only [List.append_cancel_left_eq]
    constructor
    · intro h
      split at h
      · next hends => exact Option.some.inj h ▸ ⟨rfl, hends⟩
      · cases h
    · rintro ⟨rfl, hends⟩
      rw [if_pos hends]

theorem below?_eq_none_iff {root path : List Char} :
    below? root path = none ↔ ¬ Covers root path := by
  rw [Option.eq_none_iff_forall_ne_some]
  simp only [ne_eq, below?_eq_some_iff, Covers, not_exists]

private theorem head?_dropSlashes (cs : List Char) : (dropSlashes cs).head? ≠ some '/' := by
  intro h
  have hnot := List.head?_dropWhile_not (· == '/') cs
  rw [← dropSlashes, h] at hnot
  simp at hnot

private theorem dropSlashes_of_head? {cs : List Char} (h : cs.head? ≠ some '/') :
    dropSlashes cs = cs := by
  cases cs with
  | nil => rfl
  | cons c cs =>
    have hc : c ≠ '/' := fun heq => h (heq ▸ rfl)
    simp [dropSlashes, hc]

def Matches (r : Roots) (tree : SourceTree) (path : String) : Prop :=
  r.root tree ≠ "" ∧ Covers (r.root tree).toList path.toList

theorem fileIn?_eq_some_iff {path : List Char} {found : SourceTree} {file : String} :
    r.fileIn? path tree = some (found, file) ↔ found = tree ∧ r.root tree ≠ "" ∧
      ∃ rest, below? (r.root tree).toList path = some rest ∧
        String.ofList (dropSlashes rest) = file := by
  unfold fileIn?
  by_cases h : r.root tree = ""
  · simp [h]
  · rw [if_neg (by simpa using h)]
    simp only [Option.map_eq_some_iff, Prod.mk.injEq, ne_eq, h, not_false_eq_true, true_and]
    constructor
    · rintro ⟨rest, hbelow, rfl, hfile⟩
      exact ⟨rfl, rest, hbelow, hfile⟩
    · rintro ⟨rfl, rest, hbelow, hfile⟩
      exact ⟨rest, hbelow, rfl, hfile⟩

theorem fileIn?_eq_none_iff {path : String} :
    r.fileIn? path.toList tree = none ↔ ¬ r.Matches tree path := by
  unfold fileIn? Matches
  by_cases h : r.root tree = ""
  · simp [h]
  · rw [if_neg (by simpa using h), Option.map_eq_none_iff, below?_eq_none_iff]
    simp [h]

theorem matches_of_fileIn? {path : String} {found : SourceTree × String}
    (h : r.fileIn? path.toList tree = some found) : r.Matches tree path := by
  by_contra hnone
  rw [fileIn?_eq_none_iff.mpr hnone] at h
  cases h

private theorem not_matches_generated (path : String) : ¬ r.Matches .generated path :=
  fun h => h.1 rfl

/-- The root of one tree is tried before that of another. -/
def TriedBefore (earlier tree : SourceTree) : Prop := [earlier, tree].Sublist searchOrder

instance (earlier tree : SourceTree) : Decidable (TriedBefore earlier tree) :=
  inferInstanceAs (Decidable (List.Sublist _ _))

theorem not_triedBefore_generated (earlier : SourceTree) : ¬ TriedBefore earlier .generated := by
  cases earlier <;> decide

theorem eq_or_triedBefore {other : SourceTree} (htree : tree ≠ .generated)
    (hother : other ≠ .generated) :
    other = tree ∨ TriedBefore other tree ∨ TriedBefore tree other := by
  cases tree with
  | generated => exact absurd rfl htree
  | project | runtime | library =>
    cases other with
    | generated => exact absurd rfl hother
    | project | runtime | library => decide

private theorem mem_iff_triedBefore {before behind : List SourceTree}
    (h : searchOrder = before ++ tree :: behind) (earlier : SourceTree) :
    earlier ∈ before ↔ TriedBefore earlier tree := by
  have hmem : tree ∈ searchOrder := by simp [h]
  have hnot : tree ∉ before := by
    have hdistinct : searchOrder.Nodup := by decide
    rw [h] at hdistinct
    intro hbefore
    exact (List.nodup_append.mp hdistinct).2.2 tree hbefore tree List.mem_cons_self rfl
  have hbefore : before = searchOrder.takeWhile (· != tree) := by
    have hpass : ∀ t ∈ before, (t != tree) = true := fun t ht => by
      simpa using fun heq : t = tree => hnot (heq ▸ ht)
    rw [h, List.takeWhile_append_of_pos hpass]
    simp
  subst hbefore
  cases tree with
  | generated => exact absurd hmem (by decide)
  | project | runtime | library => cases earlier <;> decide

theorem classify_of_mark {path : String} (h : generatedMark <+: path.toList) :
    r.classify path = some (.generated, path) := by
  rw [classify, if_pos (List.isPrefixOf_iff_prefix.mpr h)]

private theorem classify_of_not_mark {path : String} (h : ¬ generatedMark <+: path.toList) :
    r.classify path = searchOrder.findSome? (r.fileIn? path.toList) := by
  rw [classify, if_neg (mt List.isPrefixOf_iff_prefix.mp h)]

/-- The first tree that holds a path decides. -/
theorem classify_eq_some_iff {path : String} {file : String} (hne : tree ≠ .generated) :
    r.classify path = some (tree, file) ↔ ¬ generatedMark <+: path.toList ∧
      r.fileIn? path.toList tree = some (tree, file) ∧
      ∀ earlier, TriedBefore earlier tree → ¬ r.Matches earlier path := by
  by_cases hmark : generatedMark <+: path.toList
  · rw [classify_of_mark hmark]
    simp [hmark, hne.symm]
  · rw [classify_of_not_mark hmark]
    simp only [hmark, not_false_eq_true, true_and, ← fileIn?_eq_none_iff]
    rw [List.findSome?_eq_some_iff]
    constructor
    · rintro ⟨before, found, behind, horder, hfile, hbefore⟩
      obtain rfl := (fileIn?_eq_some_iff.mp hfile).1
      exact ⟨hfile, fun earlier h => hbefore earlier ((mem_iff_triedBefore horder earlier).mpr h)⟩
    · rintro ⟨hfile, hearlier⟩
      have hmem : tree ∈ searchOrder := by
        cases tree with
        | generated => exact absurd rfl hne
        | project | runtime | library => decide
      obtain ⟨before, behind, horder⟩ := List.append_of_mem hmem
      exact ⟨before, tree, behind, horder, hfile,
        fun earlier h => hearlier earlier ((mem_iff_triedBefore horder earlier).mp h)⟩

theorem classify_generated_iff {path file : String} :
    r.classify path = some (.generated, file) ↔ generatedMark <+: path.toList ∧ file = path := by
  by_cases hmark : generatedMark <+: path.toList
  · rw [classify_of_mark hmark]
    simp [hmark, eq_comm]
  · rw [classify_of_not_mark hmark]
    simp only [hmark, false_and, iff_false]
    intro hfound
    obtain ⟨root, hroot, hfile⟩ := List.exists_of_findSome?_eq_some hfound
    obtain rfl := (fileIn?_eq_some_iff.mp hfile).1
    exact absurd hroot (by decide)

theorem classify_eq_none_iff {path : String} :
    r.classify path = none ↔ ¬ generatedMark <+: path.toList ∧ ∀ tree, ¬ r.Matches tree path := by
  by_cases hmark : generatedMark <+: path.toList
  · simp [classify_of_mark hmark, hmark]
  · rw [classify_of_not_mark hmark, List.findSome?_eq_none_iff]
    simp only [fileIn?_eq_none_iff, hmark, not_false_eq_true, true_and]
    constructor
    · intro h tree
      cases tree with
      | generated => exact not_matches_generated path
      | project | runtime | library => exact h _ (by decide)
    · exact fun h tree _ => h tree

theorem holds_of_classify {path file : String} (h : r.classify path = some (tree, file)) :
    r.Holds tree file := by
  by_cases hne : tree = .generated
  · subst hne
    obtain ⟨hmark, rfl⟩ := classify_generated_iff.mp h
    exact ⟨fun _ => hmark, fun hnot => absurd rfl hnot, fun hnot => absurd rfl hnot⟩
  · obtain ⟨-, hfile, -⟩ := (classify_eq_some_iff hne).mp h
    obtain ⟨-, hroot, rest, -, rfl⟩ := fileIn?_eq_some_iff.mp hfile
    refine ⟨fun heq => absurd heq hne, fun _ => hroot, fun _ => ?_⟩
    rw [String.toList_ofList]
    exact head?_dropSlashes rest

end Roots

end GoroutineDump

namespace GoroutineDump.Roots

variable {r : Roots} {tree : SourceTree}

def joint (root : List Char) : List Char := if root.getLast? = some '/' then [] else ['/']

private theorem resolve_of_unset (h : r.root tree = "") (file : String) :
    r.resolve tree file = file := by
  simp [resolve, h]

theorem toList_resolve (h : r.root tree ≠ "") (file : String) :
    (r.resolve tree file).toList =
      (r.root tree).toList ++ joint (r.root tree).toList ++ dropSlashes file.toList := by
  rw [resolve, if_neg (by simpa using h), String.toList_ofList]
  rfl

private theorem resolve_generated (file : String) : r.resolve .generated file = file :=
  resolve_of_unset rfl file

private theorem getLast?_root_normalized (h : r.normalized.root tree ≠ "") :
    (r.normalized.root tree).toList.getLast? = some '/' := by
  rw [root_normalized] at h ⊢
  exact Path.getLast?_normalize (mt Path.normalize_eq_empty_iff.mpr h)

private theorem resolve_of_below {path rest : List Char} (hroot : r.root tree ≠ "")
    (hends : (r.root tree).toList.getLast? = some '/')
    (hbelow : below? (r.root tree).toList path = some rest)
    (hsingle : ¬ "//".toList <:+: path) :
    (r.resolve tree (String.ofList (dropSlashes rest))).toList = path := by
  obtain ⟨hpath, -⟩ := below?_eq_some_iff.mp hbelow
  have hrest : rest.head? ≠ some '/' := by
    intro hhead
    obtain ⟨after, rfl⟩ : ∃ after, rest = '/' :: after := by
      cases rest with
      | nil => cases hhead
      | cons c after => exact ⟨after, by rw [Option.some.inj hhead]⟩
    have hroot := List.dropLast_append_getLast? '/' hends
    apply hsingle
    refine ⟨(r.root tree).toList.dropLast, after, ?_⟩
    rw [hpath]
    conv_rhs => rw [← hroot]
    simp
  have hdrop := dropSlashes_of_head? hrest
  rw [toList_resolve hroot, String.toList_ofList, hdrop, hdrop, joint, if_pos hends, hpath,
    List.append_nil]

private theorem fileIn?_resolve (hroot : r.root tree ≠ "") {file : String}
    (hfile : file.toList.head? ≠ some '/') :
    r.fileIn? (r.resolve tree file).toList tree = some (tree, file) := by
  refine fileIn?_eq_some_iff.mpr ⟨rfl, hroot, joint (r.root tree).toList ++ file.toList, ?_, ?_⟩
  · rw [below?_eq_some_iff, toList_resolve hroot, dropSlashes_of_head? hfile, List.append_assoc]
    refine ⟨rfl, ?_⟩
    unfold joint
    split
    · next hends => exact .inl hends
    · exact .inr (.inr rfl)
  · have hdrop : dropSlashes (joint (r.root tree).toList ++ file.toList) = file.toList := by
      unfold joint
      split
      · exact dropSlashes_of_head? hfile
      · show dropSlashes file.toList = file.toList
        exact dropSlashes_of_head? hfile
    rw [hdrop, String.ofList_toList]

/-- Looking a path up and putting it together undo each other: under canonical roots for every path
without two slashes in a row; for every relative file of a configured tree whose path is not taken
for that of a generated source and not claimed by a root that is tried before; and for generated
sources always. -/
theorem classify_resolve (r : Roots) :
    (∀ path tree file, ¬ "//".toList <:+: path.toList →
      r.normalized.classify path = some (tree, file) →
        ∀ line, r.normalized.pathOf ⟨tree, file, line⟩ = path) ∧
    (∀ l : Location, l.tree ≠ .generated → r.root l.tree ≠ "" → l.file.toList.head? ≠ some '/' →
      ¬ "_cgo_".toList <+: (r.pathOf l).toList →
      (∀ earlier, TriedBefore earlier l.tree → ¬ r.Matches earlier (r.pathOf l)) →
        r.classify (r.pathOf l) = some (l.tree, l.file)) ∧
    ∀ file, "_cgo_".toList <+: file.toList →
      (∀ line, r.classify (r.pathOf ⟨.generated, file, line⟩) = some (.generated, file)) ∧
      ∀ path, r.classify path = some (.generated, file) →
        ∀ line, r.pathOf ⟨.generated, file, line⟩ = path := by
  refine ⟨?_, ?_, ?_⟩
  · intro path tree file hsingle hfound line
    by_cases hgenerated : tree = .generated
    · subst hgenerated
      obtain ⟨-, rfl⟩ := classify_generated_iff.mp hfound
      exact resolve_generated file
    · obtain ⟨-, hfile, -⟩ := (classify_eq_some_iff hgenerated).mp hfound
      obtain ⟨-, hroot, rest, hbelow, rfl⟩ := fileIn?_eq_some_iff.mp hfile
      apply String.toList_injective
      exact resolve_of_below hroot (getLast?_root_normalized hroot) hbelow hsingle
  · intro l htree hroot hfile hmark hearlier
    exact (classify_eq_some_iff htree).mpr ⟨hmark, fileIn?_resolve hroot hfile, hearlier⟩
  · intro file hmark
    refine ⟨fun line => ?_, fun path hfound line => ?_⟩
    · rw [pathOf, resolve_generated, classify_of_mark hmark]
    · obtain ⟨-, rfl⟩ := classify_generated_iff.mp hfound
      exact resolve_generated file

def nested : Roots := ⟨"/go//src/app", "", "/go"⟩

theorem classify_resolve_nested :
    nested.normalized.classify "/go/src/app/a.go" = some (.project, "a.go") ∧
      nested.normalized.pathOf ⟨.project, "a.go", 3⟩ = "/go/src/app/a.go" ∧
      nested.pathOf ⟨.library, "pkg/b.go", 4⟩ = "/go/pkg/b.go" ∧
      nested.classify (nested.pathOf ⟨.library, "pkg/b.go", 4⟩) = some (.library, "pkg/b.go") ∧
      nested.classify (nested.pathOf ⟨.generated, "_cgo_c.go", 5⟩) =
        some (.generated, "_cgo_c.go") := by
  obtain ⟨hback, hagain, hgenerated⟩ := classify_resolve nested
  have hfound : nested.normalized.classify "/go/src/app/a.go" = some (.project, "a.go") := by decide
  have hunclaimed : ∀ earlier, TriedBefore earlier .library →
      ¬ nested.Matches earlier (nested.pathOf ⟨.library, "pkg/b.go", 4⟩) := by
    intro earlier hearlier
    cases earlier with
    | library => exact absurd hearlier (by decide)
    | project | runtime | generated => exact fileIn?_eq_none_iff.mp (by decide)
  have hsingle : ¬ "//".toList <:+: "/go/src/app/a.go".toList := by decide +kernel
  refine ⟨hfound, hback _ .project "a.go" hsingle hfound 3, by decide, ?_, ?_⟩
  · exact hagain ⟨.library, "pkg/b.go", 4⟩ (by decide) (by decide) (by decide) (by decide) hunclaimed
  · exact (hgenerated "_cgo_c.go" (by decide)).1 5

end GoroutineDump.Roots
