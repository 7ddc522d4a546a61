import GoroutineDump.Proofs.Roots.Classify
import GoroutineDump.Settings

set_option autoImplicit false
set_option relaxedAutoImplicit false

namespace GoroutineDump

theorem Duration.ofMinutes_le {m n : UInt64} (h : m ≤ n) :
    (Duration.ofMinutes m).nanoseconds ≤ (Duration.ofMinutes n).nanoseconds := by
  have hminutes : m.toNat ≤ n.toNat := UInt64.le_iff_toNat_le.mp h
  have hseconds : min (m.toNat * 60) (UInt64.size - 1) ≤ min (n.toNat * 60) (UInt64.size - 1) := by
    omega
  exact Nat.mul_le_mul_right Duration.nanosecondsPerSecond hseconds

namespace Settings

variable {s : Settings}

/-- A root as it may be written: none, or one that hangs from the top of a file system. -/
def HasUsableRoots (r : Roots) : Prop :=
  ∀ tree, r.root tree = "" ∨ (r.root tree).toList.head? = some '/'

private theorem rootFault?_eq_none_iff {side : String} {r : Roots} :
    rootFault? side r = none ↔ HasUsableRoots r := by
  have husable (path : String) :
      isUsableRoot path = true ↔ path = "" ∨ path.toList.head? = some '/' := by
    simp [isUsableRoot]
  have hall : HasUsableRoots r ↔ isUsableRoot r.project = true ∧ isUsableRoot r.runtime = true ∧
      isUsableRoot r.library = true := by
    simp only [husable]
    constructor
    · exact fun h => ⟨h .project, h .runtime, h .library⟩
    · rintro ⟨hproject, hruntime, hlibrary⟩ tree
      cases tree with
      | project => exact hproject
      | runtime => exact hruntime
      | library => exact hlibrary
      | generated => exact .inl rfl
  simp [rootFault?, hall]

private theorem rangeFault?_eq_none_iff :
    s.rangeFault? = none ↔
      ∀ low high, s.minMinutes = some low → s.maxMinutes = some high → low ≤ high := by
  unfold rangeFault?
  cases s.minMinutes with
  | none => simp
  | some low =>
    cases s.maxMinutes with
    | none => simp
    | some high => simp [UInt64.not_lt]

theorem fault?_eq_none_iff :
    s.fault? = none ↔ HasUsableRoots s.localRoots ∧ HasUsableRoots s.remoteRoots ∧
      (∀ low high, s.minMinutes = some low → s.maxMinutes = some high → low ≤ high) ∧
      s.renderOptions.problem? = none := by
  simp only [fault?, Option.or_eq_none_iff, Option.map_eq_none_iff, rootFault?_eq_none_iff,
    rangeFault?_eq_none_iff]

/-- The root of a tree as a dump has it, as it is written: the remote one, or the local one where no
remote one is set. -/
def writtenRoot (s : Settings) (tree : SourceTree) : String :=
  if s.remoteRoots.root tree = "" then s.localRoots.root tree else s.remoteRoots.root tree

/-- What can be relied on in settings when they are used. -/
structure Sound (s : Settings) : Prop where
  source_rooted : ∀ tree, s.sourceRoots.root tree = "" ∨
    Path.IsRooted (s.sourceRoots.root tree).toList
  dump_rooted : ∀ tree, s.dumpRoots.root tree = "" ∨ Path.IsRooted (s.dumpRoots.root tree).toList
  dump_root : ∀ tree, s.dumpRoots.root tree =
    if s.remoteRoots.root tree = "" then Path.normalize (s.localRoots.root tree)
    else Path.normalize (s.remoteRoots.root tree)
  dump_unset : ∀ tree, s.dumpRoots.root tree = "" ↔
    s.remoteRoots.root tree = "" ∧ s.localRoots.root tree = ""
  /-- A range with two bounds is not empty. -/
  range : s.minMinutes.isSome = true → s.maxMinutes.isSome = true →
    ∃ low high, s.blockedRange = ⟨some low, some high⟩ ∧ low.nanoseconds ≤ high.nanoseconds
  /-- No path is looked up to a tree that is not configured. -/
  classified : ∀ path tree file, s.dumpRoots.classify path = some (tree, file) →
    tree ≠ .generated → s.writtenRoot tree ≠ ""
  /-- A file is looked for below the local root of its tree. -/
  resolved : ∀ l : Location, s.localRoots.root l.tree ≠ "" → s.sourceRoots.root l.tree ≠ "" ∧
    (s.sourceRoots.root l.tree).toList <+: (s.sourceRoots.pathOf l).toList

private theorem root_sourceRoots (s : Settings) (tree : SourceTree) :
    s.sourceRoots.root tree = Path.normalize (s.localRoots.root tree) :=
  Roots.root_normalized s.localRoots tree

private theorem root_dumpRoots (s : Settings) (tree : SourceTree) :
    s.dumpRoots.root tree = Path.normalize (s.writtenRoot tree) := by
  rw [dumpRoots, Roots.root_withDefaults, Roots.root_normalized, root_sourceRoots, writtenRoot]
  simp only [String.isEmpty_iff, Path.normalize_eq_empty_iff]
  split <;> rfl

private theorem rooted_of_usable {r : Roots} (h : HasUsableRoots r) (tree : SourceTree) :
    Path.normalize (r.root tree) = "" ∨ Path.IsRooted (Path.normalize (r.root tree)).toList := by
  rcases h tree with hunset | hset
  · exact .inl (Path.normalize_eq_empty_iff.mpr hunset)
  · exact .inr (Path.isRooted_normalize hset)

/-- Settings that pass the check can be relied on. -/
theorem sound (h : s.fault? = none) : Sound s := by
  obtain ⟨hlocal, hremote, hrange, -⟩ := fault?_eq_none_iff.mp h
  have hwritten (tree : SourceTree) : s.writtenRoot tree = "" ↔
      s.remoteRoots.root tree = "" ∧ s.localRoots.root tree = "" := by
    unfold writtenRoot
    split <;> simp [*]
  constructor
  case source_rooted =>
    intro tree
    rw [root_sourceRoots]
    exact rooted_of_usable hlocal tree
  case dump_rooted =>
    intro tree
    rw [root_dumpRoots, writtenRoot]
    split
    · exact rooted_of_usable hlocal tree
    · exact rooted_of_usable hremote tree
  case dump_root =>
    intro tree
    rw [root_dumpRoots, writtenRoot]
    exact apply_ite _ _ _ _
  case dump_unset =>
    intro tree
    rw [root_dumpRoots, Path.normalize_eq_empty_iff, hwritten]
  case range =>
    intro hmin hmax
    obtain ⟨low, hlow⟩ := Option.isSome_iff_exists.mp hmin
    obtain ⟨high, hhigh⟩ := Option.isSome_iff_exists.mp hmax
    refine ⟨Duration.ofMinutes low, Duration.ofMinutes high, ?_, ?_⟩
    · rw [blockedRange, hlow, hhigh]
      rfl
    · exact Duration.ofMinutes_le (hrange low high hlow hhigh)
  case classified =>
    intro path tree file hfound htree
    have hroot := (Roots.holds_of_classify hfound).configured htree
    rwa [root_dumpRoots, ne_eq, Path.normalize_eq_empty_iff] at hroot
  case resolved =>
    intro l hset
    have hroot : s.sourceRoots.root l.tree ≠ "" := by
      rwa [root_sourceRoots, ne_eq, Path.normalize_eq_empty_iff]
    refine ⟨hroot, ?_⟩
    rw [Roots.pathOf, Roots.toList_resolve hroot, List.append_assoc]
    exact List.prefix_append _ _

def detours : Settings where
  localRoots := ⟨"/home/me/./src/../app", "/usr\\lib//go", ""⟩
  remoteRoots := ⟨"/../build/app/", "", ""⟩
  minMinutes := some 307445734561825861
  maxMinutes := some 307445734561825862

theorem sound_detours :
    detours.fault? = none ∧ detours.sourceRoots = ⟨"/home/me/app/", "/usr/lib/go/", ""⟩ ∧
      detours.dumpRoots = ⟨"/build/app/", "/usr/lib/go/", ""⟩ ∧ Sound detours := by
  have hcheck : detours.fault? = none := by decide +kernel
  exact ⟨hcheck, by decide, by decide, sound hcheck⟩

end Settings

end GoroutineDump
