import Mathlib.Data.List.Basic
import Mathlib.Logic.Function.Iterate
import GoroutineDump.Roots

/-!
Entering one component after another keeps a stack clean: plain names on top and, in a relative path
only, ways up below them. Canonical forms are the texts of clean stacks.
-/

set_option autoImplicit false
set_option relaxedAutoImplicit false

namespace GoroutineDump.Path

/-- A name that can stand in a canonical path: it leads somewhere, and neither up nor nowhere. -/
structure IsName (name : List Char) : Prop where
  ne_nil : name ≠ []
  ne_current : name ≠ ['.']
  ne_parent : name ≠ parent
  unseparated : ∀ c ∈ name, isSeparator c = false

private theorem IsName.notMem_slash {name : List Char} (h : IsName name) : '/' ∉ name :=
  fun hmem => absurd (h.unseparated '/' hmem) (by decide)

private theorem IsName.notMem_backslash {name : List Char} (h : IsName name) : '\\' ∉ name :=
  fun hmem => absurd (h.unseparated '\\' hmem) (by decide)

/-- An absolute directory in canonical form: it begins and ends with a slash, has no backslash, and
no component of it is empty, `.` or `..`. -/
structure IsRooted (path : List Char) : Prop where
  starts : path.head? = some '/'
  ends : path.getLast? = some '/'
  backslash : '\\' ∉ path
  component : ∀ before name after, path = before ++ '/' :: (name ++ '/' :: after) → '/' ∉ name →
    name ≠ [] ∧ name ≠ ['.'] ∧ name ≠ ['.', '.']

private theorem isSeparator_of_mem_components {cs component : List Char}
    (h : component ∈ components cs) :
    ∀ c ∈ component, isSeparator c = false := by
  unfold components at h
  induction cs generalizing component with
  | nil =>
    rw [List.splitOnP_nil, List.mem_singleton] at h
    simp [h]
  | cons c cs ih =>
    rw [List.splitOnP_cons_eq_if_modifyHead] at h
    split at h
    · rcases List.mem_cons.mp h with rfl | h
      · simp
      · exact ih h
    · next hc =>
      obtain ⟨first, rest, hsplit⟩ := List.exists_cons_of_ne_nil (List.splitOnP_ne_nil isSeparator cs)
      rw [hsplit] at h ih
      rw [List.modifyHead_cons] at h
      rcases List.mem_cons.mp h with rfl | h
      · exact List.forall_mem_cons.mpr ⟨by simpa using hc, ih List.mem_cons_self⟩
      · exact ih (List.mem_cons_of_mem first h)

namespace Directory

/-- A stack as entering components leaves it, the innermost name first: names that lead down, and
below them the ways up of a relative path. -/
def IsClean (absolute : Bool) (stack : List (List Char)) : Prop :=
  ∃ names ups, stack = names ++ List.replicate ups parent ∧ (∀ name ∈ names, IsName name) ∧
    (absolute = true → ups = 0)

variable {absolute : Bool} {stack : List (List Char)}

private theorem isClean_nil (absolute : Bool) : IsClean absolute [] :=
  ⟨[], 0, rfl, by simp, fun _ => rfl⟩

private theorem IsClean.enter (h : IsClean absolute stack) {component : List Char}
    (hcomponent : ∀ c ∈ component, isSeparator c = false) :
    IsClean absolute (enter absolute stack component) := by
  unfold Directory.enter
  split
  · exact h
  · next hleads =>
    rw [not_or] at hleads
    obtain ⟨names, ups, rfl, hnames, hups⟩ := h
    split
    · -- Going up takes back a name, and without one adds a way up to those there are.
      cases names with
      | nil =>
        cases habsolute : absolute with
        | true =>
          obtain rfl := hups habsolute
          exact isClean_nil true
        | false =>
          refine ⟨[], ups + 1, ?_, by simp, by simp⟩
          cases ups <;> simp [List.replicate_succ]
      | cons name names =>
        have hname : name ≠ parent := (hnames name List.mem_cons_self).ne_parent
        refine ⟨names, ups, ?_, fun n hn => hnames n (List.mem_cons_of_mem name hn), hups⟩
        simp [hname]
    · next hparent =>
      have hname : IsName component := ⟨hleads.1, hleads.2, hparent, hcomponent⟩
      exact ⟨component :: names, ups, rfl, List.forall_mem_cons.mpr ⟨hname, hnames⟩, hups⟩

private theorem IsClean.foldl_enter (h : IsClean absolute stack) {cs : List (List Char)}
    (hcs : ∀ component ∈ cs, ∀ c ∈ component, isSeparator c = false) :
    IsClean absolute (cs.foldl (Directory.enter absolute) stack) := by
  induction cs generalizing stack with
  | nil => exact h
  | cons component cs ih =>
    rw [List.forall_mem_cons] at hcs
    exact ih (h.enter hcs.1) hcs.2

private theorem isName_of_mem_ofPath {cs name : List Char} (habsolute : (ofPath cs).absolute = true)
    (h : name ∈ (ofPath cs).names) : IsName name := by
  obtain ⟨names, ups, hstack, hnames, hups⟩ :=
    (isClean_nil (ofPath cs).absolute).foldl_enter fun _ => isSeparator_of_mem_components
  obtain rfl := hups habsolute
  rw [List.replicate_zero, List.append_nil] at hstack
  exact hnames name (hstack ▸ List.mem_reverse.mp h)

private theorem getLast?_text (d : Directory) : d.text.getLast? = some '/' := by
  obtain ⟨absolute, names⟩ := d
  rcases List.eq_nil_or_concat names with rfl | ⟨names, last, rfl⟩
  · cases absolute <;> rfl
  · simp [text, List.getLast?_append]

private theorem isRooted_text {names : List (List Char)} (h : ∀ name ∈ names, IsName name) :
    IsRooted (text ⟨true, names⟩) := by
  have htext : text ⟨true, names⟩ = '/' :: names.flatMap (· ++ ['/']) := rfl
  have hsplit : (text ⟨true, names⟩).splitOn '/' = [] :: (names ++ [[]]) := by
    rw [htext]
    have hnames : (names.flatMap (· ++ ['/'])).splitOn '/' = names ++ [[]] := by
      induction names with
      | nil => rfl
      | cons name names ih =>
        rw [List.forall_mem_cons] at h
        rw [List.flatMap_cons, List.append_assoc, List.singleton_append,
          List.splitOn_append_cons_self_of_not_mem h.1.notMem_slash, ih h.2 rfl, List.cons_append]
    rw [← hnames]
    exact List.splitOn_append_cons_self [] _
  refine ⟨rfl, getLast?_text _, ?_, ?_⟩
  · simp only [htext, List.mem_cons, List.mem_flatMap, List.mem_append, List.not_mem_nil, or_false,
      not_or, not_exists, not_and]
    exact ⟨by decide, fun name hname => ⟨(h name hname).notMem_backslash, by decide⟩⟩
  · intro before name after hpath hslash
    -- Split at its slashes, the path has the component between an outer piece on either side.
    rw [hpath, List.splitOn_append_cons_self, List.splitOn_append_cons_self_of_not_mem hslash]
      at hsplit
    have hmem : name ∈ names := by
      obtain ⟨first, front, hfront⟩ := List.exists_cons_of_ne_nil (List.splitOn_ne_nil '/' before)
      obtain ⟨back, last, hback⟩ :=
        List.eq_nil_or_concat (after.splitOn '/') |>.resolve_left (List.splitOn_ne_nil '/' after)
      rw [hfront, hback, List.cons_append, List.cons.injEq, List.concat_eq_append,
        ← List.cons_append, ← List.append_assoc] at hsplit
      rw [← (List.append_inj' hsplit.2 rfl).1]
      simp
    have hname := h name hmem
    exact ⟨hname.ne_nil, hname.ne_current, hname.ne_parent⟩

end Directory

theorem normalize_eq_empty_iff {path : String} : normalize path = "" ↔ path = "" := by
  unfold normalize
  split
  · next h => simpa using h
  · next h =>
    have hne : (Directory.ofPath path.toList).text ≠ [] := by
      intro hnil
      have hlast := Directory.getLast?_text (Directory.ofPath path.toList)
      rw [hnil] at hlast
      cases hlast
    simpa [hne] using h

theorem toList_normalize {path : String} (h : path ≠ "") :
    (normalize path).toList = (Directory.ofPath path.toList).text := by
  rw [normalize, if_neg (by simpa using h), String.toList_ofList]

theorem getLast?_normalize {path : String} (h : path ≠ "") :
    (normalize path).toList.getLast? = some '/' := by
  rw [toList_normalize h, Directory.getLast?_text]

/-- The canonical form of a path that hangs from the root is rooted. -/
theorem isRooted_normalize {path : String} (h : path.toList.head? = some '/') :
    IsRooted (normalize path).toList := by
  have hne : path ≠ "" := by
    rintro rfl
    cases h
  have habsolute : (Directory.ofPath path.toList).absolute = true := by
    simp only [Directory.ofPath, h]
    rfl
  have hdirectory : Directory.ofPath path.toList = ⟨true, (Directory.ofPath path.toList).names⟩ := by
    rw [← habsolute]
  rw [toList_normalize hne, hdirectory]
  exact Directory.isRooted_text fun name => Directory.isName_of_mem_ofPath habsolute

def IsAbsolute (cs : List Char) : Prop := cs.head? = some '/' ∨ cs.head? = some '\\'

/-- Directory paths in canonical form: the root, the current directory, names below the root, and
names behind ways up. One slash stands between two components and one behind the last. -/
inductive IsCanonical : List Char → Prop
  | root : IsCanonical ['/']
  | current : IsCanonical ['.', '/']
  | absolute {names : List (List Char)} : names ≠ [] → (∀ name ∈ names, IsName name) →
      IsCanonical ('/' :: (['/'].intercalate names ++ ['/']))
  | relative {ups : Nat} {names : List (List Char)} : List.replicate ups parent ++ names ≠ [] →
      (∀ name ∈ names, IsName name) →
      IsCanonical (['/'].intercalate (List.replicate ups parent ++ names) ++ ['/'])

/-- A stretch of a path that leads back to where it starts: an empty component, the current
directory, or a name and the way up from it. -/
inductive IsDetour : List Char → Prop
  | empty : IsDetour []
  | current : IsDetour ['.']
  | back {name : List Char} {s : Char} : IsName name → isSeparator s = true →
      IsDetour (name ++ s :: parent)

def EndsComponent (front : List Char) : Prop :=
  front = [] ∨ ∃ before s, isSeparator s = true ∧ front = before ++ [s]

/-- One path with another separator in one place, or with one detour more: in front of a component
or behind the last one. -/
inductive Edit : List Char → List Char → Prop
  | exchange (front back : List Char) : Edit (front ++ '/' :: back) (front ++ '\\' :: back)
  | insert {front detour : List Char} {s : Char} : EndsComponent front → IsDetour detour →
      isSeparator s = true → (back : List Char) → Edit (front ++ back) (front ++ detour ++ s :: back)
  | append {detour : List Char} {s : Char} : IsDetour detour → isSeparator s = true →
      (path : List Char) → Edit path (path ++ s :: detour)

theorem isAbsolute_iff {cs : List Char} : IsAbsolute cs ↔ cs.head?.any isSeparator = true := by
  unfold IsAbsolute
  cases cs with
  | nil => simp
  | cons c cs => simp [isSeparator]

private theorem any_isSeparator_append {front : List Char} (h : front ≠ []) (back : List Char) :
    (front ++ back).head?.any isSeparator = front.head?.any isSeparator := by
  cases front with
  | nil => exact absurd rfl h
  | cons c front => rfl

namespace Directory

variable {absolute : Bool} {stack : List (List Char)}

/-! ### Walks -/

def walk (absolute : Bool) (stack : List (List Char)) (cs : List Char) : List (List Char) :=
  (components cs).foldl (enter absolute) stack

private theorem ofPath_eq (cs : List Char) :
    ofPath cs = ⟨cs.head?.any isSeparator, (walk (cs.head?.any isSeparator) [] cs).reverse⟩ := rfl

private theorem walk_component {component : List Char}
    (h : ∀ c ∈ component, isSeparator c = false) :
    walk absolute stack component = enter absolute stack component := by
  rw [walk, components, List.splitOnP_eq_singleton h]
  rfl

private theorem isSeparator_of_mem_parent : ∀ c ∈ parent, isSeparator c = false := by
  simp [parent, isSeparator]

@[simp] theorem walk_nil : walk absolute stack [] = stack := walk_component (by simp)

theorem walk_append {s : Char} (hs : isSeparator s = true) (front back : List Char) :
    walk absolute stack (front ++ s :: back) = walk absolute (walk absolute stack front) back := by
  rw [walk, components, List.splitOnP_append_cons _ _ hs, List.foldl_append]
  rfl

private theorem walk_append_of_endsComponent {front : List Char} (h : EndsComponent front)
    (back : List Char) :
    walk absolute stack (front ++ back) = walk absolute (walk absolute stack front) back := by
  rcases h with rfl | ⟨before, s, hs, rfl⟩
  · rw [List.nil_append, walk_nil]
  · rw [List.append_assoc, List.singleton_append, walk_append hs, walk_append hs, walk_nil]

private theorem walk_parent_root {back : List Char} (h : back = [] ∨ IsAbsolute back) :
    walk true [] (parent ++ back) = walk true [] back := by
  have hparent : walk true [] parent = [] := walk_component isSeparator_of_mem_parent
  cases back with
  | nil => rw [List.append_nil, hparent, walk_nil]
  | cons s back =>
    have hs : isSeparator s = true := isAbsolute_iff.mp (h.resolve_left (List.cons_ne_nil s back))
    rw [walk_append hs, hparent, ← List.nil_append (s :: back), walk_append hs, walk_nil]

private theorem enter_name {name : List Char} (h : IsName name) :
    enter absolute stack name = name :: stack := by
  rw [enter.eq_def, if_neg (not_or.mpr ⟨h.ne_nil, h.ne_current⟩), if_neg h.ne_parent]

private theorem enter_parent_name {name : List Char} (h : IsName name) :
    enter absolute (name :: stack) parent = stack := by
  rw [enter.eq_def, if_neg (by decide), if_pos rfl]
  exact if_neg h.ne_parent

private theorem walk_detour {detour : List Char} (h : IsDetour detour) :
    walk absolute stack detour = stack := by
  cases h with
  | empty => exact walk_nil
  | current =>
    rw [walk_component (by simp [isSeparator]), enter.eq_def]
    exact if_pos (.inr rfl)
  | back hname hs =>
    rw [walk_append hs, walk_component hname.unseparated,
      walk_component isSeparator_of_mem_parent, enter_name hname, enter_parent_name hname]

/-- An edit does not change where a path leads. -/
private theorem walk_edit {path edited : List Char} (h : Edit path edited) :
    walk absolute stack edited = walk absolute stack path := by
  cases h with
  | exchange front back => rw [walk_append (by decide), walk_append (by decide)]
  | insert hfront hdetour hs back =>
    rw [List.append_assoc, walk_append_of_endsComponent hfront, walk_append hs, walk_detour hdetour,
      ← walk_append_of_endsComponent hfront]
  | append hdetour hs path => rw [walk_append hs, walk_detour hdetour]

theorem isClean_walk (absolute : Bool) (cs : List Char) : IsClean absolute (walk absolute [] cs) :=
  (isClean_nil absolute).foldl_enter fun _ => isSeparator_of_mem_components

/-! ### The text of a directory -/

private theorem flatMap_slash {names : List (List Char)} (h : names ≠ []) :
    names.flatMap (· ++ ['/']) = ['/'].intercalate names ++ ['/'] := by
  induction names with
  | nil => exact absurd rfl h
  | cons name names ih =>
    cases names with
    | nil => simp
    | cons next names =>
      rw [List.flatMap_cons, ih (List.cons_ne_nil next names), List.intercalate_cons_cons]
      simp only [List.append_assoc]

/-- A clean stack, written from the outside in, is a directory in canonical form. -/
private theorem IsClean.isCanonical_text (h : IsClean absolute stack) :
    IsCanonical (text ⟨absolute, stack.reverse⟩) := by
  obtain ⟨names, ups, rfl, hnames, hups⟩ := h
  have hplain : ∀ name ∈ names.reverse, IsName name := fun name hname =>
    hnames name (List.mem_reverse.mp hname)
  rw [List.reverse_append, List.reverse_replicate]
  by_cases hnone : List.replicate ups parent ++ names.reverse = []
  · rw [hnone]
    cases absolute with
    | true => exact .root
    | false => exact .current
  · rw [text, flatMap_slash hnone]
    cases absolute with
    | true =>
      obtain rfl := hups rfl
      exact .absolute hnone hplain
    | false =>
      rw [if_neg Bool.false_ne_true, if_neg hnone, List.nil_append]
      exact .relative hnone hplain

private theorem IsClean.unseparated (h : IsClean absolute stack) {component : List Char}
    (hmem : component ∈ stack) : component ≠ [] ∧ ∀ c ∈ component, isSeparator c = false := by
  obtain ⟨names, ups, rfl, hnames, -⟩ := h
  rcases List.mem_append.mp hmem with hname | hup
  · exact ⟨(hnames component hname).ne_nil, (hnames component hname).unseparated⟩
  · rw [List.eq_of_mem_replicate hup]
    exact ⟨by decide, isSeparator_of_mem_parent⟩

private theorem IsClean.any_isSeparator_text (h : IsClean absolute stack) (back : List Char) :
    (text ⟨absolute, stack.reverse⟩ ++ back).head?.any isSeparator = absolute := by
  cases absolute with
  | true => rfl
  | false =>
    cases hstack : stack.reverse with
    | nil => rfl
    | cons component components =>
      have hmem : component ∈ stack := List.mem_reverse.mp (hstack ▸ List.mem_cons_self)
      obtain ⟨hne, hunseparated⟩ := h.unseparated hmem
      obtain ⟨c, cs, rfl⟩ := List.exists_cons_of_ne_nil hne
      exact hunseparated c List.mem_cons_self

private theorem IsClean.notMem_backslash_text (h : IsClean absolute stack) :
    '\\' ∉ text ⟨absolute, stack.reverse⟩ := by
  have hstack : ∀ component ∈ stack, '\\' ∉ component := fun component hmem hback =>
    absurd ((h.unseparated hmem).2 _ hback) (by decide)
  have hfront : '\\' ∉ if absolute then ['/'] else if stack.reverse = [] then ['.', '/'] else [] := by
    split
    · decide
    · split <;> decide
  simp only [text, List.mem_append, List.mem_flatMap, List.mem_reverse, not_or, not_exists, not_and]
  exact ⟨hfront, fun component hmem => ⟨hstack component hmem, by decide⟩⟩

private theorem IsClean.text_eq_root_iff (h : IsClean absolute stack) :
    text ⟨absolute, stack.reverse⟩ = ['/'] ↔ absolute = true ∧ stack = [] := by
  constructor
  · intro htext
    have habsolute : absolute = true := by
      rw [← h.any_isSeparator_text [], htext]
      rfl
    subst habsolute
    have hnames : stack.reverse.flatMap (· ++ ['/']) = [] := List.cons.inj htext |>.2
    refine ⟨rfl, List.eq_nil_iff_forall_not_mem.mpr fun component hmem => ?_⟩
    have hnil := List.flatMap_eq_nil_iff.mp hnames component (List.mem_reverse.mpr hmem)
    exact absurd hnil (List.append_ne_nil_of_right_ne_nil component (List.cons_ne_nil '/' []))
  · rintro ⟨rfl, rfl⟩
    rfl

theorem IsClean.exists_text_eq (h : IsClean absolute stack) :
    text ⟨absolute, stack.reverse⟩ = ['/'] ∨
      ∃ front, front ≠ [] ∧ front.getLast? ≠ some '/' ∧
        text ⟨absolute, stack.reverse⟩ = front ++ ['/'] := by
  cases stack with
  | nil =>
    cases absolute with
    | true => exact .inl rfl
    | false => exact .inr ⟨['.'], by decide, by decide, rfl⟩
  | cons top stack =>
    obtain ⟨hne, hunseparated⟩ := h.unseparated List.mem_cons_self
    right
    refine ⟨(if absolute then ['/'] else []) ++ stack.reverse.flatMap (· ++ ['/']) ++ top, ?_, ?_, ?_⟩
    · exact List.append_ne_nil_of_right_ne_nil _ hne
    · intro hlast
      rw [List.getLast?_append_of_ne_nil _ hne] at hlast
      have hslash := hunseparated '/' (List.mem_of_getLast? hlast)
      exact absurd hslash (by decide)
    · simp [text]

end Directory

/-! ### Canonical forms -/

theorem toList_normalize_walk {path : String} {absolute : Bool} (h : path ≠ "")
    (habsolute : path.toList.head?.any isSeparator = absolute) :
    (normalize path).toList =
      (Directory.text ⟨absolute, (Directory.walk absolute [] path.toList).reverse⟩) := by
  rw [toList_normalize h, Directory.ofPath_eq, habsolute]

/-- An edit that leaves something of a path, and the path absolute or relative as it was, does not
change the canonical form. -/
theorem normalize_eq_of_edit {path edited : String} (h : Edit path.toList edited.toList)
    (hpath : path ≠ "") (hedited : edited ≠ "")
    (habsolute : IsAbsolute edited.toList ↔ IsAbsolute path.toList) :
    normalize edited = normalize path := by
  rw [isAbsolute_iff, isAbsolute_iff, ← Bool.eq_iff_iff] at habsolute
  rw [← String.toList_inj, toList_normalize_walk hedited habsolute, toList_normalize_walk hpath rfl,
    Directory.walk_edit h]

private theorem toList_normalize_append_of_root {top : String} (htop : EndsComponent top.toList)
    (hroot : normalize top = "/") (back : String) :
    (normalize (top ++ back)).toList =
      Directory.text ⟨true, (Directory.walk true [] back.toList).reverse⟩ := by
  have hne : top ≠ "" := by
    rintro rfl
    exact absurd hroot (by decide)
  obtain ⟨habsolute, hstack⟩ := (Directory.isClean_walk _ _).text_eq_root_iff.mp
    ((toList_normalize_walk hne rfl).symm.trans (congrArg String.toList hroot))
  have hstart : (top ++ back).toList.head?.any isSeparator = true := by
    rw [String.toList_append, any_isSeparator_append (mt String.toList_eq_nil_iff.mp hne), habsolute]
  rw [habsolute] at hstack
  rw [toList_normalize_walk (by simp [hne]) hstart, String.toList_append,
    Directory.walk_append_of_endsComponent htop, hstack]

private theorem normalize_parent_of_root {top rest : String} (htop : EndsComponent top.toList)
    (hroot : normalize top = "/") (hrest : rest = "" ∨ IsAbsolute rest.toList) :
    normalize (top ++ ".." ++ rest) = normalize (top ++ rest) := by
  have hup : Directory.walk true [] (parent ++ rest.toList) =
      Directory.walk true [] rest.toList :=
    Directory.walk_parent_root (hrest.imp_left String.toList_eq_nil_iff.mpr)
  rw [← String.toList_inj, String.append_assoc, toList_normalize_append_of_root htop hroot,
    toList_normalize_append_of_root htop hroot, String.toList_append]
  exact congrArg (fun stack => Directory.text ⟨true, stack.reverse⟩) hup

/-- A path that is not empty has a canonical form, and its canonical form: it ends in a slash, has no
backslash, and begins with a slash exactly when the path begins with a separator. Neither another
separator nor a detour that is put in or left out changes it, as long as something is left of the
path and it stays absolute or relative as it is. A way up directly below the root is dropped. -/
theorem normalize_canonical {path : String} (h : path ≠ "") :
    IsCanonical (normalize path).toList ∧
      (normalize path).toList.getLast? = some '/' ∧ '\\' ∉ (normalize path).toList ∧
      ((normalize path).toList.head? = some '/' ↔ IsAbsolute path.toList) ∧
      (∀ edited : String, Edit path.toList edited.toList ∨ Edit edited.toList path.toList →
        edited ≠ "" → (IsAbsolute edited.toList ↔ IsAbsolute path.toList) →
          normalize edited = normalize path) ∧
      ∀ top rest : String, path = top ++ ".." ++ rest → EndsComponent top.toList →
        normalize top = "/" → rest = "" ∨ IsAbsolute rest.toList →
          normalize path = normalize (top ++ rest) := by
  have hclean := Directory.isClean_walk (path.toList.head?.any isSeparator) path.toList
  have htext := toList_normalize_walk h rfl
  refine ⟨htext ▸ hclean.isCanonical_text, getLast?_normalize h,
    htext ▸ hclean.notMem_backslash_text, ?_, ?_, ?_⟩
  · have hstart := hclean.any_isSeparator_text []
    rw [List.append_nil, ← htext] at hstart
    rw [isAbsolute_iff, ← hstart, ← isAbsolute_iff]
    -- There is no backslash in a canonical form, so the separator in front is a slash.
    refine ⟨Or.inl, fun habsolute => habsolute.resolve_right fun hback => ?_⟩
    exact (htext ▸ hclean.notMem_backslash_text) (List.mem_of_head? hback)
  · rintro edited (hedit | hedit) hedited habsolute
    · exact normalize_eq_of_edit hedit h hedited habsolute
    · exact (normalize_eq_of_edit hedit hedited h habsolute.symm).symm
  · rintro top rest rfl htop hroot hrest
    exact normalize_parent_of_root htop hroot hrest

theorem normalize_canonical_upFromRoot :
    "/../a\\b" ≠ "" ∧ IsCanonical (normalize "/../a\\b").toList ∧
      normalize "/../a\\c/../b" = normalize "/../a\\b" ∧
      normalize "/../a\\b" = normalize "//a\\b" ∧ normalize "/../a\\b" = "/a/b/" := by
  have hne : "/../a\\b" ≠ "" := by decide
  obtain ⟨hform, -, -, -, hedit, hdrop⟩ := normalize_canonical hne
  have hname : IsName ['c'] := ⟨by decide, by decide, by decide, by simp [isSeparator]⟩
  have hinsert : Edit "/../a\\b".toList "/../a\\c/../b".toList :=
    .insert (.inr ⟨"/../a".toList, '\\', rfl, rfl⟩) (.back hname rfl) rfl ['b']
  refine ⟨hne, hform, hedit "/../a\\c/../b" (.inl hinsert) (by decide) ?_, ?_, by decide⟩
  · exact iff_of_true (.inl rfl) (.inl rfl)
  · exact hdrop "/" "/a\\b" rfl (.inr ⟨[], '/', rfl, rfl⟩) (by decide) (.inr (.inl rfl))

end GoroutineDump.Path

namespace GoroutineDump

namespace Path

namespace Directory

variable {absolute : Bool} {stack : List (List Char)}

private theorem foldl_enter_ups (ups : Nat) :
    (List.replicate ups parent).foldl (enter false) [] = List.replicate ups parent := by
  induction ups with
  | zero => rfl
  | succ ups ih =>
    rw [List.replicate_succ', List.foldl_append, ih, ← List.replicate_succ']
    cases ups <;> rfl

private theorem foldl_enter_names {names : List (List Char)} (h : ∀ name ∈ names, IsName name) :
    names.foldl (enter absolute) stack = names.reverse ++ stack := by
  induction names generalizing stack with
  | nil => rfl
  | cons name names ih =>
    rw [List.forall_mem_cons] at h
    rw [List.foldl_cons, enter_name h.1, ih h.2]
    simp

private theorem IsClean.foldl_enter_reverse (h : IsClean absolute stack) :
    stack.reverse.foldl (Directory.enter absolute) [] = stack := by
  obtain ⟨names, ups, rfl, hnames, hups⟩ := h
  have hplain : ∀ name ∈ names.reverse, IsName name := fun name hname =>
    hnames name (List.mem_reverse.mp hname)
  have hfront : (List.replicate ups parent).foldl (Directory.enter absolute) [] =
      List.replicate ups parent := by
    cases absolute with
    | true =>
      obtain rfl := hups rfl
      rfl
    | false => exact foldl_enter_ups ups
  rw [List.reverse_append, List.reverse_replicate, List.foldl_append, hfront,
    foldl_enter_names hplain, List.reverse_reverse]

private theorem walk_flatMap {components : List (List Char)}
    (h : ∀ component ∈ components, ∀ c ∈ component, isSeparator c = false) (back : List Char) :
    walk absolute stack (components.flatMap (· ++ ['/']) ++ back) =
      walk absolute (components.foldl (enter absolute) stack) back := by
  induction components generalizing stack with
  | nil => rfl
  | cons component components ih =>
    rw [List.forall_mem_cons] at h
    rw [List.flatMap_cons, List.append_assoc, List.append_assoc, List.singleton_append,
      walk_append rfl, walk_component h.1, ih h.2, List.foldl_cons]

private theorem walk_text (h : IsClean absolute stack) (back : List Char) :
    walk absolute [] (text ⟨absolute, stack.reverse⟩ ++ back) = walk absolute stack back := by
  have hnames : walk absolute [] (stack.reverse.flatMap (· ++ ['/']) ++ back) =
      walk absolute stack back := by
    rw [walk_flatMap fun _ hmem => (h.unseparated (List.mem_reverse.mp hmem)).2,
      h.foldl_enter_reverse]
  rw [text, List.append_assoc]
  split
  · exact (walk_append rfl [] _).trans ((congrArg (walk absolute · _) walk_nil).trans hnames)
  · split
    · exact (walk_append rfl ['.'] _).trans
        ((congrArg (walk absolute · _) (walk_detour .current)).trans hnames)
    · exact hnames

end Directory

/-- A path that goes on from the canonical form of another leads where it leads from the other. -/
theorem normalize_join {a : String} (h : a ≠ "") (b : String) :
    normalize (a ++ "/" ++ b) = normalize (normalize a ++ b) := by
  obtain ⟨absolute, habsolute⟩ : ∃ absolute, a.toList.head?.any isSeparator = absolute := ⟨_, rfl⟩
  have hclean := Directory.isClean_walk absolute a.toList
  have hlist : a.toList ≠ [] := mt String.toList_eq_nil_iff.mp h
  have hnormal : normalize a ≠ "" := mt normalize_eq_empty_iff.mp h
  have hleft : (a ++ "/" ++ b).toList.head?.any isSeparator = absolute := by
    rw [String.append_assoc, String.toList_append, any_isSeparator_append hlist, habsolute]
  have hright : (normalize a ++ b).toList.head?.any isSeparator = absolute := by
    rw [String.toList_append, toList_normalize_walk h habsolute, hclean.any_isSeparator_text]
  have hleads : Directory.walk absolute [] (a ++ "/" ++ b).toList =
      Directory.walk absolute [] (normalize a ++ b).toList := calc
    _ = Directory.walk absolute [] (a.toList ++ '/' :: b.toList) := by
      rw [String.append_assoc, String.toList_append, String.toList_append]
      rfl
    _ = Directory.walk absolute (Directory.walk absolute [] a.toList) b.toList :=
      Directory.walk_append rfl a.toList b.toList
    _ = Directory.walk absolute [] (normalize a ++ b).toList := by
      rw [String.toList_append, toList_normalize_walk h habsolute, Directory.walk_text hclean]
  rw [← String.toList_inj, toList_normalize_walk (by simp [h]) hleft,
    toList_normalize_walk (by simp [hnormal]) hright, hleads]

private theorem normalize_slash {a : String} (h : a ≠ "") : normalize (a ++ "/") = normalize a := by
  refine normalize_eq_of_edit ?_ h (by simp) ?_
  · rw [String.toList_append]
    exact .append .empty rfl a.toList
  · rw [isAbsolute_iff, isAbsolute_iff, String.toList_append,
      any_isSeparator_append (mt String.toList_eq_nil_iff.mp h)]

theorem normalize_normalize (path : String) : normalize (normalize path) = normalize path := by
  by_cases h : path = ""
  · rw [h]
    rfl
  · calc
      normalize (normalize path) = normalize (normalize path ++ "") := by rw [String.append_empty]
      _ = normalize (path ++ "/" ++ "") := (normalize_join h "").symm
      _ = normalize path := by rw [String.append_empty, normalize_slash h]

end Path

namespace Roots

private theorem normalized_normalized (r : Roots) : r.normalized.normalized = r.normalized := by
  simp only [normalized, Path.normalize_normalize]

end Roots

/-- Joining paths and taking canonical forms can be done in either order, so that the canonical form
of a canonical form is the same, and roots that are made from paths, brought into canonical form, or
brought into it again any number of times are the same roots. -/
theorem Path.normalize_joins :
    (∀ a b : String, a ≠ "" →
      Path.normalize (a ++ "/" ++ b) = Path.normalize (Path.normalize a ++ b)) ∧
    (∀ path : String, Path.normalize (Path.normalize path) = Path.normalize path) ∧
    ∀ r : Roots, Roots.ofPaths r.project r.runtime r.library = r.normalized ∧
      (∀ n : Nat, Roots.normalized^[n] r.normalized = r.normalized) ∧
      Roots.ofPaths r.normalized.project r.normalized.runtime r.normalized.library =
        r.normalized := by
  refine ⟨fun a b h => normalize_join h b, normalize_normalize, fun r => ⟨rfl, ?_, ?_⟩⟩
  · exact Function.iterate_fixed r.normalized_normalized
  · exact r.normalized_normalized

theorem Path.normalize_joins_climbing :
    "c/../.." ≠ "" ∧
      Path.normalize ("c/../.." ++ "/" ++ "..\\d") =
        Path.normalize (Path.normalize "c/../.." ++ "..\\d") ∧
      Path.normalize (Path.normalize "c/../.." ++ "..\\d") = "../../d/" := by
  have hne : "c/../.." ≠ "" := by decide
  exact ⟨hne, Path.normalize_joins.1 "c/../.." "..\\d" hne, by decide⟩

end GoroutineDump
