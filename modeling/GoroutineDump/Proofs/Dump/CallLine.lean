import Mathlib.Data.List.DropRight
import GoroutineDump.Proofs.Dump.Header

set_option autoImplicit false
set_option relaxedAutoImplicit false

namespace GoroutineDump.Dump

open Text (digits isPrefixOf?_append isPrefixOf?_eq_some_iff)

def Unbroken (cs : List Char) : Prop := '\n' ∉ cs ∧ '\r' ∉ cs

instance (cs : List Char) : Decidable (Unbroken cs) := inferInstanceAs (Decidable (_ ∧ _))

def lastComponent (cs : List Char) : List Char := cs.rtakeWhile (· != '/')

/-- What a call has to be like: its name can be cut again, an ordinary call does not begin like an
origin, no parenthesis opens in the arguments, and every text stays on its line. -/
structure PlainCall (c : Call) : Prop where
  package_dot : '.' ∉ lastComponent c.package.toList
  method_slash : '/' ∉ c.method.toList
  ordinary : c.origin = false → ¬ CallLine.originMark <+: c.package.toList
  args_parenthesis : '(' ∉ c.args.toList
  package_unbroken : Unbroken c.package.toList
  method_unbroken : Unbroken c.method.toList
  args_unbroken : Unbroken c.args.toList
  extra_unbroken : Unbroken c.extra.toList

private theorem PlainCall.notMem_name {c : Call} (h : PlainCall c) :
    '\n' ∉ c.package.toList ++ '.' :: c.method.toList := by
  simp [h.package_unbroken.1, h.method_unbroken.1]

/-- A method that looks as if it were followed by the parent of a goroutine. -/
def NamesParent (method : List Char) : Prop :=
  ∃ before ds, ds ≠ [] ∧ (∀ d ∈ ds, Unicode.isDecimalDigit d = true) ∧
    method = before ++ (" in goroutine ".toList ++ ds)

theorem not_namesParent {method : List Char} (h : ' ' ∉ method) : ¬ NamesParent method := by
  rintro ⟨before, ds, -, -, rfl⟩
  exact h (by simp)

private theorem lastComponent_spec (cs : List Char) :
    '/' ∉ lastComponent cs ∧
      (lastComponent cs = cs ∨ ∃ directory, cs = directory ++ '/' :: lastComponent cs) := by
  refine ⟨?_, ?_⟩
  · intro hmem
    simpa using List.mem_rtakeWhile_imp hmem
  · have hsplit : cs.rdropWhile (· != '/') ++ cs.rtakeWhile (· != '/') = cs :=
      List.rdropWhile_append_rtakeWhile
    by_cases hnil : cs.rdropWhile (· != '/') = []
    · rw [hnil, List.nil_append] at hsplit
      exact .inl hsplit
    · have hlast := List.rdropWhile_last_not (· != '/') cs hnil
      have hslash : (cs.rdropWhile (· != '/')).getLast hnil = '/' := by simpa using hlast
      refine .inr ⟨(cs.rdropWhile (· != '/')).dropLast, ?_⟩
      have hcut := List.dropLast_append_getLast hnil
      rw [hslash] at hcut
      conv_lhs => rw [← hsplit, ← hcut]
      simp [lastComponent]

private theorem fromSlash_head {rest value : List Char} (h : fromSlash rest = some value) :
    rest.head? = some '/' := by
  unfold fromSlash at h
  split at h
  · rfl
  · cases h

private theorem lastCut_fromSlash_eq_none {name : List Char} (h : '/' ∉ name) :
    Text.lastCut fromSlash name = none :=
  Text.lastCut_eq_none_of_notMem (fun _ _ => fromSlash_head) h

private theorem lastCut_fromSlash_append (directory : List Char) {last : List Char}
    (h : '/' ∉ last) :
    Text.lastCut fromSlash (directory ++ '/' :: last) = some (directory, '/' :: last) := by
  have hread : fromSlash ('/' :: last) = some ('/' :: last) := rfl
  exact Text.lastCut_before hread (lastCut_fromSlash_eq_none h) directory

theorem splitQualifiedName_append {package method : List Char}
    (hdot : '.' ∉ lastComponent package) (hslash : '/' ∉ method) :
    splitQualifiedName (package ++ '.' :: method) = (package, method) := by
  obtain ⟨hbase, hall | ⟨directory, hdirectory⟩⟩ := lastComponent_spec package
  · rw [hall] at hdot hbase
    have hnone : Text.lastCut fromSlash (package ++ '.' :: method) = none :=
      lastCut_fromSlash_eq_none (by simp [hbase, hslash])
    have hspan : (package ++ '.' :: method).span (· != '.') = (package, '.' :: method) := by
      refine Text.span_append ?_ (by simp)
      intro c hc
      simpa using fun heq : c = '.' => hdot (heq ▸ hc)
    rw [splitQualifiedName, hnone]
    simp only [Option.getD_none, hspan, List.nil_append]
  · generalize lastComponent package = base at hbase hdot hdirectory
    have hcut : Text.lastCut fromSlash (package ++ '.' :: method) =
        some (directory, '/' :: (base ++ '.' :: method)) := by
      rw [hdirectory, List.append_assoc, List.cons_append]
      exact lastCut_fromSlash_append directory (by simp [hbase, hslash])
    have hspan : ('/' :: base ++ '.' :: method).span (· != '.') =
        ('/' :: base, '.' :: method) := by
      refine Text.span_append ?_ (by simp)
      intro c hc
      rcases List.mem_cons.mp hc with rfl | hc
      · decide
      · simpa using fun heq : c = '.' => hdot (heq ▸ hc)
    rw [List.cons_append] at hspan
    rw [splitQualifiedName, hcut]
    simp only [Option.getD_some, hspan, ← hdirectory]

namespace CallLine

private theorem arguments?_head {rest value : List Char} (h : arguments? rest = some value) :
    rest.head? = some '(' := by
  unfold arguments? at h
  split at h
  · rfl
  · cases h

theorem cutArguments?_append {name args : List Char} (hname : '\n' ∉ name)
    (hargs : '\n' ∉ args) (hopen : '(' ∉ args) :
    cutArguments? (name ++ '(' :: (args ++ [')'])) = some (name, args) := by
  have hline : '\n' ∉ name ++ '(' :: (args ++ [')']) := by simp [hname, hargs]
  rw [cutArguments?, if_neg hline]
  refine Text.lastCut_before ?_ ?_ name
  · simp [arguments?]
  · refine Text.lastCut_eq_none_of_notMem (fun _ _ => arguments?_head) ?_
    simp [hopen]

private theorem isPrefixOf?_originMark {package : List Char} (h : ¬ originMark <+: package)
    (rest : List Char) : originMark.isPrefixOf? (package ++ '.' :: rest) = none := by
  cases hcut : originMark.isPrefixOf? (package ++ '.' :: rest) with
  | none => rfl
  | some after =>
    rw [isPrefixOf?_eq_some_iff, List.append_eq_append_iff] at hcut
    rcases hcut with ⟨middle, hpackage, -⟩ | ⟨middle, hmark, hrest⟩
    · exact absurd ⟨middle, hpackage.symm⟩ h
    · cases middle with
      | nil =>
        rw [List.append_nil] at hmark
        exact absurd (hmark ▸ List.prefix_rfl) h
      | cons c middle =>
        have hdot : '.' = c := (List.cons.inj hrest).1
        have hmem : '.' ∈ originMark := by
          rw [hmark, hdot]
          simp
        exact absurd hmem (by decide)

theorem read_ordinary {c : Call} (h : PlainCall c) (horigin : c.origin = false)
    (parent : Option UInt64) :
    read (callLine parent c) = .ok ⟨{ c with extra := "" }, none⟩ := by
  have hline : callLine parent c =
      (c.package.toList ++ '.' :: c.method.toList) ++ '(' :: (c.args.toList ++ [')']) := by
    simp [callLine, horigin]
  have hmark : originMark.isPrefixOf? (callLine parent c) = none := by
    rw [hline, List.append_assoc, List.cons_append]
    exact isPrefixOf?_originMark (h.ordinary horigin) _
  have hname := h.notMem_name
  rw [read, hmark, hline]
  simp only [cutArguments?_append hname h.args_unbroken.1 h.args_parenthesis,
    splitQualifiedName_append h.package_dot h.method_slash, String.ofList_toList]
  cases c
  simp_all

theorem parentDigits?_eq_some_iff {cs ds : List Char} :
    parentDigits? cs = some ds ↔
      ds ≠ [] ∧ (∀ d ∈ ds, Unicode.isDecimalDigit d = true) ∧
        cs = " in goroutine ".toList ++ ds := by
  constructor
  · intro h
    simp only [parentDigits?, Option.bind_eq_bind, Option.bind_eq_some_iff, Prod.exists] at h
    obtain ⟨digits, rest, ⟨after, hcut, htake⟩, hend⟩ := h
    split at hend
    · next hrest =>
      obtain rfl := Option.some.inj hend
      obtain ⟨hne, hall, -, hafter⟩ := takeDigits?_eq_some_iff.mp htake
      refine ⟨hne, hall, ?_⟩
      rw [← isPrefixOf?_eq_some_iff.mp hcut, hafter, hrest, List.append_nil]
    · cases hend
  · rintro ⟨hne, hall, rfl⟩
    have htake : takeDigits? ds = some (ds, []) :=
      takeDigits?_eq_some_iff.mpr ⟨hne, hall, by simp, by simp⟩
    simp only [parentDigits?, isPrefixOf?_append, Option.bind_eq_bind, Option.bind_some, htake]
    rfl

private theorem lastCut_digits {ds : List Char} (hds : ∀ d ∈ ds, Unicode.isDecimalDigit d = true) :
    Text.lastCut parentDigits? ("in goroutine ".toList ++ ds) = none := by
  have hblank : ' ' ∉ ds := by
    intro hmem
    exact absurd (hds ' ' hmem) (by decide)
  rw [Text.lastCut_eq_none_iff]
  intro before rest hcut _
  cases hread : parentDigits? rest with
  | none => rfl
  | some found =>
    obtain ⟨-, -, hrest⟩ := parentDigits?_eq_some_iff.mp hread
    have hcount := congrArg (List.count ' ') hcut
    rw [hrest, List.count_append, List.count_append, List.count_append,
      List.count_eq_zero.mpr hblank] at hcount
    have htwo : "in goroutine ".toList.count ' ' = 2 := by decide
    have hthree : " in goroutine ".toList.count ' ' = 3 := by decide
    omega

theorem cutParent_append {name ds : List Char} (hname : '\n' ∉ name) (hne : ds ≠ [])
    (hall : ∀ d ∈ ds, Unicode.isDecimalDigit d = true) :
    cutParent (name ++ (" in goroutine ".toList ++ ds)) = (name, some ds) := by
  have hread : parentDigits? (' ' :: ("in goroutine ".toList ++ ds)) = some ds :=
    parentDigits?_eq_some_iff.mpr ⟨hne, hall, rfl⟩
  have hcut : Text.lastCut parentDigits? (name ++ (" in goroutine ".toList ++ ds)) =
      some (name, ds) :=
    Text.lastCut_before hread (lastCut_digits hall) name
  rw [cutParent, hcut]
  simp only [hname, if_false]

theorem lastCut_parentDigits?_eq_none_iff {cs : List Char} :
    Text.lastCut parentDigits? cs = none ↔ ¬ NamesParent cs := by
  constructor
  · rintro hnone ⟨before, ds, hne, hall, rfl⟩
    have hread := parentDigits?_eq_some_iff.mpr ⟨hne, hall, rfl⟩
    rw [Text.lastCut_eq_none_iff.mp hnone before _ rfl (by simp)] at hread
    cases hread
  · intro hnames
    rw [Text.lastCut_eq_none_iff]
    intro before rest hcut _
    cases hread : parentDigits? rest with
    | none => rfl
    | some ds =>
      obtain ⟨hne, hall, hrest⟩ := parentDigits?_eq_some_iff.mp hread
      exact absurd ⟨before, ds, hne, hall, hrest ▸ hcut⟩ hnames

private theorem namesParent_name_iff (package method : List Char) :
    NamesParent (package ++ '.' :: method) ↔ NamesParent method := by
  constructor
  · rintro ⟨before, ds, hne, hall, hcut⟩
    have hdot : '.' ∉ " in goroutine ".toList ++ ds := by
      rw [List.mem_append, not_or]
      exact ⟨by decide, fun hmem => absurd (hall '.' hmem) (by decide)⟩
    -- What names the parent has no dot, so it lies behind the one between package and method.
    rcases List.append_eq_append_iff.mp hcut with ⟨middle, -, hbehind⟩ | ⟨middle, -, hacross⟩
    · cases middle with
      | nil =>
        rw [List.nil_append] at hbehind
        exact absurd (hbehind ▸ List.mem_cons_self) hdot
      | cons c middle =>
        rw [List.cons_append, List.cons.injEq] at hbehind
        exact ⟨middle, ds, hne, hall, hbehind.2⟩
    · exact absurd (hacross ▸ by simp) hdot
  · rintro ⟨before, ds, hne, hall, rfl⟩
    exact ⟨package ++ '.' :: before, ds, hne, hall, by simp⟩

private theorem lastCut_name_eq_none_iff (package method : List Char) :
    Text.lastCut parentDigits? (package ++ '.' :: method) = none ↔ ¬ NamesParent method := by
  rw [lastCut_parentDigits?_eq_none_iff, namesParent_name_iff]

theorem read_origin {line rest : List Char} (h : line = originMark ++ rest) :
    read line = readOrigin line rest := by
  have hmark : originMark.isPrefixOf? line = some rest := by
    rw [h, isPrefixOf?_append]
  rw [read, hmark]

private theorem read_parent {c : Call} (h : PlainCall c) (horigin : c.origin = true)
    (id : UInt64) :
    read (callLine (some id) c) = .ok ⟨{ c with args := "", extra := "" }, some id⟩ := by
  have hline : callLine (some id) c = originMark ++
      (c.package.toList ++ '.' :: c.method.toList ++
        (" in goroutine ".toList ++ digits id.toNat)) := by
    simp only [callLine, horigin, if_true, List.append_assoc]
    rfl
  rw [read_origin hline, readOrigin, cutParent_append h.notMem_name (Text.digits_ne_nil _)
    fun _ => isDecimalDigit_of_mem_digits]
  simp only [splitQualifiedName_append h.package_dot h.method_slash, String.ofList_toList,
    Option.mapM_some, readNumber_digits, bind, Except.bind, Functor.map, Except.map, pure,
    Except.pure]
  cases c
  simp_all

private theorem callLine_orphan {c : Call} (horigin : c.origin = true) :
    callLine none c = originMark ++ (c.package.toList ++ '.' :: c.method.toList) := by
  simp only [callLine, horigin, if_true, List.append_nil]
  rfl

private theorem read_orphan {c : Call} (h : PlainCall c) (horigin : c.origin = true)
    (hnames : ¬ NamesParent c.method.toList) :
    read (callLine none c) = .ok ⟨{ c with args := "", extra := "" }, none⟩ := by
  have hcut := (lastCut_name_eq_none_iff c.package.toList c.method.toList).mpr hnames
  rw [read_origin (callLine_orphan horigin), readOrigin, cutParent, hcut]
  simp only [splitQualifiedName_append h.package_dot h.method_slash, String.ofList_toList,
    Option.mapM_none, bind, Except.bind, pure, Except.pure]
  cases c
  simp_all

private theorem read_namesParent {c : Call} (h : PlainCall c) (horigin : c.origin = true)
    (hnames : NamesParent c.method.toList) (call : Call) :
    read (callLine none c) ≠ .ok ⟨call, none⟩ := by
  have hname := h.notMem_name
  cases hcut : Text.lastCut parentDigits? (c.package.toList ++ '.' :: c.method.toList) with
  | none => exact absurd hnames ((lastCut_name_eq_none_iff _ _).mp hcut)
  | some found =>
    obtain ⟨name, ds⟩ := found
    have hshort : '\n' ∉ name := by
      obtain ⟨rest, -, hsplit, -⟩ := Text.lastCut_eq_some hcut
      rw [hsplit, List.mem_append, not_or] at hname
      exact hname.1
    rw [read_origin (callLine_orphan horigin), readOrigin, cutParent, hcut]
    simp only [hshort, if_false, Option.mapM_some]
    intro hok
    cases hnumber : readNumber .parentId ds (callLine none c) with
    | error e => simp [hnumber, bind, Except.bind, Functor.map, Except.map] at hok
    | ok id => simp [hnumber, bind, Except.bind, Functor.map, Except.map, pure, Except.pure] at hok

/-- A printed call is read as it was printed exactly when, if it is an origin, it has no arguments
and does not seem to name a parent it does not have. -/
theorem read_callLine {c : Call} (h : PlainCall c) (parent : Option UInt64) :
    read (callLine parent c) =
        .ok ⟨{ c with extra := "" }, if c.origin then parent else none⟩ ↔
      (c.origin = true → c.args = "" ∧ (parent = none → ¬ NamesParent c.method.toList)) := by
  cases horigin : c.origin with
  | false =>
    simp only [Bool.false_eq_true, if_false, false_imp_iff, iff_true]
    have hread := read_ordinary h horigin parent
    rw [horigin] at hread
    exact hread
  | true =>
    simp only [if_true, true_imp_iff]
    have hargs : (.ok ⟨⟨c.package, c.method, "", "", true⟩, parent⟩ : Except Error CallLine) =
        .ok ⟨⟨c.package, c.method, c.args, "", true⟩, parent⟩ ↔ c.args = "" := by
      constructor
      · intro heq
        have hcall := Except.ok.inj heq
        exact (congrArg (·.call.args) hcall).symm
      · intro hnil
        rw [hnil]
    cases parent with
    | some id =>
      rw [read_parent h horigin id, horigin, hargs]
      simp
    | none =>
      by_cases hnames : NamesParent c.method.toList
      · have hne := read_namesParent h horigin hnames ⟨c.package, c.method, c.args, "", true⟩
        simp [hnames, hne]
      · rw [read_orphan h horigin hnames, horigin, hargs]
        simp [hnames]

theorem read_extra {line : List Char} {r : CallLine} (h : read line = .ok r) :
    r.call.extra = "" := by
  unfold read at h
  split at h
  · next origin _ =>
    unfold readOrigin at h
    cases hparent : (cutParent origin).2.mapM (readNumber .parentId · line) with
    | error e => simp [hparent, bind, Except.bind] at h
    | ok parent =>
      simp only [hparent, bind, Except.bind, pure, Except.pure, Except.ok.injEq] at h
      rw [← h]
  · split at h
    · cases h
    · simp only [Except.ok.injEq] at h
      rw [← h]

end CallLine

/-- The parts of a name that is cut at a dot: it is the first one of the last component. -/
structure CutAtDot (name package method : List Char) : Prop where
  joined : name = package ++ '.' :: method
  package_dot : '.' ∉ lastComponent package
  method_slash : '/' ∉ method

/-- The parts of a name without a dot in its last component: what stands before the last slash, or
nothing where there is no slash, and the rest of the name. -/
structure CutAtSlash (name package method : List Char) : Prop where
  joined : name = package ++ method
  directory : package = [] ∧ '/' ∉ name ∨ name = package ++ '/' :: lastComponent name
  method_shape : method = [] ∨ method.head? = some '/' ∨ '/' ∉ method ∧ '.' ∉ method

variable {name package method a b : List Char}

private theorem lastComponent_of_notMem (h : '/' ∉ name) : lastComponent name = name := by
  rcases (lastComponent_spec name).2 with hall | ⟨directory, hdirectory⟩
  · exact hall
  · exact absurd (hdirectory ▸ by simp) h

private theorem lastComponent_append (directory : List Char) {last : List Char} (h : '/' ∉ last) :
    lastComponent (directory ++ '/' :: last) = last := by
  have hall : ∀ c ∈ last.reverse, (c != '/') = true := by
    intro c hc
    simpa using fun heq : c = '/' => h (heq ▸ List.mem_reverse.mp hc)
  rw [lastComponent, List.rtakeWhile, List.reverse_append, List.reverse_cons, List.append_assoc,
    List.takeWhile_append_of_pos hall]
  simp

/-! ### The two ways to cut a name -/

private theorem exists_cutAtDot (h : '.' ∈ lastComponent name) :
    ∃ package method, splitQualifiedName name = (package, method) ∧
      CutAtDot name package method := by
  obtain ⟨base, method, hlast, hbase⟩ := List.eq_append_cons_of_mem h
  obtain ⟨hslash, hname⟩ := lastComponent_spec name
  rw [hlast, List.mem_append, List.mem_cons, not_or, not_or] at hslash
  obtain ⟨package, hjoined, hpackage⟩ :
      ∃ package, name = package ++ '.' :: method ∧ lastComponent package = base := by
    rcases hname with hall | ⟨directory, hdirectory⟩
    · exact ⟨base, hall ▸ hlast, lastComponent_of_notMem hslash.1⟩
    · refine ⟨directory ++ '/' :: base, ?_, lastComponent_append directory hslash.1⟩
      rw [hlast] at hdirectory
      simpa using hdirectory
  have hdot : '.' ∉ lastComponent package := hpackage ▸ hbase
  exact ⟨package, method, hjoined ▸ splitQualifiedName_append hdot hslash.2.2, hjoined, hdot,
    hslash.2.2⟩

private theorem span_of_notMem (h : '.' ∉ name) : name.span (· != '.') = (name, []) := by
  have hall : ∀ c ∈ name, (c != '.') = true := by
    intro c hc
    simpa using fun heq : c = '.' => h (heq ▸ hc)
  have hspan : (name ++ []).span (· != '.') = (name, []) := Text.span_append hall (by simp)
  rwa [List.append_nil] at hspan

private theorem exists_cutAtSlash (h : '.' ∉ lastComponent name) :
    ∃ package method, splitQualifiedName name = (package, method) ∧
      CutAtSlash name package method := by
  obtain ⟨hslash, hall | ⟨directory, hdirectory⟩⟩ := lastComponent_spec name
  · rw [hall] at h hslash
    refine ⟨[], name, ?_, rfl, .inl ⟨rfl, hslash⟩, .inr (.inr ⟨hslash, h⟩)⟩
    rw [splitQualifiedName, lastCut_fromSlash_eq_none hslash]
    simp only [Option.getD_none, span_of_notMem h]
  · refine ⟨directory, '/' :: lastComponent name, ?_, hdirectory, .inr hdirectory, .inr (.inl rfl)⟩
    have hspan : ('/' :: lastComponent name).span (· != '.') = ('/' :: lastComponent name, []) :=
      span_of_notMem (by simp [h])
    have hcut := lastCut_fromSlash_append directory hslash
    rw [← hdirectory] at hcut
    rw [splitQualifiedName, hcut]
    simp only [Option.getD_some, hspan]

private theorem cutAtDot_of_split (hsplit : splitQualifiedName name = (package, method))
    (h : '.' ∈ lastComponent name) : CutAtDot name package method := by
  obtain ⟨_, _, hparts, hcut⟩ := exists_cutAtDot h
  obtain ⟨rfl, rfl⟩ := Prod.mk.inj (hsplit.symm.trans hparts)
  exact hcut

private theorem cutAtSlash_of_split (hsplit : splitQualifiedName name = (package, method))
    (h : '.' ∉ lastComponent name) : CutAtSlash name package method := by
  obtain ⟨_, _, hparts, hcut⟩ := exists_cutAtSlash h
  obtain ⟨rfl, rfl⟩ := Prod.mk.inj (hsplit.symm.trans hparts)
  exact hcut

/-! ### Names with the same parts -/

private theorem eq_cons_of_cuts (ha : CutAtDot a package method)
    (hb : CutAtSlash b package method) : a = '.' :: b := by
  rcases hb.directory with ⟨rfl, -⟩ | hdirectory
  · rw [ha.joined, hb.joined]
    rfl
  · have hmethod : method = '/' :: lastComponent b :=
      List.append_cancel_left (hb.joined.symm.trans hdirectory)
    exact absurd (hmethod ▸ List.mem_cons_self) ha.method_slash

/-- Names with the same parts are equal, or one of them is the other one behind a dot. -/
private theorem eq_or_eq_cons_of_splitQualifiedName_eq
    (h : splitQualifiedName a = splitQualifiedName b) : a = b ∨ a = '.' :: b ∨ b = '.' :: a := by
  obtain ⟨package, method, hparts⟩ : ∃ package method, splitQualifiedName b = (package, method) :=
    ⟨_, _, rfl⟩
  rw [hparts] at h
  by_cases hadot : '.' ∈ lastComponent a <;> by_cases hbdot : '.' ∈ lastComponent b
  · rw [(cutAtDot_of_split h hadot).joined, (cutAtDot_of_split hparts hbdot).joined]
    exact .inl rfl
  · exact .inr (.inl (eq_cons_of_cuts (cutAtDot_of_split h hadot)
      (cutAtSlash_of_split hparts hbdot)))
  · exact .inr (.inr (eq_cons_of_cuts (cutAtDot_of_split hparts hbdot)
      (cutAtSlash_of_split h hadot)))
  · rw [(cutAtSlash_of_split h hadot).joined, (cutAtSlash_of_split hparts hbdot).joined]
    exact .inl rfl

/-- Package and method of a qualified name are what it is put together from: with a dot between them
if its last component has one, and as they are otherwise. Names that do not begin with a dot are
equal if they have the same package and method. -/
theorem splitQualifiedName_lossless :
    (∀ name package method, splitQualifiedName name = (package, method) →
      ('.' ∈ lastComponent name → CutAtDot name package method) ∧
      ('.' ∉ lastComponent name → CutAtSlash name package method)) ∧
    ∀ a b, a.head? ≠ some '.' → b.head? ≠ some '.' →
      splitQualifiedName a = splitQualifiedName b → a = b := by
  refine ⟨fun _ _ _ hsplit => ⟨cutAtDot_of_split hsplit, cutAtSlash_of_split hsplit⟩, ?_⟩
  intro a b ha hb h
  rcases eq_or_eq_cons_of_splitQualifiedName_eq h with heq | rfl | rfl
  · exact heq
  · exact absurd rfl ha
  · exact absurd rfl hb

theorem splitQualifiedName_lossless_dottedDirectory :
    splitQualifiedName "gopkg.in/yaml.v3.(*T).é".toList =
        ("gopkg.in/yaml".toList, "v3.(*T).é".toList) ∧
      CutAtDot "gopkg.in/yaml.v3.(*T).é".toList "gopkg.in/yaml".toList "v3.(*T).é".toList ∧
      splitQualifiedName "a.b/c".toList = ("a.b".toList, "/c".toList) ∧
      CutAtSlash "a.b/c".toList "a.b".toList "/c".toList ∧
      ∀ name, name.head? ≠ some '.' →
        splitQualifiedName name = splitQualifiedName "a.b/c".toList → name = "a.b/c".toList := by
  obtain ⟨hparts, hequal⟩ := splitQualifiedName_lossless
  exact ⟨by decide, (hparts _ _ _ (by decide)).1 (by decide), by decide,
    (hparts _ _ _ (by decide)).2 (by decide), fun name hname => hequal name _ hname (by decide)⟩

end GoroutineDump.Dump
