import GoroutineDump.Proofs.Dump.CallLine

set_option autoImplicit false
set_option relaxedAutoImplicit false

namespace GoroutineDump.Dump

open Text (digits)

/-- A text in which a colon, digits and then a blank or the end look like a line number. -/
def NamesLine (extra : List Char) : Prop :=
  ∃ before ds after, ds ≠ [] ∧ (∀ d ∈ ds, Unicode.isDecimalDigit d = true) ∧
    (after = [] ∨ after.head? = some ' ') ∧ extra = before ++ ':' :: (ds ++ after)

theorem not_namesLine {extra : List Char} (h : ':' ∉ extra) : ¬ NamesLine extra := by
  rintro ⟨before, ds, after, -, -, -, rfl⟩
  exact h (by simp)

namespace LocationFields

private theorem lineAndExtra?_head {rest : List Char} {value : List Char × List Char}
    (h : lineAndExtra? rest = some value) : rest.head? = some ':' := by
  unfold lineAndExtra? at h
  split at h
  · rfl
  · cases h

theorem lineAndExtra?_of_digits {ds after : List Char} (hne : ds ≠ [])
    (hds : ∀ d ∈ ds, Unicode.isDecimalDigit d = true)
    (hafter : after = [] ∨ after.head? = some ' ') :
    lineAndExtra? (':' :: (ds ++ after)) = some (ds, after.tail) := by
  have hstop : ∀ c, after.head? = some c → Unicode.isDecimalDigit c = false := by
    intro c hc
    rcases hafter with rfl | hblank
    · cases hc
    · rw [hblank] at hc
      exact Option.some.inj hc ▸ by decide
  have htake : takeDigits? (ds ++ after) = some (ds, after) :=
    takeDigits?_eq_some_iff.mpr ⟨hne, hds, hstop, rfl⟩
  rcases hafter with rfl | hblank
  · rw [lineAndExtra?, htake]
    rfl
  · cases after with
    | nil => cases hblank
    | cons c after =>
      obtain rfl := Option.some.inj hblank
      rw [lineAndExtra?, htake]
      rfl

theorem lineAndExtra?_eq_some {rest ds extra : List Char}
    (h : lineAndExtra? rest = some (ds, extra)) :
    ∃ after, ds ≠ [] ∧ (∀ d ∈ ds, Unicode.isDecimalDigit d = true) ∧
      (after = [] ∨ after.head? = some ' ') ∧ rest = ':' :: (ds ++ after) ∧ extra = after.tail := by
  unfold lineAndExtra? at h
  split at h
  · next rest =>
    split at h
    · next digits htake =>
      simp only [Option.some.injEq, Prod.mk.injEq] at h
      obtain ⟨rfl, rfl⟩ := h
      obtain ⟨hne, hall, -, hrest⟩ := takeDigits?_eq_some_iff.mp htake
      exact ⟨[], hne, hall, .inl rfl, by rw [hrest], rfl⟩
    · next digits after htake =>
      simp only [Option.some.injEq, Prod.mk.injEq] at h
      obtain ⟨rfl, rfl⟩ := h
      obtain ⟨hne, hall, -, hrest⟩ := takeDigits?_eq_some_iff.mp htake
      exact ⟨' ' :: after, hne, hall, .inr rfl, by rw [hrest], rfl⟩
    · cases h
  · cases h

theorem lastCut_lineAndExtra?_eq_none_iff (extra : List Char) :
    Text.lastCut lineAndExtra? extra = none ↔ ¬ NamesLine extra := by
  constructor
  · rintro hnone ⟨before, ds, after, hne, hds, hafter, hextra⟩
    have hread := lineAndExtra?_of_digits hne hds hafter
    have hrest := Text.lastCut_eq_none_iff.mp hnone before (':' :: (ds ++ after)) hextra (by simp)
    rw [hrest] at hread
    cases hread
  · intro hnames
    rw [Text.lastCut_eq_none_iff]
    intro before rest hcut _
    cases hread : lineAndExtra? rest with
    | none => rfl
    | some found =>
      obtain ⟨after, hne, hds, hafter, hrest, -⟩ := lineAndExtra?_eq_some hread
      exact absurd ⟨before, found.1, after, hne, hds, hafter, by rw [hcut, hrest]⟩ hnames

private def tail (extra : List Char) : List Char := if extra = [] then [] else ' ' :: extra

private theorem lastCut_tail (extra : List Char) (hnames : ¬ NamesLine extra) :
    Text.lastCut lineAndExtra? (tail extra) = none := by
  unfold tail
  split
  · rfl
  · have hfront : ':' ∉ [' '] := by decide
    exact Text.lastCut_append_eq_none (fun _ _ => lineAndExtra?_head) hfront
      ((lastCut_lineAndExtra?_eq_none_iff extra).mpr hnames)

private theorem lastCut_line {path extra : List Char} (n : Nat) (hnames : ¬ NamesLine extra) :
    Text.lastCut lineAndExtra? (path ++ ':' :: (digits n ++ tail extra)) =
      some (path, digits n, extra) := by
  have hds : ∀ d ∈ digits n, Unicode.isDecimalDigit d = true :=
    fun _ => isDecimalDigit_of_mem_digits
  have hafter : tail extra = [] ∨ (tail extra).head? = some ' ' := by
    unfold tail
    split
    · exact .inl rfl
    · exact .inr rfl
  have htail : (tail extra).tail = extra := by
    unfold tail
    split
    · next hnil => rw [hnil]; rfl
    · rfl
  have hread := lineAndExtra?_of_digits (Text.digits_ne_nil n) hds hafter
  rw [htail] at hread
  refine Text.lastCut_before hread ?_ path
  exact Text.lastCut_append_eq_none (fun _ _ => lineAndExtra?_head) (notMem_digits (by decide) n)
    (lastCut_tail extra hnames)

private theorem lastCut_line_of_names (path : List Char) {extra : List Char} (n : Nat)
    (hnames : NamesLine extra) :
    ∃ before ds after,
      Text.lastCut lineAndExtra? (path ++ ':' :: (digits n ++ tail extra)) =
        some (before, ds, after) ∧ after.length < extra.length := by
  cases hcut : Text.lastCut lineAndExtra? extra with
  | none => exact absurd hnames ((lastCut_lineAndExtra?_eq_none_iff extra).mp hcut)
  | some found =>
    obtain ⟨before, ds, after⟩ := found
    obtain ⟨rest, -, hsplit, hread⟩ := Text.lastCut_eq_some hcut
    obtain ⟨behind, hne, -, -, hrest, hafter⟩ := lineAndExtra?_eq_some hread
    have hnil : extra ≠ [] := by
      rw [hsplit, hrest]
      simp
    have htext : path ++ ':' :: (digits n ++ tail extra) =
        (path ++ ':' :: (digits n ++ [' '])) ++ extra := by
      simp [tail, hnil]
    refine ⟨_, ds, after, htext ▸ Text.lastCut_append hcut _, ?_⟩
    have hlength := congrArg List.length hsplit
    simp only [hrest, List.length_append, List.length_cons] at hlength
    have htail : after.length ≤ behind.length := by
      rw [hafter, List.length_tail]
      omega
    omega

end LocationFields

open LocationFields in
private theorem locationLine_eq (roots : Roots) (f : Frame) :
    locationLine roots f = '\t' :: ((roots.pathOf f.location).toList ++
      ':' :: (digits f.location.line.toNat ++ tail f.call.extra.toList)) := by
  have hempty : f.call.extra.isEmpty = true ↔ f.call.extra.toList = [] := by simp
  simp only [locationLine, tail, hempty, List.cons_append, List.append_assoc]

open LocationFields in
private theorem ofLine?_locationLine {roots : Roots} {f : Frame}
    (hpath : Unbroken (roots.pathOf f.location).toList) (hextra : Unbroken f.call.extra.toList) :
    ofLine? (locationLine roots f) =
      (Text.lastCut lineAndExtra? ((roots.pathOf f.location).toList ++
        ':' :: (digits f.location.line.toNat ++ tail f.call.extra.toList))).map
          fun (path, line, extra) => ⟨path, line, extra⟩ := by
  have hdigits : '\n' ∉ digits f.location.line.toNat := notMem_digits (by decide) _
  have htail : '\n' ∉ tail f.call.extra.toList := by
    unfold tail
    split
    · simp
    · simp [hextra.1]
  rw [locationLine_eq, ofLine?, if_neg]
  simp [hpath.1, hdigits, htail]

open LocationFields in
/-- A printed place is read as it was printed exactly when nothing behind the line number looks like
another one and the path belongs to the file's own tree. -/
theorem LocationLine.read_locationLine {roots : Roots} {f : Frame}
    (hpath : Unbroken (roots.pathOf f.location).toList) (hextra : Unbroken f.call.extra.toList) :
    read roots (locationLine roots f) = .ok ⟨f.location, f.call.extra⟩ ↔
      ¬ NamesLine f.call.extra.toList ∧
        roots.classify (roots.pathOf f.location) = some (f.location.tree, f.location.file) := by
  have hfields := ofLine?_locationLine hpath hextra
  by_cases hnames : NamesLine f.call.extra.toList
  · simp only [hnames, not_true, false_and, iff_false]
    intro hread
    obtain ⟨before, ds, after, hcut, hshort⟩ :=
      lastCut_line_of_names (roots.pathOf f.location).toList f.location.line.toNat hnames
    rw [hcut, Option.map_some] at hfields
    rw [read, hfields] at hread
    cases hclassify : roots.classify (String.ofList before) with
    | none => simp [hclassify, throw, throwThe, MonadExceptOf.throw] at hread
    | some found =>
      cases hnumber : readNumber .lineNumber ds (locationLine roots f) with
      | error e => simp [hclassify, hnumber, bind, Except.bind] at hread
      | ok n =>
        simp only [hclassify, hnumber, bind, Except.bind, pure, Except.pure, Except.ok.injEq,
          LocationLine.mk.injEq] at hread
        rw [← hread.2, String.toList_ofList] at hshort
        omega
  · rw [lastCut_line f.location.line.toNat hnames, Option.map_some] at hfields
    simp only [hnames, not_false_eq_true, true_and]
    rw [read, hfields]
    simp only [String.ofList_toList]
    cases hclassify : roots.classify (roots.pathOf f.location) with
    | none => simp [throw, throwThe, MonadExceptOf.throw]
    | some found =>
      obtain ⟨tree, file⟩ := found
      simp only [readNumber_digits, bind, Except.bind, pure, Except.pure, Except.ok.injEq,
        LocationLine.mk.injEq, and_true, Option.some.injEq, Prod.mk.injEq]
      constructor
      · intro hlocation
        rw [← hlocation]
        exact ⟨rfl, rfl⟩
      · rintro ⟨rfl, rfl⟩
        rfl

end GoroutineDump.Dump
