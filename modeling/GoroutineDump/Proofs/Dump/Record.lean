import GoroutineDump.Proofs.Dump.LocationLine

set_option autoImplicit false
set_option relaxedAutoImplicit false

namespace GoroutineDump.Dump

private theorem lineOfPiece_line {line : List Char} (h : Unbroken line) :
    Text.lineOfPiece (line ++ ['\n']) = line := by
  simp [Text.lineOfPiece, Text.chop_of_notMem h.2]

private theorem lineOfPiece_last {line : List Char} (h : Unbroken line) :
    Text.lineOfPiece line = line := by
  have hlast : line.getLast? ≠ some '\n' := fun heq => h.1 (List.mem_of_getLast? heq)
  rw [Text.lineOfPiece, if_neg hlast, Text.chop_of_notMem h.2]

theorem dumpLines_line {line : List Char} (h : Unbroken line) (rest : List Char) :
    Text.dumpLines (line ++ '\n' :: rest) = line :: Text.dumpLines rest := by
  rw [Text.dumpLines, Text.pieces_line rest h.1, List.map_cons, lineOfPiece_line h]
  rfl

theorem dumpLines_last {line : List Char} (h : Unbroken line) (hne : line ≠ []) :
    Text.dumpLines line = [line] := by
  rw [Text.dumpLines, Text.pieces_last h.1 hne, List.map_singleton, lineOfPiece_last h]

private theorem dumpLines_intercalate {lines : List (List Char)} (h : ∀ line ∈ lines, Unbroken line)
    (hlast : lines.getLast? ≠ some []) : Text.dumpLines (['\n'].intercalate lines) = lines := by
  induction lines with
  | nil => rfl
  | cons line lines ih =>
    have hline := h line List.mem_cons_self
    cases lines with
    | nil =>
      have hne : line ≠ [] := fun heq => hlast (heq ▸ rfl)
      rw [List.intercalate_singleton, dumpLines_last hline hne]
    | cons next lines =>
      have htail := ih (fun l hl => h l (List.mem_cons_of_mem line hl)) hlast
      rw [List.intercalate_cons_cons, List.append_assoc, List.singleton_append,
        dumpLines_line hline, htail]

private theorem firstRun_append {run : List (List Char)}
    (h : ∀ line ∈ run, Unicode.isBlank line = false) (rest : List (List Char)) :
    firstRun (run ++ rest) = (run ++ (firstRun rest).1, (firstRun rest).2) := by
  induction run with
  | nil => rfl
  | cons line run ih =>
    have hline := h line List.mem_cons_self
    have htail := ih fun l hl => h l (List.mem_cons_of_mem line hl)
    rw [List.cons_append, firstRun, htail]
    simp [hline]

theorem firstRun_blank {line : List Char} (h : Unicode.isBlank line = true)
    (rest : List (List Char)) : firstRun (line :: rest) = ([], records rest) := by
  rw [firstRun, records]
  rcases firstRun rest with ⟨run, runs⟩
  cases run <;> simp [h]

theorem records_run_append {run rest : List (List Char)} (hne : run ≠ [])
    (h : ∀ line ∈ run, Unicode.isBlank line = false)
    (hrest : ∀ line, rest.head? = some line → Unicode.isBlank line = true) :
    records (run ++ rest) = run :: records rest := by
  have hcut : firstRun rest = ([], records rest) := by
    cases rest with
    | nil => rfl
    | cons line rest =>
      have hline := hrest line rfl
      rw [records, firstRun_blank hline]
  have hrun := firstRun_append h rest
  rw [hcut, List.append_nil] at hrun
  conv_lhs => rw [records, hrun]
  cases run with
  | nil => exact absurd rfl hne
  | cons line run => rfl

theorem records_intercalate {rs : List (List (List Char))} (hne : [] ∉ rs)
    (h : ∀ r ∈ rs, ∀ line ∈ r, Unicode.isBlank line = false) :
    records ([[]].intercalate rs) = rs := by
  induction rs with
  | nil => rfl
  | cons r rs ih =>
    have hr := h r List.mem_cons_self
    have hrne : r ≠ [] := fun heq => hne (heq ▸ List.mem_cons_self)
    cases rs with
    | nil =>
      have hlast := @records_run_append r [] hrne hr nofun
      rw [List.append_nil] at hlast
      rw [List.intercalate_singleton, hlast]
      rfl
    | cons next rs =>
      have htail := ih (fun hmem => hne (List.mem_cons_of_mem r hmem))
        fun l hl => h l (List.mem_cons_of_mem r hl)
      have hempty : records ([] :: [[]].intercalate (next :: rs)) = next :: rs := by
        rw [records, firstRun_blank rfl, htail]
      rw [List.intercalate_cons_cons, List.append_assoc, List.singleton_append,
        records_run_append hrne hr, hempty]
      intro line hline
      exact Option.some.inj hline ▸ rfl

private theorem eq_nil_or_mem_of_mem_intercalate {rs : List (List (List Char))} {line : List Char}
    (h : line ∈ [[]].intercalate rs) : line = [] ∨ ∃ r ∈ rs, line ∈ r := by
  induction rs with
  | nil => cases h
  | cons r rs ih =>
    cases rs with
    | nil =>
      rw [List.intercalate_singleton] at h
      exact .inr ⟨r, List.mem_cons_self, h⟩
    | cons next rs =>
      rw [List.intercalate_cons_cons, List.append_assoc, List.mem_append] at h
      rcases h with h | h
      · exact .inr ⟨r, List.mem_cons_self, h⟩
      · rcases List.mem_cons.mp h with h | h
        · exact .inl h
        · rcases ih h with hnil | ⟨s, hs, hline⟩
          · exact .inl hnil
          · exact .inr ⟨s, List.mem_cons_of_mem r hs, hline⟩

private theorem getLast?_intercalate {rs : List (List (List Char))} (hne : [] ∉ rs)
    (h : ∀ r ∈ rs, [] ∉ r) : ([[]].intercalate rs).getLast? ≠ some [] := by
  induction rs with
  | nil => simp
  | cons r rs ih =>
    cases rs with
    | nil =>
      rw [List.intercalate_singleton]
      exact fun heq => h r List.mem_cons_self (List.mem_of_getLast? heq)
    | cons next rs =>
      have htail := ih (fun hmem => hne (List.mem_cons_of_mem r hmem))
        fun l hl => h l (List.mem_cons_of_mem r hl)
      have hnext : next ≠ [] := fun heq => hne (by simp [heq])
      have hinner : [[]].intercalate (next :: rs) ≠ [] := by
        cases rs <;> simp [hnext]
      rw [List.intercalate_cons_cons, List.getLast?_append]
      cases hlast : ([[]].intercalate (next :: rs)).getLast? with
      | none => exact absurd (List.getLast?_eq_none_iff.mp hlast) hinner
      | some line =>
        rw [hlast] at htail
        simpa using htail

/-- The records of a text are those whose lines were joined to it with empty lines between them. -/
theorem records_dumpLines {rs : List (List (List Char))} (hne : [] ∉ rs)
    (hline : ∀ r ∈ rs, ∀ line ∈ r, Unbroken line ∧ Unicode.isBlank line = false) :
    records (Text.dumpLines (['\n'].intercalate ([[]].intercalate rs))) = rs := by
  have hunbroken : ∀ line ∈ [[]].intercalate rs, Unbroken line := by
    intro line hmem
    rcases eq_nil_or_mem_of_mem_intercalate hmem with rfl | ⟨r, hr, hmem⟩
    · exact ⟨by simp, by simp⟩
    · exact (hline r hr line hmem).1
  have hempty : ∀ r ∈ rs, [] ∉ r := by
    intro r hr hmem
    exact absurd (hline r hr [] hmem).2 (by decide)
  rw [dumpLines_intercalate hunbroken (getLast?_intercalate hne hempty)]
  exact records_intercalate hne fun r hr line hmem => (hline r hr line hmem).2

theorem Body.read_elision {roots : Roots} {line : List Char} (h : isElision line = true)
    (rest : List (List Char)) : Body.read roots (line :: rest) = Body.read roots rest := by
  rw [Body.read, if_pos h]

theorem Body.read_frame_eq_ok_iff {roots : Roots} {call place : List Char}
    {rest : List (List Char)} {body : Body} (helision : isElision call = false) :
    Body.read roots (call :: place :: rest) = .ok body ↔
      ∃ tail, Body.read roots rest = .ok tail ∧
        ∃ c l, CallLine.read call = .ok c ∧ LocationLine.read roots place = .ok l ∧
          Body.cons c l tail = body := by
  rw [Body.read, if_neg (by simp [helision])]
  cases hcall : CallLine.read call with
  | error e => simp [bind, Except.bind]
  | ok c =>
    cases hplace : LocationLine.read roots place with
    | error e => simp [hplace, bind, Except.bind]
    | ok l =>
      cases hrest : Body.read roots rest with
      | error e => simp [hplace, hrest, bind, Except.bind, Functor.map, Except.map]
      | ok tail => simp [hplace, hrest, bind, Except.bind, Functor.map, Except.map]

end GoroutineDump.Dump
