import GoroutineDump.Proofs.Dump.Record

/-!
Line ends are white space, so the runs of a text can be told from its pieces without taking the ends
off.
-/

set_option autoImplicit false
set_option relaxedAutoImplicit false

namespace GoroutineDump.Dump

/-- Lines in which the given runs stand, and blank lines before, between and behind them. No line of
a run is blank, and a run ends only where a blank line follows or nothing. -/
inductive HasRuns : List (List Char) → List (List (List Char)) → Prop
  | blank {gap : List (List Char)} : (∀ line ∈ gap, Unicode.isBlank line = true) → HasRuns gap []
  | run {gap run rest : List (List Char)} {runs : List (List (List Char))} :
      (∀ line ∈ gap, Unicode.isBlank line = true) →
      run ≠ [] → (∀ line ∈ run, Unicode.isBlank line = false) →
      (∀ line, rest.head? = some line → Unicode.isBlank line = true) →
      HasRuns rest runs → HasRuns (gap ++ (run ++ rest)) (run :: runs)

section Runs

variable {lines : List (List Char)} {runs : List (List (List Char))}

private theorem HasRuns.cons_blank {line : List Char} (hline : Unicode.isBlank line = true)
    (h : HasRuns lines runs) : HasRuns (line :: lines) runs := by
  cases h with
  | blank hgap => exact .blank (List.forall_mem_cons.mpr ⟨hline, hgap⟩)
  | @run gap run rest runs hgap hne hrun hrest h =>
    have hfront : ∀ l ∈ line :: gap, Unicode.isBlank l = true :=
      List.forall_mem_cons.mpr ⟨hline, hgap⟩
    exact .run hfront hne hrun hrest h

private theorem HasRuns.exists_cons {line : List Char} (hline : Unicode.isBlank line = false)
    (h : HasRuns lines runs) : ∃ runs, HasRuns (line :: lines) runs := by
  have halone : (∀ l, lines.head? = some l → Unicode.isBlank l = true) →
      HasRuns (line :: lines) ([line] :: runs) := by
    intro hhead
    exact @HasRuns.run [] [line] lines runs nofun (List.cons_ne_nil _ _) (by simpa using hline)
      hhead h
  cases h with
  | blank hgap => exact ⟨_, halone fun l hl => hgap l (List.mem_of_mem_head? hl)⟩
  | @run gap run rest runs hgap hne hrun hrest h =>
    cases gap with
    | nil =>
      have hlonger : ∀ l ∈ line :: run, Unicode.isBlank l = false :=
        List.forall_mem_cons.mpr ⟨hline, hrun⟩
      exact ⟨_, @HasRuns.run [] (line :: run) rest runs nofun (List.cons_ne_nil _ _) hlonger hrest
        h⟩
    | cons blank gap =>
      refine ⟨_, halone fun l hl => ?_⟩
      exact Option.some.inj hl ▸ hgap blank List.mem_cons_self

private theorem exists_hasRuns (lines : List (List Char)) : ∃ runs, HasRuns lines runs := by
  induction lines with
  | nil => exact ⟨[], .blank nofun⟩
  | cons line lines ih =>
    obtain ⟨runs, h⟩ := ih
    cases hline : Unicode.isBlank line with
    | true => exact ⟨runs, h.cons_blank hline⟩
    | false => exact h.exists_cons hline

private theorem records_gap_append {gap : List (List Char)}
    (h : ∀ line ∈ gap, Unicode.isBlank line = true) (rest : List (List Char)) :
    records (gap ++ rest) = records rest := by
  induction gap with
  | nil => rfl
  | cons line gap ih =>
    rw [List.forall_mem_cons] at h
    rw [List.cons_append, records, firstRun_blank h.1, ih h.2]

theorem HasRuns.records_eq (h : HasRuns lines runs) : records lines = runs := by
  induction h with
  | blank hgap =>
    have hrecords := records_gap_append hgap []
    rwa [List.append_nil] at hrecords
  | run hgap hne hrun hrest _ ih =>
    rw [records_gap_append hgap, records_run_append hne hrun hrest, ih]

/-- The records of lines are their runs. -/
theorem hasRuns_iff : HasRuns lines runs ↔ records lines = runs := by
  refine ⟨HasRuns.records_eq, ?_⟩
  rintro rfl
  obtain ⟨runs, h⟩ := exists_hasRuns lines
  exact h.records_eq ▸ h

theorem HasRuns.of_mem {run : List (List Char)} (h : HasRuns lines runs) (hmem : run ∈ runs) :
    run ≠ [] ∧ ∀ line ∈ run, line ∈ lines := by
  induction h with
  | blank hgap => cases hmem
  | @run gap first rest runs hgap hne hrun hrest h ih =>
    rcases List.mem_cons.mp hmem with rfl | hmem
    · exact ⟨hne, fun line hline => List.mem_append_right _ (List.mem_append_left _ hline)⟩
    · obtain ⟨hne', hlines⟩ := ih hmem
      refine ⟨hne', fun line hline => ?_⟩
      exact List.mem_append_right _ (List.mem_append_right _ (hlines line hline))

theorem records_append_blank {line : List Char} (hline : Unicode.isBlank line = true)
    (before behind : List (List Char)) :
    records (before ++ line :: behind) = records before ++ records behind := by
  have hruns : HasRuns before (records before) := hasRuns_iff.mpr rfl
  -- By induction on the runs before the line; the last of them ends there if not sooner.
  generalize records before = runs at hruns
  induction hruns with
  | blank hgap => rw [records_gap_append hgap, records, firstRun_blank hline, List.nil_append]
  | @run gap run rest runs hgap hne hrun hrest _ ih =>
    have hhead : ∀ l, (rest ++ line :: behind).head? = some l → Unicode.isBlank l = true := by
      intro l hl
      cases rest with
      | nil => exact Option.some.inj hl ▸ hline
      | cons first rest => exact hrest l hl
    rw [List.append_assoc, records_gap_append hgap, List.append_assoc,
      records_run_append hne hrun hhead, ih, List.cons_append]

/-! ### Lines with and without their ends -/

private theorem HasRuns.map {edit : List Char → List Char}
    (hedit : ∀ line, Unicode.isBlank (edit line) = Unicode.isBlank line) (h : HasRuns lines runs) :
    HasRuns (lines.map edit) (runs.map (List.map edit)) := by
  have hall {ls : List (List Char)} {b : Bool} (hls : ∀ l ∈ ls, Unicode.isBlank l = b) :
      ∀ l ∈ ls.map edit, Unicode.isBlank l = b := by
    rintro _ hmem
    obtain ⟨l, hl, rfl⟩ := List.mem_map.mp hmem
    rw [hedit, hls l hl]
  induction h with
  | blank hgap => exact .blank (hall hgap)
  | @run gap run rest runs hgap hne hrun hrest _ ih =>
    rw [List.map_append, List.map_append, List.map_cons]
    refine .run (hall hgap) (by simpa using hne) (hall hrun) ?_ ih
    intro line hline
    rw [List.head?_map] at hline
    obtain ⟨l, hl, rfl⟩ := Option.map_eq_some_iff.mp hline
    rw [hedit, hrest l hl]

private theorem records_map {edit : List Char → List Char}
    (hedit : ∀ line, Unicode.isBlank (edit line) = Unicode.isBlank line)
    (lines : List (List Char)) : records (lines.map edit) = (records lines).map (List.map edit) :=
  ((hasRuns_iff.mpr rfl).map hedit).records_eq

private theorem isBlank_dropLast {c : Char} {cs : List Char} (hc : Unicode.isSpace c = true)
    (h : cs.getLast? = some c) : Unicode.isBlank cs.dropLast = Unicode.isBlank cs := by
  conv_rhs => rw [← List.dropLast_append_getLast? c h]
  simp [Unicode.isBlank, hc]

private theorem isBlank_chop {c : Char} (hc : Unicode.isSpace c = true) (cs : List Char) :
    Unicode.isBlank (Text.chop c cs) = Unicode.isBlank cs := by
  unfold Text.chop
  split
  · next hlast => exact isBlank_dropLast hc hlast
  · rfl

private theorem isBlank_lineOfPiece (piece : List Char) :
    Unicode.isBlank (Text.lineOfPiece piece) = Unicode.isBlank piece := by
  have hreturn : Unicode.isSpace '\r' = true := by decide
  unfold Text.lineOfPiece
  split
  · next hlast =>
    rw [isBlank_chop hreturn, isBlank_chop hreturn, isBlank_dropLast (by decide) hlast]
  · exact isBlank_chop hreturn piece

/-- The records of a text are the runs of its pieces, with the line ends taken off. -/
theorem records_dumpLines_eq (cs : List Char) :
    records (Text.dumpLines cs) = (records (Text.pieces cs)).map (List.map Text.lineOfPiece) :=
  records_map isBlank_lineOfPiece (Text.pieces cs)

theorem parse_of_records {roots : Roots} {text : String} {record : List (List Char)}
    {g : Goroutine} (hrecords : records (Text.dumpLines text.toList) = [record])
    (hread : readRecord roots record = .ok g) : parse roots text = .ok [g] := by
  rw [parse, hrecords, List.mapM_cons, hread]
  rfl

end Runs

def IsBlankLine (line : String) : Prop := Unicode.isBlank line.toList = true ∧ '\n' ∉ line.toList

instance (line : String) : Decidable (IsBlankLine line) := instDecidableAnd

/-- A part of a dump: whole lines and the blank line that follows them. -/
structure Part where
  text : String
  gap : String
  whole : Text.WholeLines text.toList
  blank : IsBlankLine gap

def Part.lines (part : Part) : String := part.text ++ part.gap ++ "\n"

variable {roots : Roots}

private theorem records_append_blankLine {before gap : List Char}
    (hbefore : Text.WholeLines before) (hblank : Unicode.isBlank gap = true) (hline : '\n' ∉ gap)
    (behind : List Char) :
    records (Text.dumpLines (before ++ gap ++ '\n' :: behind)) =
      records (Text.dumpLines before) ++ records (Text.dumpLines behind) := by
  have hpiece : Unicode.isBlank (Text.lineOfPiece (gap ++ ['\n'])) = true := by
    have hfeed : Unicode.isSpace '\n' = true := by decide
    rw [isBlank_lineOfPiece]
    simpa [Unicode.isBlank, hfeed] using hblank
  rw [Text.dumpLines, List.append_assoc, hbefore.pieces_append, Text.pieces_line behind hline,
    List.map_append, List.map_cons, records_append_blank hpiece, Text.dumpLines, Text.dumpLines]

private theorem parse_lines_append (part : Part) (b : String) :
    parse roots (part.lines ++ b) = do
      let before ← parse roots part.text
      let behind ← parse roots b
      return before ++ behind := by
  have hlist : (part.lines ++ b).toList =
      part.text.toList ++ part.gap.toList ++ '\n' :: b.toList := by
    simp [Part.lines]
  rw [parse, hlist, records_append_blankLine part.whole part.blank.1 part.blank.2,
    List.mapM_append]
  rfl

private theorem parse_empty : parse roots "" = pure [] := rfl

private theorem parse_blankLine_append {gap : String} (hgap : IsBlankLine gap) (b : String) :
    parse roots (gap ++ "\n" ++ b) = parse roots b := by
  have hparse : parse roots (Part.lines ⟨"", gap, .inl rfl, hgap⟩ ++ b) = _ :=
    parse_lines_append _ b
  rw [Part.lines, String.empty_append, parse_empty] at hparse
  simpa using hparse

theorem parse_append_blankLine {text gap : String} (htext : Text.WholeLines text.toList)
    (hgap : IsBlankLine gap) : parse roots (text ++ gap ++ "\n") = parse roots text := by
  have hparse : parse roots (Part.lines ⟨text, gap, htext, hgap⟩ ++ "") = _ :=
    parse_lines_append _ ""
  rw [Part.lines, String.append_empty, parse_empty] at hparse
  simpa using hparse

private theorem parse_join_append (parts : List Part) (b : String) :
    parse roots (String.join (parts.map (·.lines)) ++ b) = do
      let before ← parts.mapM fun part => parse roots part.text
      let behind ← parse roots b
      return before.flatten ++ behind := by
  induction parts with
  | nil => simp
  | cons part parts ih =>
    rw [List.map_cons, String.join_cons, String.append_assoc, parse_lines_append, ih]
    simp only [List.mapM_cons, bind_assoc, pure_bind, List.flatten_cons, List.append_assoc]

/-- Where a dump has a blank line, what stands before it and what stands behind it are read as if
each stood alone, and an error before it comes first. So further blank lines change nothing before,
between and behind the records, and of any number of parts the first that cannot be read decides the
error. -/
theorem parse_by_parts (roots : Roots) {a s : String} (ha : Text.WholeLines a.toList)
    (hs : IsBlankLine s) (b : String) :
    (parse roots (a ++ s ++ "\n" ++ b) =
      match parse roots a, parse roots b with
      | .error e, _ => .error e
      | .ok _, .error e => .error e
      | .ok before, .ok behind => .ok (before ++ behind)) ∧
    (∀ gap, IsBlankLine gap →
      parse roots (gap ++ "\n" ++ b) = parse roots b ∧
      parse roots (a ++ gap ++ "\n") = parse roots a ∧
      parse roots (a ++ s ++ "\n" ++ gap ++ "\n" ++ b) = parse roots (a ++ s ++ "\n" ++ b)) ∧
    ∀ parts : List Part, parse roots (String.join (parts.map (·.lines)) ++ b) = do
      let before ← parts.mapM fun part => parse roots part.text
      let behind ← parse roots b
      return before.flatten ++ behind := by
  have hlaw : ∀ b, parse roots (a ++ s ++ "\n" ++ b) = do
      let before ← parse roots a
      let behind ← parse roots b
      return before ++ behind := parse_lines_append ⟨a, s, ha, hs⟩
  refine ⟨?_, ?_, fun parts => parse_join_append parts b⟩
  · rw [hlaw]
    cases parse roots a with
    | error e => rfl
    | ok before => cases parse roots b <;> rfl
  · intro gap hgap
    refine ⟨parse_blankLine_append hgap b, parse_append_blankLine ha hgap, ?_⟩
    have hmore := hlaw (gap ++ "\n" ++ b)
    rw [parse_blankLine_append hgap, ← hlaw b] at hmore
    simpa [String.append_assoc] using hmore

def oneRecord : String := "goroutine 1 [x]:\nf(1)\n\t_cgo_x:3\n"

private def oneGoroutine : Goroutine where
  id := 1
  state := "x"
  stack := [⟨⟨.generated, "_cgo_x", 3⟩, { package := "", method := "f", args := "1" }, {}⟩]

private theorem parse_oneRecord : parse {} oneRecord = .ok [oneGoroutine] := by
  have hrecords : records (Text.dumpLines oneRecord.toList) =
      [["goroutine 1 [x]:".toList, "f(1)".toList, "\t_cgo_x:3".toList]] := by
    decide +kernel
  have hrecord : readRecord {} ["goroutine 1 [x]:".toList, "f(1)".toList, "\t_cgo_x:3".toList] =
      .ok oneGoroutine := rfl
  exact parse_of_records hrecords hrecord

theorem parse_by_parts_oneRecord :
    Text.WholeLines oneRecord.toList ∧ IsBlankLine " \r" ∧
    (∃ gs, parse {} oneRecord = .ok gs ∧ gs.length = 1) ∧
    parse {} (oneRecord ++ " \r" ++ "\n" ++ "exit") = .error (.malformedHeader "exit") := by
  have hwhole : Text.WholeLines oneRecord.toList := by decide
  have hblank : IsBlankLine " \r" := by decide
  refine ⟨hwhole, hblank, ⟨_, parse_oneRecord, rfl⟩, ?_⟩
  have hbehind : parse {} "exit" = .error (.malformedHeader "exit") := rfl
  rw [(parse_by_parts {} hwhole hblank "exit").1, parse_oneRecord, hbehind]

end GoroutineDump.Dump

namespace GoroutineDump

namespace Text

/-- The second text is the first one with a carriage return put in before some of its line feeds,
before all of them or before none. -/
inductive AddsReturns : List Char → List Char → Prop
  | nil : AddsReturns [] []
  | keep (c : Char) {cs ds : List Char} : AddsReturns cs ds → AddsReturns (c :: cs) (c :: ds)
  | put {cs ds : List Char} : AddsReturns cs ds → AddsReturns ('\n' :: cs) ('\r' :: '\n' :: ds)

variable {l cs ds : List Char}

@[refl] theorem AddsReturns.refl (cs : List Char) : AddsReturns cs cs := by
  induction cs with
  | nil => exact .nil
  | cons c cs ih => exact .keep c ih

private theorem AddsReturns.append {cs' ds' : List Char} (h : AddsReturns cs ds)
    (h' : AddsReturns cs' ds') : AddsReturns (cs ++ cs') (ds ++ ds') := by
  induction h with
  | nil => exact h'
  | keep c _ ih => exact .keep c ih
  | put _ ih => exact .put ih

private theorem AddsReturns.eq_of_notMem (h : AddsReturns l ds) (hl : '\n' ∉ l) : ds = l := by
  induction h with
  | nil => rfl
  | keep c _ ih => rw [ih (fun hmem => hl (List.mem_cons_of_mem c hmem))]
  | put _ _ => exact absurd List.mem_cons_self hl

private theorem AddsReturns.line (hl : '\n' ∉ l) (h : AddsReturns (l ++ '\n' :: cs) ds) :
    ∃ es, AddsReturns cs es ∧ (ds = l ++ '\n' :: es ∨ ds = l ++ '\r' :: '\n' :: es) := by
  induction l generalizing ds with
  | nil =>
    cases h with
    | keep c h => exact ⟨_, h, .inl rfl⟩
    | put h => exact ⟨_, h, .inr rfl⟩
  | cons c l ih =>
    rw [List.mem_cons, not_or] at hl
    cases h with
    | keep c h =>
      obtain ⟨es, hes, hds⟩ := ih hl.2 h
      refine ⟨es, hes, ?_⟩
      rcases hds with rfl | rfl
      · exact .inl rfl
      · exact .inr rfl
    | put h => exact absurd rfl hl.1

end Text

namespace Dump

open Text (AddsReturns dumpLines pieces WholeLines)

variable {line cs ds : List Char}

/-! ### Lines -/

private theorem dumpLines_line_return (h : Unbroken line) (rest : List Char) :
    dumpLines (line ++ '\r' :: '\n' :: rest) = line :: dumpLines rest := by
  have hfeed : '\n' ∉ line ++ ['\r'] := by simp [h.1]
  have hpiece : Text.lineOfPiece (line ++ ['\r'] ++ ['\n']) = line := by
    rw [Text.lineOfPiece, if_pos List.getLast?_concat, List.dropLast_concat,
      Text.chop_append_self, Text.chop_of_notMem h.2]
  have hpieces := Text.pieces_line rest hfeed
  rw [List.append_assoc, List.singleton_append] at hpieces
  rw [dumpLines, hpieces, List.map_cons, hpiece]
  rfl

private theorem dumpLines_last_return (h : Unbroken line) :
    dumpLines (line ++ ['\r']) = [line] := by
  have hfeed : '\n' ∉ line ++ ['\r'] := by simp [h.1]
  have hpiece : Text.lineOfPiece (line ++ ['\r']) = line := by
    simp [Text.lineOfPiece]
  rw [dumpLines, Text.pieces_last hfeed (by simp), List.map_singleton, hpiece]

/-! ### Texts -/

/-- Carriage returns before line feeds do not change the lines. -/
private theorem dumpLines_of_addsReturns (h : AddsReturns cs ds) (hreturn : '\r' ∉ cs) :
    dumpLines ds = dumpLines cs := by
  induction cs using Text.induction_on_lines generalizing ds with
  | last l hl => rw [h.eq_of_notMem hl]
  | line l rest hl ih =>
    rw [List.mem_append, List.mem_cons, not_or, not_or] at hreturn
    obtain ⟨es, hes, hds⟩ := h.line hl
    have htail : dumpLines es = dumpLines rest := ih hes hreturn.2.2
    rcases hds with rfl | rfl
    · rw [dumpLines_line ⟨hl, hreturn.1⟩, dumpLines_line ⟨hl, hreturn.1⟩, htail]
    · rw [dumpLines_line_return ⟨hl, hreturn.1⟩, dumpLines_line ⟨hl, hreturn.1⟩, htail]

private theorem dumpLines_append_return (h : AddsReturns cs ds) (hreturn : '\r' ∉ cs)
    (hopen : ¬ WholeLines cs) : dumpLines (ds ++ ['\r']) = dumpLines cs := by
  induction cs using Text.induction_on_lines generalizing ds with
  | last l hl =>
    have hne : l ≠ [] := fun hnil => hopen (.inl hnil)
    rw [h.eq_of_notMem hl, dumpLines_last_return ⟨hl, hreturn⟩, dumpLines_last ⟨hl, hreturn⟩ hne]
  | line l rest hl ih =>
    rw [List.mem_append, List.mem_cons, not_or, not_or] at hreturn
    have hrest : ¬ WholeLines rest := by
      intro hwhole
      apply hopen
      right
      rcases hwhole with rfl | hlast
      · exact List.getLast?_concat
      · simp [List.getLast?_append, List.getLast?_cons, hlast]
    obtain ⟨es, hes, hds⟩ := h.line hl
    have htail : dumpLines (es ++ ['\r']) = dumpLines rest := ih hes hreturn.2.2 hrest
    rcases hds with rfl | rfl
    · rw [List.append_assoc, List.cons_append, dumpLines_line ⟨hl, hreturn.1⟩,
        dumpLines_line ⟨hl, hreturn.1⟩, htail]
    · rw [List.append_assoc, List.cons_append, List.cons_append,
        dumpLines_line_return ⟨hl, hreturn.1⟩, dumpLines_line ⟨hl, hreturn.1⟩, htail]

/-- A dump without carriage returns is read the same with a carriage return before any of its line
feeds, and with one more at its end if it does not end in a line feed: as the same goroutines, or
with the same error about the same text. -/
theorem parse_lineEnds (roots : Roots) {text other : String} (hreturn : '\r' ∉ text.toList)
    (h : AddsReturns text.toList other.toList) :
    parse roots other = parse roots text ∧
      (text.toList.getLast? ≠ some '\n' → parse roots (other ++ "\r") = parse roots text) := by
  refine ⟨?_, ?_⟩
  · rw [parse, parse, dumpLines_of_addsReturns h hreturn]
  · intro hlast
    have hother : (other ++ "\r").toList = other.toList ++ ['\r'] := String.toList_append
    rw [parse, parse, hother]
    by_cases hnil : text.toList = []
    · -- Of the empty text the carriage return makes one empty line, which is blank.
      rw [hnil] at h ⊢
      rw [h.eq_of_notMem List.not_mem_nil]
      rfl
    · rw [dumpLines_append_return h hreturn (not_or.mpr ⟨hnil, hlast⟩)]

def mixedEnds : String := "goroutine 1 [x]:\nf(1)\n\t_cgo_x:3 +1\n \nexit"

theorem parse_lineEnds_mixed :
    '\r' ∉ mixedEnds.toList ∧
      AddsReturns mixedEnds.toList
        "goroutine 1 [x]:\r\nf(1)\n\t_cgo_x:3 +1\n \r\nexit".toList ∧
      mixedEnds.toList.getLast? ≠ some '\n' ∧
      parse {} mixedEnds = .error (.malformedHeader "exit") ∧
      parse {} ("goroutine 1 [x]:\r\nf(1)\n\t_cgo_x:3 +1\n \r\nexit" ++ "\r") =
        .error (.malformedHeader "exit") := by
  have hreturn : '\r' ∉ mixedEnds.toList := by decide
  have hadds : AddsReturns mixedEnds.toList
      "goroutine 1 [x]:\r\nf(1)\n\t_cgo_x:3 +1\n \r\nexit".toList :=
    (AddsReturns.refl "goroutine 1 [x]:".toList).append
      (.put ((AddsReturns.refl "f(1)\n\t_cgo_x:3 +1\n ".toList).append (.put (.refl "exit".toList))))
  have hlast : mixedEnds.toList.getLast? ≠ some '\n' := by decide
  have hparse : parse {} mixedEnds = .error (.malformedHeader "exit") := by
    have hrecords : records (dumpLines mixedEnds.toList) =
        [["goroutine 1 [x]:".toList, "f(1)".toList, "\t_cgo_x:3 +1".toList], ["exit".toList]] := by
      decide +kernel
    rw [parse, hrecords]
    rfl
  exact ⟨hreturn, hadds, hlast, hparse, ((parse_lineEnds {} hreturn hadds).2 hlast).trans hparse⟩

end Dump

end GoroutineDump
