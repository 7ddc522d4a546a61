import GoroutineDump.Proofs.Dump.Cuts
import GoroutineDump.Proofs.Dump.Runs

set_option autoImplicit false
set_option relaxedAutoImplicit false

namespace GoroutineDump.Dump

inductive Position
  | header
  | call
  | place
  deriving DecidableEq, Repr

/-- Where the lines behind the last item that can be read begin with a refusal: the error and the
line it is about, with its position. -/
inductive Stops (roots : Roots) : List (List Char) → Position → List Char → Error → Prop
  | call {line : List Char} {rest : List (List Char)} {e : Error} :
      ¬ IsElision line → CallLine.read line = .error e → Stops roots (line :: rest) .call line e
  | missing {line : List Char} :
      IsCall line → Stops roots [line] .call line (.missingLocation (String.ofList line))
  | place {call line : List Char} {rest : List (List Char)} {e : Error} :
      IsCall call → LocationLine.read roots line = .error e →
      Stops roots (call :: line :: rest) .place line e

/-- The first line of a record that is refused where it stands. All lines before it are a header and
items that can be read, but for the call in front of a place. -/
inductive RefusedAt (roots : Roots) : List (List Char) → Position → List Char → Error → Prop
  | header {line : List Char} {rest : List (List Char)} {e : Error} :
      Header.read line = .error e → RefusedAt roots (line :: rest) .header line e
  | body {first line : List Char} {left : List (List Char)} {header : Header} {items : List Item}
      {position : Position} {e : Error} :
      Header.read first = .ok header → (∀ item ∈ items, item.Fits IsCall roots) →
      Stops roots left position line e →
      RefusedAt roots (first :: (items.flatMap Item.lines ++ left)) position line e

/-- A record whose lines can all be read, of goroutine 0 or without a frame. -/
def Hollow (roots : Roots) (record : List (List Char)) : Prop :=
  ∃ (first : List Char) (header : Header) (items : List Item),
    record = first :: items.flatMap Item.lines ∧ Header.read first = .ok header ∧
    (∀ item ∈ items, item.Fits IsCall roots) ∧
    (header.id = 0 ∨ ∀ item ∈ items, item.isFrame = false)

namespace NumericField

def position : NumericField → Position
  | goroutineId | blockDuration => .header
  | parentId => .call
  | lineNumber => .place

def Holds : NumericField → List Char → List Char → Prop
  | goroutineId, line, ds => "goroutine ".toList ++ ds ++ " [".toList <+: line
  | blockDuration, line, ds => ", ".toList ++ ds ++ " minutes".toList <:+: line
  | parentId, line, ds => "created by ".toList <+: line ∧ " in goroutine ".toList ++ ds <:+ line
  | lineNumber, line, ds => ∃ path, SplitsAt line path ds

end NumericField

/-- The raw text of an error is the line of the record that is refused first, the path in it that
no tree holds, or the whole record. -/
def PointsAt (roots : Roots) (record : List (List Char)) (raw : String) (e : Error) : Prop :=
  match e with
  | .malformedHeader _ => RefusedAt roots record .header raw.toList e
  | .malformedCall _ => RefusedAt roots record .call raw.toList e
  | .malformedLocation _ => RefusedAt roots record .place raw.toList e
  | .missingLocation _ =>
    RefusedAt roots record .call raw.toList e ∧ record.getLast? = some raw.toList
  | .invalidNumber field digits _ =>
    RefusedAt roots record field.position raw.toList e ∧ field.Holds raw.toList digits.toList ∧
      ¬ IsWord digits.toList
  | .unknownRoot _ =>
    roots.classify raw = none ∧
      ∃ line, RefusedAt roots record .place line e ∧ '\t' :: (raw.toList ++ [':']) <+: line
  | .emptyRecord _ => raw = joinLines record ∧ Hollow roots record
  | .notText => False

variable {roots : Roots} {line : List Char} {e : Error}

def IsBadNumber (field : NumericField) (line : List Char) (e : Error) : Prop :=
  ∃ ds, field.Holds line ds ∧ ¬ IsWord ds ∧
    e = .invalidNumber field (String.ofList ds) (String.ofList line)

private theorem isBadNumber_of_readNumber {field : NumericField} {ds : List Char}
    (hholds : field.Holds line ds) (h : readNumber field ds line = .error e) :
    IsBadNumber field line e := by
  obtain ⟨hword, rfl⟩ := readNumber_eq_error_iff.mp h
  exact ⟨ds, hholds, hword, rfl⟩

theorem Header.error_of_read (h : Header.read line = .error e) :
    e = .malformedHeader (String.ofList line) ∨
      ∃ field : NumericField, field.position = .header ∧ IsBadNumber field line e := by
  rw [Header.read_eq] at h
  split at h
  · exact .inl (Except.error.inj h).symm
  · next f hfields =>
    obtain ⟨-, rfl⟩ := HeaderFields.ofLine?_eq_some_iff.mp hfields
    right
    rcases bind_eq_error.mp h with hid | ⟨id, -, h⟩
    · refine ⟨.goroutineId, rfl, isBadNumber_of_readNumber ?_ hid⟩
      refine ⟨f.state ++ (HeaderFields.minutesText f.minutes ++
        (HeaderFields.lockedText f.locked ++ "]:".toList)), ?_⟩
      unfold HeaderFields.line
      simp only [List.append_assoc]
    · rcases bind_eq_error.mp h with hminutes | ⟨minutes, -, h⟩
      · obtain ⟨ds, hds, hblocked⟩ := option_mapM_eq_error_iff.mp hminutes
        refine ⟨.blockDuration, rfl, isBadNumber_of_readNumber ?_ hblocked⟩
        refine ⟨"goroutine ".toList ++ (f.id ++ (" [".toList ++ f.state)),
          HeaderFields.lockedText f.locked ++ "]:".toList, ?_⟩
        unfold HeaderFields.line
        simp only [Option.mem_def.mp hds, HeaderFields.minutesText, Option.elim_some,
          List.append_assoc]
      · exact absurd h pure_ne_error

theorem CallLine.error_of_read (h : CallLine.read line = .error e) :
    e = .malformedCall (String.ofList line) ∨ IsBadNumber .parentId line e := by
  by_cases hmark : originMark <+: line
  · right
    obtain ⟨origin, rfl⟩ := hmark
    rw [read_origin rfl, readOrigin_eq, map_eq_error] at h
    obtain ⟨ds, hds, hnumber⟩ := option_mapM_eq_error_iff.mp h
    obtain ⟨-, -, horigin⟩ := cutParent_eq_some_iff.mp (Prod.ext rfl hds)
    refine isBadNumber_of_readNumber ⟨List.prefix_append _ _, ?_⟩ hnumber
    refine ⟨originMark ++ (cutParent origin).1, ?_⟩
    conv_rhs => rw [horigin]
    simp only [List.append_assoc]
  · left
    rw [read_of_not_origin hmark] at h
    split at h
    · exact (Except.error.inj h).symm
    · cases h

theorem LocationLine.error_of_read (h : LocationLine.read roots line = .error e) :
    e = .malformedLocation (String.ofList line) ∨
      (∃ path ds, SplitsAt line path ds ∧ roots.classify (String.ofList path) = none ∧
        e = .unknownRoot (String.ofList path)) ∨
      IsBadNumber .lineNumber line e := by
  rcases read_eq_error_iff.mp h with ⟨-, rfl⟩ | ⟨f, hfields, herror⟩
  · exact .inl rfl
  · have hsplits := LocationFields.splitsAt_of_ofLine? hfields
    rcases herror with ⟨hclassify, rfl⟩ | ⟨hnumber, -⟩
    · exact .inr (.inl ⟨f.path, f.line, hsplits, hclassify, rfl⟩)
    · exact .inr (.inr (isBadNumber_of_readNumber ⟨f.path, hsplits⟩ hnumber))

namespace Body

variable {call place : List Char} {rest : List (List Char)}

private theorem read_frame_eq_error_iff (helision : isElision call = false) (hcall : '\n' ∉ call)
    (hplace : '\n' ∉ place) :
    Body.read roots (call :: place :: rest) = .error e ↔ CallLine.read call = .error e ∨
      IsCall call ∧ (LocationLine.read roots place = .error e ∨
        IsPlace roots place ∧ Body.read roots rest = .error e) := by
  rw [Body.read, if_neg (by simp [helision]), ← CallLine.exists_read_iff hcall,
    ← LocationLine.exists_read_iff hplace]
  simp only [bind_eq_error, map_eq_error, exists_and_right]

private theorem read_last_eq_error_iff (helision : isElision call = false) (hcall : '\n' ∉ call) :
    Body.read roots [call] = .error e ↔ CallLine.read call = .error e ∨
      IsCall call ∧ .missingLocation (String.ofList call) = e := by
  rw [Body.read, if_neg (by simp [helision]), ← CallLine.exists_read_iff hcall]
  simp only [bind_eq_error, throw_eq_error, exists_and_right]

private theorem exists_stops_of_read (hfeed : ∀ l ∈ rest, '\n' ∉ l)
    (h : Body.read roots rest = .error e) :
    ∃ (items : List Item) (left : List (List Char)) (position : Position) (line : List Char),
      rest = items.flatMap Item.lines ++ left ∧ (∀ item ∈ items, item.Fits IsCall roots) ∧
        Stops roots left position line e := by
  induction rest using Body.read.induct with
  | case1 => cases h
  | case2 line rest helision ih =>
    rw [read_elision helision] at h
    obtain ⟨items, left, position, l, rfl, hfits, hstops⟩ :=
      ih (fun l hl => hfeed l (List.mem_cons_of_mem _ hl)) h
    refine ⟨.elision line :: items, left, position, l, rfl, ?_, hstops⟩
    exact List.forall_mem_cons.mpr ⟨isElision_eq_true_iff.mp helision, hfits⟩
  | case3 call rest helision ih =>
    have hfirst : '\n' ∉ call := hfeed call List.mem_cons_self
    have hnot : ¬ IsElision call := fun hmem => helision (isElision_eq_true_iff.mpr hmem)
    rw [Bool.not_eq_true] at helision
    cases rest with
    | nil =>
      rcases (read_last_eq_error_iff helision hfirst).mp h with hrefused | ⟨hcall, rfl⟩
      · exact ⟨[], [call], .call, call, rfl, by simp, .call hnot hrefused⟩
      · exact ⟨[], [call], .call, call, rfl, by simp, .missing hcall⟩
    | cons place rest =>
      have hsecond : '\n' ∉ place := hfeed place (by simp)
      rcases (read_frame_eq_error_iff helision hfirst hsecond).mp h with hrefused | ⟨hcall, h⟩
      · exact ⟨[], call :: place :: rest, .call, call, rfl, by simp, .call hnot hrefused⟩
      · rcases h with hrefused | ⟨hplace, h⟩
        · exact ⟨[], call :: place :: rest, .place, place, rfl, by simp, .place hcall hrefused⟩
        · obtain ⟨items, left, position, line, rfl, hfits, hstops⟩ :=
            ih (fun l hl => hfeed l (List.mem_cons_of_mem _ (List.mem_cons_of_mem _ hl))) h
          refine ⟨.frame call place :: items, left, position, line, rfl, ?_, hstops⟩
          exact List.forall_mem_cons.mpr ⟨⟨hcall, hplace⟩, hfits⟩

private theorem read_of_stops {left : List (List Char)} {position : Position}
    (hfeed : ∀ l ∈ left, '\n' ∉ l) (h : Stops roots left position line e) :
    Body.read roots left = .error e := by
  cases h with
  | call hnot hcall =>
    have helision : ¬ isElision line = true := fun hmem => hnot (isElision_eq_true_iff.mp hmem)
    rw [Body.read, if_neg helision]
    exact bind_eq_error.mpr (.inl hcall)
  | missing hcall =>
    have helision := isElision_eq_false_of_isCall hcall
    exact (read_last_eq_error_iff helision (hfeed line (by simp))).mpr (.inr ⟨hcall, rfl⟩)
  | @place call line rest e hcall hplace =>
    have helision := isElision_eq_false_of_isCall hcall
    exact (read_frame_eq_error_iff helision (hfeed call (by simp)) (hfeed line (by simp))).mpr
      (.inr ⟨hcall, .inl hplace⟩)

private theorem read_items_append {items : List Item} {left : List (List Char)}
    (hfits : ∀ item ∈ items, item.Fits IsCall roots)
    (hfeed : ∀ l ∈ items.flatMap Item.lines, '\n' ∉ l) (h : Body.read roots left = .error e) :
    Body.read roots (items.flatMap Item.lines ++ left) = .error e := by
  obtain ⟨front, hfront, -⟩ := exists_read_of_fits hfits hfeed
  rw [read_append fun item hitem => (hfits item hitem).isCut, hfront, h]
  rfl

end Body

/-- A record is refused either at the first of its lines that cannot be read, or as a whole. -/
theorem readRecord_eq_error_iff {record : List (List Char)} (hne : record ≠ [])
    (hfeed : ∀ l ∈ record, '\n' ∉ l) :
    readRecord roots record = .error e ↔
      (∃ position line, RefusedAt roots record position line e) ∨
        Hollow roots record ∧ e = .emptyRecord (joinLines record) := by
  constructor
  · intro h
    obtain ⟨first, rest, rfl⟩ := List.exists_cons_of_ne_nil hne
    have hrest : ∀ l ∈ rest, '\n' ∉ l := fun l hl => hfeed l (List.mem_cons_of_mem _ hl)
    rcases bind_eq_error.mp h with hheader | ⟨header, hheader, h⟩
    · exact .inl ⟨.header, first, .header hheader⟩
    · rcases bind_eq_error.mp h with hbody | ⟨body, hbody, h⟩
      · obtain ⟨items, left, position, line, rfl, hfits, hstops⟩ :=
          Body.exists_stops_of_read hrest hbody
        exact .inl ⟨position, line, .body hheader hfits hstops⟩
      · right
        split at h
        · next hhollow =>
          obtain ⟨items, rfl, hfits, -⟩ := Body.exists_items_of_read hrest hbody
          obtain ⟨_, hbody', hframes⟩ := Body.exists_read_of_fits hfits hrest
          obtain rfl := Except.ok.inj (hbody.symm.trans hbody')
          refine ⟨⟨first, header, items, rfl, hheader, hfits, hhollow.imp_right ?_⟩,
            (throw_eq_error.mp h).symm⟩
          intro hnil
          simpa [hnil] using hframes
        · exact absurd h pure_ne_error
  · rintro (⟨position, line, h⟩ | ⟨⟨first, header, items, rfl, hheader, hfits, hhollow⟩, rfl⟩)
    · cases h with
      | header hheader => exact bind_eq_error.mpr (.inl hheader)
      | @body first line left header items position e hheader hfits hstops =>
        rw [List.forall_mem_cons, List.forall_mem_append] at hfeed
        have hbody := Body.read_items_append hfits hfeed.2.1
          (Body.read_of_stops hfeed.2.2 hstops)
        exact bind_eq_error.mpr (.inr ⟨header, hheader, bind_eq_error.mpr (.inl hbody)⟩)
    · rw [List.forall_mem_cons] at hfeed
      obtain ⟨body, hbody, hframes⟩ := Body.exists_read_of_fits hfits hfeed.2
      have hempty : header.id = 0 ∨ body.frames = [] := by
        refine hhollow.imp_right fun hnone => ?_
        by_contra hsome
        obtain ⟨item, hitem, hframe⟩ := hframes.mp hsome
        rw [hnone item hitem] at hframe
        cases hframe
      refine bind_eq_error.mpr (.inr ⟨header, hheader, bind_eq_error.mpr (.inr ⟨body, hbody, ?_⟩)⟩)
      rw [if_pos hempty]
      rfl

private theorem SplitsAt.isPrefix {path ds : List Char} (h : SplitsAt line path ds) :
    '\t' :: (path ++ [':']) <+: line := by
  obtain ⟨-, after, -, rfl⟩ := h
  refine ⟨ds ++ after, ?_⟩
  simp only [List.cons_append, List.append_assoc, List.nil_append]

private theorem RefusedAt.exists_pointsAt {record : List (List Char)} {position : Position}
    (h : RefusedAt roots record position line e) :
    ∃ raw, e.offendingText = some raw ∧ PointsAt roots record raw e := by
  have hnumber {field : NumericField} (hposition : field.position = position)
      (hbad : IsBadNumber field line e) :
      ∃ raw, e.offendingText = some raw ∧ PointsAt roots record raw e := by
    obtain ⟨ds, hholds, hword, rfl⟩ := hbad
    refine ⟨String.ofList line, rfl, ?_⟩
    simp only [PointsAt, String.toList_ofList, hposition]
    exact ⟨h, hholds, hword⟩
  have hrefused := h
  cases h with
  | header hheader =>
    rcases Header.error_of_read hheader with rfl | ⟨field, hposition, hbad⟩
    · exact ⟨_, rfl, by simpa only [PointsAt, String.toList_ofList] using hrefused⟩
    · exact hnumber hposition hbad
  | @body first line left header items position e hheader hfits hstops =>
    cases hstops with
    | call hnot hcall =>
      rcases CallLine.error_of_read hcall with rfl | hbad
      · exact ⟨_, rfl, by simpa only [PointsAt, String.toList_ofList] using hrefused⟩
      · exact hnumber rfl hbad
    | missing hcall =>
      refine ⟨_, rfl, ?_⟩
      simp only [PointsAt, String.toList_ofList]
      refine ⟨hrefused, ?_⟩
      rw [← List.cons_append, List.getLast?_concat]
    | place hcall hplace =>
      rcases LocationLine.error_of_read hplace with rfl | ⟨path, ds, hsplits, hclassify, rfl⟩ | hbad
      · exact ⟨_, rfl, by simpa only [PointsAt, String.toList_ofList] using hrefused⟩
      · refine ⟨String.ofList path, rfl, hclassify, line, hrefused, ?_⟩
        rw [String.toList_ofList]
        exact hsplits.isPrefix
      · exact hnumber rfl hbad

/-- A dump that is refused has a first record that cannot be read, and the error points at what is
wrong with it: at the first line that is refused, or at the whole record. -/
theorem parse_points_at_fault {text : String} (h : parse roots text = .error e) :
    ∃ before record after,
      HasRuns (Text.dumpLines text.toList) (before ++ record :: after) ∧
        (∀ r ∈ before, ∃ g, readRecord roots r = .ok g) ∧ readRecord roots record = .error e ∧
        ∃ raw, e.offendingText = some raw ∧ PointsAt roots record raw e := by
  obtain ⟨before, record, after, hrecords, hbefore, hrecord⟩ := mapM_eq_error_iff.mp h
  have hruns : HasRuns (Text.dumpLines text.toList) (before ++ record :: after) :=
    hasRuns_iff.mpr hrecords
  refine ⟨before, record, after, hruns, hbefore, hrecord, ?_⟩
  obtain ⟨hne, hlines⟩ := hruns.of_mem (List.mem_append_right before List.mem_cons_self)
  have hfeed : ∀ l ∈ record, '\n' ∉ l := fun l hl => Text.notMem_of_mem_dumpLines (hlines l hl)
  rcases (readRecord_eq_error_iff hne hfeed).mp hrecord with ⟨position, line, hrefused⟩ | hhollow
  · exact hrefused.exists_pointsAt
  · obtain ⟨hhollow, rfl⟩ := hhollow
    exact ⟨_, rfl, rfl, hhollow⟩

def largeParent : String :=
  "goroutine 1 [x]:\nf(1)\n\t_cgo_x:3\n\ngoroutine 2 [x]:\nf(1)\n\t_cgo_x:3\n" ++
    "...5 frames elided...\ncreated by f in goroutine 18446744073709551616\n\nexit"

private theorem parse_largeParent :
    parse {} largeParent = .error (.invalidNumber .parentId "18446744073709551616"
      "created by f in goroutine 18446744073709551616") := by
  have hrecords : records (Text.dumpLines largeParent.toList) =
      [["goroutine 1 [x]:".toList, "f(1)".toList, "\t_cgo_x:3".toList],
        ["goroutine 2 [x]:".toList, "f(1)".toList, "\t_cgo_x:3".toList,
          "...5 frames elided...".toList,
          "created by f in goroutine 18446744073709551616".toList],
        ["exit".toList]] := by
    decide +kernel
  have hfirst : ∃ g, readRecord {} ["goroutine 1 [x]:".toList, "f(1)".toList, "\t_cgo_x:3".toList] =
      .ok g := ⟨_, rfl⟩
  rw [parse, hrecords, mapM_eq_error_iff]
  exact ⟨[_], _, _, rfl, by simpa using hfirst, rfl⟩

theorem parse_points_at_fault_largeParent :
    ∃ e, parse {} largeParent = .error e ∧
      e.offendingText = some "created by f in goroutine 18446744073709551616" ∧
      ∃ before record after,
        HasRuns (Text.dumpLines largeParent.toList) (before ++ record :: after) ∧
          (∀ r ∈ before, ∃ g, readRecord {} r = .ok g) ∧ readRecord {} record = .error e ∧
          ∃ raw, e.offendingText = some raw ∧ PointsAt {} record raw e :=
  ⟨_, parse_largeParent, rfl, parse_points_at_fault parse_largeParent⟩

end GoroutineDump.Dump
