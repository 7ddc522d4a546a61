import GoroutineDump.Proofs.Dump.Faults

set_option autoImplicit false
set_option relaxedAutoImplicit false

namespace GoroutineDump.Dump

/-- Two records are read as the same goroutine, or refused for the same error. An error about a
record as a whole holds the lines of its own record. -/
inductive ReadAlike (roots : Roots) (record other : List (List Char)) : Prop
  | goroutine {g : Goroutine} :
      readRecord roots record = .ok g → readRecord roots other = .ok g →
      ReadAlike roots record other
  | fault {e : Error} :
      (∀ text, e ≠ .emptyRecord text) →
      readRecord roots record = .error e → readRecord roots other = .error e →
      ReadAlike roots record other
  | empty :
      readRecord roots record = .error (.emptyRecord (joinLines record)) →
      readRecord roots other = .error (.emptyRecord (joinLines other)) →
      ReadAlike roots record other

variable {roots : Roots} {first line call place : List Char} {rest other marks : List (List Char)}
  {items : List Item} {e : Error}

private theorem IsBadNumber.ne_emptyRecord {field : NumericField} (h : IsBadNumber field line e)
    (text : String) : e ≠ .emptyRecord text := by
  obtain ⟨ds, -, -, rfl⟩ := h
  exact Error.noConfusion

private theorem Header.ne_emptyRecord_of_read (h : Header.read line = .error e) (text : String) :
    e ≠ .emptyRecord text := by
  rcases error_of_read h with rfl | ⟨field, -, hbad⟩
  · exact Error.noConfusion
  · exact hbad.ne_emptyRecord text

private theorem CallLine.ne_emptyRecord_of_read (h : CallLine.read line = .error e)
    (text : String) :
    e ≠ .emptyRecord text := by
  rcases error_of_read h with rfl | hbad
  · exact Error.noConfusion
  · exact hbad.ne_emptyRecord text

private theorem LocationLine.ne_emptyRecord_of_read (h : LocationLine.read roots line = .error e)
    (text : String) : e ≠ .emptyRecord text := by
  rcases error_of_read h with rfl | ⟨path, ds, -, -, rfl⟩ | hbad
  · exact Error.noConfusion
  · exact Error.noConfusion
  · exact hbad.ne_emptyRecord text

private theorem LocationLine.read_elision (h : IsElision line) :
    LocationLine.read roots line = .error (.malformedLocation (String.ofList line)) := by
  have hcut : LocationFields.ofLine? line = none := by
    rcases h with rfl | ⟨ds, -, rfl⟩ <;> rfl
  exact read_eq_error_iff.mpr (.inl ⟨hcut, rfl⟩)

namespace Body

private theorem read_elisions_append (h : ∀ mark ∈ marks, IsElision mark)
    (rest : List (List Char)) :
    Body.read roots (marks ++ rest) = Body.read roots rest := by
  induction marks with
  | nil => rfl
  | cons mark marks ih =>
    rw [List.forall_mem_cons] at h
    rw [List.cons_append, read_elision (isElision_eq_true_iff.mpr h.1)]
    exact ih h.2

private theorem read_elision_place {mark : List Char} {c : CallLine}
    (hcall : CallLine.read call = .ok c)
    (hnot : ¬ IsElision call) (hmark : IsElision mark) (rest : List (List Char)) :
    Body.read roots (call :: mark :: rest) =
      .error (.malformedLocation (String.ofList mark)) := by
  rw [read_frame hnot, hcall, LocationLine.read_elision hmark]
  rfl

private theorem ne_emptyRecord_of_read (h : Body.read roots rest = .error e) (text : String) :
    e ≠ .emptyRecord text := by
  induction rest using Body.read.induct with
  | case1 => cases h
  | case2 line rest helision ih =>
    rw [read_elision helision] at h
    exact ih h
  | case3 call rest helision ih =>
    have hnot : ¬ IsElision call := mt isElision_eq_true_iff.mpr helision
    cases rest with
    | nil =>
      rw [read_last hnot] at h
      rcases bind_eq_error.mp h with hcall | ⟨c, -, h⟩
      · exact CallLine.ne_emptyRecord_of_read hcall text
      · obtain rfl := Except.error.inj h
        exact Error.noConfusion
    | cons place rest =>
      rw [read_frame hnot] at h
      rcases bind_eq_error.mp h with hcall | ⟨c, -, h⟩
      · exact CallLine.ne_emptyRecord_of_read hcall text
      · rcases bind_eq_error.mp h with hplace | ⟨l, -, h⟩
        · exact LocationLine.ne_emptyRecord_of_read hplace text
        · exact ih (map_eq_error.mp h)

end Body

private theorem readAlike_of_body (h : Body.read roots rest = Body.read roots other) :
    ReadAlike roots (first :: rest) (first :: other) := by
  cases hheader : Header.read first with
  | error e =>
    apply ReadAlike.fault (Header.ne_emptyRecord_of_read hheader)
    · exact bind_eq_error.mpr (.inl hheader)
    · exact bind_eq_error.mpr (.inl hheader)
  | ok header =>
    cases hbody : Body.read roots rest with
    | error e =>
      rw [hbody] at h
      apply ReadAlike.fault (Body.ne_emptyRecord_of_read hbody)
      · exact bind_eq_error.mpr (.inr ⟨header, hheader, bind_eq_error.mpr (.inl hbody)⟩)
      · exact bind_eq_error.mpr (.inr ⟨header, hheader, bind_eq_error.mpr (.inl h.symm)⟩)
    | ok body =>
      have hother : Body.read roots other = .ok body := h.symm.trans hbody
      by_cases hempty : header.id = 0 ∨ body.frames = []
      · apply ReadAlike.empty
        · rw [readRecord_of_body hheader hbody, if_pos hempty]
        · rw [readRecord_of_body hheader hother, if_pos hempty]
      · apply ReadAlike.goroutine
        · rw [readRecord_of_body hheader hbody, if_neg hempty]
        · rw [readRecord_of_body hheader hother, if_neg hempty]

private theorem exists_error_of_items (hitems : ∀ item ∈ items, item.IsCut)
    (h : Body.read roots rest = .error e) :
    ∃ d, readRecord roots (first :: (items.flatMap Item.lines ++ rest)) = .error d := by
  obtain ⟨d, hbody⟩ : ∃ d, Body.read roots (items.flatMap Item.lines ++ rest) = .error d := by
    rw [Body.read_append hitems, h]
    cases Body.read roots (items.flatMap Item.lines) with
    | error d => exact ⟨d, rfl⟩
    | ok front => exact ⟨e, rfl⟩
  cases hheader : Header.read first with
  | error d => exact ⟨d, bind_eq_error.mpr (.inl hheader)⟩
  | ok header =>
    exact ⟨d, bind_eq_error.mpr (.inr ⟨header, hheader, bind_eq_error.mpr (.inl hbody)⟩)⟩

private theorem readRecord_eq_error_of_items {header : Header} {front : Body}
    (hheader : Header.read first = .ok header) (hitems : ∀ item ∈ items, item.IsCut)
    (hfront : Body.read roots (items.flatMap Item.lines) = .ok front)
    (h : Body.read roots rest = .error e) :
    readRecord roots (first :: (items.flatMap Item.lines ++ rest)) = .error e := by
  have hbody : Body.read roots (items.flatMap Item.lines ++ rest) = .error e := by
    rw [Body.read_append hitems, hfront, h]
    rfl
  exact bind_eq_error.mpr (.inr ⟨header, hheader, bind_eq_error.mpr (.inl hbody)⟩)

/-- Any number of elisions can be put in behind the header of a record and behind each of its items,
and the record is read as it was. One that is put in behind a call makes the record fail, and it is
itself the line that is refused, unless one before it is. -/
theorem readRecord_elisions (roots : Roots) (first : List Char) {items : List Item}
    (hitems : ∀ item ∈ items, item.IsCut) :
    (∀ marks rest : List (List Char), (∀ mark ∈ marks, IsElision mark) →
      ReadAlike roots (first :: (items.flatMap Item.lines ++ rest))
        (first :: (items.flatMap Item.lines ++ (marks ++ rest)))) ∧
    ∀ (call mark : List Char) (rest : List (List Char)), ¬ IsElision call → IsElision mark →
      (∃ e, readRecord roots (first :: (items.flatMap Item.lines ++ call :: mark :: rest)) =
        .error e) ∧
      ∀ header front c, Header.read first = .ok header →
        Body.read roots (items.flatMap Item.lines) = .ok front → CallLine.read call = .ok c →
          readRecord roots (first :: (items.flatMap Item.lines ++ call :: mark :: rest)) =
            .error (.malformedLocation (String.ofList mark)) := by
  refine ⟨?_, ?_⟩
  · intro marks rest hmarks
    apply readAlike_of_body
    rw [Body.read_append hitems, Body.read_append hitems,
      Body.read_elisions_append hmarks]
  · intro call mark rest hcall hmark
    refine ⟨?_, ?_⟩
    · cases hread : CallLine.read call with
      | error e =>
        apply exists_error_of_items hitems
        rw [Body.read_frame hcall]
        exact bind_eq_error.mpr (.inl hread)
      | ok c => exact exists_error_of_items hitems (Body.read_elision_place hread hcall hmark rest)
    · intro header front c hheader hfront hread
      exact readRecord_eq_error_of_items hheader hitems hfront
        (Body.read_elision_place hread hcall hmark rest)

def elidedFrame : Item := .frame "f(1)".toList "\t_cgo_x:3".toList

def twoElisions : List (List Char) :=
  ["...additional frames elided...".toList, "...١٢ frames elided...".toList]

theorem readRecord_elisions_twice :
    (∀ item ∈ [elidedFrame], item.IsCut) ∧ (∀ mark ∈ twoElisions, IsElision mark) ∧
      ReadAlike {} ("goroutine 3 [x]:".toList ::
          ([elidedFrame].flatMap Item.lines ++ ["g()".toList, "\t_cgo_x:4".toList]))
        ("goroutine 3 [x]:".toList :: ([elidedFrame].flatMap Item.lines ++
          (twoElisions ++ ["g()".toList, "\t_cgo_x:4".toList]))) ∧
      readRecord {} ("goroutine 3 [x]:".toList :: ([elidedFrame].flatMap Item.lines ++
          "g()".toList :: "...١٢ frames elided...".toList :: ["\t_cgo_x:4".toList])) =
        .error (.malformedLocation "...١٢ frames elided...") := by
  have hitems : ∀ item ∈ [elidedFrame], item.IsCut :=
    List.forall_mem_singleton.mpr (isElision_eq_false_iff.mp (by decide))
  have hcall : ¬ IsElision "g()".toList := isElision_eq_false_iff.mp (by decide)
  have hsecond : IsElision "...١٢ frames elided...".toList :=
    isElision_eq_true_iff.mp (by decide)
  have hmarks : ∀ mark ∈ twoElisions, IsElision mark :=
    List.forall_mem_cons.mpr ⟨.inl rfl, List.forall_mem_singleton.mpr hsecond⟩
  obtain ⟨halike, hplace⟩ := readRecord_elisions {} "goroutine 3 [x]:".toList hitems
  refine ⟨hitems, hmarks, halike twoElisions _ hmarks, ?_⟩
  exact (hplace "g()".toList _ _ hcall hsecond).2 _ _ _ rfl rfl rfl

end GoroutineDump.Dump
