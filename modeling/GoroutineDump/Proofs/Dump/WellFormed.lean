import GoroutineDump.Proofs.Dump.Grammar
import GoroutineDump.Proofs.Dump.Runs
import GoroutineDump.Proofs.Roots.Classify

set_option autoImplicit false
set_option relaxedAutoImplicit false

namespace GoroutineDump.Dump

/-- A frame as it is read: it is not rendered, it has arguments only if it is an ordinary call, and
its file is held by the tree it is said to be in. -/
structure WellFormedFrame (roots : Roots) (f : Frame) : Prop where
  excerpt : f.excerpt = {}
  args_origin : f.call.origin = true → f.call.args = ""
  args_ordinary : f.call.origin = false → '(' ∉ f.call.args.toList
  tree : roots.Holds f.location.tree f.location.file

/-- A goroutine as it is read. The time for which it has been blocked is given in minutes, of which
64 bits of seconds hold only so many. -/
structure WellFormed (roots : Roots) (g : Goroutine) : Prop where
  id_ne : g.id ≠ 0
  state_ne : g.state ≠ ""
  notMem_comma : ',' ∉ g.state.toList
  notMem_bracket : ']' ∉ g.state.toList
  blocked : (∃ m, 60 * m ≤ 2 ^ 64 - 1 ∧ g.blocked = Duration.ofSeconds (60 * m)) ∨
    g.blocked = Duration.ofSeconds (2 ^ 64 - 1)
  stack_ne : g.stack ≠ []
  parent : g.parent.isSome = true → ∃ f ∈ g.stack, f.call.origin = true
  frames : ∀ f ∈ g.stack, WellFormedFrame roots f

variable {roots : Roots}

private theorem ofMinutes_cases (m : UInt64) :
    (∃ n, 60 * n ≤ 2 ^ 64 - 1 ∧ Duration.ofMinutes m = Duration.ofSeconds (60 * n)) ∨
      Duration.ofMinutes m = Duration.ofSeconds (2 ^ 64 - 1) := by
  rw [ofMinutes_eq]
  rcases Nat.le_total (m.toNat * 60) (2 ^ 64 - 1) with hfits | hover
  · refine .inl ⟨m.toNat, ?_, ?_⟩
    · omega
    · rw [Nat.min_eq_left hfits, Nat.mul_comm]
  · right
    rw [Nat.min_eq_right hover]

namespace CallLine

private theorem args_of_read {line : List Char} {c : CallLine} (h : read line = .ok c) :
    (c.call.origin = true → c.call.args = "") ∧
      (c.call.origin = false → '(' ∉ c.call.args.toList) ∧
      (c.parent.isSome = true → c.call.origin = true) := by
  unfold read at h
  split at h
  · next origin _ =>
    unfold readOrigin at h
    obtain ⟨parent, -, h⟩ := bind_eq_ok.mp h
    obtain rfl := pure_eq_ok.mp h
    exact ⟨fun _ => rfl, nofun, fun _ => rfl⟩
  · split at h
    · cases h
    · next name args hcut =>
      obtain rfl := Except.ok.inj h
      refine ⟨nofun, fun _ => ?_, nofun⟩
      rw [String.toList_ofList]
      exact (cutArguments?_eq_some_iff.mp hcut).2.1

end CallLine

private theorem LocationLine.holds_of_read {line : List Char} {l : LocationLine}
    (h : LocationLine.read roots line = .ok l) :
    roots.Holds l.location.tree l.location.file := by
  obtain ⟨f, -, hclassify, -⟩ := read_eq_ok_iff.mp h
  exact Roots.holds_of_classify hclassify

private theorem Body.wellFormed_of_read {lines : List (List Char)} {body : Body}
    (h : Body.read roots lines = .ok body) :
    (∀ f ∈ body.frames, WellFormedFrame roots f) ∧
      (body.parent.isSome = true → ∃ f ∈ body.frames, f.call.origin = true) := by
  induction lines using Body.read.induct generalizing body with
  | case1 =>
    rw [Body.read] at h
    obtain rfl := Except.ok.inj h
    refine ⟨List.forall_mem_nil _, ?_⟩
    intro hsome
    cases hsome
  | case2 line rest helision ih =>
    rw [Body.read_elision helision] at h
    exact ih h
  | case3 call rest helision ih =>
    cases rest with
    | nil =>
      rw [Body.read, if_neg helision] at h
      obtain ⟨_, -, hthrow⟩ := bind_eq_ok.mp h
      exact absurd hthrow throw_ne_ok
    | cons place rest =>
      rw [Body.read_frame_eq_ok_iff (Bool.eq_false_iff.mpr helision)] at h
      obtain ⟨tail, htail, c, l, hcall, hplace, rfl⟩ := h
      obtain ⟨hframes, hparent⟩ := ih htail
      obtain ⟨horigin, hordinary, hnamed⟩ := CallLine.args_of_read hcall
      have hframe : WellFormedFrame roots ⟨l.location, { c.call with extra := l.extra }, {}⟩ :=
        ⟨rfl, horigin, hordinary, LocationLine.holds_of_read hplace⟩
      refine ⟨List.forall_mem_cons.mpr ⟨hframe, hframes⟩, ?_⟩
      intro hsome
      cases htailParent : tail.parent with
      | some id =>
        obtain ⟨f, hf, hf'⟩ := hparent (by rw [htailParent]; rfl)
        exact ⟨f, List.mem_cons_of_mem _ hf, hf'⟩
      | none =>
        have hhere : c.parent.isSome = true := by
          simpa [Body.cons, htailParent] using hsome
        exact ⟨_, List.mem_cons_self, hnamed hhere⟩

theorem exists_of_readRecord {first : List Char} {rest : List (List Char)} {g : Goroutine}
    (h : readRecord roots (first :: rest) = .ok g) :
    ∃ header body, Header.read first = .ok header ∧ Body.read roots rest = .ok body ∧
      header.id ≠ 0 ∧ body.frames ≠ [] ∧
      g = { id := header.id, state := header.state, blocked := header.blocked,
            locked := header.locked, parent := body.parent, stack := body.frames } := by
  unfold readRecord at h
  obtain ⟨header, hheader, h⟩ := bind_eq_ok.mp h
  obtain ⟨body, hbody, h⟩ := bind_eq_ok.mp h
  split at h
  · exact absurd h throw_ne_ok
  · next hgood =>
    rw [not_or] at hgood
    exact ⟨header, body, hheader, hbody, hgood.1, hgood.2, (pure_eq_ok.mp h).symm⟩

private theorem wellFormed_of_readRecord {record : List (List Char)} {g : Goroutine}
    (h : readRecord roots record = .ok g) : WellFormed roots g := by
  cases record with
  | nil => cases h
  | cons first rest =>
    obtain ⟨header, body, hheader, hbody, hid, hstack, rfl⟩ := exists_of_readRecord h
    obtain ⟨fields, hfields, -, ⟨minutes, -, hblocked⟩, hstate, -⟩ :=
      Header.read_eq_ok_iff.mp hheader
    obtain ⟨hplain, -⟩ := HeaderFields.ofLine?_eq_some_iff.mp hfields
    obtain ⟨hframes, hparent⟩ := Body.wellFormed_of_read hbody
    have hchar {c : Char} (hc : HeaderFields.isStateChar c = false) :
        c ∉ header.state.toList := by
      intro hmem
      rw [← hstate, String.toList_ofList] at hmem
      rw [hplain.state_chars c hmem] at hc
      cases hc
    refine ⟨hid, ?_, hchar (by decide), hchar (by decide), ?_, hstack, hparent, hframes⟩
    · rw [← hstate]
      simpa using hplain.state_ne
    · cases minutes with
      | none => exact .inl ⟨0, by decide, hblocked.symm⟩
      | some m =>
        rw [← hblocked]
        exact ofMinutes_cases m

/-- A dump that is read gives one goroutine for each run of lines that are not blank, in order, and
each of them is well formed. -/
theorem parse_wellFormed {text : String} {gs : List Goroutine} (h : parse roots text = .ok gs) :
    ∃ runs, HasRuns (Text.pieces text.toList) runs ∧
      List.Forall₂ (fun run g => readRecord roots (run.map Text.lineOfPiece) = .ok g ∧
        WellFormed roots g) runs gs := by
  refine ⟨records (Text.pieces text.toList), hasRuns_iff.mpr rfl, ?_⟩
  rw [parse, records_dumpLines_eq, mapM_eq_ok_iff, List.forall₂_map_left_iff] at h
  exact h.imp fun run g hread => ⟨hread, wellFormed_of_readRecord hread⟩

def saturatedAndStarted : String :=
  " \ngoroutine 7 [select, 307445734561825861 minutes]:\r\nf(1)\r\r\n\t_cgo_x:3\n\t\r\n\n" ++
    "goroutine 1 [x]:\ncreated by g in goroutine 7\n\t/src//a:4 +1"

private def saturated : Goroutine where
  id := 7
  state := "select"
  blocked := Duration.ofSeconds (2 ^ 64 - 1)
  stack := [⟨⟨.generated, "_cgo_x", 3⟩, { package := "", method := "f", args := "1" }, {}⟩]

private def started : Goroutine where
  id := 1
  state := "x"
  parent := some 7
  stack :=
    [⟨⟨.project, "a", 4⟩, { package := "", method := "g", extra := "+1", origin := true }, {}⟩]

private theorem parse_saturatedAndStarted :
    parse ⟨"/src", "", ""⟩ saturatedAndStarted = .ok [saturated, started] := by
  have hrecords : records (Text.dumpLines saturatedAndStarted.toList) =
      [["goroutine 7 [select, 307445734561825861 minutes]:".toList, "f(1)".toList,
          "\t_cgo_x:3".toList],
        ["goroutine 1 [x]:".toList, "created by g in goroutine 7".toList,
          "\t/src//a:4 +1".toList]] := by
    decide +kernel
  rw [parse, hrecords, mapM_eq_ok_iff]
  have hsaturated : readRecord ⟨"/src", "", ""⟩
      ["goroutine 7 [select, 307445734561825861 minutes]:".toList, "f(1)".toList,
        "\t_cgo_x:3".toList] = .ok saturated := rfl
  have hstarted : readRecord ⟨"/src", "", ""⟩
      ["goroutine 1 [x]:".toList, "created by g in goroutine 7".toList,
        "\t/src//a:4 +1".toList] = .ok started := rfl
  exact .cons hsaturated (.cons hstarted .nil)

theorem parse_wellFormed_saturatedAndStarted :
    ∃ gs, parse ⟨"/src", "", ""⟩ saturatedAndStarted = .ok gs ∧
      gs.map (·.id) = [7, 1] ∧ gs.map (·.blocked.seconds) = [2 ^ 64 - 1, 0] ∧
      gs.map (·.locations) = [[⟨.generated, "_cgo_x", 3⟩], [⟨.project, "a", 4⟩]] ∧
      ∃ runs, HasRuns (Text.pieces saturatedAndStarted.toList) runs ∧
        List.Forall₂ (fun run g =>
          readRecord ⟨"/src", "", ""⟩ (run.map Text.lineOfPiece) = .ok g ∧
            WellFormed ⟨"/src", "", ""⟩ g) runs gs :=
  ⟨[saturated, started], parse_saturatedAndStarted, rfl, rfl, rfl,
    parse_wellFormed parse_saturatedAndStarted⟩

end GoroutineDump.Dump
