import Mathlib.Data.List.DropRight
import Mathlib.Data.List.TakeDrop
import GoroutineDump.Text

set_option autoImplicit false
set_option relaxedAutoImplicit false

namespace GoroutineDump.Text

section Cuts

universe u

variable {β : Type u} {read : List Char → Option β}

theorem isPrefixOf?_append (start rest : List Char) :
    start.isPrefixOf? (start ++ rest) = some rest := by
  induction start with
  | nil => cases rest <;> rfl
  | cons c start ih => rw [List.cons_append, isPrefixOf?_cons_cons, if_pos (beq_self_eq_true c), ih]

theorem isPrefixOf?_eq_some_iff {start cs rest : List Char} :
    start.isPrefixOf? cs = some rest ↔ start ++ rest = cs := by
  constructor
  · exact append_eq_of_isPrefixOf?
  · rintro rfl
    exact isPrefixOf?_append start rest

theorem isPrefixOf?_eq_none_iff {start cs : List Char} :
    start.isPrefixOf? cs = none ↔ ¬ start <+: cs := by
  simp only [Option.eq_none_iff_forall_ne_some, ne_eq, isPrefixOf?_eq_some_iff, ← not_exists]
  rfl

theorem span_append {p : Char → Bool} {taken rest : List Char} (htaken : ∀ c ∈ taken, p c = true)
    (hrest : ∀ c, rest.head? = some c → p c = false) :
    (taken ++ rest).span p = (taken, rest) := by
  have hstop : rest.takeWhile p = [] ∧ rest.dropWhile p = rest := by
    cases rest with
    | nil => exact ⟨rfl, rfl⟩
    | cons c rest =>
      have hc := hrest c rfl
      exact ⟨by simp [hc], by simp [hc]⟩
  rw [List.span_eq_takeWhile_dropWhile, List.takeWhile_append_of_pos htaken,
    List.dropWhile_append_of_pos htaken, hstop.1, hstop.2, List.append_nil]

theorem lastCut_append {cs before : List Char} {value : β}
    (h : lastCut read cs = some (before, value)) (front : List Char) :
    lastCut read (front ++ cs) = some (front ++ before, value) := by
  induction front with
  | nil => exact h
  | cons c front ih => rw [List.cons_append, lastCut, ih, List.cons_append]

theorem lastCut_before {c : Char} {cs : List Char} {value : β}
    (hread : read (c :: cs) = some value) (hrest : lastCut read cs = none) (front : List Char) :
    lastCut read (front ++ c :: cs) = some (front, value) := by
  have hhere : lastCut read (c :: cs) = some ([], value) := by
    rw [lastCut, hrest, hread]
    rfl
  rw [lastCut_append hhere front, List.append_nil]

private theorem length_le_of_lastCut_eq_some {before front back : List Char} {value : β}
    (h : lastCut read (front ++ back) = some (before, value)) (hne : back ≠ [])
    (hread : (read back).isSome = true) : front.length ≤ before.length := by
  cases hback : lastCut read back with
  | none =>
    have hnone := lastCut_eq_none_iff.mp hback [] back rfl hne
    rw [hnone] at hread
    cases hread
  | some found =>
    obtain ⟨inner, v⟩ := found
    rw [lastCut_append hback front, Option.some.injEq, Prod.mk.injEq] at h
    rw [← h.1, List.length_append]
    omega

/-- A text is cut at a place exactly when the remainder there is accepted and none further behind
is. -/
theorem lastCut_eq_some_iff {cs before : List Char} {value : β} :
    lastCut read cs = some (before, value) ↔
      ∃ rest, rest ≠ [] ∧ cs = before ++ rest ∧ read rest = some value ∧
        ∀ front back, cs = front ++ back → back ≠ [] → (read back).isSome = true →
          front.length ≤ before.length := by
  constructor
  · intro h
    obtain ⟨rest, hne, hcut, hread⟩ := lastCut_eq_some h
    refine ⟨rest, hne, hcut, hread, ?_⟩
    rintro front back rfl hback hsome
    exact length_le_of_lastCut_eq_some h hback hsome
  · rintro ⟨rest, hne, hcut, hread, hlast⟩
    cases h : lastCut read cs with
    | none =>
      have hnone := lastCut_eq_none_iff.mp h before rest hcut hne
      rw [hread] at hnone
      cases hnone
    | some found =>
      obtain ⟨other, v⟩ := found
      obtain ⟨back, hback, hother, hv⟩ := lastCut_eq_some h
      have hle : other.length ≤ before.length := hlast other back hother hback (by simp [hv])
      have hge : before.length ≤ other.length :=
        length_le_of_lastCut_eq_some (hcut ▸ h) hne (by simp [hread])
      obtain ⟨rfl, rfl⟩ :=
        List.append_inj (hother.symm.trans hcut) (Nat.le_antisymm hle hge)
      rw [Option.some.inj (hv.symm.trans hread)]

theorem lastCut_append_eq_none {mark : Char} {front cs : List Char}
    (hmark : ∀ rest value, read rest = some value → rest.head? = some mark)
    (hfront : mark ∉ front) (h : lastCut read cs = none) : lastCut read (front ++ cs) = none := by
  induction front with
  | nil => exact h
  | cons c front ih =>
    simp only [List.mem_cons, not_or] at hfront
    have hhere : read (c :: (front ++ cs)) = none := by
      cases hread : read (c :: (front ++ cs)) with
      | none => rfl
      | some value =>
        have hhead := hmark _ _ hread
        exact absurd (Option.some.inj hhead).symm hfront.1
    rw [List.cons_append, lastCut, ih hfront.2, hhere]
    rfl

theorem lastCut_eq_none_of_notMem {mark : Char} {cs : List Char}
    (hmark : ∀ rest value, read rest = some value → rest.head? = some mark) (h : mark ∉ cs) :
    lastCut read cs = none := by
  have hnone := lastCut_append_eq_none hmark h (show lastCut read [] = none from rfl)
  rwa [List.append_nil] at hnone

end Cuts

variable {l cs : List Char}

private theorem piecesFrom_append (begun rest : List Char) (hl : '\n' ∉ l) :
    piecesFrom begun (l ++ rest) = piecesFrom (l.reverse ++ begun) rest := by
  induction l generalizing begun with
  | nil => rfl
  | cons c l ih =>
    have hc : c ≠ '\n' := fun h => hl (h ▸ List.mem_cons_self)
    have htail : '\n' ∉ l := fun h => hl (List.mem_cons_of_mem c h)
    rw [List.cons_append, piecesFrom, if_neg hc, ih (c :: begun) htail]
    simp

@[simp] theorem pieces_nil : pieces [] = [] := rfl

theorem pieces_line (rest : List Char) (hl : '\n' ∉ l) :
    pieces (l ++ '\n' :: rest) = (l ++ ['\n']) :: pieces rest := by
  rw [pieces, piecesFrom_append [] _ hl, piecesFrom, if_pos rfl]
  simp [pieces]

theorem pieces_last (hl : '\n' ∉ l) (hne : l ≠ []) : pieces l = [l] := by
  have h := piecesFrom_append [] [] hl
  rw [List.append_nil, List.append_nil] at h
  rw [pieces, h, piecesFrom]
  simp [hne]

theorem induction_on_lines {motive : List Char → Prop}
    (last : ∀ l, '\n' ∉ l → motive l)
    (line : ∀ l rest, '\n' ∉ l → motive rest → motive (l ++ '\n' :: rest)) (cs : List Char) :
    motive cs := by
  by_cases h : '\n' ∈ cs
  · obtain ⟨l, rest, rfl, hl⟩ := List.eq_append_cons_of_mem h
    have : rest.length < (l ++ '\n' :: rest).length := by
      simp only [List.length_append, List.length_cons]
      omega
    exact line l rest hl (induction_on_lines last line rest)
  · exact last cs h
termination_by cs.length

/-- A text of lines that all have their line feeds: it is empty or ends in one. -/
def WholeLines (cs : List Char) : Prop := cs = [] ∨ cs.getLast? = some '\n'

instance (cs : List Char) : Decidable (WholeLines cs) := instDecidableOr

theorem WholeLines.pieces_append (h : WholeLines cs) (rest : List Char) :
    pieces (cs ++ rest) = pieces cs ++ pieces rest := by
  induction cs using induction_on_lines with
  | last l hl =>
    rcases h with rfl | hlast
    · rfl
    · exact absurd (List.mem_of_getLast? hlast) hl
  | line l cs hl ih =>
    have hcs : WholeLines cs := by
      cases cs with
      | nil => exact .inl rfl
      | cons c cs => simpa [WholeLines] using h
    rw [List.append_assoc, List.cons_append, pieces_line _ hl, pieces_line _ hl, ih hcs,
      List.cons_append]

theorem pieces_append (rest : List Char) (hl : '\n' ∉ l) (hne : l ≠ []) :
    pieces (l ++ rest) = (l ++ (pieces rest).headD []) :: (pieces rest).tail := by
  induction rest using induction_on_lines with
  | last rest hrest =>
    have happ : '\n' ∉ l ++ rest := by simp [hl, hrest]
    rw [pieces_last happ (by simp [hne])]
    by_cases hnil : rest = []
    · simp [hnil]
    · simp [pieces_last hrest hnil]
  | line first rest hfirst _ =>
    have happ : '\n' ∉ l ++ first := by simp [hl, hfirst]
    rw [← List.append_assoc, pieces_line rest happ, pieces_line rest hfirst]
    simp

theorem mem_pieces {piece : List Char} (h : piece ∈ pieces cs) :
    ∃ l, '\n' ∉ l ∧ (piece = l ++ ['\n'] ∨ piece = l ∧ l ≠ []) := by
  induction cs using induction_on_lines with
  | last l hl =>
    by_cases hne : l = []
    · simp [hne] at h
    · rw [pieces_last hl hne, List.mem_singleton] at h
      exact ⟨l, hl, .inr ⟨h, hne⟩⟩
  | line l rest hl ih =>
    rw [pieces_line rest hl, List.mem_cons] at h
    rcases h with rfl | h
    · exact ⟨l, hl, .inl rfl⟩
    · exact ih h

theorem chop_of_notMem {c : Char} (h : c ∉ cs) : chop c cs = cs := by
  have hlast : cs.getLast? ≠ some c := fun heq => h (List.mem_of_getLast? heq)
  rw [chop, if_neg hlast]

@[simp] theorem chop_append_self (c : Char) (cs : List Char) : chop c (cs ++ [c]) = cs := by
  rw [chop, if_pos List.getLast?_concat, List.dropLast_concat]

private theorem mem_of_mem_chop {c d : Char} (h : d ∈ chop c cs) : d ∈ cs := by
  unfold chop at h
  split at h
  · exact List.dropLast_subset _ h
  · exact h

theorem notMem_of_mem_dumpLines {line : List Char} (h : line ∈ dumpLines cs) : '\n' ∉ line := by
  obtain ⟨piece, hpiece, rfl⟩ := List.mem_map.mp h
  obtain ⟨l, hl, hend⟩ := mem_pieces hpiece
  intro hmem
  unfold lineOfPiece at hmem
  rcases hend with rfl | ⟨rfl, -⟩
  · rw [if_pos List.getLast?_concat, List.dropLast_concat] at hmem
    exact hl (mem_of_mem_chop (mem_of_mem_chop hmem))
  · have hlast : piece.getLast? ≠ some '\n' := fun heq => hl (List.mem_of_getLast? heq)
    rw [if_neg hlast] at hmem
    exact hl (mem_of_mem_chop hmem)

def withoutEnd (piece : List Char) : List Char :=
  if piece.getLast? = some '\n' then chop '\r' piece.dropLast else piece

/-- The lines of a text, without their ends. A final line feed starts no further line. -/
def lines (cs : List Char) : List (List Char) := (pieces cs).map withoutEnd

/-- Every carriage return stands right before a line feed. -/
def ReturnsEndLines : List Char → Prop
  | [] => True
  | c :: cs => (c = '\r' → cs.head? = some '\n') ∧ ReturnsEndLines cs

def isEnd (c : Char) : Bool := c == '\n' || c == '\r'

private theorem ReturnsEndLines.line {rest : List Char} (h : ReturnsEndLines (l ++ '\n' :: rest))
    (hl : '\n' ∉ l) :
    (∃ u, (∀ c ∈ u, isEnd c = false) ∧ (l = u ∨ l = u ++ ['\r'])) ∧ ReturnsEndLines rest := by
  induction l with
  | nil => exact ⟨⟨[], by simp, .inl rfl⟩, h.2⟩
  | cons c l ih =>
    have hc : c ≠ '\n' := fun heq => hl (heq ▸ List.mem_cons_self)
    have htail : '\n' ∉ l := fun hmem => hl (List.mem_cons_of_mem c hmem)
    obtain ⟨⟨u, hu, hshape⟩, hrest⟩ := ih h.2 htail
    refine ⟨?_, hrest⟩
    by_cases hreturn : c = '\r'
    · subst hreturn
      have hnext := h.1 rfl
      have hnil : l = [] := by
        cases l with
        | nil => rfl
        | cons d l => simp_all
      exact ⟨[], by simp, .inr (by simp [hnil])⟩
    · refine ⟨c :: u, ?_, ?_⟩
      · simpa [isEnd, hc, hreturn] using hu
      · rcases hshape with rfl | rfl
        · exact .inl rfl
        · exact .inr rfl

private theorem ReturnsEndLines.last (h : ReturnsEndLines l) (hl : '\n' ∉ l) :
    ∀ c ∈ l, isEnd c = false := by
  induction l with
  | nil => simp
  | cons c l ih =>
    simp only [List.mem_cons, not_or] at hl
    have hreturn : c ≠ '\r' := by
      intro heq
      cases l with
      | nil => simpa using h.1 heq
      | cons d l => simp_all [ReturnsEndLines]
    simpa [isEnd, Ne.symm hl.1, hreturn] using ih h.2 hl.2

private theorem ReturnsEndLines.mem_pieces (h : ReturnsEndLines cs) {piece : List Char}
    (hmem : piece ∈ pieces cs) :
    ∃ u e, (∀ c ∈ u, isEnd c = false) ∧ (e = [] ∨ e = ['\n'] ∨ e = ['\r', '\n']) ∧
      piece = u ++ e := by
  induction cs using induction_on_lines with
  | last l hl =>
    by_cases hne : l = []
    · simp [hne] at hmem
    · rw [pieces_last hl hne, List.mem_singleton] at hmem
      exact ⟨l, [], h.last hl, .inl rfl, by simp [hmem]⟩
  | line l rest hl ih =>
    obtain ⟨⟨u, hu, hshape⟩, hrest⟩ := h.line hl
    rw [pieces_line rest hl, List.mem_cons] at hmem
    rcases hmem with rfl | hmem
    · rcases hshape with rfl | rfl
      · exact ⟨l, ['\n'], hu, .inr (.inl rfl), rfl⟩
      · exact ⟨u, ['\r', '\n'], hu, .inr (.inr rfl), by simp⟩
    · exact ih hrest hmem

private theorem withoutEnd_append {u e : List Char} (hu : ∀ c ∈ u, isEnd c = false)
    (he : e = [] ∨ e = ['\n'] ∨ e = ['\r', '\n']) : withoutEnd (u ++ e) = u := by
  have hlast (d : Char) (hd : isEnd d = true) : u.getLast? ≠ some d := by
    intro h
    have := hu d (List.mem_of_getLast? h)
    simp_all
  rcases he with rfl | rfl | rfl
  · simp [withoutEnd, hlast '\n' rfl]
  · simp [withoutEnd, chop, hlast '\r' rfl]
  · have hcut : u ++ ['\r', '\n'] = (u ++ ['\r']) ++ ['\n'] := by simp
    rw [hcut]
    simp [withoutEnd, chop]

theorem trimLineEnd_eq_filter (h : cs.Pairwise fun c d => isEnd c = true → isEnd d = true) :
    trimLineEnd cs = cs.filter fun c => !isEnd c := by
  change cs.rdropWhile isEnd = _
  induction cs using List.reverseRecOn with
  | nil => rfl
  | append_singleton cs c ih =>
    obtain ⟨hcs, -, hbetween⟩ := List.pairwise_append.mp h
    rw [List.rdropWhile_concat, List.filter_append]
    by_cases hc : isEnd c = true
    · simp [hc, ih hcs]
    · have hkeep : cs.filter (fun c => !isEnd c) = cs := by
        rw [List.filter_eq_self]
        intro d hd
        have := hbetween d hd c (List.mem_singleton_self c)
        simpa using fun hend => hc (this hend)
      simp [hc, hkeep]

theorem ReturnsEndLines.pairwise (h : ReturnsEndLines cs) {piece : List Char}
    (hmem : piece ∈ pieces cs) : piece.Pairwise fun c d => isEnd c = true → isEnd d = true := by
  obtain ⟨u, e, hu, he, rfl⟩ := h.mem_pieces hmem
  have hends : ∀ d ∈ e, isEnd d = true := by
    rcases he with rfl | rfl | rfl <;> simp [isEnd]
  rw [List.pairwise_append]
  refine ⟨?_, ?_, ?_⟩
  · exact List.pairwise_of_forall_mem_list fun c hc d _ hend => by simp [hu c hc] at hend
  · exact List.pairwise_of_forall_mem_list fun c _ d hd _ => hends d hd
  · intro c _ d hd _
    exact hends d hd

/-- Where carriage returns belong to line ends, a line is its piece without the line ends. -/
theorem lines_eq_filter (h : ReturnsEndLines cs) :
    lines cs = (pieces cs).map fun piece => piece.filter fun c => !isEnd c := by
  refine List.map_congr_left fun piece hmem => ?_
  obtain ⟨u, e, hu, he, rfl⟩ := h.mem_pieces hmem
  have hkeep : u.filter (fun c => !isEnd c) = u := by
    rw [List.filter_eq_self]
    intro c hc
    simp [hu c hc]
  have hdrop : e.filter (fun c => !isEnd c) = [] := by
    rcases he with rfl | rfl | rfl <;> simp [isEnd]
  rw [withoutEnd_append hu he, List.filter_append, hkeep, hdrop, List.append_nil]

end GoroutineDump.Text
