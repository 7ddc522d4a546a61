import Mathlib.Data.List.SplitBy
import GoroutineDump.Proofs.Text
import GoroutineDump.Source.Token

set_option autoImplicit false
set_option relaxedAutoImplicit false

namespace GoroutineDump.Source

def tagged (number : Nat) : List Line → List (Nat × Piece)
  | [] => []
  | line :: lines => line.map (fun p => (number, p)) ++ tagged (number + 1) lines

private theorem le_of_mem_tagged {number : Nat} {lines : List Line} {p : Nat × Piece}
    (h : p ∈ tagged number lines) : number ≤ p.1 := by
  induction lines generalizing number with
  | nil => simp [tagged] at h
  | cons line lines ih =>
    rw [tagged, List.mem_append] at h
    rcases h with h | h
    · obtain ⟨_, _, rfl⟩ := List.mem_map.mp h
      exact Nat.le_refl number
    · have := ih h
      omega

private theorem nil_notMem_assemble (ps : List Piece) : [] ∉ assemble ps := by
  induction ps with
  | nil => simp [assemble]
  | cons p ps ih =>
    rw [assemble]
    split
    · simp [ih]
    · split
      · simp
      · next line lines heq =>
        rw [heq] at ih
        simp only [List.mem_cons, not_or] at ih
        simp [ih.2]

private theorem numbered_eq_tagged (number : Nat) (ps : List Piece) :
    numbered number ps = tagged number (assemble ps) := by
  induction ps generalizing number with
  | nil => rfl
  | cons p ps ih =>
    rw [numbered, assemble]
    split
    · rw [ih, tagged]
      rfl
    · rw [ih]
      split
      · next heq => rw [heq]; rfl
      · next line lines heq => rw [heq]; rfl

private theorem filter_line {first last number : Nat} (line : Line) :
    (line.map fun p => (number, p)).filter (fun (n, _) => first ≤ n && n ≤ last) =
      if first ≤ number ∧ number ≤ last then line.map fun p => (number, p) else [] := by
  split
  · next h =>
    rw [List.filter_eq_self]
    intro p hp
    obtain ⟨_, _, rfl⟩ := List.mem_map.mp hp
    simpa using h
  · next h =>
    rw [List.filter_eq_nil_iff]
    intro p hp
    obtain ⟨_, _, rfl⟩ := List.mem_map.mp hp
    simpa using h

private theorem filter_tagged (first last number : Nat) (lines : List Line) :
    (tagged number lines).filter (fun (n, _) => first ≤ n && n ≤ last) =
      tagged (max number first) ((lines.take (last + 1 - number)).drop (first - number)) := by
  induction lines generalizing number with
  | nil => simp [tagged]
  | cons line lines ih =>
    rw [tagged, List.filter_append, filter_line, ih]
    by_cases hlast : last < number
    · have htake : last + 1 - number = 0 := by omega
      have htail : last + 1 - (number + 1) = 0 := by omega
      have hout : ¬ (first ≤ number ∧ number ≤ last) := by omega
      simp [htake, htail, hout, tagged]
    · have htake : last + 1 - number = last + 1 - (number + 1) + 1 := by omega
      rw [htake, List.take_succ_cons]
      by_cases hfirst : first ≤ number
      · have hin : first ≤ number ∧ number ≤ last := by omega
        have hdrop : first - number = 0 := by omega
        have htail : first - (number + 1) = 0 := by omega
        have hmax : max number first = number := by omega
        have hmaxTail : max (number + 1) first = number + 1 := by omega
        rw [if_pos hin, hdrop, htail, hmax, hmaxTail, List.drop_zero, List.drop_zero, tagged]
      · have hout : ¬ (first ≤ number ∧ number ≤ last) := by omega
        have hdrop : first - number = first - (number + 1) + 1 := by omega
        have hmax : max (number + 1) first = max number first := by omega
        rw [if_neg hout, hdrop, hmax, List.drop_succ_cons, List.nil_append]

private theorem gather_tagged (number : Nat) {lines : List Line} (hne : [] ∉ lines) :
    gather (tagged number lines) = lines := by
  induction lines generalizing number with
  | nil => rfl
  | cons line lines ih =>
    simp only [List.mem_cons, not_or] at hne
    obtain ⟨hline, hlines⟩ := hne
    have hrun : (line.map fun p => (number, p)).splitBy (fun a b => a.1 == b.1) =
        [line.map fun p => (number, p)] := by
      apply List.splitBy_of_isChain
      · simpa using Ne.symm hline
      · apply List.Pairwise.isChain
        rw [List.pairwise_map]
        exact List.pairwise_of_forall_mem_list fun _ _ _ _ => by simp
    have hcut : ∀ a ∈ (line.map fun p => (number, p)).getLast?,
        ∀ b ∈ (tagged (number + 1) lines).head?, (a.1 == b.1) = false := by
      intro a ha b hb
      obtain ⟨_, _, rfl⟩ := List.mem_map.mp (List.mem_of_getLast? ha)
      have hle := le_of_mem_tagged (List.mem_of_mem_head? hb)
      rw [beq_eq_false_iff_ne]
      omega
    have htail := ih (number + 1) hlines
    unfold gather at htail ⊢
    rw [tagged, List.splitBy_append hcut, List.map_append, htail, hrun]
    simp [Function.comp_def]

private theorem numbered_append (number : Nat) (ps qs : List Piece) :
    numbered number (ps ++ qs) =
      numbered number ps ++ numbered (number + ps.countP Piece.endsLine) qs := by
  induction ps generalizing number with
  | nil => rfl
  | cons p ps ih =>
    rw [List.cons_append, numbered, numbered, ih, List.countP_cons, List.cons_append]
    split
    · rw [Nat.add_assoc, Nat.add_comm 1]
    · rw [Nat.add_zero]

private theorem mem_numbered {number : Nat} {ps : List Piece} {p : Nat × Piece}
    (h : p ∈ numbered number ps) : number ≤ p.1 ∧ p.1 ≤ number + ps.countP Piece.endsLine := by
  induction ps generalizing number with
  | nil => simp [numbered] at h
  | cons q ps ih =>
    rw [numbered, List.mem_cons] at h
    rw [List.countP_cons]
    rcases h with rfl | h
    · exact ⟨Nat.le_refl number, Nat.le_add_right number _⟩
    · obtain ⟨hlow, hhigh⟩ := ih h
      cases hend : q.endsLine with
      | true =>
        simp only [hend, if_true] at hlow hhigh ⊢
        omega
      | false =>
        simp only [hend, Bool.false_eq_true, if_false] at hlow hhigh ⊢
        omega

private theorem countP_pieces (cs : List Char) :
    (Text.pieces cs).countP (fun text => text.getLast? == some '\n') = cs.count '\n' := by
  induction cs using Text.induction_on_lines with
  | last l hl =>
    have hlast : l.getLast? ≠ some '\n' := fun h => hl (List.mem_of_getLast? h)
    by_cases hne : l = []
    · simp [hne]
    · simp [Text.pieces_last hl hne, List.count_eq_zero.mpr hl, hlast]
  | line l rest hl ih =>
    rw [Text.pieces_line rest hl, List.countP_cons, ih]
    simp [List.count_eq_zero.mpr hl]

private theorem countP_endsLine (t : Token) : t.pieces.countP Piece.endsLine = t.newlines := by
  rw [Token.pieces, List.countP_map, Token.newlines, ← countP_pieces]
  rfl

private theorem piecesWithin_eq_filter (first last number : Nat) (ts : List Token) :
    piecesWithin first last number ts =
      (numbered number (ts.flatMap Token.pieces)).filter
        (fun (n, _) => first ≤ n && n ≤ last) := by
  induction ts generalizing number with
  | nil => rfl
  | cons t ts ih =>
    rw [piecesWithin]
    split
    · next hbehind =>
      symm
      rw [List.filter_eq_nil_iff]
      intro p hp
      have := (mem_numbered hp).1
      simp only [Bool.and_eq_true, decide_eq_true_eq]
      omega
    rw [ih, List.flatMap_cons, numbered_append, countP_endsLine, List.filter_append]
    split
    · next hbefore =>
      have hnone : (numbered number t.pieces).filter (fun (n, _) => first ≤ n && n ≤ last) = [] := by
        rw [List.filter_eq_nil_iff]
        intro p hp
        have := (mem_numbered hp).2
        rw [countP_endsLine] at this
        simp only [Bool.and_eq_true, decide_eq_true_eq]
        omega
      rw [hnone, List.nil_append]
    · rfl

/-- A window is the stretch of lines with the numbers asked for, as far as there are such lines. -/
theorem window_eq (first last : Nat) (tokens : List Token) :
    window first last tokens = ((linesOf tokens).take last).drop (first - 1) := by
  have hne : [] ∉ ((linesOf tokens).take last).drop (first - 1) := by
    intro hmem
    exact nil_notMem_assemble _ (List.mem_of_mem_take (List.mem_of_mem_drop hmem))
  rw [window, piecesWithin_eq_filter, numbered_eq_tagged, filter_tagged, Nat.add_sub_cancel]
  exact gather_tagged _ hne

def Line.text (line : Line) : List Char := line.flatMap (·.text)

/-- The text of a line as it is shown, where the pieces have lost their line ends. -/
def Line.shown (line : Line) : List Char := line.flatMap fun p => Text.trimLineEnd p.text

/-- A stretch of a line, with a line feed at most at its end. -/
def Piece.WithinLine (p : Piece) : Prop :=
  ∃ l, '\n' ∉ l ∧ (p.text = l ++ ['\n'] ∨ p.text = l ∧ l ≠ [])

private theorem Token.withinLine {t : Token} {p : Piece} (hp : p ∈ t.pieces) : p.WithinLine := by
  obtain ⟨text, htext, rfl⟩ := List.mem_map.mp hp
  exact Text.mem_pieces htext

private theorem withinLine_of_mem {tokens : List Token} {p : Piece}
    (hp : p ∈ tokens.flatMap Token.pieces) : p.WithinLine := by
  obtain ⟨t, -, hp⟩ := List.mem_flatMap.mp hp
  exact Token.withinLine hp

private theorem map_text_assemble {ps : List Piece} (h : ∀ p ∈ ps, p.WithinLine) :
    (assemble ps).map Line.text = Text.pieces (ps.flatMap (·.text)) := by
  induction ps with
  | nil => rfl
  | cons p ps ih =>
    have htail := ih fun q hq => h q (List.mem_cons_of_mem p hq)
    obtain ⟨l, hl, htext | ⟨htext, hne⟩⟩ := h p List.mem_cons_self
    · have hend : p.endsLine = true := by simp [Piece.endsLine, htext]
      rw [assemble, if_pos hend, List.map_cons, htail, List.flatMap_cons, htext,
        List.append_assoc, List.singleton_append, Text.pieces_line _ hl]
      simp [Line.text, htext]
    · have hend : ¬ p.endsLine = true := by
        have hlast : l.getLast? ≠ some '\n' := fun heq => hl (List.mem_of_getLast? heq)
        simp [Piece.endsLine, htext, hlast]
      rw [assemble, if_neg hend, List.flatMap_cons, htext, Text.pieces_append _ hl hne, ← htail]
      cases assemble ps with
      | nil => simp [Line.text, htext]
      | cons line lines => simp [Line.text, htext]

theorem map_text_linesOf (tokens : List Token) :
    (linesOf tokens).map Line.text = Text.pieces (sourceText tokens) := by
  have htext : (tokens.flatMap Token.pieces).flatMap (·.text) = sourceText tokens := by
    rw [List.flatMap_assoc, sourceText]
    refine List.flatMap_congr fun t _ => ?_
    rw [Token.pieces, List.flatMap_map, List.flatMap_def, List.map_id']
    exact Text.flatten_pieces t.text.toList
  rw [linesOf, map_text_assemble fun _ => withinLine_of_mem, htext]

private theorem shown_eq_filter {line : Line}
    (h : line.text.Pairwise fun c d => Text.isEnd c = true → Text.isEnd d = true) :
    line.shown = line.text.filter fun c => !Text.isEnd c := by
  induction line with
  | nil => rfl
  | cons p line ih =>
    rw [Line.text, List.flatMap_cons, List.pairwise_append] at h
    rw [Line.shown, Line.text, List.flatMap_cons, List.flatMap_cons, List.filter_append,
      Text.trimLineEnd_eq_filter h.1]
    exact congrArg _ (ih h.2.1)

theorem map_shown_linesOf {tokens : List Token} (h : Text.ReturnsEndLines (sourceText tokens)) :
    (linesOf tokens).map Line.shown = Text.lines (sourceText tokens) := by
  have hshown : ∀ line ∈ linesOf tokens,
      line.shown = line.text.filter fun c => !Text.isEnd c := by
    intro line hline
    have hmem : line.text ∈ Text.pieces (sourceText tokens) := by
      rw [← map_text_linesOf]
      exact List.mem_map_of_mem hline
    exact shown_eq_filter (h.pairwise hmem)
  rw [Text.lines_eq_filter h, ← map_text_linesOf, List.map_map]
  exact List.map_congr_left hshown

/-- The line in which a piece lies that follows the given ones, where the first line is line 1. -/
def lineBehind (before : List Piece) : Nat := 1 + (before.flatMap (·.text)).count '\n'

/-- The pieces of tokens that lie in the numbered line, in the order of the tokens. -/
def piecesInLine (tokens : List Token) (number : Nat) : Line :=
  let ps := tokens.flatMap Token.pieces
  (ps.zipIdx.filter fun (_, i) => lineBehind (ps.take i) = number).map Prod.fst

private theorem Piece.WithinLine.count_eq {p : Piece} (h : p.WithinLine) :
    p.text.count '\n' = if p.endsLine then 1 else 0 := by
  obtain ⟨l, hl, htext | ⟨htext, -⟩⟩ := h
  · have hend : p.endsLine = true := by simp [Piece.endsLine, htext]
    rw [if_pos hend, htext, List.count_append, List.count_eq_zero.mpr hl]
    rfl
  · have hlast : l.getLast? ≠ some '\n' := fun heq => hl (List.mem_of_getLast? heq)
    have hend : ¬ p.endsLine = true := by simp [Piece.endsLine, htext, hlast]
    rw [if_neg hend, htext, List.count_eq_zero.mpr hl]

private theorem Piece.WithinLine.text_ne {p : Piece} (h : p.WithinLine) : p.text ≠ [] := by
  obtain ⟨l, -, htext | ⟨htext, hne⟩⟩ := h
  · simp [htext]
  · rwa [htext]

private theorem numbered_eq_map_zipIdx {ps : List Piece} (h : ∀ p ∈ ps, p.WithinLine)
    (number : Nat) :
    numbered number ps =
      ps.zipIdx.map fun (p, i) => (number + ((ps.take i).flatMap (·.text)).count '\n', p) := by
  induction ps generalizing number with
  | nil => rfl
  | cons p ps ih =>
    obtain ⟨hp, hps⟩ := List.forall_mem_cons.mp h
    have hnext : (if p.endsLine then number + 1 else number) = number + p.text.count '\n' := by
      rw [hp.count_eq]
      split <;> rfl
    rw [numbered, hnext, ih hps, List.zipIdx_cons', List.map_cons, List.map_map]
    refine congrArg₂ _ rfl (List.map_congr_left ?_)
    rintro ⟨q, i⟩ -
    simp [List.count_append, Nat.add_assoc]

private theorem map_snd_tagged (number : Nat) (lines : List Line) :
    (tagged number lines).map Prod.snd = lines.flatten := by
  induction lines generalizing number with
  | nil => rfl
  | cons line lines ih => simp [tagged, ih, Function.comp_def]

private theorem piecesInLine_eq_flatten (tokens : List Token) (number : Nat) :
    piecesInLine tokens number = (((linesOf tokens).take number).drop (number - 1)).flatten := by
  have hline (n : Nat) : decide (n = number) = (decide (number ≤ n) && decide (n ≤ number)) := by
    rw [Bool.eq_iff_iff, Bool.and_eq_true_iff]
    simp only [decide_eq_true_eq]
    omega
  have htagged := filter_tagged number number 1 (linesOf tokens)
  rw [linesOf, ← numbered_eq_tagged, numbered_eq_map_zipIdx fun _ => withinLine_of_mem,
    List.filter_map, ← linesOf, Nat.add_sub_cancel] at htagged
  have hpieces := congrArg (List.map Prod.snd) htagged
  rw [map_snd_tagged, List.map_map] at hpieces
  rw [← hpieces, piecesInLine]
  refine congrArg (List.map Prod.fst) (List.filter_congr ?_)
  rintro ⟨p, i⟩ -
  exact hline _

private theorem mem_of_mem_piecesInLine {tokens : List Token} {number : Nat} {p : Piece}
    (h : p ∈ piecesInLine tokens number) : p ∈ tokens.flatMap Token.pieces := by
  obtain ⟨⟨_, i⟩, hmem, rfl⟩ := List.mem_map.mp h
  exact List.fst_mem_of_mem_zipIdx (List.mem_filter.mp hmem).1

private theorem stretch_eq_map (lines : List Line) {first : Nat} (last : Nat) (h : 1 ≤ first) :
    (lines.take last).drop (first - 1) =
      (List.range' first (min last lines.length + 1 - first)).map fun number =>
        ((lines.take number).drop (number - 1)).flatten := by
  refine List.ext_getElem ?_ fun i hi hi' => ?_
  · rw [List.length_drop, List.length_take, List.length_map, List.length_range']
    omega
  · rw [List.length_drop, List.length_take] at hi
    have hindex : first + i - 1 < lines.length := by omega
    have hsum : first - 1 + i = first + i - 1 := by omega
    have htake : lines.take (first + i) = lines.take (first + i - 1) ++ [lines[first + i - 1]] := by
      rw [List.take_append_getElem]
      congr 1
      omega
    have hlength : (lines.take (first + i - 1)).length = first + i - 1 := by
      rw [List.length_take]
      omega
    rw [List.getElem_drop, List.getElem_take, List.getElem_map, List.getElem_range', Nat.one_mul,
      htake, List.drop_left' hlength]
    simp only [hsum, List.flatten_singleton]

/-- A window holds the lines of its range as far as the source has them, each as the pieces of
tokens that lie in it, in their order, with the classes of their tokens and without empty ones; the
pieces make up the line with its end. It is the stretch of the lines that all tokens cut at all line
feeds are put together to, and other tokens of the same text give the same texts. -/
theorem window_collects_lines (tokens : List Token) {first : Nat} (last : Nat) (h : 1 ≤ first) :
    window first last tokens =
      (List.range' first (min last (Text.pieces (sourceText tokens)).length + 1 - first)).map
        (piecesInLine tokens) ∧
    (window first last tokens).map Line.text =
      ((Text.pieces (sourceText tokens)).take last).drop (first - 1) ∧
    ((Text.pieces (sourceText tokens)).length < first → window first last tokens = []) ∧
    (∀ line ∈ window first last tokens, ∀ p ∈ line, p.text ≠ [] ∧ ∃ t ∈ tokens, p ∈ t.pieces) ∧
    window first last tokens = ((linesOf tokens).take last).drop (first - 1) ∧
    ∀ others, sourceText others = sourceText tokens →
      (window first last others).map Line.text = (window first last tokens).map Line.text := by
  have hlength : (Text.pieces (sourceText tokens)).length = (linesOf tokens).length := by
    rw [← map_text_linesOf, List.length_map]
  have htexts (others : List Token) : (window first last others).map Line.text =
      ((Text.pieces (sourceText others)).take last).drop (first - 1) := by
    rw [window_eq, List.map_drop, List.map_take, map_text_linesOf]
  have hlines : window first last tokens =
      (List.range' first (min last (Text.pieces (sourceText tokens)).length + 1 - first)).map
        (piecesInLine tokens) := by
    rw [window_eq, stretch_eq_map _ _ h, hlength]
    exact List.map_congr_left fun number _ => (piecesInLine_eq_flatten tokens number).symm
  refine ⟨hlines, htexts tokens, ?_, ?_, window_eq first last tokens, ?_⟩
  · intro hshort
    rw [window_eq, List.drop_eq_nil_iff, List.length_take, ← hlength]
    omega
  · intro line hline p hp
    rw [hlines] at hline
    obtain ⟨number, -, rfl⟩ := List.mem_map.mp hline
    have hmem := mem_of_mem_piecesInLine hp
    exact ⟨(withinLine_of_mem hmem).text_ne, List.mem_flatMap.mp hmem⟩
  · intro others hsame
    rw [htexts, htexts, hsame]

def spanning : List Token :=
  [⟨.name, "a"⟩, ⟨.stringBacktick, "b\nc\nd"⟩, ⟨.error, ""⟩, ⟨.text, "\n"⟩, ⟨.name, "e"⟩]

theorem window_collects_lines_spanning :
    1 ≤ 2 ∧ window 2 3 spanning =
        [[⟨.stringBacktick, "c\n".toList⟩], [⟨.stringBacktick, "d".toList⟩, ⟨.text, "\n".toList⟩]] ∧
      (window 2 3 spanning).map Line.text = ["c\n".toList, "d\n".toList] ∧
      window 5 9 spanning = [] := by
  obtain ⟨hpieces, htexts, -⟩ := window_collects_lines spanning 3 (by decide : 1 ≤ 2)
  obtain ⟨-, -, hnone, -⟩ := window_collects_lines spanning 9 (by decide : 1 ≤ 5)
  refine ⟨by decide, ?_, ?_, hnone (by decide)⟩
  · rw [hpieces]
    decide
  · rw [htexts]
    decide

end GoroutineDump.Source
