import Mathlib.Algebra.GroupWithZero.Nat
import GoroutineDump.Highlight.Listing
import GoroutineDump.Proofs.Html
import GoroutineDump.Proofs.Source.Tokenizing
import GoroutineDump.Proofs.Source.Window

set_option autoImplicit false
set_option relaxedAutoImplicit false

namespace GoroutineDump.Highlight

open Html (Node visibleText)
open Source (Token Piece Line)

def column (entries : List (List Char)) : List Char := entries.flatMap (· ++ ['\n'])

def listed (numbers : Bool) (first : Nat) (lines : List (List Char)) : List Char :=
  (if numbers then column ((List.range' first lines.length).map Text.digits) else []) ++
    column lines

section Nodes

variable (options : RenderOptions) (mark : Option Nat) (lines : List (Nat × Line))

private theorem plainTextAll_map {α : Type} (node : α → Node) (entry : α → List Char) (as : List α)
    (h : ∀ a ∈ as, (node a).plainText = entry a ++ ['\n']) :
    Node.plainTextAll (as.map node) = column (as.map entry) := by
  rw [Node.plainTextAll_eq, column, List.flatMap_map, List.flatMap_map]
  exact List.flatMap_congr h

private theorem plainTextAll_pieceNodes (p : Piece) :
    Node.plainTextAll (pieceNodes p) = Text.trimLineEnd p.text := by
  unfold pieceNodes
  by_cases hempty : Text.trimLineEnd p.text = []
  · simp [hempty, Node.plainTextAll]
  · by_cases hstyle : p.tokenClass.style = ""
    · simp [hempty, hstyle, Node.plainTextAll, Node.plainText]
    · simp [hempty, hstyle, Node.plainTextAll, Node.plainText]

theorem plainText_codeLine (marked : Bool) (line : Line) :
    (codeLine marked line).plainText = line.shown ++ ['\n'] := by
  have hpieces : Node.plainTextAll (line.flatMap pieceNodes) = line.shown := by
    rw [Node.plainTextAll_eq, List.flatMap_assoc, Line.shown]
    refine List.flatMap_congr fun p _ => ?_
    rw [← Node.plainTextAll_eq]
    exact plainTextAll_pieceNodes p
  have happend : Node.plainTextAll (line.flatMap pieceNodes ++ [.text ['\n']]) =
      line.shown ++ ['\n'] := by
    rw [← hpieces, Node.plainTextAll_eq, Node.plainTextAll_eq, List.flatMap_append]
    simp [Node.plainText]
  simp [codeLine, Node.plainText, Node.plainTextAll, happend]

private theorem plainText_codeColumn :
    (codeColumn options mark lines).plainText = column (lines.map (·.2.shown)) := by
  simp only [codeColumn, Node.plainText, Node.plainTextAll, List.append_nil]
  exact plainTextAll_map _ _ _ fun _ _ => plainText_codeLine _ _

private theorem plainText_numberColumn :
    (numberColumn mark lines).plainText = column (lines.map fun l => Text.digits l.1) := by
  simp only [numberColumn, Node.plainText, Node.plainTextAll, List.append_nil]
  refine plainTextAll_map _ _ _ fun l _ => ?_
  simp [numberLine, Node.plainText, Node.plainTextAll]

private theorem plainText_listing :
    (listing options mark lines).plainText =
      (if options.lineNumbers then column (lines.map fun l => Text.digits l.1) else []) ++
        column (lines.map (·.2.shown)) := by
  unfold listing
  split <;>
    simp [Node.plainText, Node.plainTextAll, plainText_codeColumn, plainText_numberColumn]

private theorem notMem_class (value : String) : ∀ a ∈ [("class", value)], '>' ∉ a.1.toList := by
  intro a ha
  rw [List.mem_singleton.mp ha]
  show '>' ∉ "class".toList
  decide

private theorem named_pieceNodes {p : Piece} {node : Node} (h : node ∈ pieceNodes p) :
    node.Named := by
  unfold pieceNodes at h
  simp only at h
  split at h
  · simp at h
  · split at h
    · rw [List.mem_singleton.mp h]
      trivial
    · rw [List.mem_singleton.mp h]
      exact ⟨by decide, notMem_class _, trivial, trivial⟩

theorem named_codeLine (marked : Bool) (line : Line) : (codeLine marked line).Named := by
  refine ⟨by decide, notMem_class _, ⟨by decide, notMem_class _, ?_⟩, trivial⟩
  rw [Node.namedAll_iff]
  intro node hnode
  rcases List.mem_append.mp hnode with h | h
  · obtain ⟨p, -, hp⟩ := List.mem_flatMap.mp h
    exact named_pieceNodes hp
  · rw [List.mem_singleton.mp h]
    trivial

private theorem named_codeColumn : (codeColumn options mark lines).Named := by
  refine ⟨by decide, ?_, ⟨by decide, by simp, ?_⟩, trivial⟩
  · intro a ha
    simp only [List.mem_cons, List.not_mem_nil, or_false] at ha
    rcases ha with rfl | rfl
    · decide
    · show '>' ∉ "style".toList
      decide
  · rw [Node.namedAll_iff]
    intro node hnode
    obtain ⟨_, _, rfl⟩ := List.mem_map.mp hnode
    exact named_codeLine _ _

private theorem named_numberColumn : (numberColumn mark lines).Named := by
  refine ⟨by decide, notMem_class _, ⟨by decide, by simp, ?_⟩, trivial⟩
  rw [Node.namedAll_iff]
  intro node hnode
  obtain ⟨_, _, rfl⟩ := List.mem_map.mp hnode
  exact ⟨by decide, notMem_class _, trivial, trivial⟩

theorem named_listing : (listing options mark lines).Named := by
  have hcode := named_codeColumn options mark lines
  have hnumbers := named_numberColumn mark lines
  refine ⟨by decide, by simp, ?_⟩
  split
  · refine ⟨⟨by decide, by simp, ⟨by decide, by simp, ?_, ?_, trivial⟩, trivial⟩, trivial⟩
    · exact ⟨by decide, by simp, hnumbers, trivial⟩
    · exact ⟨by decide, by simp, hcode, trivial⟩
  · exact ⟨hcode, trivial⟩

end Nodes

private theorem map_snd_enumerate (first : Nat) (lines : List Line) :
    (enumerate first lines).map (·.2) = lines := by
  rw [enumerate, List.map_map]
  exact List.zipIdx_map_fst 0 lines

theorem map_fst_enumerate (first : Nat) (lines : List Line) :
    (enumerate first lines).map (·.1) = List.range' first lines.length := by
  have hindices := List.zipIdx_map_snd 0 lines
  rw [enumerate, List.map_map, ← Nat.add_zero first, ← List.map_add_range', ← hindices,
    List.map_map]
  rfl

private theorem visibleText_listingText (options : RenderOptions) (mark : Option Nat) (first : Nat)
    (lines : List Line) :
    visibleText (listingText options mark first lines).toList =
      listed options.lineNumbers first (lines.map Line.shown) := by
  have hnumbers : (enumerate first lines).map (fun l => Text.digits l.1) =
      (List.range' first lines.length).map Text.digits := by
    rw [← map_fst_enumerate, List.map_map]
    rfl
  have hlines : (enumerate first lines).map (·.2.shown) = lines.map Line.shown := by
    conv_rhs => rw [← map_snd_enumerate first lines, List.map_map]
    rfl
  unfold listingText
  split
  · next hnil =>
    subst hnil
    cases hwanted : options.lineNumbers <;> rfl
  · rw [String.toList_ofList, Node.visibleText_render _ (named_listing options mark _),
      plainText_listing, hnumbers, hlines, listed, List.length_map]

/-- The two listings of an excerpt are the stretches of lines before and behind the end of the
call's line. -/
theorem excerptAround_eq (options : RenderOptions) (tokens : List Token) {line : Nat}
    (context : Nat) (hline : 1 ≤ line) (hword : line < 2 ^ 64) :
    excerptAround options tokens line context =
      { leading := listingText options (some line) (max 1 (line - context))
          (((Source.linesOf tokens).take line).drop (max 1 (line - context) - 1))
        trailing := listingText options none (line + 1)
          (((Source.linesOf tokens).take (min (line + context) (2 ^ 64 - 1))).drop line) } := by
  have hfirst : 1 ≤ max 1 (line - context) ∧ max 1 (line - context) ≤ line := by omega
  have hlast : line ≤ min (line + context) (2 ^ 64 - 1) := by omega
  generalize hfirstName : max 1 (line - context) = first at hfirst
  generalize hlastName : min (line + context) (2 ^ 64 - 1) = last at hlast
  -- The window is cut behind the call's line, or at its end if the source ends before.
  have hbefore : (((Source.linesOf tokens).take last).drop (first - 1)).take (line - first + 1) =
      ((Source.linesOf tokens).take line).drop (first - 1) := by
    have hsum : first - 1 + (line - first + 1) = line := by omega
    rw [List.take_drop, hsum, List.take_take, Nat.min_eq_left hlast]
  have hbehind : (((Source.linesOf tokens).take last).drop (first - 1)).drop (line - first + 1) =
      ((Source.linesOf tokens).take last).drop line := by
    have hsum : first - 1 + (line - first + 1) = line := by omega
    rw [List.drop_drop, hsum]
  have htrailing : (if context = 0 then "" else
      listingText options none (line + 1) (((Source.linesOf tokens).take last).drop line)) =
        listingText options none (line + 1) (((Source.linesOf tokens).take last).drop line) := by
    split
    · next hzero =>
      have hsame : last = line := by omega
      have hnil : ((Source.linesOf tokens).take last).drop line = [] := by
        rw [hsame]
        simp
      rw [hnil]
      rfl
    · rfl
  rw [excerptAround, show UInt64.size = 2 ^ 64 from rfl]
  simp only [hfirstName, hlastName, Source.window_eq]
  rw [← List.take_eq_take_min, hbefore, ← List.drop_eq_drop_min, hbehind, htrailing]

/-- The lines of a source with the numbers from `first` to `last`, as an excerpt shows them: each on
a line of its own, below a column of the numbers where numbers are wanted. -/
def rangeText (numbers : Bool) (lines : List (List Char)) (first last : Nat) : List Char :=
  (if numbers then column ((List.range' first (last + 1 - first)).map Text.digits) else []) ++
    column ((lines.take last).drop (first - 1))

/-- An excerpt around the numbered line shows a source with these lines: the first half what leads
up to the line and the line, the second half what follows, and a half that has nothing to show is
the empty text. Line numbers have 64 bits, so none is above `2 ^ 64 - 1`. -/
structure ShowsSource (numbers : Bool) (lines : List (List Char)) (line context : Nat)
    (e : Excerpt) : Prop where
  leading : visibleText e.leading.toList =
    rangeText numbers lines (max 1 (line - context)) (min line lines.length)
  trailing : visibleText e.trailing.toList =
    rangeText numbers lines (line + 1) (min (min (line + context) (2 ^ 64 - 1)) lines.length)
  leading_empty : min line lines.length < max 1 (line - context) → e.leading = ""
  trailing_empty :
    min (min (line + context) (2 ^ 64 - 1)) lines.length < line + 1 → e.trailing = ""

private theorem visibleText_stretch (options : RenderOptions) (mark : Option Nat)
    (lines : List Line) {first : Nat} (last : Nat) (hfirst : 1 ≤ first) :
    visibleText (listingText options mark first ((lines.take last).drop (first - 1))).toList =
      rangeText options.lineNumbers (lines.map Line.shown) first (min last lines.length) := by
  have hlength : ((lines.take last).drop (first - 1)).length =
      min last lines.length + 1 - first := by
    rw [List.length_drop, List.length_take]
    omega
  have htake : (lines.map Line.shown).take (min last lines.length) =
      (lines.map Line.shown).take last := by
    conv_rhs => rw [List.take_eq_take_min, List.length_map]
  rw [visibleText_listingText, listed, rangeText, List.length_map, hlength, htake, List.map_drop,
    List.map_take]

private theorem stretch_empty (options : RenderOptions) (mark : Option Nat) (lines : List Line)
    {first last : Nat} (h : min last lines.length < first) :
    listingText options mark first ((lines.take last).drop (first - 1)) = "" := by
  have hnil : (lines.take last).drop (first - 1) = [] := by
    rw [List.drop_eq_nil_iff, List.length_take]
    omega
  rw [hnil]
  rfl

private theorem excerptAround_shows (options : RenderOptions) (tokens : List Token) {line : Nat}
    (context : Nat) (hline : 1 ≤ line) (hword : line < 2 ^ 64)
    (hreturns : Text.ReturnsEndLines (Source.sourceText tokens)) :
    ShowsSource options.lineNumbers (Text.lines (Source.sourceText tokens)) line context
      (excerptAround options tokens line context) := by
  have hlines := Source.map_shown_linesOf hreturns
  have hcount : (Text.lines (Source.sourceText tokens)).length = (Source.linesOf tokens).length := by
    rw [← hlines, List.length_map]
  have hfirst : 1 ≤ max 1 (line - context) := Nat.le_max_left 1 _
  have hnext : 1 ≤ line + 1 := Nat.le_add_left 1 line
  rw [excerptAround_eq options tokens context hline hword, ← hlines]
  refine ⟨?_, ?_, ?_, ?_⟩
  · rw [List.length_map]
    exact visibleText_stretch options _ _ line hfirst
  · rw [List.length_map]
    exact visibleText_stretch options none _ _ hnext
  · rw [List.length_map]
    exact stretch_empty options _ _
  · rw [List.length_map]
    exact stretch_empty options none _

/-- An excerpt shows the source as it is. Whatever tokens a text is cut into, where each carriage
return belongs to a line end, the excerpt for a line and a context that is not negative exists and
shows the numbered lines around it; so it does for the tokens of a text in each language. -/
theorem excerpt_shows_source (options : RenderOptions) {line : UInt64} {context : Int}
    (hline : line ≠ 0) (hcontext : 0 ≤ context) :
    (∀ tokens, Text.ReturnsEndLines (Source.sourceText tokens) →
      ∃ e, excerpt? options tokens line context = some e ∧
        ShowsSource options.lineNumbers (Text.lines (Source.sourceText tokens)) line.toNat
          context.toNat e) ∧
    (∀ language text tokens, Source.tokenize language text = .ok tokens →
      Text.ReturnsEndLines text.toList →
      ∃ e, excerpt? options tokens line context = some e ∧
        ShowsSource options.lineNumbers (Text.lines text.toList) line.toNat context.toNat e) := by
  have hpositive : 1 ≤ line.toNat := by
    have : line.toNat ≠ 0 := fun h => hline (UInt64.toNat_inj.mp h)
    omega
  have hexists (tokens : List Token) : excerpt? options tokens line context =
      some (excerptAround options tokens line.toNat context.toNat) := by
    rw [excerpt?, if_neg (by omega), if_neg hline]
  have htokens (tokens : List Token) (h : Text.ReturnsEndLines (Source.sourceText tokens)) :=
    excerptAround_shows options tokens context.toNat hpositive line.toNat_lt h
  refine ⟨?_, ?_⟩
  · intro tokens h
    exact ⟨_, hexists tokens, htokens tokens h⟩
  · intro language text tokens hcut h
    have htext := Source.sourceText_tokenize hcut
    rw [← htext] at h
    rw [← htext]
    exact ⟨_, hexists tokens, htokens tokens h⟩

/-- Tokens of which one spans a line end and another one begins between the two characters of the
next line end. -/
def straddling : List Token :=
  [⟨.name, "a"⟩, ⟨.string, "<b>\n'c"⟩, ⟨.text, "\r"⟩, ⟨.text, "\n\n"⟩, ⟨.error, ""⟩]

theorem excerpt_shows_source_straddling :
    (2 : UInt64) ≠ 0 ∧ (0 : Int) ≤ 5 ∧ Text.ReturnsEndLines (Source.sourceText straddling) ∧
      ∃ e, excerpt? {} straddling 2 5 = some e ∧
        visibleText e.leading.toList = "1\n2\na<b>\n'c\n".toList ∧
        visibleText e.trailing.toList = "3\n\n".toList := by
  have hreturns : Text.ReturnsEndLines (Source.sourceText straddling) := by
    simp [straddling, Source.sourceText, Text.ReturnsEndLines]
  have hlines : Text.lines (Source.sourceText straddling) =
      ["a<b>".toList, "'c".toList, []] := by decide
  obtain ⟨e, he, hshows⟩ :=
    (excerpt_shows_source {} (by decide : (2 : UInt64) ≠ 0) (by decide : (0 : Int) ≤ 5)).1
      straddling hreturns
  rw [hlines] at hshows
  refine ⟨by decide, by decide, hreturns, e, he, ?_, ?_⟩
  · rw [hshows.leading]
    decide
  · rw [hshows.trailing]
    decide

end GoroutineDump.Highlight
