import GoroutineDump.Proofs.Highlight.Excerpt

set_option autoImplicit false
set_option relaxedAutoImplicit false

namespace GoroutineDump.Highlight

open Html (Node IsName IsFragment Entry HasEntries entries classes)
open Source (Token Piece Line)

/-- A well-formed part of a listing, with its lines of code and its line numbers. -/
structure Lists (part : List Char) (code numbers : List Entry) : Prop where
  fragment : IsFragment part
  code : HasEntries "line".toList part code
  numbers : HasEntries "lnt".toList part numbers

/-- Style classes among which are neither that of a line of code nor that of a line number. -/
def IsPlainClass (value : String) : Prop :=
  "line".toList ∉ value.toList.splitOn ' ' ∧ "lnt".toList ∉ value.toList.splitOn ' '

private theorem isPlainClass_style (t : Source.TokenClass) : IsPlainClass t.style := by
  cases t <;> exact ⟨by decide, by decide⟩

namespace Lists

variable {part : List Char} {code numbers : List Entry} {tag : String} {children : List Node}

private theorem nil : Lists [] [] [] :=
  ⟨Html.isFragment_nil, Html.hasEntries_nil _, Html.hasEntries_nil _⟩

private theorem append {front back : List Char} {code' numbers' : List Entry}
    (hfront : Lists front code numbers) (hback : Lists back code' numbers') :
    Lists (front ++ back) (code ++ code') (numbers ++ numbers') where
  fragment := .append hfront.fragment hback.fragment
  code := hfront.code.append hback.code
  numbers := hfront.numbers.append hback.numbers

private theorem text (chars : List Char) : Lists (Node.render (.text chars)) [] [] := by
  have hopen := Html.notMem_escape (.inl rfl) chars
  refine ⟨Node.isFragment_text chars, ?_, ?_⟩
  · rw [Node.render]
    exact Html.hasEntries_text hopen
  · rw [Node.render]
    exact Html.hasEntries_text hopen

private theorem single {node : Node} (h : Lists node.render code numbers) :
    Lists (Node.renderAll [node]) code numbers := by
  have hall := h.append nil
  rwa [List.append_nil code, List.append_nil numbers] at hall

private theorem bare (htag : IsName tag.toList) (h : Lists (Node.renderAll children) code numbers) :
    Lists (Node.render (.element tag [] children)) code numbers := by
  have hattributes : ∀ a ∈ ([] : List (String × String)), IsName a.1.toList := by simp
  have hnone (style : List Char) : style ∉ classes (Node.tagText tag []) := by
    rw [Node.tagText, List.flatMap_nil, List.append_nil, htag.classes_eq_nil.1]
    exact List.not_mem_nil
  exact ⟨Node.isFragment_element htag hattributes h.fragment,
    Node.hasEntries_element htag hattributes (hnone _) h.code,
    Node.hasEntries_element htag hattributes (hnone _) h.numbers⟩

private theorem classed {value : String} {attributes : List (String × String)}
    (htag : IsName tag.toList)
    (hattributes : ∀ a ∈ ("class", value) :: attributes, IsName a.1.toList)
    (hvalue : IsPlainClass value) (h : Lists (Node.renderAll children) code numbers) :
    Lists (Node.render (.element tag (("class", value) :: attributes) children)) code numbers := by
  refine ⟨Node.isFragment_element htag hattributes h.fragment,
    Node.hasEntries_element htag hattributes ?_ h.code,
    Node.hasEntries_element htag hattributes ?_ h.numbers⟩
  · rw [Node.classes_tagText htag]
    exact hvalue.1
  · rw [Node.classes_tagText htag]
    exact hvalue.2

private theorem renderAll {α : Type} {node : α → Node} {as : List α} {lines counts : α → List Entry}
    (h : ∀ a ∈ as, Lists (node a).render (lines a) (counts a)) :
    Lists (Node.renderAll (as.map node)) (as.flatMap lines) (as.flatMap counts) := by
  induction as with
  | nil => exact nil
  | cons a as ih =>
    obtain ⟨ha, has⟩ := List.forall_mem_cons.mp h
    exact ha.append (ih has)

end Lists

/-! ### Listings -/

def codeEntry (marked : Bool) : Entry := { marked, text := [] }

def numberEntry (marked : Bool) (number : Nat) : Entry :=
  { marked, text := Text.digits number ++ ['\n'] }

section Nodes

variable (options : RenderOptions) (mark : Option Nat) (lines : List (Nat × Line))

private theorem isName_class (value : String) : ∀ a ∈ [("class", value)], IsName a.1.toList := by
  intro a ha
  rw [List.mem_singleton.mp ha]
  show IsName "class".toList
  decide

private theorem isName_styleClass (style : String) (marked : Bool) :
    ∀ a ∈ styleClass style marked, IsName a.1.toList := isName_class _

private theorem mem_classes_iff {style : String} (hstyle : ' ' ∉ style.toList) (marked : Bool)
    (name : List Char) :
    name ∈ classes (Node.tagText "span" (styleClass style marked)) ↔
      name = style.toList ∨ marked = true ∧ name = "hl".toList := by
  rw [styleClass, Node.classes_tagText (by decide)]
  cases marked with
  | false => simp [List.splitOn_eq_singleton hstyle]
  | true =>
    have htoList : (style ++ " hl").toList = style.toList ++ ' ' :: "hl".toList := by simp
    have hmark : "hl".toList.splitOn ' ' = ["hl".toList] := by decide
    rw [if_pos rfl, htoList, List.splitOn_append_cons_self_of_not_mem hstyle, hmark]
    simp only [List.mem_cons, List.not_mem_nil, or_false, true_and]

private theorem notMem_classes {style : String} (hstyle : ' ' ∉ style.toList) {name : List Char}
    (hother : name ≠ style.toList) (hmark : name ≠ "hl".toList) (marked : Bool) :
    name ∉ classes (Node.tagText "span" (styleClass style marked)) := by
  rw [mem_classes_iff hstyle]
  exact not_or_intro hother fun h => hmark h.2

private theorem hasEntries_styled {style : String} (hstyle : ' ' ∉ style.toList)
    (hne : style.toList ≠ "hl".toList) (marked : Bool) {children : List Node}
    {chars behind : List Char}
    (hinside : Node.renderAll children ++ Node.closingTag "span" = Html.escape chars ++ behind)
    (hnext : behind.head? = some '<') (hbehind : HasEntries style.toList behind []) :
    HasEntries style.toList (Node.render (.element "span" (styleClass style marked) children))
      [{ marked, text := chars }] := by
  have hmark : decide ("hl".toList ∈ classes (Node.tagText "span" (styleClass style marked))) =
      marked := by
    rw [Bool.eq_iff_iff, decide_eq_true_iff, mem_classes_iff hstyle]
    exact ⟨fun h => (h.resolve_left hne.symm).1, fun h => .inr ⟨h, rfl⟩⟩
  have hentry := Node.hasEntries_entry (by decide) (isName_styleClass style marked)
    ((mem_classes_iff hstyle marked _).mpr (.inl rfl)) hinside hnext hbehind
  rwa [hmark] at hentry

private theorem lists_pieceNodes (p : Piece) : Lists (Node.renderAll (pieceNodes p)) [] [] := by
  have htext := Lists.single (Lists.text (Text.trimLineEnd p.text))
  unfold pieceNodes
  simp only
  split
  · exact .nil
  split
  · exact htext
  · exact .single (.classed (by decide) (isName_class _) (isPlainClass_style _) htext)

private theorem lists_codeLine (marked : Bool) (line : Line) :
    Lists (codeLine marked line).render [codeEntry marked] [] := by
  have hpieces : Lists (Node.renderAll (line.flatMap pieceNodes)) [] [] := by
    induction line with
    | nil => exact .nil
    | cons p line ih =>
      rw [List.flatMap_cons, Node.renderAll_append]
      exact (lists_pieceNodes p).append ih
  have hchildren : Lists (Node.renderAll (line.flatMap pieceNodes ++ [.text ['\n']])) [] [] := by
    rw [Node.renderAll_append]
    exact hpieces.append (.single (.text _))
  have hinside := Lists.single (.classed (by decide : IsName "span".toList) (isName_class "cl")
    ⟨by decide, by decide⟩ hchildren)
  have hother : "lnt".toList ∉ classes (Node.tagText "span" (styleClass "line" marked)) :=
    notMem_classes (by decide) (by decide) (by decide) marked
  refine ⟨Node.isFragment_element (by decide) (isName_styleClass _ _) hinside.fragment, ?_,
    Node.hasEntries_element (by decide) (isName_styleClass _ _) hother hinside.numbers⟩
  exact hasEntries_styled (by decide) (by decide) marked (List.nil_append _).symm rfl
    (hinside.code.append (Node.hasEntries_closingTag (by decide) _))

private theorem lists_numberLine (marked : Bool) (number : Nat) :
    Lists (numberLine marked number).render [] [numberEntry marked number] := by
  have hinside := Lists.single (Lists.text (Text.digits number ++ ['\n']))
  have hother : "line".toList ∉ classes (Node.tagText "span" (styleClass "lnt" marked)) :=
    notMem_classes (by decide) (by decide) (by decide) marked
  refine ⟨Node.isFragment_element (by decide) (isName_styleClass _ _) hinside.fragment,
    Node.hasEntries_element (by decide) (isName_styleClass _ _) hother hinside.code, ?_⟩
  refine hasEntries_styled (by decide) (by decide) marked ?_ rfl
    (Node.hasEntries_closingTag (by decide : IsName "span".toList) _)
  rw [Node.renderAll, Node.renderAll, Node.render, List.append_nil]

private theorem lists_codeColumn :
    Lists (codeColumn options mark lines).render
      (lines.map fun l => codeEntry (mark == some l.1)) [] := by
  have hlines := Lists.renderAll fun l (_ : l ∈ lines) => lists_codeLine (mark == some l.1) l.2
  have hnone : lines.flatMap (fun _ => ([] : List Entry)) = [] := by simp
  rw [← List.map_eq_flatMap, hnone] at hlines
  have hattributes : ∀ a ∈ [("class", "chroma"),
      ("style", "tab-size:" ++ toString options.tabWidth.toNat)], IsName a.1.toList := by
    refine List.forall_mem_cons.mpr ⟨?_, List.forall_mem_singleton.mpr ?_⟩
    · show IsName "class".toList
      decide
    · show IsName "style".toList
      decide
  exact .classed (by decide) hattributes ⟨by decide, by decide⟩ (.single (.bare (by decide) hlines))

private theorem lists_numberColumn :
    Lists (numberColumn mark lines).render []
      (lines.map fun l => numberEntry (mark == some l.1) l.1) := by
  have hnumbers := Lists.renderAll fun l (_ : l ∈ lines) => lists_numberLine (mark == some l.1) l.1
  have hnone : lines.flatMap (fun _ => ([] : List Entry)) = [] := by simp
  rw [← List.map_eq_flatMap, hnone] at hnumbers
  exact .classed (by decide) (isName_class _) ⟨by decide, by decide⟩
    (.single (.bare (by decide) hnumbers))

private theorem lists_cell {node : Node} {code numbers : List Entry}
    (h : Lists node.render code numbers) :
    Lists (Node.render (.element "td" [("class", "lntd")] [node])) code numbers :=
  .classed (by decide) (isName_class _) ⟨by decide, by decide⟩ (.single h)

private theorem lists_listing :
    Lists (listing options mark lines).render
      (lines.map fun l => codeEntry (mark == some l.1))
      (if options.lineNumbers then lines.map fun l => numberEntry (mark == some l.1) l.1
        else []) := by
  have hcode := lists_codeColumn options mark lines
  have hnumbers := lists_numberColumn mark lines
  refine .classed (by decide) (isName_class _) ⟨by decide, by decide⟩ ?_
  split
  · have hcells := (lists_cell hnumbers).append (.single (lists_cell hcode))
    rw [List.nil_append, List.append_nil] at hcells
    exact .single (.classed (by decide) (isName_class _) ⟨by decide, by decide⟩
      (.single (.bare (by decide) hcells)))
  · exact .single hcode

end Nodes

/-! ### Halves -/

/-- A half of an excerpt of which the lines, numbered from `first` on, have these marks. It has an
entry of code for each line and, where numbers are wanted, an entry with its number. -/
structure IsHalf (numbered : Bool) (first : Nat) (marks : List Bool) (half : List Char) : Prop where
  fragment : IsFragment half
  empty : marks = [] → half = []
  code : (entries "line".toList half).map Entry.marked = marks
  numbers : entries "lnt".toList half =
    if numbered then List.zipWith numberEntry marks (List.range' first marks.length) else []

private theorem isHalf_listingText (options : RenderOptions) (mark : Option Nat) (first : Nat)
    (lines : List Line) :
    IsHalf options.lineNumbers first
      ((List.range' first lines.length).map fun number => mark == some number)
      (listingText options mark first lines).toList := by
  unfold listingText
  split
  · next hnil =>
    subst hnil
    refine ⟨Html.isFragment_nil, fun _ => rfl,
      congrArg (List.map Entry.marked) Lists.nil.code.entries_eq, ?_⟩
    split
    · exact Lists.nil.numbers.entries_eq
    · exact Lists.nil.numbers.entries_eq
  · next hlines =>
    have hlists := lists_listing options mark (enumerate first lines)
    have hnumbers {β : Type} (f : Nat → β) : (enumerate first lines).map (fun l => f l.1) =
        (List.range' first lines.length).map f := by
      rw [← map_fst_enumerate, List.map_map]
      rfl
    rw [hnumbers fun number => codeEntry (mark == some number),
      hnumbers fun number => numberEntry (mark == some number) number] at hlists
    rw [String.toList_ofList]
    refine ⟨hlists.fragment, ?_, ?_, ?_⟩
    · intro hnone
      simp [hlines] at hnone
    · rw [hlists.code.entries_eq, List.map_map]
      rfl
    · rw [hlists.numbers.entries_eq, List.length_map, List.length_range', List.zipWith_map_left,
        List.zipWith_self]

/-- An excerpt around the numbered line of a source with `count` lines. If there is such a line, it
is the last line of the first half and the one that is marked; else none is marked. In the second
half none is ever marked. -/
structure MarksLine (numbered : Bool) (count line context : Nat) (e : Excerpt) : Prop where
  leading : IsHalf numbered (max 1 (line - context))
    (if line ≤ count then List.replicate (line - max 1 (line - context)) false ++ [true]
      else List.replicate (count + 1 - max 1 (line - context)) false)
    e.leading.toList
  trailing : IsHalf numbered (line + 1)
    (List.replicate (min (min (line + context) (2 ^ 64 - 1)) count - line) false)
    e.trailing.toList

private theorem map_mark_range' {mark : Option Nat} {first count : Nat}
    (h : ∀ number, first ≤ number → number < first + count → mark ≠ some number) :
    (List.range' first count).map (fun number => mark == some number) =
      List.replicate count false := by
  have hnone : ∀ number ∈ List.range' first count, (mark == some number) = false := by
    intro number hmem
    rw [List.mem_range'_1] at hmem
    rw [beq_eq_false_iff_ne]
    exact h number hmem.1 hmem.2
  have hall := List.map_eq_replicate_iff.mpr hnone
  rwa [List.length_range'] at hall

private theorem map_mark_through {first line : Nat} (count : Nat) (h : first ≤ line) :
    (List.range' first (min line count + 1 - first)).map (fun number => some line == some number) =
      if line ≤ count then List.replicate (line - first) false ++ [true]
      else List.replicate (count + 1 - first) false := by
  split
  · next hreach =>
    have hlength : min line count + 1 - first = line - first + 1 := by omega
    have hlast : first + 1 * (line - first) = line := by omega
    rw [hlength, List.range'_concat, List.map_append, hlast, map_mark_range']
    · simp
    · intro number _ hlow heq
      have := Option.some.inj heq
      omega
  · next hshort =>
    have hlength : min line count + 1 - first = count + 1 - first := by omega
    rw [hlength, map_mark_range']
    intro number _ hlow heq
    have := Option.some.inj heq
    omega

private theorem excerptAround_marks (options : RenderOptions) (tokens : List Token) {line : Nat}
    (context : Nat) (hline : 1 ≤ line) (hword : line < 2 ^ 64) :
    MarksLine options.lineNumbers (Source.linesOf tokens).length line context
      (excerptAround options tokens line context) := by
  have hfirst : 1 ≤ max 1 (line - context) ∧ max 1 (line - context) ≤ line := by omega
  rw [excerptAround_eq options tokens context hline hword]
  constructor
  · have hlength : (((Source.linesOf tokens).take line).drop (max 1 (line - context) - 1)).length =
        min line (Source.linesOf tokens).length + 1 - max 1 (line - context) := by
      rw [List.length_drop, List.length_take]
      omega
    rw [← map_mark_through _ hfirst.2, ← hlength]
    exact isHalf_listingText options (some line) _ _
  · have hnone (count : Nat) :
        (List.range' (line + 1) count).map (fun number => (none : Option Nat) == some number) =
          List.replicate count false := map_mark_range' fun _ _ _ h => by cases h
    rw [← List.length_take, ← List.length_drop, ← hnone]
    exact isHalf_listingText options none _ _

/-- An excerpt marks the line it is asked for. Whatever the tokens, for a line and a context that is
not negative there is an excerpt of two well-formed halves, and exactly the last line of the first
half is marked if the source has the line; if it ends before, the first half has what is left of it,
and no line is marked. -/
theorem excerpt_marks_line (options : RenderOptions) (tokens : List Token) {line : UInt64}
    {context : Int} (hline : line ≠ 0) (hcontext : 0 ≤ context) :
    ∃ e, excerpt? options tokens line context = some e ∧
      MarksLine options.lineNumbers (Text.pieces (Source.sourceText tokens)).length line.toNat
        context.toNat e := by
  have hpositive : 1 ≤ line.toNat := by
    have : line.toNat ≠ 0 := fun h => hline (UInt64.toNat_inj.mp h)
    omega
  have hcount : (Text.pieces (Source.sourceText tokens)).length = (Source.linesOf tokens).length := by
    rw [← Source.map_text_linesOf, List.length_map]
  refine ⟨excerptAround options tokens line.toNat context.toNat, ?_, ?_⟩
  · rw [excerpt?, if_neg (by omega), if_neg hline]
  · rw [hcount]
    exact excerptAround_marks options tokens context.toNat hpositive line.toNat_lt

def imitating : List Token := [⟨.name, "a"⟩, ⟨.text, "\n"⟩, ⟨.string, "<span class='line hl'>"⟩]

theorem excerpt_marks_line_imitating :
    (1 : UInt64) ≠ 0 ∧ (3 : UInt64) ≠ 0 ∧ (0 : Int) ≤ 1 ∧
      (∃ e, excerpt? {} imitating 1 1 = some e ∧
        entries "lnt".toList e.leading.toList = [⟨true, "1\n".toList⟩] ∧
        (entries "line".toList e.trailing.toList).map Entry.marked = [false]) ∧
      ∃ e, excerpt? {} imitating 3 1 = some e ∧
        entries "lnt".toList e.leading.toList = [⟨false, "2\n".toList⟩] ∧ e.trailing = "" := by
  have hcount : (Text.pieces (Source.sourceText imitating)).length = 2 := by decide
  obtain ⟨e, he, hmarks⟩ := excerpt_marks_line {} imitating (by decide : (1 : UInt64) ≠ 0)
    (by decide : (0 : Int) ≤ 1)
  obtain ⟨e', he', hmarks'⟩ := excerpt_marks_line {} imitating (by decide : (3 : UInt64) ≠ 0)
    (by decide : (0 : Int) ≤ 1)
  rw [hcount] at hmarks hmarks'
  refine ⟨by decide, by decide, by decide, ⟨e, he, ?_, ?_⟩, e', he', ?_, ?_⟩
  · rw [hmarks.leading.numbers]
    decide
  · rw [hmarks.trailing.code]
    decide
  · rw [hmarks'.leading.numbers]
    decide
  · exact String.toList_eq_nil_iff.mp (hmarks'.trailing.empty (by decide))

end GoroutineDump.Highlight
