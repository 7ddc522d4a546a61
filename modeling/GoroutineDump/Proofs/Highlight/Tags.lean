import Mathlib.Data.List.Forall2
import GoroutineDump.Proofs.Highlight.Excerpt

set_option autoImplicit false
set_option relaxedAutoImplicit false

namespace GoroutineDump

namespace Source

/-- Pieces of the same class which both end their line or both do not, and of which both show
something or both do not. -/
structure Piece.SameShape (p q : Piece) : Prop where
  tokenClass : p.tokenClass = q.tokenClass
  endsLine : p.endsLine = q.endsLine
  empty : Text.trimLineEnd p.text = [] ↔ Text.trimLineEnd q.text = []

def Token.SameShape (t u : Token) : Prop :=
  t.tokenClass = u.tokenClass ∧
    List.Forall₂
      (fun a b => (a.getLast? = some '\n' ↔ b.getLast? = some '\n') ∧
        (Text.trimLineEnd a = [] ↔ Text.trimLineEnd b = []))
      (Text.pieces t.text.toList) (Text.pieces u.text.toList)

abbrev Line.SameShape : Line → Line → Prop := List.Forall₂ Piece.SameShape

private theorem Token.SameShape.pieces {t u : Token} (h : t.SameShape u) :
    List.Forall₂ Piece.SameShape t.pieces u.pieces := by
  rw [Token.pieces, Token.pieces, List.forall₂_map_left_iff, List.forall₂_map_right_iff]
  refine h.2.imp fun a b hab => ⟨h.1, ?_, hab.2⟩
  rw [Piece.endsLine, Piece.endsLine, Bool.eq_iff_iff, beq_iff_eq, beq_iff_eq]
  exact hab.1

private theorem sameShape_assemble {ps qs : List Piece} (h : List.Forall₂ Piece.SameShape ps qs) :
    List.Forall₂ Line.SameShape (assemble ps) (assemble qs) := by
  induction h with
  | nil => exact .nil
  | @cons p q ps qs hpq _ ih =>
    rw [assemble, assemble, ← hpq.endsLine]
    -- Both pieces are lines of their own, or both go to the first line behind them if there is one.
    split
    · exact .cons (.cons hpq .nil) ih
    · generalize assemble ps = lines, assemble qs = others at ih ⊢
      cases ih with
      | nil => exact .cons (.cons hpq .nil) .nil
      | cons hline hlines => exact .cons (.cons hpq hline) hlines

private theorem sameShape_window {tokens others : List Token}
    (h : List.Forall₂ Token.SameShape tokens others) (first last : Nat) :
    List.Forall₂ Line.SameShape (window first last tokens) (window first last others) := by
  have hlines : List.Forall₂ Line.SameShape (linesOf tokens) (linesOf others) :=
    sameShape_assemble (List.rel_flatMap h fun _ _ => Token.SameShape.pieces)
  rw [window_eq, window_eq]
  exact List.forall₂_drop _ (List.forall₂_take _ hlines)

end Source

namespace Highlight

open Html (Node tags Escaped)
open Source (Token Piece Line)

variable {options : RenderOptions} {mark : Option Nat}

private theorem elementTags_pieceNodes {p q : Piece} (h : p.SameShape q) :
    Node.elementTagsAll (pieceNodes p) = Node.elementTagsAll (pieceNodes q) := by
  unfold pieceNodes
  simp only [h.tokenClass, h.empty]
  split
  · rfl
  · split <;> rfl

private theorem elementTags_codeLine (marked : Bool) {line other : Line}
    (h : line.SameShape other) :
    (codeLine marked line).elementTags = (codeLine marked other).elementTags := by
  have hpieces : Node.elementTagsAll (line.flatMap pieceNodes ++ [.text ['\n']]) =
      Node.elementTagsAll (other.flatMap pieceNodes ++ [.text ['\n']]) := by
    induction h with
    | nil => rfl
    | @cons p q line other hpq _ ih =>
      simp only [Node.elementTagsAll_eq, List.flatMap_cons, List.append_assoc,
        List.flatMap_append] at ih ⊢
      rw [ih, ← Node.elementTagsAll_eq, elementTags_pieceNodes hpq, Node.elementTagsAll_eq]
  simp only [codeLine, Node.elementTags, Node.elementTagsAll, hpieces]

private def SameLines : List (Nat × Line) → List (Nat × Line) → Prop :=
  List.Forall₂ fun a b => a.1 = b.1 ∧ Line.SameShape a.2 b.2

private theorem sameLines_enumerate {lines others : List Line}
    (h : List.Forall₂ Line.SameShape lines others) (first : Nat) :
    SameLines (enumerate first lines) (enumerate first others) := by
  have hindexed : ∀ k, List.Forall₂ (fun a b => Line.SameShape a.1 b.1 ∧ a.2 = b.2)
      (lines.zipIdx k) (others.zipIdx k) := by
    induction h with
    | nil => exact fun _ => .nil
    | cons hline _ ih => exact fun k => .cons ⟨hline, rfl⟩ (ih (k + 1))
  rw [SameLines, enumerate, enumerate, List.forall₂_map_left_iff, List.forall₂_map_right_iff]
  refine (hindexed 0).imp ?_
  rintro ⟨line, index⟩ ⟨other, _⟩ ⟨hline, rfl⟩
  exact ⟨rfl, hline⟩

private theorem elementTagsAll_map {node : Nat × Line → Node} {lines others : List (Nat × Line)}
    (hnode : ∀ a b, a.1 = b.1 → Line.SameShape a.2 b.2 →
      (node a).elementTags = (node b).elementTags)
    (h : SameLines lines others) :
    Node.elementTagsAll (lines.map node) = Node.elementTagsAll (others.map node) := by
  induction h with
  | nil => rfl
  | cons hab _ ih =>
    rw [List.map_cons, List.map_cons, Node.elementTagsAll, Node.elementTagsAll,
      hnode _ _ hab.1 hab.2, ih]

private theorem elementTags_listing {lines others : List (Nat × Line)}
    (h : SameLines lines others) :
    (listing options mark lines).elementTags = (listing options mark others).elementTags := by
  have hcode : (codeColumn options mark lines).elementTags =
      (codeColumn options mark others).elementTags := by
    simp only [codeColumn, Node.elementTags, Node.elementTagsAll]
    rw [elementTagsAll_map _ h]
    rintro ⟨number, line⟩ ⟨_, other⟩ rfl hline
    exact elementTags_codeLine _ hline
  have hnumbers : (numberColumn mark lines).elementTags =
      (numberColumn mark others).elementTags := by
    simp only [numberColumn, Node.elementTags, Node.elementTagsAll]
    rw [elementTagsAll_map _ h]
    rintro ⟨number, line⟩ ⟨_, other⟩ rfl _
    rfl
  unfold listing
  split <;> simp only [Node.elementTags, Node.elementTagsAll, hcode, hnumbers]

private theorem tags_listingText (first : Nat) {lines others : List Line}
    (h : List.Forall₂ Line.SameShape lines others) :
    tags (listingText options mark first lines).toList =
      tags (listingText options mark first others).toList := by
  unfold listingText
  cases h with
  | nil => rfl
  | cons hline hlines =>
    rw [if_neg (List.cons_ne_nil _ _), if_neg (List.cons_ne_nil _ _), String.toList_ofList,
      String.toList_ofList, Node.tags_render _ (named_listing options mark _),
      Node.tags_render _ (named_listing options mark _),
      elementTags_listing (sameLines_enumerate (.cons hline hlines) first)]

private theorem escaped_listingText (options : RenderOptions) (mark : Option Nat) (first : Nat)
    (lines : List Line) : Escaped (listingText options mark first lines).toList := by
  unfold listingText
  split
  · exact Html.escaped_nil
  · rw [String.toList_ofList]
    exact Node.escaped_render _ (named_listing options mark _)

private theorem tags_excerptAround {tokens others : List Token}
    (h : List.Forall₂ Token.SameShape tokens others) (line context : Nat) :
    tags (excerptAround options tokens line context).leading.toList =
        tags (excerptAround options others line context).leading.toList ∧
      tags (excerptAround options tokens line context).trailing.toList =
        tags (excerptAround options others line context).trailing.toList := by
  have hwindow := Source.sameShape_window h (max 1 (line - context))
    (min (line + context) (UInt64.size - 1))
  simp only [excerptAround, hwindow.length_eq]
  refine ⟨tags_listingText _ (List.forall₂_take _ hwindow), ?_⟩
  split
  · rfl
  · exact tags_listingText _ (List.forall₂_drop _ hwindow)

private theorem escaped_excerptAround (options : RenderOptions) (tokens : List Token)
    (line context : Nat) :
    Escaped (excerptAround options tokens line context).leading.toList ∧
      Escaped (excerptAround options tokens line context).trailing.toList := by
  refine ⟨escaped_listingText _ _ _ _, ?_⟩
  simp only [excerptAround]
  split
  · exact Html.escaped_nil
  · exact escaped_listingText _ _ _ _

/-- Text cannot inject markup. If tokens are replaced by others of the same shapes, the excerpt for
a line has the same tags or there is none for either; and between the tags of an excerpt each
ampersand begins an entity. -/
theorem excerpt_without_injection {tokens others : List Token}
    (h : List.Forall₂ Token.SameShape tokens others) (options : RenderOptions) (line : UInt64)
    (context : Int) :
    (excerpt? options tokens line context = none ∧ excerpt? options others line context = none ∨
      ∃ e e', excerpt? options tokens line context = some e ∧
        excerpt? options others line context = some e' ∧
        tags e.leading.toList = tags e'.leading.toList ∧
        tags e.trailing.toList = tags e'.trailing.toList) ∧
    ∀ e, excerpt? options tokens line context = some e →
      Escaped e.leading.toList ∧ Escaped e.trailing.toList := by
  unfold excerpt?
  split
  · refine ⟨.inr ⟨{}, {}, rfl, rfl, rfl, rfl⟩, ?_⟩
    rintro _ ⟨⟩
    exact ⟨Html.escaped_nil, Html.escaped_nil⟩
  split
  · exact ⟨.inl ⟨rfl, rfl⟩, by simp⟩
  · refine ⟨.inr ⟨_, _, rfl, rfl, tags_excerptAround h line.toNat context.toNat⟩, ?_⟩
    rintro _ ⟨⟩
    exact escaped_excerptAround options tokens line.toNat context.toNat

def harmless : List Token := [⟨.name, "a"⟩, ⟨.text, "\n"⟩]

def hostile : List Token := [⟨.name, "<b>&lt"⟩, ⟨.text, "\r\n"⟩]

theorem excerpt_without_injection_hostile :
    List.Forall₂ Token.SameShape hostile harmless ∧
      ∃ e e', excerpt? {} hostile 1 0 = some e ∧ excerpt? {} harmless 1 0 = some e' ∧
        tags e.leading.toList = tags e'.leading.toList ∧ Escaped e.leading.toList := by
  have hname : Token.SameShape ⟨.name, "<b>&lt"⟩ ⟨.name, "a"⟩ :=
    ⟨rfl, .cons (by decide) .nil⟩
  have hend : Token.SameShape ⟨.text, "\r\n"⟩ ⟨.text, "\n"⟩ :=
    ⟨rfl, .cons (by decide) .nil⟩
  have hshapes : List.Forall₂ Token.SameShape hostile harmless := .cons hname (.cons hend .nil)
  obtain ⟨hboth, hescaped⟩ := excerpt_without_injection hshapes {} 1 0
  rcases hboth with ⟨hnone, -⟩ | ⟨e, e', he, he', htags, -⟩
  · simp [excerpt?] at hnone
  · exact ⟨hshapes, e, e', he, he', htags, (hescaped e he).1⟩

end Highlight

end GoroutineDump
