import GoroutineDump.Proofs.Highlight.Excerpt

set_option autoImplicit false
set_option relaxedAutoImplicit false

namespace GoroutineDump.Html

/-- A text that has no meaning wherever it stands in a fragment: it holds no delimiter, and each
ampersand in it begins an entity. -/
structure IsInert (cs : List Char) : Prop where
  undelimited : ∀ d, IsDelimiter d → d ∉ cs
  entity : ∀ before after, cs = before ++ '&' :: after →
    ∃ entity ∈ entities, entity <+: '&' :: after

private theorem isInert_escape (cs : List Char) : IsInert (escape cs) where
  undelimited _ hd := notMem_escape hd cs
  entity before after h := by
    have hbefore : '<' ∉ before := by
      intro hmem
      exact notMem_escape (.inl rfl) cs (h ▸ List.mem_append_left _ hmem)
    exact (escaped_escape cs).entity before after h (endsInTag_of_notMem hbefore)

private theorem exists_escapeChar {entity : List Char} (h : entity ∈ entities) :
    ∃ c, escapeChar c = entity := by
  simp only [entities, List.mem_cons, List.not_mem_nil, or_false] at h
  rcases h with rfl | rfl | rfl | rfl | rfl
  · exact ⟨'<', rfl⟩
  · exact ⟨'>', rfl⟩
  · exact ⟨'&', rfl⟩
  · exact ⟨'\x22', rfl⟩
  · exact ⟨'\x27', rfl⟩

private theorem escapeChar_ne_nil (c : Char) : escapeChar c ≠ [] := by
  rcases escapeChar_cases c with hentity | ⟨heq, -⟩
  · intro hnil
    rw [hnil] at hentity
    exact absurd hentity (by decide)
  · rw [heq]
    exact List.cons_ne_nil c []

private theorem escapeChar_of_plain {c : Char} (hplain : ¬ IsDelimiter c) (hand : c ≠ '&') :
    escapeChar c = [c] := by
  simp only [IsDelimiter, not_or] at hplain
  simp only [escapeChar, hplain, hand, if_false]

namespace IsInert

variable {cs front back : List Char}

private theorem of_append (h : IsInert (front ++ back)) : IsInert back where
  undelimited d hd hmem := h.undelimited d hd (List.mem_append_right front hmem)
  entity before after heq := h.entity (front ++ before) after (by rw [heq, List.append_assoc])

private theorem exists_append {c : Char} (h : IsInert (c :: cs)) :
    ∃ d rest, c :: cs = escapeChar d ++ rest := by
  by_cases hand : c = '&'
  · subst hand
    obtain ⟨entity, hentity, rest, hrest⟩ := h.entity [] cs rfl
    obtain ⟨d, rfl⟩ := exists_escapeChar hentity
    exact ⟨d, rest, hrest.symm⟩
  · have hplain : ¬ IsDelimiter c := fun hd => h.undelimited c hd List.mem_cons_self
    exact ⟨c, cs, by rw [escapeChar_of_plain hplain hand, List.singleton_append]⟩

theorem escape_unescape (h : IsInert cs) : escape (unescape cs) = cs := by
  -- The induction takes off a whole entity at a time, not a character.
  induction hlength : cs.length using Nat.strong_induction_on generalizing cs with
  | _ length ih =>
    cases cs with
    | nil => rfl
    | cons c cs =>
      obtain ⟨d, rest, heq⟩ := h.exists_append
      rw [heq] at h hlength ⊢
      have hless : rest.length < length := by
        have hpositive := List.length_pos_of_ne_nil (escapeChar_ne_nil d)
        rw [List.length_append] at hlength
        omega
      rw [unescape_escapeChar_append, escape_cons, ih rest.length hless h.of_append rfl]

end IsInert

private theorem escape_flatten (texts : List (List Char)) :
    escape texts.flatten = texts.flatMap escape := by
  induction texts with
  | nil => rfl
  | cons text texts ih => rw [List.flatten_cons, escape_append, ih, List.flatMap_cons]

end GoroutineDump.Html

namespace GoroutineDump.Highlight

open Html (Node IsInert escape unescape stripTags)
open Source (Line)

/-- A line of code is, without its tags, its text as a whole, escaped. -/
theorem stripTags_codeLine (marked : Bool) (line : Line) :
    stripTags (codeLine marked line).render = escape line.shown ++ ['\n'] := by
  rw [Node.stripTags_render_eq _ (named_codeLine marked line), plainText_codeLine,
    Html.escape_append]
  rfl

/-- Escaping is reversible. What is written for a text is inert, reading it gives the text back, and
no other inert text is read as this text nor any other text written like it. Texts one after the
other, such as the tokens of a line, are written as if they were one text. -/
theorem escape_reversible (s : List Char) :
    IsInert (escape s) ∧
    unescape (escape s) = s ∧
    (∀ e, IsInert e → unescape e = s → e = escape s) ∧
    (∀ t, escape t = escape s → t = s) ∧
    (∀ t, escape (s ++ t) = escape s ++ escape t) ∧
    (∀ texts : List (List Char), texts.flatten = s → texts.flatMap escape = escape s) ∧
    ∀ (marked : Bool) (line : Line), line.shown = s →
      stripTags (codeLine marked line).render = escape s ++ ['\n'] := by
  refine ⟨Html.isInert_escape s, Html.unescape_escape s, ?_, ?_, Html.escape_append s, ?_, ?_⟩
  · rintro e he rfl
    exact he.escape_unescape.symm
  · intro t h
    rw [← Html.unescape_escape t, h, Html.unescape_escape]
  · rintro texts rfl
    exact (Html.escape_flatten texts).symm
  · rintro marked line rfl
    exact stripTags_codeLine marked line

theorem escape_reversible_cutEntity :
    escape "'&amp;lt;'".toList = "&#39;&amp;amp;lt;&#39;".toList ∧
      IsInert "&#39;&amp;amp;lt;&#39;".toList ∧
      unescape "&#39;&amp;amp;lt;&#39;".toList = "'&amp;lt;'".toList ∧
      stripTags (codeLine true
        [⟨.punctuation, "'&am".toList⟩, ⟨.name, "p;lt;'\n".toList⟩]).render =
          "&#39;&amp;amp;lt;&#39;\n".toList := by
  obtain ⟨hinert, hread, -, -, -, -, hline⟩ := escape_reversible "'&amp;lt;'".toList
  have hwritten : escape "'&amp;lt;'".toList = "&#39;&amp;amp;lt;&#39;".toList := by decide
  rw [hwritten] at hinert hread hline
  exact ⟨hwritten, hinert, hread, hline true _ (by decide)⟩

end GoroutineDump.Highlight
