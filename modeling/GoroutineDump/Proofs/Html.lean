import GoroutineDump.Html
import GoroutineDump.Proofs.Text

set_option autoImplicit false
set_option relaxedAutoImplicit false

namespace GoroutineDump.Html

/-- What a fragment shows: its text without tags, with the entities read. -/
def visibleText (fragment : List Char) : List Char := unescape (stripTags fragment)

def IsDelimiter (c : Char) : Prop := c = '<' ∨ c = '>' ∨ c = '\x22' ∨ c = '\x27'

def entities : List (List Char) :=
  ["&lt;".toList, "&gt;".toList, "&amp;".toList, "&quot;".toList, "&#39;".toList]

theorem escapeChar_cases (c : Char) :
    escapeChar c ∈ entities ∨ escapeChar c = [c] ∧ ¬ IsDelimiter c ∧ c ≠ '&' := by
  unfold escapeChar
  split
  · exact .inl (by decide)
  split
  · exact .inl (by decide)
  split
  · exact .inl (by decide)
  split
  · exact .inl (by decide)
  split
  · exact .inl (by decide)
  · next hlt hgt hand hquote happ =>
    have hplain : ¬ IsDelimiter c := by
      rintro (hc | hc | hc | hc)
      · exact hlt hc
      · exact hgt hc
      · exact hquote hc
      · exact happ hc
    exact .inr ⟨rfl, hplain, hand⟩

private theorem notMem_escapeChar {c d : Char} (hd : IsDelimiter d) : d ∉ escapeChar c := by
  rcases escapeChar_cases c with hentity | ⟨heq, hplain, -⟩
  · have hnone : ∀ entity ∈ entities, d ∉ entity := by
      rcases hd with rfl | rfl | rfl | rfl <;> decide
    exact hnone _ hentity
  · rw [heq, List.mem_singleton]
    rintro rfl
    exact hplain hd

theorem notMem_escape {d : Char} (hd : IsDelimiter d) (cs : List Char) : d ∉ escape cs := by
  simp only [escape, List.mem_flatMap, not_exists, not_and]
  intro c _
  exact notMem_escapeChar hd

theorem stripTags_append {cs : List Char} (h : '<' ∉ cs) (rest : List Char) :
    stripTags (cs ++ rest) = cs ++ stripTags rest := by
  induction cs with
  | nil => rfl
  | cons c cs ih =>
    simp only [List.mem_cons, not_or] at h
    rw [List.cons_append, stripTags, if_neg (Ne.symm h.1), ih h.2, List.cons_append]

private theorem inTag_append {cs : List Char} (h : '>' ∉ cs) (rest : List Char) :
    stripTags.inTag (cs ++ '>' :: rest) = stripTags rest := by
  induction cs with
  | nil => rfl
  | cons c cs ih =>
    simp only [List.mem_cons, not_or] at h
    rw [List.cons_append, stripTags.inTag, if_neg (Ne.symm h.1), ih h.2]

private theorem stripTags_tag {cs : List Char} (h : '>' ∉ cs) (rest : List Char) :
    stripTags ('<' :: cs ++ ['>'] ++ rest) = stripTags rest := by
  rw [List.append_assoc, List.cons_append, stripTags, if_pos rfl, List.singleton_append,
    inTag_append h]

namespace Node

mutual

/-- The names of elements and attributes hold no closing bracket. -/
def Named : Node → Prop
  | .text _ => True
  | .element tag attributes children =>
    '>' ∉ tag.toList ∧ (∀ a ∈ attributes, '>' ∉ a.1.toList) ∧ NamedAll children

def NamedAll : List Node → Prop
  | [] => True
  | node :: nodes => Named node ∧ NamedAll nodes

end

theorem namedAll_iff {nodes : List Node} : NamedAll nodes ↔ ∀ node ∈ nodes, Named node := by
  induction nodes with
  | nil => simp [NamedAll]
  | cons node nodes ih => simp [NamedAll, ih]

theorem plainTextAll_eq (nodes : List Node) : plainTextAll nodes = nodes.flatMap plainText := by
  induction nodes with
  | nil => rfl
  | cons node nodes ih => rw [plainTextAll, ih, List.flatMap_cons]

private theorem notMem_attributeChars {a : String × String} (ha : '>' ∉ a.1.toList) :
    '>' ∉ attributeChars a := by
  have hescape := notMem_escape (.inr (.inl rfl)) a.2.toList
  simp [attributeChars, ha, hescape]

private theorem exists_openingTag {tag : String} {attributes : List (String × String)}
    (htag : '>' ∉ tag.toList) (hattributes : ∀ a ∈ attributes, '>' ∉ a.1.toList) :
    ∃ inside, '>' ∉ inside ∧ openingTag tag attributes = '<' :: inside ++ ['>'] := by
  refine ⟨tag.toList ++ attributes.flatMap attributeChars, ?_, by simp [openingTag]⟩
  simp only [List.mem_append, List.mem_flatMap, not_or, not_exists, not_and]
  exact ⟨htag, fun a ha => notMem_attributeChars (hattributes a ha)⟩

private theorem exists_closingTag {tag : String} (htag : '>' ∉ tag.toList) :
    ∃ inside, '>' ∉ inside ∧ closingTag tag = '<' :: inside ++ ['>'] :=
  ⟨'/' :: tag.toList, by simp [htag], by simp [closingTag]⟩

mutual

theorem stripTags_render (node : Node) (hnode : node.Named) (rest : List Char) :
    stripTags (node.render ++ rest) = escape node.plainText ++ stripTags rest := by
  cases node with
  | text chars =>
    rw [render, plainText, stripTags_append (notMem_escape (.inl rfl) chars)]
  | element tag attributes children =>
    obtain ⟨htag, hattributes, hchildren⟩ := hnode
    obtain ⟨opening, hopening, htext⟩ := exists_openingTag htag hattributes
    obtain ⟨closing, hclosing, hend⟩ := exists_closingTag htag
    rw [render, List.append_assoc, List.append_assoc, htext, stripTags_tag hopening,
      stripTags_renderAll children hchildren, hend, stripTags_tag hclosing, plainText]

private theorem stripTags_renderAll (nodes : List Node) (hnodes : NamedAll nodes)
    (rest : List Char) :
    stripTags (renderAll nodes ++ rest) = escape (plainTextAll nodes) ++ stripTags rest := by
  cases nodes with
  | nil => rfl
  | cons node nodes =>
    rw [renderAll, List.append_assoc, stripTags_render node hnodes.1,
      stripTags_renderAll nodes hnodes.2, plainTextAll, escape_append, List.append_assoc]

end

/-- Without its tags a rendered tree is its text as a whole, escaped. -/
theorem stripTags_render_eq (node : Node) (hnode : node.Named) :
    stripTags node.render = escape node.plainText := by
  have h := stripTags_render node hnode []
  rwa [List.append_nil, stripTags, List.append_nil] at h

/-- A rendered tree shows its text. -/
theorem visibleText_render (node : Node) (hnode : node.Named) :
    visibleText node.render = node.plainText := by
  rw [visibleText, stripTags_render_eq node hnode, unescape_escape]

end Node

/-- The stretches of a fragment from a `<` to the next `>`. -/
def tags : List Char → List (List Char)
  | [] => []
  | c :: cs => if c = '<' then inTag [c] cs else tags cs
where
  /-- The tags after a beginning of a tag, which is kept in reverse. -/
  inTag (begun : List Char) : List Char → List (List Char)
    | [] => []
    | c :: cs => if c = '>' then (c :: begun).reverse :: tags cs else inTag (c :: begun) cs

def insideAfter (inside : Bool) (c : Char) : Bool := if inside then c != '>' else c == '<'

def endsInTag (cs : List Char) : Bool := cs.foldl insideAfter false

/-- A fragment that ends outside tags, and of which each ampersand outside tags begins an entity. -/
structure Escaped (fragment : List Char) : Prop where
  closed : endsInTag fragment = false
  entity : ∀ before after, fragment = before ++ '&' :: after → endsInTag before = false →
    ∃ entity ∈ entities, entity <+: '&' :: after

section Fragments

variable {cs ds : List Char}

private theorem tags_append (h : '<' ∉ cs) (rest : List Char) : tags (cs ++ rest) = tags rest := by
  induction cs with
  | nil => rfl
  | cons c cs ih =>
    simp only [List.mem_cons, not_or] at h
    rw [List.cons_append, tags, if_neg (Ne.symm h.1), ih h.2]

private theorem tags_inTag (begun : List Char) (h : '>' ∉ cs) (rest : List Char) :
    tags.inTag begun (cs ++ '>' :: rest) = (begun.reverse ++ cs ++ ['>']) :: tags rest := by
  induction cs generalizing begun with
  | nil => simp [tags.inTag]
  | cons c cs ih =>
    simp only [List.mem_cons, not_or] at h
    rw [List.cons_append, tags.inTag, if_neg (Ne.symm h.1), ih (c :: begun) h.2]
    simp

private theorem tags_tag (h : '>' ∉ cs) (rest : List Char) :
    tags ('<' :: cs ++ ['>'] ++ rest) = ('<' :: cs ++ ['>']) :: tags rest := by
  rw [List.append_assoc, List.cons_append, tags, if_pos rfl, List.singleton_append,
    tags_inTag _ h]
  rfl

/-! ### Entities -/

private theorem endsInTag_append (h : endsInTag cs = false) (ds : List Char) :
    endsInTag (cs ++ ds) = endsInTag ds := by
  rw [endsInTag, List.foldl_append, ← endsInTag, h, endsInTag]

theorem escaped_nil : Escaped [] :=
  ⟨rfl, fun before after h => by simp at h⟩

private theorem Escaped.append (hcs : Escaped cs) (hds : Escaped ds) : Escaped (cs ++ ds) where
  closed := by rw [endsInTag_append hcs.closed, hds.closed]
  entity before after h houtside := by
    -- The ampersand stands in the second fragment, which begins outside tags, or in the first.
    rcases List.append_eq_append_iff.mp h with ⟨front, rfl, htail⟩ | ⟨back, rfl, htail⟩
    · rw [endsInTag_append hcs.closed] at houtside
      exact hds.entity front after htail houtside
    · cases back with
      | nil => exact hds.entity [] after htail.symm rfl
      | cons c back =>
        obtain ⟨rfl, rfl⟩ := List.cons.inj htail
        obtain ⟨entity, hentity, hstart⟩ := hcs.entity before back rfl houtside
        exact ⟨entity, hentity, hstart.trans (List.prefix_append ('&' :: back) ds)⟩

theorem endsInTag_of_notMem (h : '<' ∉ cs) : endsInTag cs = false := by
  induction cs with
  | nil => rfl
  | cons c cs ih =>
    simp only [List.mem_cons, not_or] at h
    have hc : insideAfter false c = false := by simpa [insideAfter] using Ne.symm h.1
    rw [endsInTag, List.foldl_cons, hc, ← endsInTag, ih h.2]

private theorem foldl_insideAfter (h : '>' ∉ cs) : cs.foldl insideAfter true = true := by
  induction cs with
  | nil => rfl
  | cons c cs ih =>
    simp only [List.mem_cons, not_or] at h
    have hc : insideAfter true c = true := by simpa [insideAfter] using Ne.symm h.1
    rw [List.foldl_cons, hc, ih h.2]

private theorem escaped_of_notMem (hopen : '<' ∉ cs) (hand : '&' ∉ cs) : Escaped cs :=
  ⟨endsInTag_of_notMem hopen, fun _ _ h => absurd (h ▸ by simp) hand⟩

private theorem escaped_entity {name : List Char} (hname : '&' :: name ∈ entities)
    (hopen : '<' ∉ name) (hand : '&' ∉ name) : Escaped ('&' :: name) where
  closed := endsInTag_of_notMem (by simpa using hopen)
  entity before after h _ := by
    cases before with
    | nil => exact ⟨_, hname, h ▸ List.prefix_refl _⟩
    | cons c before =>
      rw [List.cons_append, List.cons.injEq] at h
      exact absurd (h.2 ▸ by simp) hand

private theorem escaped_escapeChar (c : Char) : Escaped (escapeChar c) := by
  rcases escapeChar_cases c with hentity | ⟨heq, hplain, hand⟩
  · have hshape : ∀ entity ∈ entities,
        entity.head? = some '&' ∧ '<' ∉ entity.tail ∧ '&' ∉ entity.tail := by decide
    obtain ⟨hhead, hopen, hand⟩ := hshape _ hentity
    obtain ⟨name, hname⟩ := List.head?_eq_some_iff.mp hhead
    rw [hname] at hentity hopen hand ⊢
    exact escaped_entity hentity hopen hand
  · rw [heq]
    have hopen : '<' ≠ c := fun hc => hplain (.inl hc.symm)
    exact escaped_of_notMem (by simpa using hopen) (by simpa using Ne.symm hand)

theorem escaped_escape (cs : List Char) : Escaped (escape cs) := by
  induction cs with
  | nil => exact escaped_nil
  | cons c cs ih =>
    rw [escape_cons]
    exact (escaped_escapeChar c).append ih

private theorem escaped_tag (h : '>' ∉ cs) : Escaped ('<' :: cs ++ ['>']) where
  closed := by
    have hinside : ('<' :: cs).foldl insideAfter false = true := foldl_insideAfter h
    rw [endsInTag, List.foldl_append, hinside]
    rfl
  entity before after heq houtside := by
    exfalso
    cases before with
    | nil => exact absurd (List.cons.inj heq).1 (by decide)
    | cons c before =>
      obtain ⟨rfl, htail⟩ := List.cons.inj heq
      have hbefore : '>' ∉ before := by
        rcases List.append_eq_append_iff.mp htail with ⟨front, -, hlast⟩ | ⟨back, rfl, -⟩
        · cases front with
          | nil => exact absurd (List.cons.inj hlast).1 (by decide)
          | cons c front => exact absurd (List.cons.inj hlast).2 (by simp)
        · exact fun hmem => h (List.mem_append_left back hmem)
      have hinside : ('<' :: before).foldl insideAfter false = true := foldl_insideAfter hbefore
      rw [endsInTag, hinside] at houtside
      cases houtside

/-! ### Rendered trees -/

namespace Node

mutual

def elementTags : Node → List (List Char)
  | .text _ => []
  | .element tag attributes children =>
    openingTag tag attributes :: elementTagsAll children ++ [closingTag tag]

def elementTagsAll : List Node → List (List Char)
  | [] => []
  | node :: nodes => elementTags node ++ elementTagsAll nodes

end

theorem elementTagsAll_eq (nodes : List Node) :
    elementTagsAll nodes = nodes.flatMap elementTags := by
  induction nodes with
  | nil => rfl
  | cons node nodes ih => rw [elementTagsAll, ih, List.flatMap_cons]

mutual

private theorem tags_render_append (node : Node) (hnode : node.Named) (rest : List Char) :
    tags (node.render ++ rest) = node.elementTags ++ tags rest := by
  cases node with
  | text chars =>
    rw [render, tags_append (notMem_escape (.inl rfl) chars)]
    rfl
  | element tag attributes children =>
    obtain ⟨htag, hattributes, hchildren⟩ := hnode
    obtain ⟨opening, hopening, htext⟩ := exists_openingTag htag hattributes
    obtain ⟨closing, hclosing, hend⟩ := exists_closingTag htag
    rw [render, List.append_assoc, List.append_assoc, htext, tags_tag hopening,
      tags_renderAll_append children hchildren, hend, tags_tag hclosing, elementTags, htext, hend]
    simp only [List.cons_append, List.append_assoc, List.nil_append]

private theorem tags_renderAll_append (nodes : List Node) (hnodes : NamedAll nodes)
    (rest : List Char) :
    tags (renderAll nodes ++ rest) = elementTagsAll nodes ++ tags rest := by
  cases nodes with
  | nil => rfl
  | cons node nodes =>
    rw [renderAll, List.append_assoc, tags_render_append node hnodes.1,
      tags_renderAll_append nodes hnodes.2, elementTagsAll, List.append_assoc]

end

theorem tags_render (node : Node) (hnode : node.Named) : tags node.render = node.elementTags := by
  have h := tags_render_append node hnode []
  rwa [List.append_nil, tags, List.append_nil] at h

mutual

/-- Between the tags of a rendered tree ampersands only begin entities. -/
theorem escaped_render (node : Node) (hnode : node.Named) : Escaped node.render := by
  cases node with
  | text chars =>
    rw [render]
    exact escaped_escape chars
  | element tag attributes children =>
    obtain ⟨htag, hattributes, hchildren⟩ := hnode
    obtain ⟨opening, hopening, htext⟩ := exists_openingTag htag hattributes
    obtain ⟨closing, hclosing, hend⟩ := exists_closingTag htag
    rw [render, htext, hend]
    exact ((escaped_tag hopening).append (escaped_renderAll children hchildren)).append
      (escaped_tag hclosing)

private theorem escaped_renderAll (nodes : List Node) (hnodes : NamedAll nodes) :
    Escaped (renderAll nodes) := by
  cases nodes with
  | nil => exact escaped_nil
  | cons node nodes =>
    rw [renderAll]
    exact (escaped_render node hnodes.1).append (escaped_renderAll nodes hnodes.2)

end

end Node

end Fragments

/-! ### Well-formed fragments -/

def IsName (name : List Char) : Prop := name ≠ [] ∧ name.all Char.isAlpha = true

instance (name : List Char) : Decidable (IsName name) := instDecidableAnd

inductive IsAttributes : List Char → Prop
  | nil : IsAttributes []
  | cons {name value rest : List Char} : IsName name → '\x22' ∉ value → '<' ∉ value → '>' ∉ value →
      IsAttributes rest → IsAttributes (' ' :: name ++ ['=', '\x22'] ++ value ++ '\x22' :: rest)

/-- A fragment of which all tags are balanced and properly nested. -/
inductive IsFragment : List Char → Prop
  | text {cs : List Char} : '<' ∉ cs → '>' ∉ cs → IsFragment cs
  | element {name attributes inner : List Char} : IsName name → IsAttributes attributes →
      IsFragment inner → IsFragment
        ('<' :: name ++ attributes ++ ['>'] ++ inner ++ (['<', '/'] ++ name ++ ['>']))
  | append {front back : List Char} : IsFragment front → IsFragment back → IsFragment (front ++ back)

theorem isFragment_nil : IsFragment [] := .text List.not_mem_nil List.not_mem_nil

private theorem isAttributes_attributeChars {attributes : List (String × String)}
    (h : ∀ a ∈ attributes, IsName a.1.toList) :
    IsAttributes (attributes.flatMap Node.attributeChars) := by
  induction attributes with
  | nil => exact .nil
  | cons a attributes ih =>
    obtain ⟨ha, hrest⟩ := List.forall_mem_cons.mp h
    have hcons := IsAttributes.cons ha (notMem_escape (.inr (.inr (.inl rfl))) a.2.toList)
      (notMem_escape (.inl rfl) _) (notMem_escape (.inr (.inl rfl)) _) (ih hrest)
    rw [List.flatMap_cons, Node.attributeChars, List.append_assoc]
    exact hcons

/-! ### Elements of a class -/

def quotedValues : List (List Char) → List (List Char × List Char)
  | front :: value :: rest => (front, value) :: quotedValues rest
  | _ => []

def classes (tag : List Char) : List (List Char) :=
  match (quotedValues (tag.splitOn '\x22')).find? (" class=".toList.isSuffixOf ·.1) with
  | some (_, value) => (unescape value).splitOn ' '
  | none => []

/-- An element of some class: whether it is emphasized, and the text from its opening tag to the next
tag. -/
structure Entry where
  marked : Bool
  text : List Char
  deriving DecidableEq, Repr

def elementAt? (style stretch : List Char) : Option Entry :=
  let (tag, text) := stretch.span (· != '>')
  if style ∈ classes tag then
    some { marked := "hl".toList ∈ classes tag, text := unescape (text.drop 1) }
  else none

def entries (style fragment : List Char) : List Entry :=
  (fragment.splitOn '<').tail.filterMap (elementAt? style)

/-- A part of a fragment that adds these elements of a class to those behind it. -/
def HasEntries (style part : List Char) (es : List Entry) : Prop :=
  ∀ rest, entries style (part ++ rest) = es ++ entries style rest

section Entries

variable {style tag text : List Char}

private theorem splitOn_append {d : Char} {cs : List Char} (h : d ∉ cs) (rest : List Char) :
    (cs ++ rest).splitOn d = (rest.splitOn d).modifyHead (cs ++ ·) := by
  induction cs with
  | nil => exact (congrFun List.modifyHead_id _).symm
  | cons c cs ih =>
    simp only [List.mem_cons, not_or] at h
    rw [List.cons_append, List.splitOn_cons_eq_if_modifyHead,
      if_neg (by simpa using Ne.symm h.1), ih h.2, List.modifyHead_modifyHead]
    rfl

private theorem entries_cons (style cs : List Char) :
    entries style ('<' :: cs) = (cs.splitOn '<').filterMap (elementAt? style) := by
  rw [entries, List.splitOn_cons_eq_if_modifyHead, if_pos (beq_self_eq_true '<'), List.tail_cons]

private theorem elementAt?_tag (h : '>' ∉ tag) (text : List Char) :
    elementAt? style (tag ++ '>' :: text) =
      if style ∈ classes tag then
        some { marked := "hl".toList ∈ classes tag, text := unescape text }
      else none := by
  have hspan : (tag ++ '>' :: text).span (· != '>') = (tag, '>' :: text) := by
    refine Text.span_append (fun c hc => ?_) fun c hc => ?_
    · rw [bne_iff_ne]
      rintro rfl
      exact h hc
    · rw [← Option.some.inj hc]
      rfl
  rw [elementAt?, hspan]
  rfl

theorem HasEntries.entries_eq {part : List Char} {es : List Entry} (h : HasEntries style part es) :
    entries style part = es := by
  have hnone : entries style [] = [] := by rw [entries, List.splitOn_nil]; rfl
  have hpart := h []
  rwa [List.append_nil, hnone, List.append_nil] at hpart

theorem hasEntries_nil (style : List Char) : HasEntries style [] [] := fun _ => rfl

theorem HasEntries.append {front back : List Char} {es fs : List Entry}
    (hfront : HasEntries style front es) (hback : HasEntries style back fs) :
    HasEntries style (front ++ back) (es ++ fs) := by
  intro rest
  rw [List.append_assoc, hfront, hback, List.append_assoc]

theorem hasEntries_text (h : '<' ∉ text) : HasEntries style text [] := by
  intro rest
  rw [entries, splitOn_append h, List.tail_modifyHead, ← entries, List.nil_append]

private theorem hasEntries_tag (hopen : '<' ∉ tag) (hclose : '>' ∉ tag) (h : style ∉ classes tag) :
    HasEntries style ('<' :: tag ++ ['>']) [] := by
  intro rest
  have hstretch : '<' ∉ tag ++ ['>'] := by simp [hopen]
  rw [List.cons_append, List.cons_append, entries_cons, splitOn_append hstretch, entries]
  cases hrest : rest.splitOn '<' with
  | nil => exact absurd hrest (List.splitOn_ne_nil _ _)
  | cons text stretches =>
    have hnone : elementAt? style (tag ++ ['>'] ++ text) = none := by
      rw [List.append_assoc, List.singleton_append, elementAt?_tag hclose, if_neg h]
    rw [List.modifyHead_cons, List.filterMap_cons_none hnone]
    rfl

private theorem hasEntries_entry {back : List Char} {es : List Entry} (hopen : '<' ∉ tag)
    (hclose : '>' ∉ tag) (h : style ∈ classes tag) (htext : '<' ∉ text)
    (hback : HasEntries style ('<' :: back) es) :
    HasEntries style ('<' :: tag ++ ['>'] ++ (text ++ '<' :: back))
      ({ marked := "hl".toList ∈ classes tag, text := unescape text } :: es) := by
  intro rest
  have hstretch : '<' ∉ tag ++ '>' :: text := by simp [hopen, htext]
  have hsplit : '<' :: tag ++ ['>'] ++ (text ++ '<' :: back) ++ rest =
      '<' :: ((tag ++ '>' :: text) ++ '<' :: (back ++ rest)) := by simp
  have hsome : elementAt? style (tag ++ '>' :: text) =
      some { marked := "hl".toList ∈ classes tag, text := unescape text } := by
    rw [elementAt?_tag hclose, if_pos h]
  rw [hsplit, entries_cons, List.splitOn_append_cons_self_of_not_mem hstretch,
    List.filterMap_cons_some hsome, ← entries_cons, ← List.cons_append, hback, List.cons_append]

end Entries

/-! ### Tags with attributes -/

namespace IsName

variable {name : List Char}

private theorem notMem (h : IsName name) {c : Char} (hc : c.isAlpha = false) : c ∉ name := by
  intro hmem
  rw [List.all_eq_true.mp h.2 c hmem] at hc
  cases hc

theorem classes_eq_nil (h : IsName name) : classes name = [] ∧ classes ('/' :: name) = [] := by
  have hname : '\x22' ∉ name := h.notMem (by decide)
  have hclosing : '\x22' ∉ '/' :: name := by simp [hname]
  constructor
  · rw [classes, List.splitOn_eq_singleton hname]
    rfl
  · rw [classes, List.splitOn_eq_singleton hclosing]
    rfl

end IsName

/-! ### Entries of rendered trees -/

namespace Node

def tagText (tag : String) (attributes : List (String × String)) : List Char :=
  tag.toList ++ attributes.flatMap attributeChars

variable {tag : String} {attributes : List (String × String)} {children : List Node}

private theorem notMem_tagText (htag : IsName tag.toList)
    (hattributes : ∀ a ∈ attributes, IsName a.1.toList)
    {d : Char} (hd : d = '<' ∨ d = '>') : d ∉ tagText tag attributes := by
  have halpha : d.isAlpha = false := by rcases hd with rfl | rfl <;> decide
  have hescape (cs : List Char) : d ∉ escape cs := by
    rcases hd with rfl | rfl
    · exact notMem_escape (.inl rfl) cs
    · exact notMem_escape (.inr (.inl rfl)) cs
  have hmarks : d ≠ ' ' ∧ d ≠ '=' ∧ d ≠ '\x22' := by rcases hd with rfl | rfl <;> decide
  rw [tagText, List.mem_append, List.mem_flatMap, not_or]
  refine ⟨htag.notMem halpha, ?_⟩
  rintro ⟨a, ha, hmem⟩
  simp [attributeChars, hmarks, hescape, (hattributes a ha).notMem halpha] at hmem

theorem classes_tagText (htag : IsName tag.toList) (style : String) :
    classes (tagText tag (("class", style) :: attributes)) = style.toList.splitOn ' ' := by
  have hfront : '\x22' ∉ tag.toList ++ " class=".toList := by
    rw [List.mem_append, not_or]
    exact ⟨htag.notMem (by decide), by decide⟩
  have hvalue : '\x22' ∉ escape style.toList := notMem_escape (.inr (.inr (.inl rfl))) _
  have hsplit : tagText tag (("class", style) :: attributes) =
      (tag.toList ++ " class=".toList) ++ '\x22' :: (escape style.toList ++
        '\x22' :: attributes.flatMap attributeChars) := by
    simp [tagText, attributeChars]
  have hclass : " class=".toList.isSuffixOf (tag.toList ++ " class=".toList) = true := by
    rw [List.isSuffixOf_iff_suffix]
    exact List.suffix_append _ _
  rw [classes, hsplit, List.splitOn_append_cons_self_of_not_mem hfront,
    List.splitOn_append_cons_self_of_not_mem hvalue, quotedValues]
  simp only [List.find?_cons, hclass, unescape_escape]

theorem hasEntries_closingTag (htag : IsName tag.toList) (style : List Char) :
    HasEntries style (closingTag tag) [] := by
  have hopen : '<' ∉ '/' :: tag.toList := by simp [htag.notMem]
  have hclose : '>' ∉ '/' :: tag.toList := by simp [htag.notMem]
  have hnone : style ∉ classes ('/' :: tag.toList) := by
    rw [htag.classes_eq_nil.2]
    exact List.not_mem_nil
  exact hasEntries_tag hopen hclose hnone

theorem hasEntries_element (htag : IsName tag.toList)
    (hattributes : ∀ a ∈ attributes, IsName a.1.toList) {style : List Char} {es : List Entry}
    (hother : style ∉ classes (tagText tag attributes))
    (h : HasEntries style (renderAll children) es) :
    HasEntries style (render (.element tag attributes children)) es := by
  have hopening := hasEntries_tag (notMem_tagText htag hattributes (.inl rfl))
    (notMem_tagText htag hattributes (.inr rfl)) hother
  have hall := (hopening.append h).append (hasEntries_closingTag htag style)
  rw [List.nil_append, List.append_nil] at hall
  rw [render, openingTag]
  exact hall

theorem hasEntries_entry (htag : IsName tag.toList)
    (hattributes : ∀ a ∈ attributes, IsName a.1.toList) {style chars behind : List Char}
    {es : List Entry} (hstyle : style ∈ classes (tagText tag attributes))
    (hinside : renderAll children ++ closingTag tag = escape chars ++ behind)
    (hnext : behind.head? = some '<') (hbehind : HasEntries style behind es) :
    HasEntries style (render (.element tag attributes children))
      ({ marked := "hl".toList ∈ classes (tagText tag attributes), text := chars } :: es) := by
  obtain ⟨back, rfl⟩ := List.head?_eq_some_iff.mp hnext
  have hentry := Html.hasEntries_entry (notMem_tagText htag hattributes (.inl rfl))
    (notMem_tagText htag hattributes (.inr rfl)) hstyle (notMem_escape (.inl rfl) chars) hbehind
  rw [unescape_escape] at hentry
  rw [render, List.append_assoc, hinside]
  exact hentry

theorem renderAll_append (front back : List Node) :
    renderAll (front ++ back) = renderAll front ++ renderAll back := by
  induction front with
  | nil => rfl
  | cons node front ih => rw [List.cons_append, renderAll, ih, renderAll, List.append_assoc]

theorem isFragment_text (chars : List Char) : IsFragment (render (.text chars)) := by
  rw [render]
  exact .text (notMem_escape (.inl rfl) chars) (notMem_escape (.inr (.inl rfl)) chars)

theorem isFragment_element (htag : IsName tag.toList)
    (hattributes : ∀ a ∈ attributes, IsName a.1.toList) (h : IsFragment (renderAll children)) :
    IsFragment (render (.element tag attributes children)) := by
  rw [render]
  exact .element htag (isAttributes_attributeChars hattributes) h

end Node

end GoroutineDump.Html
