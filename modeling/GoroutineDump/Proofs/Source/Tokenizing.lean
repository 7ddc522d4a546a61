import Mathlib.Algebra.GroupWithZero.Nat
import GoroutineDump.Proofs.Text
import GoroutineDump.Source.Lexer

set_option autoImplicit false
set_option relaxedAutoImplicit false

namespace GoroutineDump.Source

private theorem sourceText_cons (t : Token) (ts : List Token) :
    sourceText (t :: ts) = t.text.toList ++ sourceText ts := List.flatMap_cons

private theorem sourceText_append (ts us : List Token) :
    sourceText (ts ++ us) = sourceText ts ++ sourceText us := List.flatMap_append

private theorem sourceText_scanGoFrom {done : List Token} {cs : List Char}
    (h : (scanGoFrom done cs).fault = none) :
    sourceText (scanGoFrom done cs).tokens = sourceText done.reverse ++ cs := by
  fun_induction scanGoFrom done cs with
  | case1 => simp
  | case2 => simp at h
  | case3 done c cs cut hcut ih =>
    rw [ih h, List.reverse_cons, sourceText_append, List.append_assoc, sourceText_cons,
      String.toList_ofList]
    simp [sourceText, (nextGoToken_append hcut).1]

/-- The texts of the tokens of a text make up the text, in each language. -/
theorem sourceText_tokenize {language : Language} {text : String} {tokens : List Token}
    (h : tokenize language text = .ok tokens) : sourceText tokens = text.toList := by
  unfold tokenize at h
  split at h
  · cases h
    rw [sourceText, List.flatMap_map, List.flatMap_def]
    simp [Text.flatten_pieces]
  · simp only at h
    split at h
    · next hfault =>
      cases h
      have hall := sourceText_scanGoFrom hfault
      simpa [scanGo, sourceText] using hall
    · cases h

private theorem isValid_nextGoToken {c : Char} {cs : List Char} {cut : Cut}
    (h : nextGoToken c cs = .ok cut) :
    1 ≤ (String.ofList cut.taken).utf8ByteSize ∧
      (String.ofList cut.taken).utf8ByteSize ≤ (String.ofList (c :: cs)).utf8ByteSize ∧
      String.Pos.Raw.IsValid (String.ofList (c :: cs))
        ⟨(String.ofList cut.taken).utf8ByteSize⟩ := by
  obtain ⟨happend, hne⟩ := nextGoToken_append h
  have hsize : (String.ofList (c :: cs)).utf8ByteSize =
      (String.ofList cut.taken).utf8ByteSize + (String.ofList cut.rest).utf8ByteSize := by
    rw [← happend, String.ofList_append, String.utf8ByteSize_append]
  have hpositive : (String.ofList cut.taken).utf8ByteSize ≠ 0 := by
    rw [ne_eq, String.utf8ByteSize_eq_zero_iff, String.ofList_eq_empty_iff]
    exact hne
  refine ⟨by omega, by omega, String.Pos.Raw.isValid_ofList.mpr ⟨cut.taken.length, ?_⟩⟩
  rw [← happend, List.take_left]

private theorem text_ne_of_mem_scanGoFrom {done : List Token} {cs : List Char}
    (hdone : ∀ t ∈ done, t.text ≠ "") : ∀ t ∈ (scanGoFrom done cs).tokens, t.text ≠ "" := by
  fun_induction scanGoFrom done cs with
  | case1 => simpa using hdone
  | case2 => simpa using hdone
  | case3 done c cs cut hcut ih =>
    apply ih
    intro t ht
    rcases List.mem_cons.mp ht with rfl | ht
    · simpa using (nextGoToken_append hcut).2
    · exact hdone t ht

private theorem length_scanGoFrom_le (done : List Token) (cs : List Char) :
    (scanGoFrom done cs).tokens.length ≤ done.length + cs.length := by
  fun_induction scanGoFrom done cs with
  | case1 => simp
  | case2 => simp
  | case3 done c cs cut hcut ih =>
    have hless := length_rest_nextGoToken hcut
    simp only [List.length_cons] at ih hless ⊢
    omega

private theorem nextGoToken_eq_error {c : Char} {cs : List Char} {fault : LexFault}
    (h : nextGoToken c cs = .error fault) : ['/', '*'] <+: c :: cs ∨ c = '\x60' := by
  unfold nextGoToken at h
  split at h
  · next hopen => exact .inl (List.isPrefixOf_iff_prefix.mp hopen)
  · split at h
    · next hquote => exact .inr hquote
    · split at h <;> cases h

private theorem fault_scanGoFrom {done : List Token} {cs : List Char}
    (hcomment : ¬ ['/', '*'] <:+: cs) (hquote : '\x60' ∉ cs) :
    (scanGoFrom done cs).fault = none := by
  fun_induction scanGoFrom done cs with
  | case1 => rfl
  | case2 done c cs fault hfault =>
    rcases nextGoToken_eq_error hfault with hopen | rfl
    · exact absurd hopen.isInfix hcomment
    · exact absurd List.mem_cons_self hquote
  | case3 done c cs cut hcut ih =>
    have hsuffix : cut.rest <:+ c :: cs := ⟨cut.taken, (nextGoToken_append hcut).1⟩
    refine ih ?_ ?_
    · exact fun hopen => hcomment (hopen.trans hsuffix.isInfix)
    · exact fun hmem => hquote (hsuffix.subset hmem)

theorem newlines_eq_count (tokens : List Token) :
    newlines tokens = (sourceText tokens).count '\n' := by
  rw [newlines, sourceText, List.count_flatMap]
  rfl

private theorem text_ne_of_mem_pieces {cs : List Char} {t : Token}
    (h : t ∈ (Text.pieces cs).map fun piece => (⟨.text, String.ofList piece⟩ : Token)) :
    t.text ≠ "" := by
  obtain ⟨piece, hpiece, rfl⟩ := List.mem_map.mp h
  obtain ⟨l, -, rfl | ⟨rfl, hne⟩⟩ := Text.mem_pieces hpiece
  · simp
  · simpa using hne

private theorem text_ne_of_mem_tokenize {language : Language} {text : String} {tokens : List Token}
    (h : tokenize language text = .ok tokens) : ∀ t ∈ tokens, t.text ≠ "" := by
  unfold tokenize at h
  split at h
  · cases h
    exact fun t => text_ne_of_mem_pieces
  · simp only at h
    split at h
    · cases h
      exact text_ne_of_mem_scanGoFrom (by simp)
    · cases h

theorem exists_tokenize {language : Language} {text : String}
    (h : language = .go → ¬ ['/', '*'] <:+: text.toList ∧ '\x60' ∉ text.toList) :
    ∃ tokens, tokenize language text = .ok tokens := by
  cases language with
  | plainText => exact ⟨_, rfl⟩
  | go =>
    have hfault : (scanGo text.toList).fault = none := fault_scanGoFrom (h rfl).1 (h rfl).2
    exact ⟨(scanGo text.toList).tokens, by simp only [tokenize, hfault]⟩

/-- Cutting a text into tokens loses nothing and always comes to its end. The tokens are not empty,
they make up the text, and as many lines end in them as in the text; each cut of the lexer takes at
least one byte, no more than there are, up to a boundary between characters; there are no more cuts
than characters; and without a block comment or a raw string, which need not end, every text is
accepted. -/
theorem tokenize_lossless (language : Language) (text : String) :
    (∀ tokens, tokenize language text = .ok tokens →
      (∀ t ∈ tokens, t.text ≠ "") ∧ sourceText tokens = text.toList ∧
        (tokens.map Token.newlines).sum = text.toList.count '\n') ∧
    (∀ c cs cut, nextGoToken c cs = .ok cut →
      let length := (String.ofList cut.taken).utf8ByteSize
      cut.taken ++ cut.rest = c :: cs ∧ cut.rest.length < (c :: cs).length ∧
        1 ≤ length ∧ length ≤ (String.ofList (c :: cs)).utf8ByteSize ∧
        String.Pos.Raw.IsValid (String.ofList (c :: cs)) ⟨length⟩) ∧
    (scanGo text.toList).tokens.length ≤ text.toList.length ∧
    ((language = .go → ¬ ['/', '*'] <:+: text.toList ∧ '\x60' ∉ text.toList) →
      ∃ tokens, tokenize language text = .ok tokens) := by
  refine ⟨?_, ?_, ?_, exists_tokenize⟩
  · intro tokens h
    have hsource := sourceText_tokenize h
    refine ⟨text_ne_of_mem_tokenize h, hsource, ?_⟩
    rw [← hsource]
    exact newlines_eq_count tokens
  · intro c cs cut h
    exact ⟨(nextGoToken_append h).1, length_rest_nextGoToken h, isValid_nextGoToken h⟩
  · simpa [scanGo] using length_scanGoFrom_le [] text.toList

example :
    tokenize .go "😀\n" = .ok [⟨.error, "😀"⟩, ⟨.text, "\n"⟩] ∧
      tokenize .go "x\n/*/" = .error ⟨2, .unterminatedComment⟩ := by
  decide +kernel

end GoroutineDump.Source
