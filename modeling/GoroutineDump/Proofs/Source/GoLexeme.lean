import GoroutineDump.Proofs.Source.Lexeme
import GoroutineDump.Source.Lexer

set_option autoImplicit false
set_option relaxedAutoImplicit false

namespace GoroutineDump.Source

open Lexeme

variable {cs taken rest mark opening closing : List Char}

def EndsFirst (mark text : List Char) : Prop :=
  mark <:+ text ∧ ∀ before after, text = before ++ mark ++ after → after = []

private theorem endsFirst_refl (mark : List Char) : EndsFirst mark mark := by
  refine ⟨List.suffix_rfl, fun before after h => ?_⟩
  have hlength := congrArg List.length h
  simp only [List.length_append] at hlength
  exact List.length_eq_zero_iff.mp (by omega)

private theorem endsFirst_cons_iff {c : Char} (h : ¬ mark <+: c :: taken) :
    EndsFirst mark (c :: taken) ↔ EndsFirst mark taken := by
  constructor
  · rintro ⟨hends, hfirst⟩
    refine ⟨(List.suffix_cons_iff.mp hends).resolve_left ?_, fun before after htaken => ?_⟩
    · rintro rfl
      exact h List.prefix_rfl
    · exact hfirst (c :: before) after (by rw [htaken]; rfl)
  · rintro ⟨hends, hfirst⟩
    refine ⟨hends.trans (List.suffix_cons c taken), fun before after htaken => ?_⟩
    cases before with
    | nil => exact absurd ⟨after, htaken.symm⟩ h
    | cons d before => exact hfirst before after (List.cons.inj htaken).2

private theorem EndsFirst.ne_nil (h : EndsFirst mark taken) (hmark : mark ≠ []) : taken ≠ [] := by
  rintro rfl
  exact hmark (List.suffix_nil.mp h.1)

private theorem throughMark?_eq_some_iff (hmark : mark ≠ []) :
    throughMark? mark cs = some (taken, rest) ↔ EndsFirst mark taken ∧ taken ++ rest = cs := by
  induction cs generalizing taken with
  | nil =>
    simp only [throughMark?, reduceCtorEq, false_iff, not_and, List.append_eq_nil_iff]
    exact fun hends hnil => absurd hnil (hends.ne_nil hmark)
  | cons c cs ih =>
    cases hhere : mark.isPrefixOf? (c :: cs) with
    | some after =>
      have happend := Text.append_eq_of_isPrefixOf? hhere
      simp only [throughMark?, hhere, Option.some.injEq, Prod.mk.injEq]
      constructor
      · rintro ⟨rfl, rfl⟩
        exact ⟨endsFirst_refl mark, happend⟩
      · rintro ⟨⟨hends, hfirst⟩, hcs⟩
        obtain ⟨more, rfl⟩ : mark <+: taken :=
          List.prefix_of_prefix_length_le ⟨after, happend⟩ ⟨rest, hcs⟩ hends.length_le
        obtain rfl := hfirst [] more rfl
        rw [List.append_nil] at hcs ⊢
        exact ⟨rfl, List.append_cancel_left (happend.trans hcs.symm)⟩
    | none =>
      have hnot : ¬ mark <+: c :: cs := Text.isPrefixOf?_eq_none_iff.mp hhere
      simp only [throughMark?, hhere, Option.map_eq_some_iff, Prod.mk.injEq, Prod.exists]
      constructor
      · rintro ⟨before, after, hbefore, rfl, rfl⟩
        obtain ⟨hends, rfl⟩ := ih.mp hbefore
        have hnot' : ¬ mark <+: c :: before := fun hpre => hnot (hpre.trans ⟨after, rfl⟩)
        exact ⟨(endsFirst_cons_iff hnot').mpr hends, rfl⟩
      · rintro ⟨hends, hcs⟩
        obtain ⟨d, before, rfl⟩ := List.exists_cons_of_ne_nil (hends.ne_nil hmark)
        obtain ⟨rfl, rfl⟩ := List.cons.inj hcs
        have hnot' : ¬ mark <+: d :: before := fun hpre => hnot (hpre.trans ⟨rest, rfl⟩)
        exact ⟨before, rest, ih.mpr ⟨(endsFirst_cons_iff hnot').mp hends, rfl⟩, rfl, rfl⟩

private theorem throughMark?_eq_none_iff (hmark : mark ≠ []) :
    throughMark? mark cs = none ↔ ¬ mark <:+: cs := by
  induction cs with
  | nil => simpa [throughMark?] using hmark
  | cons c cs ih =>
    rw [List.infix_cons_iff, not_or, ← ih]
    cases hhere : mark.isPrefixOf? (c :: cs) with
    | some after =>
      have hpre : mark <+: c :: cs := ⟨after, Text.append_eq_of_isPrefixOf? hhere⟩
      simp [throughMark?, hhere, hpre]
    | none =>
      have hnot : ¬ mark <+: c :: cs := Text.isPrefixOf?_eq_none_iff.mp hhere
      simp [throughMark?, hhere, hnot]

theorem read_bracketed_iff (hclosing : closing ≠ []) :
    (bracketed opening closing).read cs = some (taken, rest) ↔
      (∃ inner, taken = opening ++ inner ∧ EndsFirst closing inner) ∧ taken ++ rest = cs := by
  simp only [bracketed, read_andThen_iff, read_exactly_iff, throughMark?_eq_some_iff hclosing]
  constructor
  · rintro ⟨first, middle, inner, ⟨rfl, rfl⟩, ⟨hends, rfl⟩, rfl⟩
    exact ⟨⟨inner, rfl, hends⟩, List.append_assoc first inner rest⟩
  · rintro ⟨⟨inner, rfl, hends⟩, rfl⟩
    exact ⟨opening, inner ++ rest, inner, ⟨rfl, (List.append_assoc _ _ _).symm⟩, ⟨hends, rfl⟩, rfl⟩

theorem read_bracketed_eq_none_iff (hclosing : closing ≠ []) :
    (bracketed opening closing).read (opening ++ rest) = none ↔ ¬ closing <:+: rest := by
  have hopen : (exactly opening).read (opening ++ rest) = some (opening, rest) :=
    read_exactly_iff.mpr ⟨rfl, rfl⟩
  rw [bracketed, read_andThen_of_read hopen, Option.map_eq_none_iff]
  exact throughMark?_eq_none_iff hclosing

theorem bracketed_isLocal (hclosing : closing ≠ []) : (bracketed opening closing).IsLocal :=
  (isSteady_of_read_iff (read_bracketed_iff hclosing)).toIsLocal

namespace GoLexeme

/-- The inside of a string, read from the front: a backslash takes the next character with it, and no
quotation mark stands by itself. Nothing of it is a line feed. -/
inductive IsQuoted : List Char → Prop
  | nil : IsQuoted []
  | plain {c : Char} {cs : List Char} : c ≠ '\x22' → c ≠ '\\' → c ≠ '\n' → IsQuoted cs →
      IsQuoted (c :: cs)
  | escaped {c : Char} {cs : List Char} : c ≠ '\n' → IsQuoted cs → IsQuoted ('\\' :: c :: cs)

private theorem IsQuoted.notMem_lineFeed {body : List Char} (h : IsQuoted body) : '\n' ∉ body := by
  induction h with
  | nil => exact List.not_mem_nil
  | plain _ _ hline _ ih => simp [ih, hline.symm]
  | escaped hline _ ih => simp [ih, hline.symm]

private theorem isQuoted_stringBody (cs : List Char) : IsQuoted (stringBody cs).1 := by
  fun_induction stringBody cs with
  | case1 => exact .nil
  | case2 => exact .nil
  | case3 => exact .nil
  | case4 c cs hline body after hbody ih =>
    rw [hbody] at ih
    exact .escaped hline ih
  | case5 => exact .nil
  | case6 c cs hescape hmark body after hbody ih =>
    rw [not_or] at hmark
    rw [hbody] at ih
    exact .plain hmark.1 hescape hmark.2 ih

private theorem IsQuoted.stringBody_eq {body : List Char} (h : IsQuoted body) (rest : List Char) :
    stringBody (body ++ '\x22' :: rest) = (body, '\x22' :: rest) := by
  induction h with
  | nil => simp [stringBody]
  | plain hmark _ hline _ ih => simp [stringBody, hmark, hline, ih]
  | escaped hline _ ih => simp [stringBody, hline, ih]

theorem read_stringLiteral_iff :
    stringLiteral.read cs = some (taken, rest) ↔
      (∃ body, IsQuoted body ∧ taken = '\x22' :: (body ++ ['\x22'])) ∧ taken ++ rest = cs := by
  simp only [stringLiteral, read_andThen_iff, read_exactly_iff, Option.some.injEq]
  constructor
  · intro h
    obtain ⟨_, _, _, ⟨_, middle, body, ⟨rfl, rfl⟩, hbody, rfl⟩, ⟨rfl, rfl⟩, rfl⟩ := h
    have hinside := isQuoted_stringBody middle
    have happend := stringBody_append middle
    rw [hbody] at hinside happend
    exact ⟨⟨body, hinside, rfl⟩, by rw [← happend]; simp⟩
  · rintro ⟨⟨body, hbody, rfl⟩, rfl⟩
    refine ⟨'\x22' :: body, '\x22' :: rest, ['\x22'], ?_, ⟨rfl, rfl⟩, rfl⟩
    refine ⟨['\x22'], body ++ '\x22' :: rest, body, ⟨rfl, by simp⟩, hbody.stringBody_eq rest, rfl⟩

private theorem charLiteral_isLocal : charLiteral.IsLocal := by
  have hescape : ((exactly ['\\']).andThen ((one (· != '\n')).andThen
      (many fun c => c != '\x27' && c != '\n'))).IsSteady :=
    andThen_isSteady (exactly_isSteady _) (andThen_isSteady (one_isSteady _) (many_isSteady _))
  refine andThen_isLocal (andThen_isSteady (exactly_isSteady _) (orElse_isSteady hescape
    (one_isSteady _) fun {cs back taken rest} h _ => .inl ?_)) (exactly_isSteady _).toIsLocal
  -- A text that goes on with a backslash has no beginning that is a plain character.
  obtain ⟨first, middle, second, hfirst, -, rfl⟩ := read_andThen_iff.mp h
  obtain ⟨rfl, happend⟩ := read_exactly_iff.mp hfirst
  cases cs with
  | nil => rfl
  | cons c cs =>
    obtain rfl := (List.cons.inj happend).1
    rfl

private theorem basedNumber_isLocal (mark digit : Char → Bool) : (basedNumber mark digit).IsLocal :=
  andThen_isLocal (exactly_isSteady _)
    (andThen_isLocal (one_isSteady _) (some1_isSteady _).toIsLocal)

private theorem groupedDigits_isSteady : groupedDigits.IsSteady :=
  andThen_isSteady (one_isSteady _) (many_isSteady _)

private theorem andThen_imaginary_isLocal {a : Lexeme} (h : a.IsLocal) :
    (a.andThen imaginary).IsLocal :=
  andThen_isLocal_of_isSome h (optional_isLocal (exactly_isSteady _).toIsLocal)
    isSome_read_optional

private theorem exponent_isLocal : exponent.IsLocal :=
  andThen_isLocal (one_isSteady _)
    (andThen_isLocal (optional_one_isSteady _) (some1_isSteady _).toIsLocal)

private theorem floatNumber_isLocal : floatNumber.IsLocal := by
  refine andThen_imaginary_isLocal (firstOf_isLocal ?_)
  simp only [List.forall_mem_cons, List.not_mem_nil, false_imp_iff, implies_true, and_true]
  refine ⟨?_, ?_, ?_⟩
  · exact andThen_isLocal groupedDigits_isSteady (andThen_isLocal (exactly_isSteady _)
      (andThen_isLocal (many_isSteady _) (optional_isLocal exponent_isLocal)))
  · exact andThen_isLocal (exactly_isSteady _)
      (andThen_isLocal groupedDigits_isSteady (optional_isLocal exponent_isLocal))
  · exact andThen_isLocal groupedDigits_isSteady exponent_isLocal

private theorem operator_isLocal : operator.IsLocal := by
  refine orElse_isLocal (firstOf_isLocal fun long hlong => ?_) (one_isSteady _).toIsLocal
  obtain ⟨word, -, rfl⟩ := List.mem_map.mp hlong
  exact (exactly_isSteady _).toIsLocal

theorem name_isLocal : name.IsLocal := andThen_isLocal (one_isSteady _) (many_isSteady _).toIsLocal

end GoLexeme

/-- No rule looks behind what it takes. -/
theorem goRules_isLocal : ∀ rule ∈ goRules, rule.1.IsLocal := by
  simp only [goRules, List.forall_mem_cons, List.not_mem_nil, false_imp_iff, implies_true, and_true]
  refine ⟨(some1_isSteady _).toIsLocal, ?_, GoLexeme.charLiteral_isLocal, ?_, ?_, ?_, ?_,
    GoLexeme.floatNumber_isLocal, ?_, GoLexeme.operator_isLocal, (one_isSteady _).toIsLocal⟩
  · exact andThen_isLocal (exactly_isSteady _) (many_isSteady _).toIsLocal
  · exact (isSteady_of_read_iff GoLexeme.read_stringLiteral_iff).toIsLocal
  · exact GoLexeme.andThen_imaginary_isLocal (GoLexeme.basedNumber_isLocal _ _)
  · exact GoLexeme.basedNumber_isLocal _ _
  · exact GoLexeme.basedNumber_isLocal _ _
  · exact GoLexeme.andThen_imaginary_isLocal GoLexeme.groupedDigits_isSteady.toIsLocal

namespace GoLexeme

theorem name_avoids : name.Avoids '\n' :=
  andThen_avoids (one_avoids (by decide)) (many_avoids (by decide))

private theorem charLiteral_avoids : charLiteral.Avoids '\n' := by
  have hmark : (exactly ['\x27']).Avoids '\n' := exactly_avoids (by decide)
  refine andThen_avoids (andThen_avoids hmark (orElse_avoids ?_ (one_avoids rfl))) hmark
  exact andThen_avoids (exactly_avoids (by decide)) (andThen_avoids (one_avoids rfl)
    (many_avoids rfl))

private theorem stringLiteral_avoids : stringLiteral.Avoids '\n' := by
  intro cs taken rest h
  obtain ⟨⟨body, hbody, rfl⟩, -⟩ := read_stringLiteral_iff.mp h
  simp [hbody.notMem_lineFeed]

private theorem basedNumber_avoids {mark digit : Char → Bool} (hmark : mark '\n' = false)
    (hdigit : digit '\n' = false) : (basedNumber mark digit).Avoids '\n' :=
  andThen_avoids (exactly_avoids (by decide))
    (andThen_avoids (one_avoids hmark) (some1_avoids (by simp [hdigit])))

private theorem imaginary_avoids : imaginary.Avoids '\n' :=
  optional_avoids (exactly_avoids (by decide))

private theorem groupedDigits_avoids : groupedDigits.Avoids '\n' :=
  andThen_avoids (one_avoids (by decide)) (many_avoids (by decide))

private theorem exponent_avoids : exponent.Avoids '\n' :=
  andThen_avoids (one_avoids rfl)
    (andThen_avoids (optional_avoids (one_avoids rfl)) (some1_avoids (by decide)))

private theorem floatNumber_avoids : floatNumber.Avoids '\n' := by
  refine andThen_avoids (firstOf_avoids ?_) imaginary_avoids
  have hpoint : (exactly ['.']).Avoids '\n' := exactly_avoids (by decide)
  have hexponent : exponent.optional.Avoids '\n' := optional_avoids exponent_avoids
  intro form hform
  simp only [List.mem_cons, List.not_mem_nil, or_false] at hform
  rcases hform with rfl | rfl | rfl
  · exact andThen_avoids groupedDigits_avoids
      (andThen_avoids hpoint (andThen_avoids (many_avoids (by decide)) hexponent))
  · exact andThen_avoids hpoint (andThen_avoids groupedDigits_avoids hexponent)
  · exact andThen_avoids groupedDigits_avoids exponent_avoids

private theorem operator_avoids : operator.Avoids '\n' := by
  refine orElse_avoids (firstOf_avoids fun long hlong => ?_) (one_avoids (by decide))
  have hwords : ∀ word ∈ longOperators, '\n' ∉ word.toList := by decide
  obtain ⟨word, hword, rfl⟩ := List.mem_map.mp hlong
  exact @exactly_avoids '\n' word.toList (hwords word hword)

end GoLexeme

/-- No rule but the one for white space takes a line feed. -/
theorem goRules_avoids : ∀ rule ∈ goRules, rule.2 ≠ .text → rule.1.Avoids '\n' := by
  intro rule hrule hclass
  simp only [goRules, List.mem_cons, List.not_mem_nil, or_false] at hrule
  rcases hrule with rfl | rfl | rfl | rfl | rfl | rfl | rfl | rfl | rfl | rfl | rfl
  · exact absurd rfl hclass
  · exact andThen_avoids (exactly_avoids (by decide)) (many_avoids rfl)
  · exact GoLexeme.charLiteral_avoids
  · exact GoLexeme.stringLiteral_avoids
  · exact andThen_avoids (GoLexeme.basedNumber_avoids rfl (by decide)) GoLexeme.imaginary_avoids
  · exact GoLexeme.basedNumber_avoids rfl rfl
  · exact GoLexeme.basedNumber_avoids rfl (by decide)
  · exact GoLexeme.floatNumber_avoids
  · exact andThen_avoids GoLexeme.groupedDigits_avoids GoLexeme.imaginary_avoids
  · exact GoLexeme.operator_avoids
  · exact one_avoids (by decide)

end GoroutineDump.Source
