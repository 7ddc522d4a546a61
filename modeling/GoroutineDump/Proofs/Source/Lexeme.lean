import GoroutineDump.Proofs.Text
import GoroutineDump.Source.Lexeme

/-!
A lexeme is local when what it takes does not depend on the text behind. Lexemes that are put
together from local ones need not be local: cut short, the first part may stop earlier and let the
second one in. It is enough that the first part is steady: cut off in the middle, it takes all there
is or nothing.
-/

set_option autoImplicit false
set_option relaxedAutoImplicit false

namespace GoroutineDump.Source.Lexeme

variable {cs back taken rest : List Char} {a b : Lexeme}

theorem read_one_iff {p : Char → Bool} :
    (one p).read cs = some (taken, rest) ↔ (∃ c, p c = true ∧ taken = [c]) ∧ taken ++ rest = cs := by
  cases cs with
  | nil =>
    simp only [one, reduceCtorEq, false_iff]
    rintro ⟨⟨c, -, rfl⟩, hcs⟩
    cases hcs
  | cons c cs =>
    by_cases hc : p c = true
    · simp only [one, if_pos hc, Option.some.injEq, Prod.mk.injEq]
      constructor
      · rintro ⟨rfl, rfl⟩
        exact ⟨⟨c, hc, rfl⟩, rfl⟩
      · rintro ⟨⟨d, -, rfl⟩, hcs⟩
        simp_all
    · simp only [one, if_neg hc, reduceCtorEq, false_iff, not_and]
      rintro ⟨d, hd, rfl⟩ hcs
      exact hc (List.cons.inj hcs |>.1 ▸ hd)

theorem read_exactly_iff {word : List Char} :
    (exactly word).read cs = some (taken, rest) ↔ taken = word ∧ taken ++ rest = cs := by
  simp only [exactly, Option.map_eq_some_iff, Prod.mk.injEq, Text.isPrefixOf?_eq_some_iff]
  constructor
  · rintro ⟨r, hr, rfl, rfl⟩
    exact ⟨rfl, hr⟩
  · rintro ⟨rfl, hcs⟩
    exact ⟨rest, hcs, rfl, rfl⟩

theorem read_many_iff {p : Char → Bool} :
    (many p).read cs = some (taken, rest) ↔
      taken ++ rest = cs ∧ (∀ c ∈ taken, p c = true) ∧ ∀ c, rest.head? = some c → p c = false := by
  constructor
  · intro h
    refine ⟨(many p).lossless h, ?_⟩
    simp only [many, Option.some.injEq, Prod.mk.injEq] at h
    obtain ⟨rfl, rfl⟩ := h
    refine ⟨List.all_eq_true.mp List.all_takeWhile, fun c hc => ?_⟩
    have hstop := List.head?_dropWhile_not p cs
    rw [hc] at hstop
    simpa using hstop
  · rintro ⟨rfl, htaken, hrest⟩
    have hspan := Text.span_append htaken hrest
    rw [List.span_eq_takeWhile_dropWhile] at hspan
    exact congrArg some hspan

theorem read_andThen_iff :
    (a.andThen b).read cs = some (taken, rest) ↔
      ∃ first middle second, a.read cs = some (first, middle) ∧
        b.read middle = some (second, rest) ∧ taken = first ++ second := by
  simp only [andThen, Option.bind_eq_bind, Option.bind_eq_some_iff, Prod.exists, Option.pure_def,
    Option.some.injEq, Prod.mk.injEq]
  constructor
  · rintro ⟨first, middle, ha, second, last, hb, rfl, rfl⟩
    exact ⟨first, middle, second, ha, hb, rfl⟩
  · rintro ⟨first, middle, second, ha, hb, rfl⟩
    exact ⟨first, middle, ha, second, rest, hb, rfl, rfl⟩

theorem read_andThen_of_read {first middle : List Char} (h : a.read cs = some (first, middle)) :
    (a.andThen b).read cs = (b.read middle).map fun found => (first ++ found.1, found.2) := by
  cases hb : b.read middle <;> simp [andThen, h, hb]

private theorem read_andThen_of_none (h : a.read cs = none) : (a.andThen b).read cs = none := by
  simp [andThen, h]

private theorem read_append_cases (h : a.read (cs ++ back) = some (taken, rest)) :
    (∃ r, rest = r ++ back ∧ taken ++ r = cs) ∨ rest.length < back.length := by
  rcases List.append_eq_append_iff.mp (a.lossless h) with ⟨r, hcs, hrest⟩ | ⟨more, htaken, hback⟩
  · exact .inl ⟨r, hrest, hcs.symm⟩
  · cases more with
    | nil => exact .inl ⟨[], by simpa using hback.symm, by simpa using htaken⟩
    | cons c more =>
      right
      rw [hback, List.length_append, List.length_cons]
      omega

/-- What is taken does not depend on the text behind it: it is taken as well where the text is cut
off behind it, and a text that is refused has no beginning that is taken from. -/
structure IsLocal (a : Lexeme) : Prop where
  cut : ∀ {cs back taken rest}, a.read (cs ++ back) = some (taken, rest ++ back) →
    a.read cs = some (taken, rest)
  refused : ∀ {cs back}, a.read (cs ++ back) = none → a.read cs = none

/-- Cut off inside of what is taken, the text is taken as a whole or refused. -/
structure IsSteady (a : Lexeme) : Prop extends IsLocal a where
  short : ∀ {cs back taken rest}, a.read (cs ++ back) = some (taken, rest) →
    rest.length < back.length → a.read cs = none ∨ a.read cs = some (cs, [])

theorem isSteady_of_read_iff {p : List Char → Prop}
    (h : ∀ {cs taken rest}, a.read cs = some (taken, rest) ↔ p taken ∧ taken ++ rest = cs) :
    a.IsSteady := by
  have hextend {cs back taken rest : List Char} (hread : a.read cs = some (taken, rest)) :
      a.read (cs ++ back) = some (taken, rest ++ back) := by
    obtain ⟨htaken, rfl⟩ := h.mp hread
    exact h.mpr ⟨htaken, (List.append_assoc taken rest back).symm⟩
  refine ⟨⟨fun {cs back taken rest} hread => ?_, fun {cs back} hnone => ?_⟩,
    fun {cs back taken rest} hread hshort => .inl ?_⟩
  · obtain ⟨htaken, happend⟩ := h.mp hread
    rw [← List.append_assoc] at happend
    exact h.mpr ⟨htaken, List.append_cancel_right happend⟩
  · cases hread : a.read cs with
    | none => rfl
    | some found => rw [hextend hread] at hnone; cases hnone
  · cases hcs : a.read cs with
    | none => rfl
    | some found =>
      rw [hextend hcs, Option.some.injEq, Prod.mk.injEq] at hread
      rw [← hread.2, List.length_append] at hshort
      omega

theorem one_isSteady (p : Char → Bool) : (one p).IsSteady := isSteady_of_read_iff read_one_iff

theorem exactly_isSteady (word : List Char) : (exactly word).IsSteady :=
  isSteady_of_read_iff read_exactly_iff

theorem many_isSteady (p : Char → Bool) : (many p).IsSteady := by
  refine ⟨⟨fun {cs back taken rest} hread => ?_, fun hnone => ?_⟩,
    fun {cs back taken rest} hread hshort => .inr ?_⟩
  · obtain ⟨happend, htaken, hrest⟩ := read_many_iff.mp hread
    rw [← List.append_assoc] at happend
    refine read_many_iff.mpr ⟨List.append_cancel_right happend, htaken, fun c hc => hrest c ?_⟩
    rw [List.head?_append, hc, Option.some_or]
  · cases hnone
  · obtain ⟨happend, htaken, -⟩ := read_many_iff.mp hread
    have htakes : cs <+: taken := by
      refine List.prefix_of_prefix_length_le ⟨back, rfl⟩ ⟨rest, happend⟩ ?_
      have hlength := congrArg List.length happend
      rw [List.length_append, List.length_append] at hlength
      omega
    exact read_many_iff.mpr ⟨List.append_nil cs, fun c hc => htaken c (htakes.subset hc), by simp⟩

private theorem read_andThen_cut (ha : a.IsLocal) (hb : b.IsLocal)
    (h : (a.andThen b).read (cs ++ back) = some (taken, rest ++ back)) :
    (a.andThen b).read cs = some (taken, rest) := by
  obtain ⟨first, middle, second, hfirst, hsecond, rfl⟩ := read_andThen_iff.mp h
  have hlength := b.length_rest_le hsecond
  rw [List.length_append] at hlength
  obtain ⟨m, rfl, -⟩ := (read_append_cases hfirst).resolve_right (by omega)
  exact read_andThen_iff.mpr ⟨first, m, second, ha.cut hfirst, hb.cut hsecond, rfl⟩

theorem andThen_isLocal (ha : a.IsSteady) (hb : b.IsLocal) : (a.andThen b).IsLocal := by
  refine ⟨read_andThen_cut ha.toIsLocal hb, fun {cs back} h => ?_⟩
  cases hfirst : a.read (cs ++ back) with
  | none => exact read_andThen_of_none (ha.refused hfirst)
  | some found =>
    obtain ⟨first, middle⟩ := found
    rw [read_andThen_of_read hfirst, Option.map_eq_none_iff] at h
    rcases read_append_cases hfirst with ⟨m, rfl, -⟩ | hshort
    · rw [read_andThen_of_read (ha.cut hfirst), hb.refused h, Option.map_none]
    · -- Cut short, the first lexeme leaves nothing, and nothing is a beginning of every text.
      rcases ha.short hfirst hshort with hrefused | hwhole
      · exact read_andThen_of_none hrefused
      · rw [read_andThen_of_read hwhole, hb.refused (List.nil_append middle ▸ h), Option.map_none]

theorem andThen_isSteady (ha : a.IsSteady) (hb : b.IsSteady) : (a.andThen b).IsSteady := by
  refine ⟨andThen_isLocal ha hb.toIsLocal, fun {cs back taken rest} h hshort => ?_⟩
  obtain ⟨first, middle, second, hfirst, hsecond, rfl⟩ := read_andThen_iff.mp h
  rcases read_append_cases hfirst with ⟨m, rfl, rfl⟩ | hfirstShort
  · rw [read_andThen_of_read (ha.cut hfirst)]
    rcases hb.short hsecond hshort with hrefused | hwhole
    · exact .inl (by rw [hrefused, Option.map_none])
    · exact .inr (by rw [hwhole, Option.map_some])
  · rcases ha.short hfirst hfirstShort with hrefused | hwhole
    · exact .inl (read_andThen_of_none hrefused)
    · rw [read_andThen_of_read hwhole]
      cases hnil : b.read [] with
      | none => exact .inl rfl
      | some found =>
        obtain ⟨second, rest⟩ := found
        obtain ⟨rfl, rfl⟩ := List.append_eq_nil_iff.mp (b.lossless hnil)
        exact .inr (by rw [Option.map_some, List.append_nil])

theorem andThen_isLocal_of_isSome (ha : a.IsLocal) (hb : b.IsLocal)
    (hsome : ∀ cs, (b.read cs).isSome = true) : (a.andThen b).IsLocal := by
  refine ⟨read_andThen_cut ha hb, fun {cs back} h => ?_⟩
  cases hfirst : a.read (cs ++ back) with
  | none => exact read_andThen_of_none (ha.refused hfirst)
  | some found =>
    obtain ⟨first, middle⟩ := found
    rw [read_andThen_of_read hfirst, Option.map_eq_none_iff] at h
    exact absurd (hsome middle) (by simp [h])

theorem orElse_isLocal (ha : a.IsLocal) (hb : b.IsLocal) : (a.orElse b).IsLocal := by
  constructor
  case cut =>
    intro cs back taken rest h
    rcases Option.or_eq_some_iff.mp h with hfirst | ⟨hnone, hsecond⟩
    · exact Option.or_eq_some_iff.mpr (.inl (ha.cut hfirst))
    · exact Option.or_eq_some_iff.mpr (.inr ⟨ha.refused hnone, hb.cut hsecond⟩)
  case refused =>
    intro cs back h
    obtain ⟨hfirst, hsecond⟩ := Option.or_eq_none_iff.mp h
    exact Option.or_eq_none_iff.mpr ⟨ha.refused hfirst, hb.refused hsecond⟩

theorem orElse_isSteady (ha : a.IsSteady) (hb : b.IsSteady)
    (hother : ∀ {cs back taken rest}, a.read (cs ++ back) = some (taken, rest) →
      rest.length < back.length → b.read cs = none ∨ b.read cs = some (cs, [])) :
    (a.orElse b).IsSteady := by
  refine ⟨orElse_isLocal ha.toIsLocal hb.toIsLocal, fun {cs back taken rest} h hshort => ?_⟩
  have hread : (a.orElse b).read cs = (a.read cs).or (b.read cs) := rfl
  rcases Option.or_eq_some_iff.mp h with hfirst | ⟨hnone, hsecond⟩
  · rcases ha.short hfirst hshort with hrefused | hwhole
    · rw [hread, hrefused, Option.none_or]
      exact hother hfirst hshort
    · exact .inr (by rw [hread, hwhole, Option.some_or])
  · rw [hread, ha.refused hnone, Option.none_or]
    exact hb.short hsecond hshort

theorem isSome_read_optional (cs : List Char) : (a.optional.read cs).isSome = true := by
  have hnil : (exactly []).read cs = some ([], cs) := read_exactly_iff.mpr ⟨rfl, rfl⟩
  have hread : a.optional.read cs = (a.read cs).or ((exactly []).read cs) := rfl
  rw [hread, hnil, Option.isSome_or, Option.isSome_some, Bool.or_true]

theorem optional_isLocal (ha : a.IsLocal) : a.optional.IsLocal :=
  orElse_isLocal ha (exactly_isSteady []).toIsLocal

theorem optional_one_isSteady (p : Char → Bool) : (one p).optional.IsSteady := by
  refine orElse_isSteady (one_isSteady p) (exactly_isSteady []) fun {cs back taken rest} h hshort => ?_
  obtain ⟨⟨c, -, rfl⟩, happend⟩ := read_one_iff.mp h
  have hlength := congrArg List.length happend
  simp only [List.length_append, List.length_singleton] at hlength
  obtain rfl : cs = [] := List.length_eq_zero_iff.mp (by omega)
  exact .inr rfl

theorem some1_isSteady (p : Char → Bool) : (some1 p).IsSteady :=
  andThen_isSteady (one_isSteady p) (many_isSteady p)

theorem firstOf_isLocal {as : List Lexeme} (h : ∀ a ∈ as, a.IsLocal) : (firstOf as).IsLocal := by
  induction as with
  | nil =>
    refine ⟨fun hread => ?_, fun _ => rfl⟩
    cases hread
  | cons a as ih =>
    rw [List.forall_mem_cons] at h
    exact orElse_isLocal h.1 (ih h.2)

def Avoids (a : Lexeme) (x : Char) : Prop :=
  ∀ ⦃cs taken rest⦄, a.read cs = some (taken, rest) → x ∉ taken

variable {x : Char}

theorem one_avoids {p : Char → Bool} (hx : p x = false) : (one p).Avoids x := by
  intro cs taken rest h
  obtain ⟨⟨c, hc, rfl⟩, -⟩ := read_one_iff.mp h
  rw [List.mem_singleton]
  rintro rfl
  rw [hx] at hc
  cases hc

theorem many_avoids {p : Char → Bool} (hx : p x = false) : (many p).Avoids x := by
  intro cs taken rest h hmem
  have hp := (read_many_iff.mp h).2.1 x hmem
  rw [hx] at hp
  cases hp

theorem exactly_avoids {word : List Char} (hx : x ∉ word) : (exactly word).Avoids x := by
  intro cs taken rest h
  rwa [(read_exactly_iff.mp h).1]

theorem andThen_avoids (ha : a.Avoids x) (hb : b.Avoids x) : (a.andThen b).Avoids x := by
  intro cs taken rest h
  obtain ⟨first, middle, second, hfirst, hsecond, rfl⟩ := read_andThen_iff.mp h
  rw [List.mem_append, not_or]
  exact ⟨ha hfirst, hb hsecond⟩

theorem orElse_avoids (ha : a.Avoids x) (hb : b.Avoids x) : (a.orElse b).Avoids x := by
  intro cs taken rest h
  rcases Option.or_eq_some_iff.mp h with hfirst | ⟨-, hsecond⟩
  · exact ha hfirst
  · exact hb hsecond

theorem optional_avoids (ha : a.Avoids x) : a.optional.Avoids x :=
  orElse_avoids ha (exactly_avoids List.not_mem_nil)

theorem some1_avoids {p : Char → Bool} (hx : p x = false) : (some1 p).Avoids x :=
  andThen_avoids (one_avoids hx) (many_avoids hx)

theorem firstOf_avoids {as : List Lexeme} (h : ∀ a ∈ as, a.Avoids x) : (firstOf as).Avoids x := by
  induction as with
  | nil =>
    intro cs taken rest hread
    cases hread
  | cons a as ih =>
    exact orElse_avoids (h a List.mem_cons_self) (ih fun b hb => h b (List.mem_cons_of_mem a hb))

end GoroutineDump.Source.Lexeme
