import GoroutineDump.Text

/-!
A reader either does not apply or splits the text in two, the lexeme and the rest. That the two make
up the text is part of a reader, so whatever is put together from readers loses nothing.
-/

set_option autoImplicit false
set_option relaxedAutoImplicit false

namespace GoroutineDump.Source

/-- A way to read a lexeme off the front of a text. -/
structure Lexeme where
  read : List Char → Option (List Char × List Char)
  lossless : ∀ {cs taken rest}, read cs = some (taken, rest) → taken ++ rest = cs

namespace Lexeme

def one (p : Char → Bool) : Lexeme where
  read
    | [] => none
    | c :: cs => if p c then some ([c], cs) else none
  lossless {cs taken rest} h := by
    cases cs with
    | nil => simp at h
    | cons c cs =>
      by_cases hp : p c
      · simp only [hp, if_true, Option.some.injEq, Prod.mk.injEq] at h
        obtain ⟨rfl, rfl⟩ := h
        rfl
      · simp [hp] at h

def many (p : Char → Bool) : Lexeme where
  read cs := some (cs.takeWhile p, cs.dropWhile p)
  lossless {cs taken rest} h := by
    simp only [Option.some.injEq, Prod.mk.injEq] at h
    obtain ⟨rfl, rfl⟩ := h
    exact List.takeWhile_append_dropWhile

def exactly (word : List Char) : Lexeme where
  read cs := (word.isPrefixOf? cs).map (word, ·)
  lossless {cs taken rest} h := by
    obtain ⟨r, hr, he⟩ := Option.map_eq_some_iff.mp h
    simp only [Prod.mk.injEq] at he
    obtain ⟨rfl, rfl⟩ := he
    exact Text.append_eq_of_isPrefixOf? hr

def andThen (a b : Lexeme) : Lexeme where
  read cs := do
    let (first, middle) ← a.read cs
    let (second, rest) ← b.read middle
    return (first ++ second, rest)
  lossless {cs taken rest} h := by
    simp only [Option.bind_eq_bind, Option.bind_eq_some_iff, Prod.exists, Option.pure_def,
      Option.some.injEq, Prod.mk.injEq] at h
    obtain ⟨first, middle, ha, second, last, hb, rfl, rfl⟩ := h
    rw [List.append_assoc, b.lossless hb, a.lossless ha]

def orElse (a b : Lexeme) : Lexeme where
  read cs := (a.read cs).or (b.read cs)
  lossless {cs taken rest} h := by
    cases ha : a.read cs with
    | none => rw [ha, Option.none_or] at h; exact b.lossless h
    | some found => rw [ha, Option.some_or] at h; exact a.lossless (ha.trans h)

def optional (a : Lexeme) : Lexeme := a.orElse (exactly [])

def some1 (p : Char → Bool) : Lexeme := (one p).andThen (many p)

def firstOf : List Lexeme → Lexeme
  | [] => ⟨fun _ => none, fun h => by simp at h⟩
  | a :: as => a.orElse (firstOf as)

/-- A lexeme that never takes the empty text. -/
def Proper (a : Lexeme) : Prop := ∀ {cs taken rest}, a.read cs = some (taken, rest) → taken ≠ []

theorem one_proper (p : Char → Bool) : (one p).Proper := by
  intro cs taken rest h
  cases cs with
  | nil => simp [one] at h
  | cons c cs =>
    by_cases hp : p c
    · simp only [one, hp, if_true, Option.some.injEq, Prod.mk.injEq] at h
      simp [← h.1]
    · simp [one, hp] at h

theorem exactly_proper {word : List Char} (hw : word ≠ []) : (exactly word).Proper := by
  intro cs taken rest h
  obtain ⟨r, _, he⟩ := Option.map_eq_some_iff.mp h
  simp only [Prod.mk.injEq] at he
  exact he.1 ▸ hw

theorem andThen_proper {a : Lexeme} (b : Lexeme) (ha : a.Proper) : (a.andThen b).Proper := by
  intro cs taken rest h
  simp only [andThen, Option.bind_eq_bind, Option.bind_eq_some_iff, Prod.exists,
    Option.pure_def, Option.some.injEq, Prod.mk.injEq] at h
  obtain ⟨first, middle, hf, second, last, _, rfl, _⟩ := h
  simp [ha hf]

theorem some1_proper (p : Char → Bool) : (some1 p).Proper := andThen_proper _ (one_proper p)

theorem orElse_proper {a b : Lexeme} (ha : a.Proper) (hb : b.Proper) : (a.orElse b).Proper := by
  intro cs taken rest h
  rcases Option.or_eq_some_iff.mp h with hfirst | ⟨-, hsecond⟩
  · exact ha hfirst
  · exact hb hsecond

theorem firstOf_proper {as : List Lexeme} (h : ∀ a ∈ as, a.Proper) : (firstOf as).Proper := by
  induction as with
  | nil =>
    intro cs taken rest hread
    cases hread
  | cons a as ih =>
    exact orElse_proper (h a List.mem_cons_self) (ih fun b hb => h b (List.mem_cons_of_mem a hb))

theorem length_rest_le (a : Lexeme) {cs taken rest : List Char}
    (h : a.read cs = some (taken, rest)) : rest.length ≤ cs.length := by
  rw [← a.lossless h, List.length_append]
  omega

end Lexeme

end GoroutineDump.Source
