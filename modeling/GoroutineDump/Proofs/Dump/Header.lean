import Mathlib.Algebra.GroupWithZero.Nat
import Mathlib.Data.List.TakeWhile
import GoroutineDump.Dump.Record
import GoroutineDump.Proofs.Text

set_option autoImplicit false
set_option relaxedAutoImplicit false

namespace GoroutineDump.Dump

open Text (digits isPrefixOf?_append isPrefixOf?_eq_some_iff)

theorem isDecimalDigit_of_isDigit {c : Char} (h : c.isDigit = true) :
    Unicode.isDecimalDigit c = true := by
  have hrange : 0x30 ≤ c.toNat ∧ c.toNat ≤ 0x39 := by
    simp only [Char.isDigit, Bool.and_eq_true, decide_eq_true_eq] at h
    exact ⟨h.1, h.2⟩
  have hlow : ¬ c.toNat < 0x30 := by omega
  simp [Unicode.isDecimalDigit, Unicode.decimalDigitRanges, Unicode.Ranges.contains, hlow, hrange.2]

theorem takeDigits?_eq_some_iff {cs ds rest : List Char} :
    takeDigits? cs = some (ds, rest) ↔
      ds ≠ [] ∧ (∀ d ∈ ds, Unicode.isDecimalDigit d = true) ∧
        (∀ c, rest.head? = some c → Unicode.isDecimalDigit c = false) ∧ cs = ds ++ rest := by
  constructor
  · intro h
    unfold takeDigits? at h
    rw [List.span_eq_takeWhile_dropWhile] at h
    split at h
    · cases h
    · next hne heq =>
      simp only [Option.some.injEq, Prod.mk.injEq] at h
      obtain ⟨rfl, rfl⟩ := h
      obtain ⟨htaken, hrest⟩ := Prod.mk.inj heq
      refine ⟨hne, ?_, ?_, ?_⟩
      · rw [← htaken]
        exact fun d hd => List.mem_takeWhile_imp hd
      · intro c hc
        have := List.head?_dropWhile_not Unicode.isDecimalDigit cs
        rw [hrest, hc] at this
        simpa using this
      · rw [← htaken, ← hrest, List.takeWhile_append_dropWhile]
  · rintro ⟨hne, hds, hrest, rfl⟩
    unfold takeDigits?
    rw [Text.span_append hds hrest]
    cases ds with
    | nil => exact absurd rfl hne
    | cons d ds => rfl

theorem isDecimalDigit_of_mem_digits {n : Nat} {d : Char} (h : d ∈ digits n) :
    Unicode.isDecimalDigit d = true :=
  isDecimalDigit_of_isDigit (List.all_eq_true.mp (Text.all_isDigit_digits n) d h)

theorem notMem_digits {c : Char} (hc : c.isDigit = false) (n : Nat) : c ∉ digits n := by
  intro hmem
  have hdigit := List.all_eq_true.mp (Text.all_isDigit_digits n) c hmem
  rw [hc] at hdigit
  cases hdigit

theorem readNumber_digits (field : NumericField) (n : UInt64) (line : List Char) :
    readNumber field (digits n.toNat) line = .ok n := by
  rw [readNumber, Text.readWord?_digits]

/-- What a goroutine's header has to be like: its number is not 0, its state has no character that
ends a state, and it has been blocked for whole minutes that fit into 64 bits of seconds. -/
structure PlainHeader (g : Goroutine) : Prop where
  id_ne : g.id ≠ 0
  state_ne : g.state ≠ ""
  notMem_comma : ',' ∉ g.state.toList
  notMem_bracket : ']' ∉ g.state.toList
  minutes : ∃ m, 60 * m < 2 ^ 64 ∧ g.blocked = Duration.ofSeconds (60 * m)

namespace HeaderFields

def minutesText (minutes : Option (List Char)) : List Char :=
  minutes.elim [] fun ds => ", ".toList ++ (ds ++ " minutes".toList)

def lockedText (locked : Bool) : List Char :=
  if locked then ", locked to thread".toList else []

def line (f : HeaderFields) : List Char :=
  "goroutine ".toList ++ (f.id ++ (" [".toList ++ (f.state ++
    (minutesText f.minutes ++ (lockedText f.locked ++ "]:".toList)))))

/-- Fields that can stand in a header line: digits where numbers are expected, and a state without
a character that ends one. -/
structure Plain (f : HeaderFields) : Prop where
  id_ne : f.id ≠ []
  id_digits : ∀ d ∈ f.id, Unicode.isDecimalDigit d = true
  state_ne : f.state ≠ []
  state_chars : ∀ c ∈ f.state, isStateChar c = true
  minutes_ne : ∀ ds ∈ f.minutes, ds ≠ []
  minutes_digits : ∀ ds ∈ f.minutes, ∀ d ∈ ds, Unicode.isDecimalDigit d = true

private theorem takeDigits?_blank {ds : List Char} (hne : ds ≠ [])
    (hds : ∀ d ∈ ds, Unicode.isDecimalDigit d = true) (rest : List Char) :
    takeDigits? (ds ++ ' ' :: rest) = some (ds, ' ' :: rest) := by
  refine takeDigits?_eq_some_iff.mpr ⟨hne, hds, ?_, rfl⟩
  intro c hc
  exact Option.some.inj hc ▸ by decide

private theorem minutes?_minutesText {minutes : Option (List Char)} (hne : ∀ ds ∈ minutes, ds ≠ [])
    (hds : ∀ ds ∈ minutes, ∀ d ∈ ds, Unicode.isDecimalDigit d = true) (locked : Bool) :
    minutes? (minutesText minutes ++ (lockedText locked ++ "]:".toList)) =
      (minutes, lockedText locked ++ "]:".toList) := by
  cases minutes with
  | none => cases locked <;> decide
  | some ds =>
    have htake (rest : List Char) : takeDigits? (ds ++ (" minutes".toList ++ rest)) =
        some (ds, " minutes".toList ++ rest) :=
      takeDigits?_blank (hne ds rfl) (hds ds rfl) ("minutes".toList ++ rest)
    have htext : minutesText (some ds) ++ (lockedText locked ++ "]:".toList) =
        ", ".toList ++ (ds ++ (" minutes".toList ++ (lockedText locked ++ "]:".toList))) := by
      simp only [minutesText, Option.elim_some, List.append_assoc]
    rw [htext, minutes?, isPrefixOf?_append, Option.bind_eq_bind, Option.bind_some, htake]
    simp only [isPrefixOf?_append]

private theorem eq_of_minutes? {cs rest : List Char} {minutes : Option (List Char)}
    (h : minutes? cs = (minutes, rest)) :
    (∀ ds ∈ minutes, ds ≠ [] ∧ ∀ d ∈ ds, Unicode.isDecimalDigit d = true) ∧
      cs = minutesText minutes ++ rest := by
  unfold minutes? at h
  split at h
  · obtain ⟨rfl, rfl⟩ := Prod.mk.inj h
    exact ⟨nofun, rfl⟩
  · next ds after hcut =>
    obtain ⟨tail, hcomma, htake⟩ := Option.bind_eq_some_iff.mp hcut
    split at h
    · obtain ⟨rfl, rfl⟩ := Prod.mk.inj h
      exact ⟨nofun, rfl⟩
    · next behind hminutes =>
      obtain ⟨rfl, rfl⟩ := Prod.mk.inj h
      obtain ⟨hne, hds, -, htail⟩ := takeDigits?_eq_some_iff.mp htake
      refine ⟨?_, ?_⟩
      · rintro _ ⟨⟩
        exact ⟨hne, hds⟩
      · rw [← isPrefixOf?_eq_some_iff.mp hcomma, htail, ← isPrefixOf?_eq_some_iff.mp hminutes]
        simp only [minutesText, Option.elim_some, List.append_assoc]

private theorem locked?_lockedText (locked : Bool) :
    locked? (lockedText locked ++ "]:".toList) = (locked, "]:".toList) := by
  cases locked <;> decide

private theorem eq_of_locked? {cs rest : List Char} {locked : Bool}
    (h : locked? cs = (locked, rest)) : cs = lockedText locked ++ rest := by
  unfold locked? at h
  split at h
  · obtain ⟨rfl, rfl⟩ := Prod.mk.inj h
    rfl
  · next hcut =>
    obtain ⟨rfl, rfl⟩ := Prod.mk.inj h
    exact (isPrefixOf?_eq_some_iff.mp hcut).symm

private theorem isStateChar_behind (minutes : Option (List Char)) (locked : Bool) :
    ∀ c, (minutesText minutes ++ (lockedText locked ++ "]:".toList)).head? = some c →
      isStateChar c = false := by
  intro c hc
  have hmark : c = ',' ∨ c = ']' := by
    cases minutes with
    | none =>
      cases locked with
      | false => exact .inr (Option.some.inj hc).symm
      | true => exact .inl (Option.some.inj hc).symm
    | some ds => exact .inl (Option.some.inj hc).symm
  rcases hmark with rfl | rfl <;> decide

theorem ofLine?_line {f : HeaderFields} (h : Plain f) : ofLine? f.line = some f := by
  have htake (rest : List Char) : takeDigits? (f.id ++ (" [".toList ++ rest)) =
      some (f.id, " [".toList ++ rest) :=
    takeDigits?_blank h.id_ne h.id_digits ('[' :: rest)
  unfold ofLine? line
  simp only [isPrefixOf?_append, Option.bind_eq_bind, Option.bind_some, htake,
    Text.span_append h.state_chars (isStateChar_behind _ _),
    minutes?_minutesText h.minutes_ne h.minutes_digits, locked?_lockedText]
  simp [h.state_ne]

/-- A line is cut into the fields it was put together from, and into no others. -/
theorem ofLine?_eq_some_iff {cs : List Char} {f : HeaderFields} :
    ofLine? cs = some f ↔ Plain f ∧ cs = f.line := by
  constructor
  · intro h
    simp only [ofLine?, Option.bind_eq_bind, Option.bind_eq_some_iff, Prod.exists] at h
    obtain ⟨id, rest, ⟨tail, hstart, htake⟩, bracket, hbracket, h⟩ := h
    obtain ⟨hid, hdigits, -, htail⟩ := takeDigits?_eq_some_iff.mp htake
    obtain ⟨minutes, behind, hminutes⟩ :
        ∃ m b, minutes? (bracket.span isStateChar).2 = (m, b) := ⟨_, _, rfl⟩
    obtain ⟨locked, last, hlocked⟩ : ∃ l b, locked? behind = (l, b) := ⟨_, _, rfl⟩
    simp only [hminutes, hlocked] at h
    split at h
    · next hend =>
      obtain rfl := Option.some.inj h
      have hspan : bracket.span isStateChar =
          (bracket.takeWhile isStateChar, bracket.dropWhile isStateChar) :=
        List.span_eq_takeWhile_dropWhile _ _
      have hsplit : (bracket.span isStateChar).1 ++ (bracket.span isStateChar).2 = bracket := by
        rw [hspan, List.takeWhile_append_dropWhile]
      obtain ⟨hfields, hrest⟩ := eq_of_minutes? hminutes
      refine ⟨⟨hid, hdigits, hend.1, ?_, fun ds hds => (hfields ds hds).1,
        fun ds hds => (hfields ds hds).2⟩, ?_⟩
      · rw [hspan]
        exact fun c hc => List.mem_takeWhile_imp hc
      · rw [eq_of_locked? hlocked, hend.2] at hrest
        unfold line
        rw [← hrest, hsplit, isPrefixOf?_eq_some_iff.mp hbracket, ← htail,
          isPrefixOf?_eq_some_iff.mp hstart]
    · cases h
  · rintro ⟨hplain, rfl⟩
    exact ofLine?_line hplain

theorem ofLine?_headerLine {g : Goroutine} (h : PlainHeader g) :
    ofLine? (headerLine g) =
      some { id := digits g.id.toNat, state := g.state.toList,
             minutes := if g.blocked.seconds / 60 = 0 then none
               else some (digits (g.blocked.seconds / 60)),
             locked := g.locked } := by
  have hminutes : ∀ ds ∈ (if g.blocked.seconds / 60 = 0 then none
      else some (digits (g.blocked.seconds / 60))), ds = digits (g.blocked.seconds / 60) := by
    split
    · nofun
    · rintro _ ⟨⟩
      rfl
  refine ofLine?_eq_some_iff.mpr ⟨⟨Text.digits_ne_nil _, fun _ => isDecimalDigit_of_mem_digits,
    by simpa using h.state_ne, ?_, ?_, ?_⟩, ?_⟩
  · intro c hc
    have hcomma : c ≠ ',' := fun heq => h.notMem_comma (heq ▸ hc)
    have hbracket : c ≠ ']' := fun heq => h.notMem_bracket (heq ▸ hc)
    simp [isStateChar, hcomma, hbracket]
  · intro ds hds
    rw [hminutes ds hds]
    exact Text.digits_ne_nil _
  · intro ds hds
    rw [hminutes ds hds]
    exact fun _ => isDecimalDigit_of_mem_digits
  · unfold headerLine line minutesText lockedText
    by_cases hzero : g.blocked.seconds / 60 = 0 <;>
      simp only [hzero, if_true, if_false, List.append_assoc, Option.elim_none, Option.elim_some]

end HeaderFields

theorem ofMinutes_eq (m : UInt64) :
    Duration.ofMinutes m = Duration.ofSeconds (min (m.toNat * 60) (2 ^ 64 - 1)) := rfl

theorem Header.read_headerLine {g : Goroutine} (h : PlainHeader g) :
    Header.read (headerLine g) = .ok ⟨g.id, g.state, g.blocked, g.locked⟩ := by
  obtain ⟨m, hm, hblocked⟩ := h.minutes
  have hseconds : g.blocked.seconds = 60 * m := by
    rw [hblocked]
    exact Nat.mul_div_cancel (60 * m) (by decide)
  have hminutes : g.blocked.seconds / 60 = m := by omega
  have hword : (UInt64.ofNat m).toNat = m := by
    have : m < 2 ^ 64 := by omega
    simpa using this
  have hnumber (field : NumericField) (line : List Char) :
      readNumber field (digits m) line = .ok (UInt64.ofNat m) := by
    conv_lhs => rw [← hword]
    exact readNumber_digits field (UInt64.ofNat m) line
  have hduration : Duration.ofMinutes (UInt64.ofNat m) = g.blocked := by
    rw [hblocked, ofMinutes_eq, hword]
    congr 1
    omega
  rw [Header.read, HeaderFields.ofLine?_headerLine h, hminutes]
  by_cases hzero : m = 0
  · have hnone : g.blocked = Duration.zero := by
      rw [hblocked, hzero]
      rfl
    simp [hzero, readNumber_digits, hnone, bind, Except.bind, pure, Except.pure]
  · simp [hzero, readNumber_digits, hnumber, hduration, bind, Except.bind, pure, Except.pure,
      Functor.map, Except.map]

end GoroutineDump.Dump
