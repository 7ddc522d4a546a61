import Mathlib.Data.List.Forall2
import GoroutineDump.Proofs.Dump.Record

/-!
A record is a header and then elisions and frames, a frame at least. Each kind of line is described
by the text that it is put together from, without cutting anything.
-/

set_option autoImplicit false
set_option relaxedAutoImplicit false

namespace GoroutineDump.Dump

open Text (isPrefixOf?_append isPrefixOf?_eq_some_iff)

/-! ### The lines of a record -/

def IsDigits (ds : List Char) : Prop := ds ≠ [] ∧ ∀ d ∈ ds, Unicode.isDecimalDigit d = true

def IsWord (ds : List Char) : Prop :=
  ds ≠ [] ∧ (∀ d ∈ ds, d.isDigit = true) ∧ Nat.ofDigitChars 10 ds 0 ≤ 2 ^ 64 - 1

/-- A header: the number of a goroutine, which is not 0, its state, and between the state and the
closing bracket the minutes, the tie to a thread, both or neither. -/
def IsHeader (line : List Char) : Prop :=
  ∃ id state minutes locked,
    line = "goroutine ".toList ++ id ++ " [".toList ++ state ++ minutes ++ locked ++ "]:".toList ∧
      (IsWord id ∧ Nat.ofDigitChars 10 id 0 ≠ 0) ∧
      (state ≠ [] ∧ ',' ∉ state ∧ ']' ∉ state) ∧
      (minutes = [] ∨ ∃ ds, IsWord ds ∧ minutes = ", ".toList ++ ds ++ " minutes".toList) ∧
      (locked = [] ∨ locked = ", locked to thread".toList)

def IsElision (line : List Char) : Prop :=
  line = "...additional frames elided...".toList ∨
    ∃ ds, IsDigits ds ∧ line = "...".toList ++ ds ++ " frames elided...".toList

/-- A text that ends in the number of a parent only if that number has 64 bits. -/
def ParentFits (cs : List Char) : Prop :=
  ∀ name ds, IsDigits ds → cs = name ++ " in goroutine ".toList ++ ds → IsWord ds

def IsOrdinaryCall (line : List Char) : Prop :=
  ¬ "created by ".toList <+: line ∧ '(' ∈ line ∧ line.getLast? = some ')'

/-- A line that names a call. In an origin the parent stands in what follows the mark. -/
def IsCall (line : List Char) : Prop :=
  (∃ origin, line = "created by ".toList ++ origin ∧ ParentFits origin) ∨ IsOrdinaryCall line

def SplitsAt (line path ds : List Char) : Prop :=
  IsDigits ds ∧ ∃ after, (after = [] ∨ after.head? = some ' ') ∧
    line = '\t' :: (path ++ ':' :: (ds ++ after))

/-- A line that says where a call stands: where it splits with the longest path, the path belongs
to a tree and the digits write a number of 64 bits. -/
def IsPlace (roots : Roots) (line : List Char) : Prop :=
  ∃ path ds, SplitsAt line path ds ∧
    (∀ other digits, SplitsAt line other digits → other.length ≤ path.length) ∧
    (roots.classify (String.ofList path)).isSome = true ∧ IsWord ds

inductive Item
  | elision (line : List Char)
  | frame (call place : List Char)

namespace Item

def lines : Item → List (List Char)
  | elision line => [line]
  | frame call place => [call, place]

def isFrame : Item → Bool
  | elision _ => false
  | frame _ _ => true

/-- An item whose lines are of the kinds it calls for; `call` tells which lines name a call. -/
def Fits (call : List Char → Prop) (roots : Roots) : Item → Prop
  | elision line => IsElision line
  | frame line place => call line ∧ IsPlace roots place

end Item

/-- The lines of a record: a header and then items, among them a frame. -/
def IsRecord (call : List Char → Prop) (roots : Roots) (first : List Char)
    (rest : List (List Char)) : Prop :=
  IsHeader first ∧ ∃ items : List Item, rest = items.flatMap Item.lines ∧
    (∀ item ∈ items, item.Fits call roots) ∧ ∃ item ∈ items, item.isFrame = true

variable {roots : Roots}

/-! ### Readers that succeed and readers that fail -/

theorem bind_eq_ok {α β : Type} {x : Except Error α} {f : α → Except Error β} {b : β} :
    (x >>= f) = .ok b ↔ ∃ a, x = .ok a ∧ f a = .ok b := by
  cases x <;> simp [bind, Except.bind]

theorem map_eq_ok {α β : Type} {x : Except Error α} {f : α → β} {b : β} :
    (f <$> x) = .ok b ↔ ∃ a, x = .ok a ∧ f a = b := by
  cases x <;> simp [Functor.map, Except.map]

theorem pure_eq_ok {α : Type} {a b : α} :
    (pure a : Except Error α) = .ok b ↔ a = b := by
  simp [pure, Except.pure]

private theorem exists_map_eq_ok {α β : Type} {x : Except Error α} {f : α → β} :
    (∃ b, f <$> x = .ok b) ↔ ∃ a, x = .ok a := by
  cases x <;> simp [Functor.map, Except.map]

theorem throw_ne_ok {α : Type} {e : Error} {a : α} :
    (throw e : Except Error α) ≠ .ok a := by
  simp [throw, throwThe, MonadExceptOf.throw]

theorem throw_eq_error {α : Type} {d e : Error} :
    (throw d : Except Error α) = .error e ↔ d = e := by
  simp [throw, throwThe, MonadExceptOf.throw]

theorem bind_eq_error {α β : Type} {x : Except Error α} {f : α → Except Error β} {e : Error} :
    (x >>= f) = .error e ↔ x = .error e ∨ ∃ a, x = .ok a ∧ f a = .error e := by
  cases x <;> simp [bind, Except.bind]

theorem map_eq_error {α β : Type} {x : Except Error α} {f : α → β} {e : Error} :
    (f <$> x) = .error e ↔ x = .error e := by
  cases x <;> simp [Functor.map, Except.map]

theorem pure_ne_error {α : Type} {a : α} {e : Error} :
    (pure a : Except Error α) ≠ .error e := by
  simp [pure, Except.pure]

theorem mapM_eq_ok_iff {α β : Type} {read : α → Except Error β} {as : List α} {bs : List β} :
    as.mapM read = .ok bs ↔ List.Forall₂ (fun a b => read a = .ok b) as bs := by
  induction as generalizing bs with
  | nil =>
    rw [List.mapM_nil, pure_eq_ok, List.forall₂_nil_left_iff, eq_comm]
  | cons a as ih =>
    rw [List.mapM_cons, List.forall₂_cons_left_iff, bind_eq_ok]
    simp only [bind_eq_ok, pure_eq_ok, ih]
    constructor
    · intro h
      obtain ⟨b, hb, rest, hrest, rfl⟩ := h
      exact ⟨b, rest, hb, hrest, rfl⟩
    · intro h
      obtain ⟨b, rest, hb, hrest, rfl⟩ := h
      exact ⟨b, hb, rest, hrest, rfl⟩

theorem mapM_eq_error_iff {α β : Type} {read : α → Except Error β} {as : List α} {e : Error} :
    as.mapM read = .error e ↔ ∃ before a after, as = before ++ a :: after ∧
      (∀ b ∈ before, ∃ v, read b = .ok v) ∧ read a = .error e := by
  induction as with
  | nil => simp [pure_ne_error]
  | cons a as ih =>
    rw [List.mapM_cons, bind_eq_error]
    simp only [bind_eq_error, pure_ne_error, and_false, exists_false, or_false, ih]
    constructor
    · rintro (ha | ⟨v, hv, before, x, after, rfl, hbefore, hx⟩)
      · exact ⟨[], a, as, rfl, by simp, ha⟩
      · exact ⟨a :: before, x, after, rfl, List.forall_mem_cons.mpr ⟨⟨v, hv⟩, hbefore⟩, hx⟩
    · rintro ⟨before, x, after, heq, hbefore, hx⟩
      cases before with
      | nil =>
        obtain ⟨rfl, rfl⟩ := List.cons.inj heq
        exact .inl hx
      | cons b before =>
        obtain ⟨rfl, rfl⟩ := List.cons.inj heq
        obtain ⟨⟨v, hv⟩, hbefore⟩ := List.forall_mem_cons.mp hbefore
        exact .inr ⟨v, hv, before, x, after, rfl, hbefore, hx⟩

private theorem exists_option_mapM_iff {α β : Type} {read : α → Except Error β} {o : Option α} :
    (∃ b, o.mapM read = .ok b) ↔ ∀ a ∈ o, ∃ b, read a = .ok b := by
  cases o with
  | none => simp [pure_eq_ok]
  | some a => simp [exists_map_eq_ok]

theorem option_mapM_eq_error_iff {α β : Type} {read : α → Except Error β} {o : Option α}
    {e : Error} : o.mapM read = .error e ↔ ∃ a ∈ o, read a = .error e := by
  cases o with
  | none => simp [pure_ne_error]
  | some a => simp [map_eq_error]

/-! ### Numbers -/

private theorem IsWord.isDigits {ds : List Char} (h : IsWord ds) : IsDigits ds :=
  ⟨h.1, fun d hd => isDecimalDigit_of_isDigit (h.2.1 d hd)⟩

private theorem IsWord.exists_toNat_eq {ds : List Char} (h : IsWord ds) :
    ∃ n : UInt64, n.toNat = Nat.ofDigitChars 10 ds 0 := by
  have hlt : Nat.ofDigitChars 10 ds 0 < 2 ^ 64 := by
    have := h.2.2
    omega
  exact ⟨UInt64.ofNat (Nat.ofDigitChars 10 ds 0), UInt64.toNat_ofNat_of_lt' hlt⟩

private theorem readWord?_eq_some_iff {ds : List Char} {n : UInt64} :
    Text.readWord? ds = some n ↔ IsWord ds ∧ n.toNat = Nat.ofDigitChars 10 ds 0 := by
  have hcond : (!ds.isEmpty && ds.all Char.isDigit &&
      decide (Nat.ofDigitChars 10 ds 0 < UInt64.size)) = true ↔ IsWord ds := by
    have hbound : Nat.ofDigitChars 10 ds 0 < UInt64.size ↔
        Nat.ofDigitChars 10 ds 0 ≤ 2 ^ 64 - 1 :=
      Nat.lt_iff_le_pred (by decide)
    simp only [Bool.and_eq_true, Bool.not_eq_true', List.isEmpty_eq_false_iff, List.all_eq_true,
      decide_eq_true_eq, hbound, IsWord, and_assoc, ne_eq]
  unfold Text.readWord?
  by_cases h : IsWord ds
  · rw [if_pos (hcond.mpr h), Option.some.injEq, and_iff_right h]
    constructor
    · rintro rfl
      obtain ⟨n, hn⟩ := h.exists_toNat_eq
      rw [← hn, UInt64.ofNat_toNat]
    · intro hn
      rw [← hn, UInt64.ofNat_toNat]
  · rw [if_neg (mt hcond.mp h)]
    simp [h]

theorem readNumber_eq_ok_iff {field : NumericField} {ds line : List Char} {n : UInt64} :
    readNumber field ds line = .ok n ↔ IsWord ds ∧ n.toNat = Nat.ofDigitChars 10 ds 0 := by
  rw [← readWord?_eq_some_iff, readNumber]
  cases Text.readWord? ds <;> simp

theorem exists_readNumber_iff {field : NumericField} {ds line : List Char} :
    (∃ n, readNumber field ds line = .ok n) ↔ IsWord ds := by
  simp only [readNumber_eq_ok_iff, exists_and_left]
  exact and_iff_left_of_imp IsWord.exists_toNat_eq

theorem readNumber_eq_error_iff {field : NumericField} {ds line : List Char} {e : Error} :
    readNumber field ds line = .error e ↔
      ¬ IsWord ds ∧ .invalidNumber field (String.ofList ds) (String.ofList line) = e := by
  rw [← @exists_readNumber_iff field ds line, readNumber]
  cases Text.readWord? ds <;> simp

/-! ### Headers -/

theorem Header.read_eq (line : List Char) :
    Header.read line = (match HeaderFields.ofLine? line with
      | none => .error (.malformedHeader (String.ofList line))
      | some f => do
        let id ← readNumber .goroutineId f.id line
        let minutes ← f.minutes.mapM (readNumber .blockDuration · line)
        return ⟨id, String.ofList f.state, minutes.elim Duration.zero Duration.ofMinutes,
          f.locked⟩) := by
  unfold Header.read
  cases HeaderFields.ofLine? line with
  | none => rfl
  | some f =>
    dsimp only
    cases f.minutes with
    | none => rfl
    | some ds =>
      rw [Option.mapM_some]
      dsimp only
      cases readNumber .blockDuration ds line <;> rfl

theorem Header.read_eq_ok_iff {line : List Char} {header : Header} :
    Header.read line = .ok header ↔ ∃ f, HeaderFields.ofLine? line = some f ∧
      readNumber .goroutineId f.id line = .ok header.id ∧
      (∃ minutes, f.minutes.mapM (readNumber .blockDuration · line) = .ok minutes ∧
        minutes.elim Duration.zero Duration.ofMinutes = header.blocked) ∧
      String.ofList f.state = header.state ∧ f.locked = header.locked := by
  rw [Header.read_eq]
  cases HeaderFields.ofLine? line with
  | none => simp
  | some f =>
    obtain ⟨id, state, blocked, locked⟩ := header
    simp only [bind_eq_ok, pure_eq_ok, Option.some.injEq, exists_eq_left', Header.mk.injEq]
    constructor
    · rintro ⟨_, hid, minutes, hminutes, rfl, hstate, hblocked, hlocked⟩
      exact ⟨hid, ⟨minutes, hminutes, hblocked⟩, hstate, hlocked⟩
    · rintro ⟨hid, ⟨minutes, hminutes, hblocked⟩, hstate, hlocked⟩
      exact ⟨_, hid, minutes, hminutes, rfl, hstate, hblocked, hlocked⟩

private theorem exists_read_iff_fields (line : List Char) :
    (∃ header, Header.read line = .ok header ∧ header.id ≠ 0) ↔
      ∃ fields, HeaderFields.ofLine? line = some fields ∧
        (IsWord fields.id ∧ Nat.ofDigitChars 10 fields.id 0 ≠ 0) ∧
        ∀ ds ∈ fields.minutes, IsWord ds := by
  have hzero {id : UInt64} : id ≠ 0 ↔ id.toNat ≠ 0 := by
    rw [Ne, ← UInt64.toNat_inj]
    rfl
  have hminutes {o : Option (List Char)} :
      (∃ minutes, o.mapM (readNumber .blockDuration · line) = .ok minutes) ↔
        ∀ ds ∈ o, IsWord ds := by
    simp only [exists_option_mapM_iff, exists_readNumber_iff]
  simp only [Header.read_eq_ok_iff]
  constructor
  · rintro ⟨header, ⟨f, hfields, hid, ⟨m, hm, -⟩, -⟩, hne⟩
    obtain ⟨hword, hvalue⟩ := readNumber_eq_ok_iff.mp hid
    exact ⟨f, hfields, ⟨hword, hvalue ▸ hzero.mp hne⟩, hminutes.mp ⟨m, hm⟩⟩
  · rintro ⟨f, hfields, ⟨hword, hvalue⟩, hall⟩
    obtain ⟨n, hn⟩ := hword.exists_toNat_eq
    obtain ⟨m, hm⟩ := hminutes.mpr hall
    exact ⟨⟨n, _, _, _⟩, ⟨f, hfields, readNumber_eq_ok_iff.mpr ⟨hword, hn⟩, ⟨m, hm, rfl⟩, rfl, rfl⟩,
      hzero.mpr (hn ▸ hvalue)⟩

theorem Header.exists_read_iff (line : List Char) :
    (∃ header, Header.read line = .ok header ∧ header.id ≠ 0) ↔ IsHeader line := by
  rw [exists_read_iff_fields]
  have hstate {state : List Char} :
      (∀ c ∈ state, HeaderFields.isStateChar c = true) ↔ ',' ∉ state ∧ ']' ∉ state := by
    simp only [HeaderFields.isStateChar, Bool.and_eq_true, bne_iff_ne]
    constructor
    · exact fun h => ⟨fun hmem => (h _ hmem).1 rfl, fun hmem => (h _ hmem).2 rfl⟩
    · exact fun h c hc => ⟨fun heq => h.1 (heq ▸ hc), fun heq => h.2 (heq ▸ hc)⟩
  constructor
  · rintro ⟨fields, hfields, hid, hminutes⟩
    obtain ⟨hplain, hline⟩ := HeaderFields.ofLine?_eq_some_iff.mp hfields
    refine ⟨fields.id, fields.state, HeaderFields.minutesText fields.minutes,
      HeaderFields.lockedText fields.locked, ?_, hid,
      ⟨hplain.state_ne, hstate.mp hplain.state_chars⟩, ?_, ?_⟩
    · rw [hline]
      unfold HeaderFields.line
      simp only [List.append_assoc]
    · cases hm : fields.minutes with
      | none => exact .inl rfl
      | some ds =>
        exact .inr ⟨ds, hminutes ds hm, by
          simp only [HeaderFields.minutesText, Option.elim_some, List.append_assoc]⟩
    · cases fields.locked with
      | false => exact .inl rfl
      | true => exact .inr rfl
  · rintro ⟨id, state, minutes, locked, hline, hid, ⟨hne, hchars⟩, hminutes, hlocked⟩
    obtain ⟨m, hm, hword⟩ :
        ∃ m, minutes = HeaderFields.minutesText m ∧ ∀ ds ∈ m, IsWord ds := by
      rcases hminutes with rfl | ⟨ds, hds, rfl⟩
      · refine ⟨none, rfl, ?_⟩
        intro ds hds
        cases hds
      · refine ⟨some ds, by simp only [HeaderFields.minutesText, Option.elim_some,
          List.append_assoc], ?_⟩
        rintro _ ⟨⟩
        exact hds
    obtain ⟨l, hl⟩ : ∃ l, locked = HeaderFields.lockedText l := by
      rcases hlocked with rfl | rfl
      · exact ⟨false, rfl⟩
      · exact ⟨true, rfl⟩
    refine ⟨⟨id, state, m, l⟩, HeaderFields.ofLine?_eq_some_iff.mpr ⟨⟨hid.1.1, hid.1.isDigits.2,
      hne, hstate.mpr hchars, fun ds hds => (hword ds hds).1,
      fun ds hds => (hword ds hds).isDigits.2⟩, ?_⟩, hid, hword⟩
    rw [hline, hm, hl]
    unfold HeaderFields.line
    simp only [List.append_assoc]

/-! ### Elisions -/

theorem isElision_eq_true_iff {line : List Char} : isElision line = true ↔ IsElision line := by
  unfold isElision IsElision
  cases hcut : "...".toList.isPrefixOf? line with
  | none =>
    simp only [Bool.false_eq_true, false_iff, not_or, not_exists, not_and]
    have hfree (rest : List Char) : line ≠ "...".toList ++ rest := by
      rintro rfl
      rw [isPrefixOf?_append] at hcut
      cases hcut
    refine ⟨hfree "additional frames elided...".toList, fun ds _ heq => ?_⟩
    rw [List.append_assoc] at heq
    exact hfree _ heq
  | some rest =>
    obtain rfl := isPrefixOf?_eq_some_iff.mp hcut
    have hwords : "...additional frames elided...".toList =
        "...".toList ++ "additional frames elided...".toList := rfl
    simp only [hwords, List.append_assoc, List.append_cancel_left_eq, Bool.or_eq_true,
      decide_eq_true_eq]
    refine or_congr_right ?_
    constructor
    · intro hany
      obtain ⟨⟨ds, after⟩, htake, hafter⟩ := (Option.any_eq_true _ _).mp hany
      obtain ⟨hne, hds, -, hrest⟩ := takeDigits?_eq_some_iff.mp htake
      rw [decide_eq_true_eq] at hafter
      exact ⟨ds, ⟨hne, hds⟩, hafter ▸ hrest⟩
    · rintro ⟨ds, ⟨hne, hds⟩, rfl⟩
      have hstop : ∀ c, " frames elided...".toList.head? = some c →
          Unicode.isDecimalDigit c = false := by
        intro c hc
        exact Option.some.inj hc ▸ by decide
      rw [takeDigits?_eq_some_iff.mpr ⟨hne, hds, hstop, rfl⟩]
      simp

theorem isElision_eq_false_iff {line : List Char} : isElision line = false ↔ ¬ IsElision line :=
  Bool.eq_false_iff.trans (not_congr isElision_eq_true_iff)

theorem isElision_ends {line : List Char} (h : isElision line = true) :
    line.head? = some '.' ∧ line.getLast? = some '.' := by
  rcases isElision_eq_true_iff.mp h with rfl | ⟨ds, -, rfl⟩
  · decide
  · refine ⟨rfl, ?_⟩
    rw [List.getLast?_append]
    rfl

/-! ### Calls -/

namespace CallLine

private theorem arguments?_eq_some_iff {cs args : List Char} :
    arguments? cs = some args ↔ cs = '(' :: (args ++ [')']) := by
  constructor
  · intro h
    unfold arguments? at h
    split at h
    · next rest =>
      split at h
      · next hlast =>
        obtain rfl := Option.some.inj h
        rw [List.dropLast_append_getLast? ')' hlast]
      · cases h
    · cases h
  · rintro rfl
    simp [arguments?]

theorem cutArguments?_eq_some_iff {line name args : List Char} :
    cutArguments? line = some (name, args) ↔
      '\n' ∉ line ∧ '(' ∉ args ∧ line = name ++ '(' :: (args ++ [')']) := by
  constructor
  · intro h
    unfold cutArguments? at h
    split at h
    · cases h
    · next hfeed =>
      obtain ⟨rest, -, hline, hread, hlast⟩ := Text.lastCut_eq_some_iff.mp h
      obtain rfl := arguments?_eq_some_iff.mp hread
      refine ⟨hfeed, ?_, hline⟩
      intro hmem
      obtain ⟨before, after, rfl⟩ := List.append_of_mem hmem
      have hlater : arguments? ('(' :: (after ++ [')'])) = some after :=
        arguments?_eq_some_iff.mpr rfl
      have hcut : line = (name ++ '(' :: before) ++ '(' :: (after ++ [')']) := by
        rw [hline]
        simp
      have hle := hlast _ _ hcut (by simp) (by rw [hlater]; rfl)
      rw [List.length_append, List.length_cons] at hle
      omega
  · rintro ⟨hfeed, hopen, rfl⟩
    simp only [List.mem_append, List.mem_cons, not_or] at hfeed
    exact cutArguments?_append hfeed.1 hfeed.2.2.1 hopen

theorem cutParent_eq_some_iff {cs name ds : List Char} :
    cutParent cs = (name, some ds) ↔
      '\n' ∉ name ∧ IsDigits ds ∧ cs = name ++ (" in goroutine ".toList ++ ds) := by
  constructor
  · intro h
    unfold cutParent at h
    split at h
    · cases h
    · next before digits hcut =>
      split at h
      · cases h
      · next hfeed =>
        obtain ⟨rfl, hdigits⟩ := Prod.mk.inj h
        obtain rfl := Option.some.inj hdigits
        obtain ⟨rest, -, rfl, hread⟩ := Text.lastCut_eq_some hcut
        obtain ⟨hne, hall, rfl⟩ := parentDigits?_eq_some_iff.mp hread
        exact ⟨hfeed, ⟨hne, hall⟩, rfl⟩
  · rintro ⟨hfeed, ⟨hne, hall⟩, rfl⟩
    exact cutParent_append hfeed hne hall

theorem cutParent_of_digits {cs name ds : List Char} (h : '\n' ∉ cs) (hds : IsDigits ds)
    (heq : cs = name ++ " in goroutine ".toList ++ ds) : cutParent cs = (name, some ds) := by
  rw [List.append_assoc] at heq
  exact cutParent_eq_some_iff.mpr ⟨fun hmem => h (heq ▸ List.mem_append_left _ hmem), hds, heq⟩

theorem cutParent_of_not_namesParent {cs : List Char} (h : ¬ NamesParent cs) :
    cutParent cs = (cs, none) := by
  rw [cutParent, lastCut_parentDigits?_eq_none_iff.mpr h]

theorem readOrigin_eq (line origin : List Char) :
    readOrigin line origin =
      (fun parent => ⟨{ package := String.ofList (splitQualifiedName (cutParent origin).1).1,
                        method := String.ofList (splitQualifiedName (cutParent origin).1).2,
                        origin := true }, parent⟩) <$>
        (cutParent origin).2.mapM (readNumber .parentId · line) := by
  unfold readOrigin
  rcases cutParent origin with ⟨name, digits⟩
  dsimp only
  cases digits.mapM (readNumber .parentId · line) <;> rfl

theorem read_of_not_origin {line : List Char} (h : ¬ originMark <+: line) :
    read line = match cutArguments? line with
      | none => .error (.malformedCall (String.ofList line))
      | some (name, args) =>
        .ok ⟨⟨String.ofList (splitQualifiedName name).1, String.ofList (splitQualifiedName name).2,
          String.ofList args, "", false⟩, none⟩ := by
  have hmark : originMark.isPrefixOf? line = none := by
    rw [Option.eq_none_iff_forall_ne_some]
    intro rest hrest
    exact h ⟨rest, isPrefixOf?_eq_some_iff.mp hrest⟩
  cases hcut : cutArguments? line with
  | none => simp only [read, hmark, hcut]
  | some found => simp only [read, hmark, hcut]

private theorem exists_readOrigin_iff {origin : List Char} (h : '\n' ∉ origin) (line : List Char) :
    (∃ call, readOrigin line origin = .ok call) ↔ ParentFits origin := by
  simp only [readOrigin_eq, exists_map_eq_ok, exists_option_mapM_iff, exists_readNumber_iff]
  constructor
  · intro hall name ds hds horigin
    exact hall ds (congrArg Prod.snd (cutParent_of_digits h hds horigin))
  · intro hfits ds hmem
    obtain ⟨-, hds, horigin⟩ := cutParent_eq_some_iff.mp (Prod.ext rfl hmem)
    rw [← List.append_assoc] at horigin
    exact hfits _ ds hds horigin

private theorem exists_cutArguments?_iff {line : List Char} (h : '\n' ∉ line) :
    (∃ found, cutArguments? line = some found) ↔ '(' ∈ line ∧ line.getLast? = some ')' := by
  constructor
  · rintro ⟨⟨name, args⟩, hcut⟩
    obtain ⟨-, -, rfl⟩ := cutArguments?_eq_some_iff.mp hcut
    rw [← List.cons_append, ← List.append_assoc]
    exact ⟨by simp, List.getLast?_concat⟩
  · rintro ⟨hopen, hlast⟩
    rw [cutArguments?, if_neg h]
    obtain ⟨name, rest, rfl⟩ := List.append_of_mem hopen
    have hclose : rest.getLast? = some ')' := by
      cases rest with
      | nil =>
        rw [List.getLast?_concat] at hlast
        exact absurd (Option.some.inj hlast) (by decide)
      | cons c rest => simpa using hlast
    have hread : arguments? ('(' :: rest) = some rest.dropLast := by
      simp [arguments?, hclose]
    cases hcut : Text.lastCut arguments? (name ++ '(' :: rest) with
    | none =>
      rw [Text.lastCut_eq_none_iff.mp hcut name _ rfl (by simp)] at hread
      cases hread
    | some found => exact ⟨found, rfl⟩

theorem exists_read_iff {line : List Char} (h : '\n' ∉ line) :
    (∃ call, read line = .ok call) ↔ IsCall line := by
  by_cases hmark : originMark <+: line
  · obtain ⟨origin, rfl⟩ := hmark
    rw [read_origin rfl, exists_readOrigin_iff fun hmem => h (List.mem_append_right _ hmem)]
    constructor
    · exact fun hfits => .inl ⟨origin, rfl, hfits⟩
    · rintro (⟨other, hother, hfits⟩ | hordinary)
      · obtain rfl := List.append_cancel_left hother
        exact hfits
      · exact absurd (List.prefix_append _ _) hordinary.1
  · have hread : (∃ call, read line = .ok call) ↔ ∃ found, cutArguments? line = some found := by
      rw [read_of_not_origin hmark]
      cases cutArguments? line <;> simp
    rw [hread, exists_cutArguments?_iff h]
    constructor
    · exact fun hends => .inr ⟨hmark, hends⟩
    · rintro (⟨origin, rfl, -⟩ | hordinary)
      · exact absurd (List.prefix_append _ _) hmark
      · exact hordinary.2

end CallLine

/-! ### Places -/

namespace LocationFields

theorem splitsAt_iff {cs path ds : List Char} :
    SplitsAt ('\t' :: cs) path ds ↔
      ∃ rest extra, cs = path ++ rest ∧ lineAndExtra? rest = some (ds, extra) := by
  constructor
  · rintro ⟨⟨hne, hds⟩, after, hafter, heq⟩
    exact ⟨_, after.tail, (List.cons.inj heq).2, lineAndExtra?_of_digits hne hds hafter⟩
  · rintro ⟨rest, extra, rfl, hread⟩
    obtain ⟨after, hne, hds, hafter, rfl, -⟩ := lineAndExtra?_eq_some hread
    exact ⟨⟨hne, hds⟩, after, hafter, rfl⟩

theorem exists_ofLine?_iff {line path ds : List Char} (h : '\n' ∉ line) :
    (∃ extra, ofLine? line = some ⟨path, ds, extra⟩) ↔
      SplitsAt line path ds ∧
        ∀ other digits, SplitsAt line other digits → other.length ≤ path.length := by
  by_cases htab : ∃ cs, line = '\t' :: cs
  · obtain ⟨cs, rfl⟩ := htab
    have hcs : '\n' ∉ cs := fun hmem => h (List.mem_cons_of_mem _ hmem)
    have hcut (extra : List Char) : ofLine? ('\t' :: cs) = some ⟨path, ds, extra⟩ ↔
        Text.lastCut lineAndExtra? cs = some (path, ds, extra) := by
      rw [ofLine?, if_neg hcs]
      simp only [Option.map_eq_some_iff, LocationFields.mk.injEq, Prod.exists]
      constructor
      · rintro ⟨_, _, _, hcut, rfl, rfl, rfl⟩
        exact hcut
      · exact fun hcut => ⟨_, _, _, hcut, rfl, rfl, rfl⟩
    simp only [hcut, Text.lastCut_eq_some_iff]
    constructor
    · rintro ⟨extra, rest, -, heq, hread, hlast⟩
      refine ⟨splitsAt_iff.mpr ⟨rest, extra, heq, hread⟩, ?_⟩
      intro other digits hsplit
      obtain ⟨back, behind, hback, hother⟩ := splitsAt_iff.mp hsplit
      refine hlast other back hback ?_ (by simp [hother])
      rintro rfl
      cases hother
    · rintro ⟨hsplit, hlast⟩
      obtain ⟨rest, extra, heq, hread⟩ := splitsAt_iff.mp hsplit
      refine ⟨extra, rest, ?_, heq, hread, ?_⟩
      · rintro rfl
        cases hread
      · intro front back hback _ hsome
        obtain ⟨⟨digits, behind⟩, hother⟩ := Option.isSome_iff_exists.mp hsome
        exact hlast front digits (splitsAt_iff.mpr ⟨back, behind, hback, hother⟩)
  · constructor
    · rintro ⟨extra, hcut⟩
      unfold ofLine? at hcut
      split at hcut
      · exact absurd ⟨_, rfl⟩ htab
      · cases hcut
    · rintro ⟨⟨-, after, -, rfl⟩, -⟩
      exact absurd ⟨_, rfl⟩ htab

end LocationFields

theorem LocationLine.read_eq_ok_iff {line : List Char} {place : LocationLine} :
    LocationLine.read roots line = .ok place ↔ ∃ f, LocationFields.ofLine? line = some f ∧
      roots.classify (String.ofList f.path) = some (place.location.tree, place.location.file) ∧
      readNumber .lineNumber f.line line = .ok place.location.line ∧
      String.ofList f.extra = place.extra := by
  unfold LocationLine.read
  cases LocationFields.ofLine? line with
  | none => simp [throw_ne_ok]
  | some f =>
    simp only [Option.some.injEq, exists_eq_left']
    cases roots.classify (String.ofList f.path) with
    | none => simp [throw_ne_ok]
    | some found =>
      obtain ⟨⟨tree, file, number⟩, extra⟩ := place
      obtain ⟨tree', file'⟩ := found
      simp only [bind_eq_ok, pure_eq_ok, Option.some.injEq, Prod.mk.injEq]
      constructor
      · rintro ⟨n, hn, heq⟩
        obtain ⟨⟨rfl, rfl, rfl⟩, rfl⟩ := by simpa using heq
        exact ⟨⟨rfl, rfl⟩, hn, rfl⟩
      · rintro ⟨⟨rfl, rfl⟩, hn, rfl⟩
        exact ⟨number, hn, rfl⟩

theorem LocationLine.exists_read_iff {line : List Char} (h : '\n' ∉ line) :
    (∃ place, LocationLine.read roots line = .ok place) ↔ IsPlace roots line := by
  have hplace : IsPlace roots line ↔ ∃ fields, LocationFields.ofLine? line = some fields ∧
      (roots.classify (String.ofList fields.path)).isSome = true ∧ IsWord fields.line := by
    constructor
    · rintro ⟨path, ds, hsplit, hlast, hknown, hword⟩
      obtain ⟨extra, hcut⟩ := (LocationFields.exists_ofLine?_iff h).mpr ⟨hsplit, hlast⟩
      exact ⟨_, hcut, hknown, hword⟩
    · rintro ⟨⟨path, ds, extra⟩, hcut, hknown, hword⟩
      obtain ⟨hsplit, hlast⟩ := (LocationFields.exists_ofLine?_iff h).mp ⟨extra, hcut⟩
      exact ⟨path, ds, hsplit, hlast, hknown, hword⟩
  rw [hplace]
  simp only [read_eq_ok_iff, Option.isSome_iff_exists]
  constructor
  · rintro ⟨place, f, hfields, hclassify, hnumber, -⟩
    exact ⟨f, hfields, ⟨_, hclassify⟩, (readNumber_eq_ok_iff.mp hnumber).1⟩
  · rintro ⟨f, hfields, ⟨⟨tree, file⟩, hclassify⟩, hword⟩
    obtain ⟨n, hn⟩ := exists_readNumber_iff.mpr hword
    exact ⟨⟨⟨tree, file, n⟩, String.ofList f.extra⟩, f, hfields, hclassify, hn, rfl⟩

/-! ### Records -/

/-- No line both stands for frames and names a call. -/
theorem isElision_eq_false_of_isCall {line : List Char} (h : IsCall line) :
    isElision line = false := by
  cases helided : isElision line with
  | false => rfl
  | true =>
    obtain ⟨hfirst, hlast⟩ := isElision_ends helided
    rcases h with ⟨origin, rfl, -⟩ | ⟨-, -, hclose⟩
    · have hmark : ("created by ".toList ++ origin).head? = some 'c' := rfl
      rw [hmark] at hfirst
      exact absurd (Option.some.inj hfirst) (by decide)
    · rw [hclose] at hlast
      exact absurd (Option.some.inj hlast) (by decide)

theorem Body.exists_read_of_fits {items : List Item}
    (hfits : ∀ item ∈ items, item.Fits IsCall roots)
    (h : ∀ line ∈ items.flatMap Item.lines, '\n' ∉ line) :
    ∃ body, Body.read roots (items.flatMap Item.lines) = .ok body ∧
      (body.frames ≠ [] ↔ ∃ item ∈ items, item.isFrame = true) := by
  induction items with
  | nil => exact ⟨⟨[], none⟩, rfl, by simp⟩
  | cons item items ih =>
    rw [List.flatMap_cons] at h ⊢
    obtain ⟨body, hread, hframes⟩ := ih (fun i hi => hfits i (List.mem_cons_of_mem _ hi))
      fun line hline => h line (List.mem_append_right _ hline)
    have hitem := hfits item List.mem_cons_self
    cases item with
    | elision line =>
      refine ⟨body, ?_, ?_⟩
      · exact (Body.read_elision (isElision_eq_true_iff.mpr hitem) _).trans hread
      · rw [hframes]
        simp [Item.isFrame]
    | frame call place =>
      obtain ⟨c, hc⟩ := (CallLine.exists_read_iff (h call (by simp [Item.lines]))).mpr hitem.1
      obtain ⟨l, hl⟩ := (LocationLine.exists_read_iff (h place (by simp [Item.lines]))).mpr hitem.2
      have hcall := isElision_eq_false_of_isCall hitem.1
      exact ⟨Body.cons c l body,
        (Body.read_frame_eq_ok_iff hcall).mpr ⟨body, hread, c, l, hc, hl, rfl⟩,
        iff_of_true (List.cons_ne_nil _ _) ⟨_, List.mem_cons_self, rfl⟩⟩

theorem Body.exists_items_of_read {rest : List (List Char)} {body : Body}
    (h : ∀ line ∈ rest, '\n' ∉ line) (hread : Body.read roots rest = .ok body) :
    ∃ items : List Item, rest = items.flatMap Item.lines ∧
      (∀ item ∈ items, item.Fits IsCall roots) ∧
      (body.frames ≠ [] → ∃ item ∈ items, item.isFrame = true) := by
  induction rest using Body.read.induct generalizing body with
  | case1 =>
    rw [Body.read] at hread
    obtain rfl := Except.ok.inj hread
    exact ⟨[], rfl, by simp, fun hne => absurd rfl hne⟩
  | case2 line rest helision ih =>
    rw [Body.read_elision helision] at hread
    obtain ⟨items, rfl, hfits, hframes⟩ := ih (fun l hl => h l (List.mem_cons_of_mem _ hl)) hread
    refine ⟨.elision line :: items, rfl, ?_, ?_⟩
    · exact List.forall_mem_cons.mpr ⟨isElision_eq_true_iff.mp helision, hfits⟩
    · intro hne
      obtain ⟨item, hitem, hframe⟩ := hframes hne
      exact ⟨item, List.mem_cons_of_mem _ hitem, hframe⟩
  | case3 call rest helision ih =>
    cases rest with
    | nil =>
      rw [Body.read, if_neg helision] at hread
      obtain ⟨_, -, hthrow⟩ := bind_eq_ok.mp hread
      exact absurd hthrow throw_ne_ok
    | cons place rest =>
      rw [Body.read_frame_eq_ok_iff (Bool.eq_false_iff.mpr helision)] at hread
      obtain ⟨tail, htail, c, l, hcall, hplace, -⟩ := hread
      obtain ⟨items, rfl, hfits, -⟩ :=
        ih (fun l hl => h l (List.mem_cons_of_mem _ (List.mem_cons_of_mem _ hl))) htail
      have hframe : (Item.frame call place).Fits IsCall roots :=
        ⟨(CallLine.exists_read_iff (h call (by simp))).mp ⟨c, hcall⟩,
          (LocationLine.exists_read_iff (h place (by simp))).mp ⟨l, hplace⟩⟩
      exact ⟨.frame call place :: items, rfl, List.forall_mem_cons.mpr ⟨hframe, hfits⟩,
        fun _ => ⟨.frame call place, List.mem_cons_self, rfl⟩⟩

/-- Lines without line feeds are read as a goroutine exactly when they are a record: a header, and
behind it elisions and frames with at least one frame. -/
theorem readRecord_ok_iff (roots : Roots) {first : List Char} {rest : List (List Char)}
    (h : ∀ line ∈ first :: rest, '\n' ∉ line) :
    (∃ g, readRecord roots (first :: rest) = .ok g) ↔ IsRecord IsCall roots first rest := by
  have hrest : ∀ line ∈ rest, '\n' ∉ line := fun line hline => h line (List.mem_cons_of_mem _ hline)
  have hread : (∃ g, readRecord roots (first :: rest) = .ok g) ↔
      (∃ header, Header.read first = .ok header ∧ header.id ≠ 0) ∧
        ∃ body, Body.read roots rest = .ok body ∧ body.frames ≠ [] := by
    unfold readRecord
    simp only [bind_eq_ok]
    constructor
    · rintro ⟨g, header, hheader, body, hbody, hg⟩
      split at hg
      · exact absurd hg throw_ne_ok
      · next hgood =>
        rw [not_or] at hgood
        exact ⟨⟨header, hheader, hgood.1⟩, body, hbody, hgood.2⟩
    · rintro ⟨⟨header, hheader, hid⟩, body, hbody, hframes⟩
      refine ⟨{ id := header.id, state := header.state, blocked := header.blocked,
                locked := header.locked, parent := body.parent, stack := body.frames },
        header, hheader, body, hbody, ?_⟩
      rw [if_neg (not_or.mpr ⟨hid, hframes⟩)]
      rfl
  rw [hread, Header.exists_read_iff, IsRecord]
  refine and_congr_right fun _ => ?_
  constructor
  · rintro ⟨body, hbody, hne⟩
    obtain ⟨items, hitems, hfits, hframe⟩ := Body.exists_items_of_read hrest hbody
    exact ⟨items, hitems, hfits, hframe hne⟩
  · rintro ⟨items, rfl, hfits, hframe⟩
    obtain ⟨body, hbody, hne⟩ := Body.exists_read_of_fits hfits hrest
    exact ⟨body, hbody, hne.mpr hframe⟩

/-- The lines behind a header: an elision in the digits of another script, a call whose place has
two numbers, and an origin that names its parent. -/
def elidedLines : List (List Char) :=
  ["...١٢ frames elided...".toList,
    "main.(*Server).run(0xc0001, {0x1})".toList, "\t_cgo_gotypes.go:1:23 +0x1f".toList,
    "created by main.start in goroutine 1".toList, "\t_cgo_gotypes.go:4".toList]

theorem readRecord_ok_iff_elidedLines :
    (∀ line ∈ "goroutine 7 [select, 5 minutes, locked to thread]:".toList :: elidedLines,
        '\n' ∉ line) ∧
      IsRecord IsCall {} "goroutine 7 [select, 5 minutes, locked to thread]:".toList
        elidedLines := by
  have hread : readRecord {}
      ("goroutine 7 [select, 5 minutes, locked to thread]:".toList :: elidedLines) =
        .ok { id := 7, state := "select", blocked := Duration.ofSeconds 300, locked := true,
              parent := some 1,
              stack :=
                [⟨⟨.generated, "_cgo_gotypes.go:1", 23⟩,
                  { package := "main", method := "(*Server).run", args := "0xc0001, {0x1}",
                    extra := "+0x1f" }, {}⟩,
                ⟨⟨.generated, "_cgo_gotypes.go", 4⟩,
                  { package := "main", method := "start", origin := true }, {}⟩] } := rfl
  exact ⟨by decide, (readRecord_ok_iff {} (by decide)).mp ⟨_, hread⟩⟩

/-- A line that names a call, if the parent of an origin stood in the whole line. -/
def IsCallOfWholeLine (line : List Char) : Prop :=
  ("created by ".toList <+: line ∧ ParentFits line) ∨ IsOrdinaryCall line

/-- The blank at the end of the mark begins no parent: an origin is read although the line, taken
with its mark, ends in the number of a parent that has more than 64 bits. -/
theorem readRecord_blank_of_mark :
    ¬ ((∃ g, readRecord {} ["goroutine 1 [running]:".toList,
          "created by in goroutine 99999999999999999999".toList, "\t_cgo_x:1".toList] = .ok g) ↔
        IsRecord IsCallOfWholeLine {} "goroutine 1 [running]:".toList
          ["created by in goroutine 99999999999999999999".toList, "\t_cgo_x:1".toList]) := by
  have hread : readRecord {} ["goroutine 1 [running]:".toList,
      "created by in goroutine 99999999999999999999".toList, "\t_cgo_x:1".toList] =
        .ok { id := 1, state := "running",
              stack :=
                [⟨⟨.generated, "_cgo_x", 1⟩,
                  { package := "", method := "in goroutine 99999999999999999999", origin := true },
                  {}⟩] } := rfl
  intro hiff
  obtain ⟨-, items, hitems, hfits, -⟩ := hiff.mp ⟨_, hread⟩
  cases items with
  | nil => cases hitems
  | cons item items =>
    have hitem := hfits item List.mem_cons_self
    cases item with
    | elision line =>
      obtain rfl := (List.cons.inj hitems).1
      have hnot : isElision "created by in goroutine 99999999999999999999".toList = false := by
        decide
      rw [isElision_eq_true_iff.mpr hitem] at hnot
      cases hnot
    | frame call place =>
      obtain rfl := (List.cons.inj hitems).1
      rcases hitem.1 with ⟨-, hfits⟩ | ⟨hnot, -⟩
      · have hdigits : IsDigits "99999999999999999999".toList :=
          ⟨by decide, List.all_eq_true.mp rfl⟩
        have hword := hfits "created by".toList "99999999999999999999".toList hdigits (by decide)
        exact absurd hword.2.2 (by decide)
      · exact absurd (by decide) hnot

end GoroutineDump.Dump
