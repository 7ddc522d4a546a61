import GoroutineDump.Proofs.Dump.WellFormed
import GoroutineDump.Proofs.Goroutine.Order
import GoroutineDump.Proofs.Sorting
import GoroutineDump.Settings

set_option autoImplicit false
set_option relaxedAutoImplicit false

namespace GoroutineDump

/-- The largest number of minutes whose seconds have 64 bits. -/
def Duration.mostMinutes : Nat := 307445734561825860

theorem Duration.ofMinutes_le_iff {m n : UInt64} (hm : m.toNat ≤ mostMinutes)
    (hn : n.toNat ≤ mostMinutes) :
    (ofMinutes m).nanoseconds ≤ (ofMinutes n).nanoseconds ↔ m.toNat ≤ n.toNat := by
  have hseconds {k : UInt64} (hk : k.toNat ≤ mostMinutes) :
      (ofMinutes k).nanoseconds = k.toNat * 60 * nanosecondsPerSecond := by
    have hfits : k.toNat * 60 ≤ UInt64.size - 1 := by
      unfold mostMinutes at hk
      have hsize : UInt64.size = 18446744073709551616 := rfl
      omega
    rw [ofMinutes, ofSeconds, Nat.min_eq_left hfits]
  rw [hseconds hm, hseconds hn, Nat.mul_le_mul_right_iff (by decide),
    Nat.mul_le_mul_right_iff (by decide)]

namespace Dump

/-- The minutes that a header line prints, and 0 if it prints none. -/
def PrintsMinutes (line : List Char) (m : Nat) : Prop :=
  ∃ f : HeaderFields, f.Plain ∧ line = f.line ∧ m = f.minutes.elim 0 (Nat.ofDigitChars 10 · 0)

private theorem Header.exists_minutes_of_read {line : List Char} {header : Header}
    (h : Header.read line = .ok header) :
    ∃ m : UInt64, (∀ n, PrintsMinutes line n ↔ n = m.toNat) ∧
      header.blocked = Duration.ofMinutes m := by
  obtain ⟨f, hfields, -, ⟨minutes, hminutes, hblocked⟩, -⟩ := Header.read_eq_ok_iff.mp h
  have hprints (n : Nat) :
      PrintsMinutes line n ↔ n = f.minutes.elim 0 (Nat.ofDigitChars 10 · 0) := by
    constructor
    · rintro ⟨g, hplain, rfl, rfl⟩
      rw [HeaderFields.ofLine?_line hplain, Option.some.injEq] at hfields
      rw [hfields]
    · rintro rfl
      obtain ⟨hplain, hline⟩ := HeaderFields.ofLine?_eq_some_iff.mp hfields
      exact ⟨f, hplain, hline, rfl⟩
  simp only [hprints]
  cases hm : f.minutes with
  | none =>
    rw [hm] at hminutes
    obtain rfl : none = minutes := pure_eq_ok.mp hminutes
    exact ⟨0, fun _ => Iff.rfl, hblocked.symm⟩
  | some ds =>
    rw [hm, Option.mapM_some] at hminutes
    obtain ⟨m, hread, rfl⟩ := map_eq_ok.mp hminutes
    refine ⟨m, fun n => ?_, hblocked.symm⟩
    rw [(readNumber_eq_ok_iff.mp hread).2]
    rfl

def RunPrintsMinutes (run : List (List Char)) (m : Nat) : Prop :=
  ∃ first ∈ run.head?, PrintsMinutes (Text.lineOfPiece first) m

private theorem exists_minutes_of_parse {roots : Roots} {text : String} {gs : List Goroutine}
    (h : parse roots text = .ok gs) :
    ∃ runs, HasRuns (Text.pieces text.toList) runs ∧
      List.Forall₂ (fun run g => ∃ m : UInt64, (∀ n, RunPrintsMinutes run n ↔ n = m.toNat) ∧
        g.blocked = Duration.ofMinutes m) runs gs := by
  refine ⟨records (Text.pieces text.toList), hasRuns_iff.mpr rfl, ?_⟩
  rw [parse, records_dumpLines_eq, mapM_eq_ok_iff, List.forall₂_map_left_iff] at h
  refine h.imp fun run g hread => ?_
  cases run with
  | nil => cases hread
  | cons first rest =>
    obtain ⟨header, body, hheader, -, -, -, rfl⟩ := exists_of_readRecord hread
    obtain ⟨m, hprints, hblocked⟩ := Header.exists_minutes_of_read hheader
    refine ⟨m, fun n => ?_, hblocked⟩
    simp [RunPrintsMinutes, hprints]

end Dump

namespace BlockedRange

def Admits (r : BlockedRange) (g : Goroutine) : Prop :=
  (∀ low ∈ r.min, low.nanoseconds ≤ g.blocked.nanoseconds) ∧
    ∀ high ∈ r.max, g.blocked.nanoseconds ≤ high.nanoseconds

private theorem includes_iff {r : BlockedRange} {g : Goroutine} :
    r.includes g = true ↔ r.Admits g := by
  simp [includes, Admits, Option.all_eq_true]

instance (r : BlockedRange) (g : Goroutine) : Decidable (r.Admits g) :=
  decidable_of_iff _ includes_iff

/-- What is kept and what is counted does not depend on whether there are bounds. -/
theorem select_eq (r : BlockedRange) (gs : List Goroutine) :
    r.select gs = (gs.filter (r.Admits ·), gs.length - (gs.filter (r.Admits ·)).length) := by
  have hfilter : gs.filter (r.Admits ·) = gs.filter r.includes := by
    refine List.filter_congr fun g _ => ?_
    rw [Bool.eq_iff_iff, decide_eq_true_iff, includes_iff]
  rw [select, hfilter]
  split
  · next hnone =>
    obtain ⟨hmin, hmax⟩ := Bool.and_eq_true_iff.mp hnone
    have hall : gs.filter r.includes = gs := by
      rw [List.filter_eq_self]
      intro g _
      simp [includes, Option.isNone_iff_eq_none.mp hmin, Option.isNone_iff_eq_none.mp hmax]
    rw [hall, Nat.sub_self]
  · rfl

private theorem select_sortGoroutines (r : BlockedRange) (gs : List Goroutine) :
    r.select (sortGoroutines gs) = (sortGoroutines (r.select gs).1, (r.select gs).2) := by
  have hkept : (sortGoroutines gs).filter (r.Admits ·) =
      sortGoroutines (gs.filter (r.Admits ·)) := Sorting.filter_mergeSort _ gs
  have hlength (l : List Goroutine) : (sortGoroutines l).length = l.length :=
    (List.mergeSort_perm l _).length_eq
  rw [select_eq, select_eq, hkept, hlength, hlength]

theorem length_select (r : BlockedRange) (gs : List Goroutine) :
    (r.select gs).1.length + (r.select gs).2 = gs.length := by
  rw [select_eq]
  exact Nat.add_sub_cancel' (List.length_filter_le _ gs)

end BlockedRange

def Settings.AdmitsMinutes (s : Settings) (m : Nat) : Prop :=
  (∀ low ∈ s.minMinutes, low.toNat ≤ m) ∧ ∀ high ∈ s.maxMinutes, m ≤ high.toNat

def Settings.HasFittingBounds (s : Settings) : Prop :=
  (∀ low ∈ s.minMinutes, low.toNat ≤ Duration.mostMinutes) ∧
    ∀ high ∈ s.maxMinutes, high.toNat ≤ Duration.mostMinutes

private theorem Settings.admits_blockedRange_iff (s : Settings) (hs : s.HasFittingBounds)
    {g : Goroutine}
    {m : UInt64} (hm : m.toNat ≤ Duration.mostMinutes) (hg : g.blocked = Duration.ofMinutes m) :
    s.blockedRange.Admits g ↔ s.AdmitsMinutes m.toNat := by
  have hlow : (∀ low ∈ s.minMinutes.map Duration.ofMinutes,
      low.nanoseconds ≤ g.blocked.nanoseconds) ↔ ∀ low ∈ s.minMinutes, low.toNat ≤ m.toNat := by
    simp only [Option.mem_def, Option.map_eq_some_iff, forall_exists_index, and_imp,
      forall_apply_eq_imp_iff₂]
    refine forall₂_congr fun low hlow => ?_
    rw [hg, Duration.ofMinutes_le_iff (hs.1 low hlow) hm]
  have hhigh : (∀ high ∈ s.maxMinutes.map Duration.ofMinutes,
      g.blocked.nanoseconds ≤ high.nanoseconds) ↔ ∀ high ∈ s.maxMinutes, m.toNat ≤ high.toNat := by
    simp only [Option.mem_def, Option.map_eq_some_iff, forall_exists_index, and_imp,
      forall_apply_eq_imp_iff₂]
    refine forall₂_congr fun high hhigh => ?_
    rw [hg, Duration.ofMinutes_le_iff hm (hs.2 high hhigh)]
  exact and_congr hlow hhigh

/-- Selecting goroutines commutes with sorting them and accounts for each of them, whether or not
there are bounds. Of a dump that is read those are kept whose headers print minutes within the
bounds that are configured, as long as the seconds of all these minutes have 64 bits; a header that
prints none counts as 0. -/
theorem BlockedRange.select_commutes_and_accounts :
    (∀ (r : BlockedRange) (gs : List Goroutine),
      r.select (sortGoroutines gs) = (sortGoroutines (r.select gs).1, (r.select gs).2) ∧
      (r.select gs).1 = gs.filter (r.Admits ·) ∧
      (r.select gs).1.length + (r.select gs).2 = gs.length) ∧
    ∀ (roots : Roots) (text : String) (gs : List Goroutine) (s : Settings),
      Dump.parse roots text = .ok gs → s.HasFittingBounds →
      ∃ runs, Dump.HasRuns (Text.pieces text.toList) runs ∧
        List.Forall₂ (fun run g => ∃ m, (∀ n, Dump.RunPrintsMinutes run n ↔ n = m) ∧
          (m ≤ Duration.mostMinutes →
            (g ∈ (s.blockedRange.select gs).1 ↔ s.AdmitsMinutes m))) runs gs := by
  constructor
  · intro r gs
    exact ⟨r.select_sortGoroutines gs, congrArg Prod.fst (r.select_eq gs), r.length_select gs⟩
  · intro roots text gs s hparse hs
    obtain ⟨runs, hruns, hall⟩ := Dump.exists_minutes_of_parse hparse
    refine ⟨runs, hruns, ?_⟩
    have hmembers := List.forall₂_iff_zip.mp hall
    refine List.forall₂_iff_zip.mpr ⟨hmembers.1, fun hmem => ?_⟩
    obtain ⟨m, hprints, hblocked⟩ := hmembers.2 hmem
    refine ⟨m.toNat, hprints, fun hm => ?_⟩
    rw [select_eq, List.mem_filter, decide_eq_true_iff, s.admits_blockedRange_iff hs hm hblocked]
    exact and_iff_right (List.of_mem_zip hmem).2

def dumpOfThree : String :=
  "goroutine 1 [x]:\nf(1)\n\t_cgo_x:3\n\ngoroutine 2 [y, 4 minutes]:\nf(1)\n\t_cgo_x:3\n\n" ++
    "goroutine 3 [z, 5 minutes, locked to thread]:\nf(1)\n\t_cgo_x:3\n"

private def ofThree (id : UInt64) (state : String) (minutes : UInt64) (locked : Bool) :
    Goroutine where
  id := id
  state := state
  blocked := Duration.ofMinutes minutes
  locked := locked
  stack := [⟨⟨.generated, "_cgo_x", 3⟩, { package := "", method := "f", args := "1" }, {}⟩]

private theorem parse_dumpOfThree : Dump.parse {} dumpOfThree =
    .ok [ofThree 1 "x" 0 false, ofThree 2 "y" 4 false, ofThree 3 "z" 5 true] := by
  have hrecords : Dump.records (Text.dumpLines dumpOfThree.toList) =
      [["goroutine 1 [x]:".toList, "f(1)".toList, "\t_cgo_x:3".toList],
        ["goroutine 2 [y, 4 minutes]:".toList, "f(1)".toList, "\t_cgo_x:3".toList],
        ["goroutine 3 [z, 5 minutes, locked to thread]:".toList, "f(1)".toList,
          "\t_cgo_x:3".toList]] := by
    decide +kernel
  rw [Dump.parse, hrecords, Dump.mapM_eq_ok_iff]
  exact .cons rfl (.cons rfl (.cons rfl .nil))

theorem BlockedRange.select_commutes_and_accounts_ofThree :
    ∃ (gs : List Goroutine) (s : Settings), Dump.parse {} dumpOfThree = .ok gs ∧
      s = { minMinutes := some 4, maxMinutes := some 4 } ∧ s.HasFittingBounds ∧
      ((s.blockedRange.select gs).1.map (·.id), (s.blockedRange.select gs).2) = ([2], 2) ∧
      ∃ runs, Dump.HasRuns (Text.pieces dumpOfThree.toList) runs ∧
        List.Forall₂ (fun run g => ∃ m, (∀ n, Dump.RunPrintsMinutes run n ↔ n = m) ∧
          (m ≤ Duration.mostMinutes →
            (g ∈ (s.blockedRange.select gs).1 ↔ s.AdmitsMinutes m))) runs gs := by
  have hfits : ({ minMinutes := some 4, maxMinutes := some 4 } : Settings).HasFittingBounds := by
    constructor
    · rintro _ ⟨⟩
      decide
    · rintro _ ⟨⟩
      decide
  exact ⟨_, _, parse_dumpOfThree, rfl, hfits, by decide,
    select_commutes_and_accounts.2 {} dumpOfThree _ _ parse_dumpOfThree hfits⟩

end GoroutineDump
