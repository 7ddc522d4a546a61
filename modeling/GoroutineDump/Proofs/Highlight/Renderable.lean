import GoroutineDump.Proofs.Dump.Origins
import GoroutineDump.Proofs.Markup.Causes

set_option autoImplicit false
set_option relaxedAutoImplicit false

namespace GoroutineDump

open Dump Highlight
open Source (Token)

/-- The number of a line that a location line writes, behind the longest path that it splits with. -/
def Dump.WritesLine (place : List Char) (n : Nat) : Prop :=
  ∃ path ds, SplitsAt place path ds ∧
    (∀ other digits, SplitsAt place other digits → other.length ≤ path.length) ∧
    n = Nat.ofDigitChars 10 ds 0

def Dump.WritesLineZero (text : String) : Prop :=
  ∃ runs, HasRuns (Text.dumpLines text.toList) runs ∧ ∃ record ∈ runs,
    ∃ frames, HasFrames record frames ∧ ∃ lines ∈ frames, WritesLine lines.2 0

/-- The line behind a place has a number of 64 bits, or it is not asked for. -/
def CountsOn (line : UInt64) (context : Int) : Prop := context ≤ 0 ∨ line.toNat + 1 < 2 ^ 64

/-- Goroutines that can be rendered. Their frames stand in lines that there may be; there is an excerpt
around each of them; and if a pass over some of them fails, its caller has cancelled it, or a load of
the source of a frame has ended in it with an answer that gives no tokens. Of excerpts that would have
to go on behind the largest line number nothing is said. -/
structure Renderable (gs : List Goroutine) : Prop where
  line : ∀ g ∈ gs, ∀ f ∈ g.stack, 1 ≤ f.location.line.toNat
  excerpt : ∀ g ∈ gs, ∀ f ∈ g.stack, ∀ (options : RenderOptions) (tokens : List Token)
    (context : Int), CountsOn f.location.line context →
      (excerpt? options tokens f.location.line context).isSome = true
  pass : ∀ (h : Highlighter) (options : MarkupOptions) (permits : Nat) (cancelled : Bool)
    (cache : TokenCache) (marked : List Goroutine) (p : Pass) (failure : Failure),
    cache.Reachable → (∀ g ∈ marked, g ∈ gs) →
    (∀ g ∈ marked.take (options.count marked.length), ∀ f ∈ g.stack,
      CountsOn f.location.line options.context) →
    Pass.Run h options permits cancelled cache marked p → p.conclude marked = .error failure →
    (failure = .cancelled ∧ p.cancelled = true) ∨
      ∃ g ∈ marked.take (options.count marked.length), ∃ f ∈ g.stack,
        cache.FailedSince p.cache (h.roots.pathOf f.location) failure

variable {roots : Roots} {gs : List Goroutine}

theorem renderable_iff :
    Renderable gs ↔ ∀ g ∈ gs, ∀ f ∈ g.stack, 1 ≤ f.location.line.toNat := by
  refine ⟨Renderable.line, fun hline => ?_⟩
  have hne (g : Goroutine) (hg : g ∈ gs) (f : Frame) (hf : f ∈ g.stack) : f.location.line ≠ 0 := by
    intro hzero
    have hpositive := hline g hg f hf
    rw [hzero] at hpositive
    cases hpositive
  constructor
  case line => exact hline
  case excerpt =>
    intro g hg f hf options tokens context _
    rw [Option.isSome_iff_ne_none, Ne, excerpt?_eq_none_iff]
    exact fun hnone => hne g hg f hf hnone.2
  case pass =>
    intro h options permits cancelled cache marked p failure hcache hmarked _ hrun hfails
    refine (hrun.exists_cause hcache hfails).imp_right ?_
    rintro ⟨g, hg, f, hf, hcause⟩
    cases hcause with
    | source hfailed => exact ⟨g, hg, f, hf, hfailed⟩
    | line hzero => exact absurd hzero (hne g (hmarked g (List.mem_of_mem_take hg)) f hf)

private theorem Dump.LocationLine.writesLine_iff_of_read {line : List Char} {place : LocationLine}
    (hfeed : '\n' ∉ line) (h : LocationLine.read roots line = .ok place) {n : Nat} :
    WritesLine line n ↔ n = place.location.line.toNat := by
  obtain ⟨f, hfields, -, hnumber, -⟩ := read_eq_ok_iff.mp h
  rw [(readNumber_eq_ok_iff.mp hnumber).2]
  constructor
  · rintro ⟨path, ds, hsplit, hlast, rfl⟩
    obtain ⟨extra, hsame⟩ := (LocationFields.exists_ofLine?_iff hfeed).mpr ⟨hsplit, hlast⟩
    obtain rfl := Option.some.inj (hsame.symm.trans hfields)
    rfl
  · rintro rfl
    obtain ⟨hsplit, hlast⟩ := (LocationFields.exists_ofLine?_iff hfeed).mp ⟨f.extra, hfields⟩
    exact ⟨f.path, f.line, hsplit, hlast, rfl⟩

private theorem Dump.ReadFrom.writesLine {frames : List (List Char × List Char)}
    {said : List (CallLine × LocationLine)} {g : Goroutine} (h : ReadFrom roots frames said g) :
    List.Forall₂ (fun lines f => ∀ n, WritesLine lines.2 n ↔ n = f.location.line.toNat) frames
      g.stack := by
  obtain ⟨hfeed, hreads, hstack, -, -⟩ := h
  rw [hstack]
  clear hstack
  induction hreads with
  | nil => exact .nil
  | cons hread _ ih =>
    rw [List.forall_mem_cons] at hfeed
    exact .cons (fun _ => LocationLine.writesLine_iff_of_read hfeed.1.2 hread.2) (ih hfeed.2)

private theorem exists_mem_iff_of_forall₂ {α β : Type} {R : α → β → Prop} {P : α → Prop}
    {Q : β → Prop} {as : List α} {bs : List β} (h : List.Forall₂ R as bs)
    (hiff : ∀ a b, R a b → (P a ↔ Q b)) : (∃ a ∈ as, P a) ↔ ∃ b ∈ bs, Q b := by
  induction h with
  | nil => simp
  | cons hab _ ih => rw [List.exists_mem_cons_iff, List.exists_mem_cons_iff, hiff _ _ hab, ih]

private theorem writesLineZero_iff {text : String} {runs : List (List (List Char))}
    (hruns : HasRuns (Text.dumpLines text.toList) runs)
    (hall : List.Forall₂ (fun record g => ∃ frames said, HasFrames record frames ∧
      ReadFrom roots frames said g) runs gs) :
    WritesLineZero text ↔ ∃ g ∈ gs, ∃ f ∈ g.stack, 0 = f.location.line.toNat := by
  have hrecords : WritesLineZero text ↔ ∃ record ∈ runs, ∃ frames, HasFrames record frames ∧
      ∃ lines ∈ frames, WritesLine lines.2 0 := by
    constructor
    · rintro ⟨others, hothers, hzero⟩
      obtain rfl := hothers.records_eq.symm.trans hruns.records_eq
      exact hzero
    · exact fun hzero => ⟨runs, hruns, hzero⟩
  rw [hrecords]
  refine exists_mem_iff_of_forall₂ hall ?_
  rintro record g ⟨frames, said, hframes, hread⟩
  rw [← exists_mem_iff_of_forall₂ hread.writesLine fun _ _ hwrites => hwrites 0]
  constructor
  · rintro ⟨others, hothers, hzero⟩
    obtain rfl := hothers.unique hframes
    exact hzero
  · exact fun hzero => ⟨frames, hframes, hzero⟩

/-- Each frame that is read stands in the line that its location line writes. What is read from a dump
can be rendered exactly if none of its frames is said to stand in line 0. -/
theorem parse_renderable {text : String} (h : parse roots text = .ok gs) :
    (∃ runs, HasRuns (Text.dumpLines text.toList) runs ∧
      List.Forall₂ (fun record g => ∃ frames, HasFrames record frames ∧
        List.Forall₂ (fun lines f => ∀ n, WritesLine lines.2 n ↔ n = f.location.line.toNat) frames
          g.stack) runs gs) ∧
    (Renderable gs ↔ ¬ WritesLineZero text) := by
  obtain ⟨runs, hruns, hall⟩ := exists_frames_of_parse h
  constructor
  · refine ⟨runs, hruns, hall.imp ?_⟩
    rintro record g ⟨frames, said, hframes, hread⟩
    exact ⟨frames, hframes, hread.writesLine⟩
  · rw [renderable_iff, writesLineZero_iff hruns hall]
    simp only [not_exists, not_and, Nat.one_le_iff_ne_zero, Ne, eq_comm]

def zerosElsewhere : String :=
  "goroutine 1 [running]:\nmain.f()\n\t_cgo_a:0:12 +0x0\nmain.g()\n\t_cgo_b:007"

theorem parse_renderable_zerosElsewhere :
    ∃ gs, parse {} zerosElsewhere = .ok gs ∧
      gs.map (fun g => g.stack.map (·.location.line)) = [[12, 7]] ∧ Renderable gs ∧
      ¬ WritesLineZero zerosElsewhere := by
  have hrecords : records (Text.dumpLines zerosElsewhere.toList) =
      [["goroutine 1 [running]:".toList, "main.f()".toList, "\t_cgo_a:0:12 +0x0".toList,
        "main.g()".toList, "\t_cgo_b:007".toList]] := by
    decide +kernel
  obtain ⟨g, hread, hlines⟩ : ∃ g, readRecord {}
      ["goroutine 1 [running]:".toList, "main.f()".toList, "\t_cgo_a:0:12 +0x0".toList,
        "main.g()".toList, "\t_cgo_b:007".toList] = .ok g ∧
      g.stack.map (·.location.line) = [12, 7] := ⟨_, rfl, rfl⟩
  have hparse := parse_of_records hrecords hread
  have hrenderable : Renderable [g] := by
    rw [renderable_iff, List.forall_mem_singleton]
    intro f hf
    have hmem : f.location.line ∈ g.stack.map (·.location.line) := List.mem_map_of_mem hf
    rw [hlines, List.mem_cons, List.mem_singleton] at hmem
    rcases hmem with hline | hline <;> rw [hline] <;> decide
  exact ⟨[g], hparse, congrArg ([·]) hlines, hrenderable, (parse_renderable hparse).2.mp hrenderable⟩

def placedAtZero : String := "goroutine 1 [running]:\nmain.work()\n\t_cgo_a:0"

private def failsAtZero : List Event :=
  [.advance 0, .advance 0, .advance 0, .answer 0 (.ok []), .advance 0, .advance 0, .advance 0]

/-- Line 0 is accepted, and a pass fails for it although its source can be read and its caller does
not cancel it. -/
theorem parse_placedAtZero :
    ∃ gs, parse {} placedAtZero = .ok gs ∧
      gs.map (fun g => g.stack.map (·.location.line)) = [[0]] ∧ ¬ Renderable gs ∧
      ∃ p, Pass.Run {} {} workers false {} gs p ∧ p.conclude gs = .error .noSuchLine := by
  have hrecords : records (Text.dumpLines placedAtZero.toList) =
      [["goroutine 1 [running]:".toList, "main.work()".toList, "\t_cgo_a:0".toList]] := by
    decide +kernel
  let g : Goroutine :=
    { id := 1, state := "running",
      stack := [⟨⟨.generated, "_cgo_a", 0⟩, { package := "main", method := "work" }, {}⟩] }
  have hread : readRecord {}
      ["goroutine 1 [running]:".toList, "main.work()".toList, "\t_cgo_a:0".toList] = .ok g := rfl
  have hends : ((failsAtZero.foldlM (Pass.step? {} 0)
      (Pass.start {} workers false [g.locations])).any fun p =>
        p.isOver && p.failure == some .noSuchLine) = true := by
    decide +kernel
  obtain ⟨p, hp, hover⟩ := (Option.any_eq_true _ _).mp hends
  rw [Bool.and_eq_true, beq_iff_eq] at hover
  refine ⟨[g], parse_of_records hrecords hread, rfl, ?_, p, ?_, Pass.conclude_eq_error_iff.mpr hover.2⟩
  · intro hrenderable
    exact absurd (hrenderable.line g List.mem_cons_self _ List.mem_cons_self) (by decide)
  · exact .ended (by decide) (Pass.leads_iff.mpr ⟨failsAtZero, hp⟩) hover.1

end GoroutineDump
