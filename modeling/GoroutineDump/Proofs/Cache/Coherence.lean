import Mathlib.Data.List.Basic
import GoroutineDump.Highlight.Cache

/-!
The register names, for each path, the one load of it that is under way; a path is held exactly when
a load of it has succeeded, with the tokens of that load, and never while one is under way.
-/

set_option autoImplicit false
set_option relaxedAutoImplicit false

namespace GoroutineDump.Highlight

open Source (ReadAnswer Token)

private theorem lookup_filter_ne {β : Type} (entries : List (String × β)) (key other : String) :
    (entries.filter fun entry => entry.1 != key).lookup other =
      if other = key then none else entries.lookup other := by
  induction entries with
  | nil => simp
  | cons entry entries ih =>
    obtain ⟨k, value⟩ := entry
    by_cases hk : k = key
    · subst hk
      rw [List.filter_cons_of_neg (by simp), ih]
      by_cases ho : other = k
      · simp [ho]
      · have hne : (other == k) = false := beq_eq_false_iff_ne.mpr ho
        simp [List.lookup_cons, hne, ho]
    · rw [List.filter_cons_of_pos (by simpa using hk), List.lookup_cons, List.lookup_cons]
      by_cases ho : other = k
      · subst ho
        simp [hk]
      · have hne : (other == k) = false := beq_eq_false_iff_ne.mpr ho
        simp [hne, ih]

private theorem lookup_cons_eq {β : Type} (entries : List (String × β)) (key other : String)
    (value : β) :
    List.lookup other ((key, value) :: entries) =
      if other = key then some value else entries.lookup other := by
  rw [List.lookup_cons]
  by_cases ho : other = key
  · simp [ho]
  · have hne : (other == key) = false := beq_eq_false_iff_ne.mpr ho
    simp [hne, ho]

namespace TokenCache

variable {c : TokenCache}

/-! ### Views of the operations -/

@[simp] theorem find?_start (c : TokenCache) (path other : String) :
    (c.start path).find? other = c.find? other := rfl

theorem underWay?_start (c : TokenCache) (path other : String) :
    (c.start path).underWay? other =
      if other = path then some c.loads.length else c.underWay? other :=
  lookup_cons_eq c.register path other c.loads.length

@[simp] theorem loads_start (c : TokenCache) (path : String) :
    (c.start path).loads = c.loads ++ [⟨path, none⟩] := rfl

@[simp] theorem find?_finish (c : TokenCache) (index : Nat) {path : String}
    (result : LoadResult path) (other : String) :
    (c.finish index result).find? other = c.find? other := rfl

private theorem underWay?_finish (c : TokenCache) (index : Nat) {path : String}
    (result : LoadResult path) (other : String) :
    (c.finish index result).underWay? other =
      if other = path then none else c.underWay? other :=
  lookup_filter_ne c.register path other

private theorem find?_publish (c : TokenCache) (path other : String) (tokens : List Token) :
    (c.publish path tokens).find? other = if other = path then some tokens else c.find? other := by
  rw [find?, publish, lookup_cons_eq]
  by_cases ho : other = path
  · simp [ho]
  · simp only [ho, if_false]
    rw [lookup_filter_ne, if_neg ho, find?]

@[simp] theorem underWay?_publish (c : TokenCache) (path other : String) (tokens : List Token) :
    (c.publish path tokens).underWay? other = c.underWay? other := rfl

theorem request_cases (c : TokenCache) (path : String) :
    (∃ tokens, c.find? path = some tokens ∧ c.request path = (.tokens tokens, c)) ∨
    (∃ index, c.find? path = none ∧ c.underWay? path = some index ∧
      c.request path = (.load index, c)) ∨
    (c.find? path = none ∧ c.underWay? path = none ∧
      c.request path = (.load c.loads.length, c.start path)) := by
  cases hf : c.find? path with
  | some tokens => exact .inl ⟨tokens, rfl, by simp [request, hf]⟩
  | none =>
    cases hu : c.underWay? path with
    | some index => exact .inr (.inl ⟨index, rfl, rfl, by simp [request, hf, hu]⟩)
    | none => exact .inr (.inr ⟨rfl, rfl, by simp [request, hf, hu]⟩)

theorem complete_of_underWay {index : Nat} {path : String} (answer : ReadAnswer)
    (h : c.loads[index]? = some ⟨path, none⟩) :
    (∃ tokens, tokensOf path answer = .ok tokens ∧
      c.complete index answer = (c.finish index (.ofAnswer path answer)).publish path tokens) ∨
    (∃ failure, tokensOf path answer = .error failure ∧
      c.complete index answer = c.finish index (.ofAnswer path answer)) := by
  have houtcome : (LoadResult.ofAnswer path answer).outcome = tokensOf path answer := rfl
  cases ho : tokensOf path answer with
  | ok tokens => exact .inl ⟨tokens, rfl, by simp only [complete, h, houtcome, ho]⟩
  | error failure => exact .inr ⟨failure, rfl, by simp only [complete, h, houtcome, ho]⟩

theorem loads_complete {index : Nat} {path : String} (answer : ReadAnswer)
    (h : c.loads[index]? = some ⟨path, none⟩) :
    (c.complete index answer).loads =
      c.loads.set index ⟨path, some (.ofAnswer path answer)⟩ := by
  rcases complete_of_underWay answer h with ⟨_, _, hc⟩ | ⟨_, _, hc⟩ <;> rw [hc] <;> rfl

theorem underWay?_complete {index : Nat} {path : String} (answer : ReadAnswer)
    (h : c.loads[index]? = some ⟨path, none⟩) (other : String) :
    (c.complete index answer).underWay? other =
      if other = path then none else c.underWay? other := by
  have hfinish := underWay?_finish c index (.ofAnswer path answer) other
  rcases complete_of_underWay answer h with ⟨_, _, hc⟩ | ⟨_, _, hc⟩
  · rw [hc, underWay?_publish, hfinish]
  · rw [hc, hfinish]

theorem find?_complete {index : Nat} {path : String} (answer : ReadAnswer)
    (h : c.loads[index]? = some ⟨path, none⟩) (hfree : c.find? path = none) (other : String) :
    (c.complete index answer).find? other =
      if other = path then (tokensOf path answer).toOption else c.find? other := by
  rcases complete_of_underWay answer h with ⟨tokens, hok, hc⟩ | ⟨failure, herr, hc⟩
  · rw [hc, find?_publish, find?_finish, hok]
    rfl
  · rw [hc, find?_finish, herr]
    by_cases ho : other = path
    · simp [ho, hfree, Except.toOption]
    · simp [ho]

theorem held_complete {index : Nat} {path : String} {answer : ReadAnswer} {failure : Failure}
    (h : c.loads[index]? = some ⟨path, none⟩) (herr : tokensOf path answer = .error failure) :
    (c.complete index answer).held = c.held := by
  rcases complete_of_underWay answer h with ⟨tokens, hok, _⟩ | ⟨_, _, hc⟩
  · rw [herr] at hok
    cases hok
  · rw [hc]; rfl

theorem complete_of_not_underWay {index : Nat} (answer : ReadAnswer)
    (h : ∀ path, c.loads[index]? ≠ some ⟨path, none⟩) : c.complete index answer = c := by
  unfold complete
  split
  · next path hload => exact absurd hload (h path)
  · rfl

def readPaths (c : TokenCache) : List String := c.loads.map Load.path

theorem readPaths_start (c : TokenCache) (path : String) :
    (c.start path).readPaths = c.readPaths ++ [path] := by
  rw [readPaths, loads_start, List.map_append, readPaths, List.map_singleton]

theorem readPaths_complete (c : TokenCache) (index : Nat) (answer : ReadAnswer) :
    (c.complete index answer).readPaths = c.readPaths := by
  by_cases hbusy : ∃ path, c.loads[index]? = some ⟨path, none⟩
  · obtain ⟨path, hload⟩ := hbusy
    rw [readPaths, readPaths, loads_complete answer hload]
    apply List.ext_getElem?
    intro i
    rw [List.getElem?_map, List.getElem?_map, List.getElem?_set]
    by_cases hi : index = i
    · subst hi
      have hlt : index < c.loads.length := (List.getElem?_eq_some_iff.mp hload).1
      rw [hload]
      simp [hlt]
    · rw [if_neg hi]
  · rw [complete_of_not_underWay answer fun path hload => hbusy ⟨path, hload⟩]

/-! ### The invariant -/

def Loaded (c : TokenCache) (path : String) (tokens : List Token) : Prop :=
  ∃ (index : Nat) (load : Load), c.loads[index]? = some load ∧ load.path = path ∧
    load.outcome? = some (.ok tokens)

/-- The register, the tokens held and the loads tell the same story. -/
structure Coherent (c : TokenCache) : Prop where
  register_iff : ∀ path index,
    c.underWay? path = some index ↔ c.loads[index]? = some ⟨path, none⟩
  held_iff : ∀ path tokens, c.find? path = some tokens ↔ c.Loaded path tokens
  apart : ∀ path index, c.underWay? path = some index → c.find? path = none

namespace Coherent

theorem empty : Coherent {} where
  register_iff _ _ := by simp [underWay?]
  held_iff _ _ := by simp [find?, Loaded]
  apart _ _ h := by simp [underWay?] at h

private theorem loads_append {c : TokenCache} {path : String} {index : Nat} {load : Load}
    (h : (c.start path).loads[index]? = some load) :
    c.loads[index]? = some load ∨ index = c.loads.length ∧ load = ⟨path, none⟩ := by
  rw [loads_start, List.getElem?_append] at h
  split at h
  · exact .inl h
  · rename_i hle
    right
    have hzero : index - c.loads.length = 0 := by
      by_contra hne
      rw [List.getElem?_eq_none (by simp only [List.length_singleton]; omega)] at h
      exact absurd h (by simp)
    rw [hzero] at h
    exact ⟨by omega, (Option.some.inj h).symm⟩

private theorem getElem?_loads_start {c : TokenCache} {path : String} {index : Nat} {load : Load}
    (h : c.loads[index]? = some load) : (c.start path).loads[index]? = some load := by
  have hlt : index < c.loads.length := (List.getElem?_eq_some_iff.mp h).1
  rw [loads_start, List.getElem?_append_left hlt, h]

theorem start (hc : c.Coherent) {path : String} (hfind : c.find? path = none)
    (hidle : c.underWay? path = none) : (c.start path).Coherent where
  register_iff other index := by
    rw [underWay?_start]
    by_cases ho : other = path
    · subst ho
      simp only [if_true, Option.some.injEq]
      constructor
      · rintro rfl
        simp
      · intro h
        rcases loads_append h with hold | ⟨rfl, -⟩
        · have hbusy := (hc.register_iff _ _).mpr hold
          simp [hidle] at hbusy
        · rfl
    · simp only [ho, if_false]
      constructor
      · intro h
        exact getElem?_loads_start ((hc.register_iff _ _).mp h)
      · intro h
        rcases loads_append h with hold | ⟨-, hload⟩
        · exact (hc.register_iff _ _).mpr hold
        · exact absurd (congrArg Load.path hload) ho
  held_iff other tokens := by
    rw [find?_start, hc.held_iff]
    constructor
    · rintro ⟨index, load, hload, hpath, hok⟩
      exact ⟨index, load, getElem?_loads_start hload, hpath, hok⟩
    · rintro ⟨index, load, hload, hpath, hok⟩
      rcases loads_append hload with hold | ⟨-, rfl⟩
      · exact ⟨index, load, hold, hpath, hok⟩
      · simp [Load.outcome?] at hok
  apart other index h := by
    rw [underWay?_start] at h
    rw [find?_start]
    by_cases ho : other = path
    · exact ho ▸ hfind
    · exact hc.apart other index (by simpa [ho] using h)

theorem request (hc : c.Coherent) (path : String) : (c.request path).2.Coherent := by
  rcases c.request_cases path with ⟨_, _, h⟩ | ⟨_, _, _, h⟩ | ⟨hfind, hidle, h⟩
  · rw [h]; exact hc
  · rw [h]; exact hc
  · rw [h]; exact hc.start hfind hidle

private theorem load_unique (hc : c.Coherent) {path : String} {i j : Nat}
    (hi : c.loads[i]? = some ⟨path, none⟩) (hj : c.loads[j]? = some ⟨path, none⟩) : i = j := by
  have h := (hc.register_iff path i).mpr hi
  rw [(hc.register_iff path j).mpr hj] at h
  exact (Option.some.inj h).symm

theorem find?_eq_none (hc : c.Coherent) {path : String} {index : Nat}
    (hload : c.loads[index]? = some ⟨path, none⟩) : c.find? path = none :=
  hc.apart path index ((hc.register_iff path index).mpr hload)

private theorem register_iff_complete (hc : c.Coherent) {path : String} {index : Nat}
    (hload : c.loads[index]? = some ⟨path, none⟩) (answer : ReadAnswer)
    (other : String) (i : Nat) :
    (c.complete index answer).underWay? other = some i ↔
      (c.complete index answer).loads[i]? = some ⟨other, none⟩ := by
  have hlt : index < c.loads.length := (List.getElem?_eq_some_iff.mp hload).1
  rw [underWay?_complete answer hload, loads_complete answer hload, List.getElem?_set]
  by_cases hi : index = i
  · subst hi
    simp only [hlt, if_true, Option.some.injEq]
    constructor
    · intro h
      by_cases ho : other = path
      · simp [ho] at h
      · rw [if_neg ho, hc.register_iff, hload] at h
        exact absurd (congrArg Load.path (Option.some.inj h)).symm ho
    · intro h
      cases h
  · simp only [hi, if_false]
    by_cases ho : other = path
    · subst ho
      simp only [if_true, reduceCtorEq, false_iff]
      intro h
      exact hi (hc.load_unique hload h)
    · rw [if_neg ho, hc.register_iff]

private theorem loaded_complete {path : String} {index : Nat}
    (hload : c.loads[index]? = some ⟨path, none⟩) (answer : ReadAnswer)
    (other : String) (tokens : List Token) :
    (c.complete index answer).Loaded other tokens ↔
      c.Loaded other tokens ∨ other = path ∧ tokensOf path answer = .ok tokens := by
  have hlt : index < c.loads.length := (List.getElem?_eq_some_iff.mp hload).1
  have hloads := loads_complete answer hload
  constructor
  · rintro ⟨i, load, hi, hpath, hok⟩
    rw [hloads, List.getElem?_set] at hi
    split at hi
    · rw [Option.some.injEq] at hi
      subst hi
      exact .inr ⟨hpath.symm, Option.some.inj hok⟩
    · exact .inl ⟨i, load, hi, hpath, hok⟩
  · rintro (⟨i, load, hi, hpath, hok⟩ | ⟨rfl, hok⟩)
    · have hne : index ≠ i := by
        rintro rfl
        rw [hload] at hi
        cases hi
        simp [Load.outcome?] at hok
      exact ⟨i, load, by rw [hloads, List.getElem?_set_ne hne, hi], hpath, hok⟩
    · exact ⟨index, _, by rw [hloads, List.getElem?_set_self hlt], rfl, by rw [← hok]; rfl⟩

/-- The end of a load keeps the invariant, whatever its read gave. -/
theorem complete (hc : c.Coherent) (index : Nat) (answer : ReadAnswer) :
    (c.complete index answer).Coherent := by
  by_cases hbusy : ∃ path, c.loads[index]? = some ⟨path, none⟩
  · obtain ⟨path, hload⟩ := hbusy
    have hfree := hc.find?_eq_none hload
    constructor
    · exact register_iff_complete hc hload answer
    · intro other tokens
      rw [find?_complete answer hload hfree, loaded_complete hload]
      by_cases ho : other = path
      · subst ho
        have hfresh : ¬c.Loaded other tokens := fun hl => by
          simp [(hc.held_iff other tokens).mpr hl] at hfree
        cases hout : tokensOf other answer <;> simp [hfresh, Except.toOption]
      · simp [ho, hc.held_iff]
    · intro other i hi
      rw [underWay?_complete answer hload] at hi
      rw [find?_complete answer hload hfree]
      by_cases ho : other = path
      · simp [ho] at hi
      · rw [if_neg ho] at hi ⊢
        exact hc.apart other i hi
  · rw [complete_of_not_underWay answer fun path hload => hbusy ⟨path, hload⟩]
    exact hc

end Coherent

/-- The caches that requests and the ends of loads lead to. -/
inductive Reachable : TokenCache → Prop
  | empty : Reachable {}
  | request {c : TokenCache} (path : String) : Reachable c → Reachable (c.request path).2
  | complete {c : TokenCache} (index : Nat) (answer : ReadAnswer) :
      Reachable c → Reachable (c.complete index answer)

theorem Reachable.coherent (h : c.Reachable) : c.Coherent := by
  induction h with
  | empty => exact .empty
  | request path _ ih => exact ih.request path
  | complete index answer _ ih => exact ih.complete index answer

/-! ### Nothing that is held or finished is ever lost or changed -/

/-- What a cache can become: it holds at least as much, and finished loads stay as they are. -/
structure Grows (c d : TokenCache) : Prop where
  held : ∀ path tokens, c.find? path = some tokens → d.find? path = some tokens
  paths : ∀ (index : Nat) (load : Load), c.loads[index]? = some load →
    ∃ later : Load, d.loads[index]? = some later ∧ later.path = load.path
  outcomes : ∀ index outcome,
    c.redeem? (.load index) = some outcome → d.redeem? (.load index) = some outcome

namespace Grows

variable {d e : TokenCache}

theorem refl (c : TokenCache) : Grows c c where
  held _ _ h := h
  paths _ load h := ⟨load, h, rfl⟩
  outcomes _ _ h := h

theorem trans (hcd : Grows c d) (hde : Grows d e) : Grows c e where
  held path tokens h := hde.held path tokens (hcd.held path tokens h)
  paths index load h := by
    obtain ⟨later, hlater, hpath⟩ := hcd.paths index load h
    obtain ⟨last, hlast, hsame⟩ := hde.paths index later hlater
    exact ⟨last, hlast, hsame.trans hpath⟩
  outcomes index outcome h := hde.outcomes index outcome (hcd.outcomes index outcome h)

theorem redeem?_eq_some (h : Grows c d) {ticket : Ticket} {outcome : Outcome}
    (hworth : c.redeem? ticket = some outcome) : d.redeem? ticket = some outcome := by
  cases ticket with
  | tokens tokens => exact hworth
  | load index => exact h.outcomes index outcome hworth

end Grows

theorem redeem?_load_eq_some {index : Nat} {outcome : Outcome} :
    c.redeem? (.load index) = some outcome ↔
      ∃ load, c.loads[index]? = some load ∧ load.outcome? = some outcome :=
  Option.bind_eq_some_iff

theorem grows_request (c : TokenCache) (path : String) : Grows c (c.request path).2 := by
  rcases c.request_cases path with ⟨_, _, h⟩ | ⟨_, _, _, h⟩ | ⟨_, _, h⟩
  · rw [h]; exact .refl c
  · rw [h]; exact .refl c
  · rw [h]
    exact
      { held := fun _ _ hheld => hheld
        paths := fun _ load hload => ⟨load, Coherent.getElem?_loads_start hload, rfl⟩
        outcomes := fun index outcome hout => by
          obtain ⟨load, hload, hoc⟩ := redeem?_load_eq_some.mp hout
          exact redeem?_load_eq_some.mpr ⟨load, Coherent.getElem?_loads_start hload, hoc⟩ }

theorem Coherent.grows_complete (hc : c.Coherent) (index : Nat) (answer : ReadAnswer) :
    Grows c (c.complete index answer) := by
  by_cases hbusy : ∃ path, c.loads[index]? = some ⟨path, none⟩
  · obtain ⟨path, hload⟩ := hbusy
    have hlt : index < c.loads.length := (List.getElem?_eq_some_iff.mp hload).1
    have hfree := hc.find?_eq_none hload
    have hloads := loads_complete answer hload
    constructor
    · intro other tokens hheld
      have hne : other ≠ path := by
        rintro rfl
        simp [hfree] at hheld
      rw [find?_complete answer hload hfree, if_neg hne, hheld]
    · intro i load hi
      by_cases heq : index = i
      · subst heq
        have hsame : load = ⟨path, none⟩ := Option.some.inj (hi.symm.trans hload)
        exact ⟨_, by rw [hloads, List.getElem?_set_self hlt], by rw [hsame]⟩
      · exact ⟨load, by rw [hloads, List.getElem?_set_ne heq, hi], rfl⟩
    · intro i outcome hout
      obtain ⟨load, hi, hoc⟩ := redeem?_load_eq_some.mp hout
      have hne : index ≠ i := by
        rintro rfl
        rw [hload] at hi
        cases hi
        simp [Load.outcome?] at hoc
      exact redeem?_load_eq_some.mpr
        ⟨load, by rw [hloads, List.getElem?_set_ne hne, hi], hoc⟩
  · rw [complete_of_not_underWay answer fun path hload => hbusy ⟨path, hload⟩]
    exact .refl c

/-! ### Tickets -/

/-- A ticket is good for a path: it holds the path's tokens, or waits for a load of the path. -/
def Serves (c : TokenCache) (path : String) : Ticket → Prop
  | .tokens tokens => c.find? path = some tokens
  | .load index => ∃ load : Load, c.loads[index]? = some load ∧ load.path = path

theorem Serves.mono {d : TokenCache} {path : String} {ticket : Ticket} (h : c.Serves path ticket)
    (hgrows : Grows c d) : d.Serves path ticket := by
  cases ticket with
  | tokens tokens => exact hgrows.held path tokens h
  | load index =>
    obtain ⟨load, hload, hpath⟩ := h
    obtain ⟨later, hlater, hsame⟩ := hgrows.paths index load hload
    exact ⟨later, hlater, hsame.trans hpath⟩

theorem Coherent.serves_request (hc : c.Coherent) (path : String) :
    (c.request path).2.Serves path (c.request path).1 := by
  rcases c.request_cases path with ⟨tokens, hfind, h⟩ | ⟨index, _, hbusy, h⟩ | ⟨_, _, h⟩
  · rw [h]; exact hfind
  · rw [h]; exact ⟨_, (hc.register_iff path index).mp hbusy, rfl⟩
  · rw [h]
    exact ⟨⟨path, none⟩, by simp, rfl⟩

/-- Whoever gets tokens for a ticket gets those that are held for the path. -/
theorem Coherent.find?_of_redeem? (hc : c.Coherent) {path : String} {ticket : Ticket}
    {tokens : List Token} (h : c.Serves path ticket)
    (hredeem : c.redeem? ticket = some (.ok tokens)) :
    c.find? path = some tokens := by
  cases ticket with
  | tokens held =>
    have heq : held = tokens := by simpa [redeem?] using hredeem
    exact heq ▸ h
  | load index =>
    obtain ⟨load, hload, hpath⟩ := h
    obtain ⟨same, hsame, hout⟩ := redeem?_load_eq_some.mp hredeem
    have hl : same = load := Option.some.inj (hsame.symm.trans hload)
    exact (hc.held_iff path tokens).mpr ⟨index, load, hload, hpath, hl ▸ hout⟩

end TokenCache

end GoroutineDump.Highlight
