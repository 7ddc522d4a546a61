import Mathlib.Data.List.Count
import GoroutineDump.Proofs.Cache.Holding

/-!
Where the sources are always answered in the same way, the first cache alone settles what a path
comes to: the tokens held for it, or else what follows from the answer to its read.
-/

set_option autoImplicit false
set_option relaxedAutoImplicit false

namespace GoroutineDump.Highlight

open Source (ReadAnswer Token)

private theorem tokensOf_ne_cancelled (path : String) (answer : ReadAnswer) :
    tokensOf path answer ≠ .error .cancelled := by
  intro h
  unfold tokensOf at h
  split at h
  · cases h
  · split at h
    · cases h
    · next text _ =>
      cases htokens : Source.tokenize (.ofPath path) text with
      | error fault => simp [htokens, Except.mapError] at h
      | ok tokens => simp [htokens, Except.mapError] at h

/-- The bytes of an answer are UTF-8, and in the language of the path they are cut into these
tokens. -/
def Yields (path : String) (answer : ReadAnswer) (tokens : List Token) : Prop :=
  ∃ bytes text, answer = .ok bytes ∧ Text.decodeUtf8 bytes = .ok text ∧
    Source.tokenize (.ofPath path) text = .ok tokens

theorem tokensOf_eq_ok_iff {path : String} {answer : ReadAnswer} {tokens : List Token} :
    tokensOf path answer = .ok tokens ↔ Yields path answer tokens := by
  constructor
  · intro h
    unfold tokensOf at h
    split at h
    · cases h
    · next bytes =>
      split at h
      · cases h
      · next text htext =>
        cases htokens : Source.tokenize (.ofPath path) text with
        | error fault => simp [htokens, Except.mapError] at h
        | ok found =>
          obtain rfl : found = tokens := by simpa [htokens, Except.mapError] using h
          exact ⟨bytes, text, rfl, htext, htokens⟩
  · rintro ⟨bytes, text, rfl, htext, htokens⟩
    simp [tokensOf, htext, htokens, Except.mapError]

namespace TokenCache

/-- What a path comes to: the tokens held for it, or else what follows from the answer to its
read. -/
def settled (c : TokenCache) (read : String → Id ReadAnswer) (path : String) : Outcome :=
  match c.find? path with
  | some tokens => .ok tokens
  | none => tokensOf path (read path).run

variable {c d : TokenCache} {read : String → Id ReadAnswer}

theorem settled_ne_cancelled (c : TokenCache) (read : String → Id ReadAnswer) (path : String) :
    c.settled read path ≠ .error .cancelled := by
  unfold settled
  split
  · simp
  · exact tokensOf_ne_cancelled path _

private theorem settled_of_find? {path : String} {tokens : List Token}
    (h : c.find? path = some tokens) : c.settled read path = .ok tokens := by
  rw [settled, h]

private theorem settled_of_not_held {path : String} (h : c.find? path = none) :
    c.settled read path = tokensOf path (read path).run := by
  rw [settled, h]

private theorem redeem?_complete_self {index : Nat} {path : String} (answer : ReadAnswer)
    (h : c.loads[index]? = some ⟨path, none⟩) :
    (c.complete index answer).redeem? (.load index) = some (tokensOf path answer) := by
  have hlt : index < c.loads.length := (List.getElem?_eq_some_iff.mp h).1
  rw [redeem?_load_eq_some, loads_complete answer h]
  exact ⟨_, List.getElem?_set_self hlt, rfl⟩

private theorem redeem?_complete_of_ne {index other : Nat} {path : String} (answer : ReadAnswer)
    (h : c.loads[index]? = some ⟨path, none⟩) (hne : index ≠ other) :
    (c.complete index answer).redeem? (.load other) = c.redeem? (.load other) := by
  rw [redeem?, redeem?, loads_complete answer h, List.getElem?_set_ne hne]

theorem Coherent.get_eq_settled (hc : c.Coherent) (read : String → Id ReadAnswer) (path : String) :
    (c.get read path).run.1 = c.settled read path := by
  have hget : (c.get read path).run.1 =
      ((c.request path).2.await read (c.request path).1).run.redeem (c.request path).1 := rfl
  have hawaited {d : TokenCache} {index : Nat} (hload : d.loads[index]? = some ⟨path, none⟩) :
      (d.await read (.load index)).run.redeem (.load index) = tokensOf path (read path).run := by
    have hawait : (d.await read (.load index)).run = d.complete index (read path).run := by
      rw [await, hload]
      rfl
    rw [hawait, redeem, redeem?_complete_self _ hload, Option.getD_some]
  rw [hget]
  rcases c.request_cases path with ⟨tokens, hfind, h⟩ | ⟨index, hfind, hbusy, h⟩ | ⟨hfind, -, h⟩
  · rw [h, settled_of_find? hfind]
    rfl
  · rw [h, settled_of_not_held hfind]
    exact hawaited ((hc.register_iff path index).mp hbusy)
  · rw [h, settled_of_not_held hfind]
    exact hawaited (by simp)

theorem redeem?_request (c : TokenCache) (path : String) (ticket : Ticket) :
    (c.request path).2.redeem? ticket = c.redeem? ticket := by
  rcases c.request_cases path with ⟨_, _, h⟩ | ⟨_, _, _, h⟩ | ⟨_, _, h⟩
  · rw [h]
  · rw [h]
  · rw [h]
    cases ticket with
    | tokens held => rfl
    | load index =>
      rw [redeem?, redeem?, loads_start]
      rcases Nat.lt_trichotomy index c.loads.length with hlt | rfl | hgt
      · rw [List.getElem?_append_left hlt]
      · simp [Load.outcome?]
      · have hlength : (c.loads ++ [({ path } : Load)]).length ≤ index := by
          rw [List.length_append, List.length_singleton]
          omega
        rw [List.getElem?_eq_none hlength, List.getElem?_eq_none (Nat.le_of_lt hgt)]

/-- One cache comes after another, and what it holds is what the paths came to at first. -/
structure Follows (c : TokenCache) (read : String → Id ReadAnswer) (d : TokenCache) : Prop where
  coherent : d.Coherent
  grows : Grows c d
  held : ∀ path tokens, d.find? path = some tokens → c.settled read path = .ok tokens

namespace Follows

theorem refl (hc : c.Coherent) : c.Follows read c where
  coherent := hc
  grows := .refl c
  held _ _ h := settled_of_find? h

theorem request (h : c.Follows read d) (path : String) : c.Follows read (d.request path).2 where
  coherent := h.coherent.request path
  grows := h.grows.trans (d.grows_request path)
  held other tokens hfind := by
    have hsame : (d.request path).2.find? other = d.find? other := by
      rcases d.request_cases path with ⟨_, _, hr⟩ | ⟨_, _, _, hr⟩ | ⟨_, _, hr⟩ <;> rw [hr]
      rfl
    exact h.held other tokens (hsame ▸ hfind)

private theorem settled_of_underWay (h : c.Follows read d) {index : Nat} {path : String}
    (hload : d.loads[index]? = some ⟨path, none⟩) :
    c.settled read path = tokensOf path (read path).run := by
  have hfree := h.coherent.find?_eq_none hload
  refine settled_of_not_held ?_
  cases hfind : c.find? path with
  | none => rfl
  | some tokens =>
    rw [h.grows.held path tokens hfind] at hfree
    cases hfree

theorem complete (h : c.Follows read d) {index : Nat} {path : String}
    (hload : d.loads[index]? = some ⟨path, none⟩) :
    c.Follows read (d.complete index (read path).run) where
  coherent := h.coherent.complete index _
  grows := h.grows.trans (h.coherent.grows_complete index _)
  held other tokens hfind := by
    rw [find?_complete _ hload (h.coherent.find?_eq_none hload)] at hfind
    split at hfind
    · next ho =>
      subst ho
      rw [h.settled_of_underWay hload]
      cases hout : tokensOf other (read other).run with
      | error failure => simp [hout, Except.toOption] at hfind
      | ok found => simpa [hout, Except.toOption] using hfind
    · exact h.held other tokens hfind

theorem redeem?_ticket (h : c.Follows read d) {path : String} {outcome : Outcome}
    (hredeem : (d.request path).2.redeem? (d.request path).1 = some outcome) :
    outcome = c.settled read path := by
  rw [redeem?_request] at hredeem
  rcases d.request_cases path with ⟨tokens, hfind, hr⟩ | ⟨index, _, hbusy, hr⟩ | ⟨_, _, hr⟩
  · rw [hr] at hredeem
    rw [h.held path tokens hfind]
    exact (Option.some.inj hredeem).symm
  · have hload := (h.coherent.register_iff path index).mp hbusy
    rw [hr] at hredeem
    simp [redeem?, hload, Load.outcome?] at hredeem
  · rw [hr] at hredeem
    simp [redeem?] at hredeem

theorem redeem?_complete (h : c.Follows read d) {index : Nat} {path other : String}
    {ticket : Ticket}
    (hload : d.loads[index]? = some ⟨path, none⟩) (hserves : d.Serves other ticket)
    (hworth : ∀ outcome, d.redeem? ticket = some outcome → outcome = c.settled read other)
    {outcome : Outcome}
    (hredeem : (d.complete index (read path).run).redeem? ticket = some outcome) :
    outcome = c.settled read other := by
  cases ticket with
  | tokens held => exact hworth outcome hredeem
  | load i =>
    by_cases hi : index = i
    · subst hi
      obtain ⟨load, hsame, rfl⟩ := hserves
      obtain rfl : load = ⟨path, none⟩ := Option.some.inj (hsame.symm.trans hload)
      rw [redeem?_complete_self _ hload] at hredeem
      rw [h.settled_of_underWay hload]
      exact (Option.some.inj hredeem).symm
    · rw [redeem?_complete_of_ne _ hload hi] at hredeem
      exact hworth outcome hredeem

end Follows

end TokenCache

namespace TokenCache

variable {read : String → Id ReadAnswer} {c d : TokenCache} {asked : List (String × Ticket)}

/-- Requests are made one after the other, and in between loads of paths that were asked for end,
each with what reading its path gives. The requests are listed with their tickets. Where a path is
asked for again, `again` holds of the cache and the path. -/
inductive ServedWhen (again : TokenCache → String → Prop) (read : String → Id ReadAnswer)
    (c : TokenCache) : List (String × Ticket) → TokenCache → Prop
  | start : ServedWhen again read c [] c
  | ask {asked : List (String × Ticket)} {d : TokenCache} (path : String) :
      ServedWhen again read c asked d → (path ∈ asked.map Prod.fst → again d path) →
      ServedWhen again read c (asked ++ [(path, (d.request path).1)]) (d.request path).2
  | answer {asked : List (String × Ticket)} {d : TokenCache} {index : Nat} {path : String} :
      ServedWhen again read c asked d → path ∈ asked.map Prod.fst →
      d.loads[index]? = some ⟨path, none⟩ →
      ServedWhen again read c asked (d.complete index (read path).run)

abbrev Served (read : String → Id ReadAnswer) (c : TokenCache) :
    List (String × Ticket) → TokenCache → Prop :=
  ServedWhen (fun _ _ => True) read c

def Answered (asked : List (String × Ticket)) (d : TokenCache) : Prop :=
  ∀ entry ∈ asked, (d.redeem? entry.2).isSome = true

private theorem Answered.mono (h : Answered asked c) (hgrows : Grows c d) : Answered asked d := by
  intro entry hmem
  obtain ⟨outcome, hout⟩ := Option.isSome_iff_exists.mp (h entry hmem)
  rw [hgrows.redeem?_eq_some hout]
  rfl

def readsFor (c : TokenCache) (path : String) : Nat :=
  if c.find? path = none ∧ c.underWay? path = none then 1 else 0

theorem count_readPaths_request (c : TokenCache) (path other : String) :
    (c.request path).2.readPaths.count other =
      c.readPaths.count other + if path = other then c.readsFor path else 0 := by
  rcases c.request_cases path with ⟨_, hfind, h⟩ | ⟨_, hfind, hbusy, h⟩ | ⟨hfind, hidle, h⟩
  · simp [h, readsFor, hfind]
  · simp [h, readsFor, hbusy]
  · simp [h, readsFor, hfind, hidle, readPaths_start, List.count_singleton]

namespace ServedWhen

variable {again : TokenCache → String → Prop}

theorem served (h : ServedWhen again read c asked d) : Served read c asked d := by
  induction h with
  | start => exact .start
  | ask path _ _ ih => exact ih.ask path fun _ => trivial
  | answer _ hmem hload ih => exact ih.answer hmem hload

/-! ### What is known of the cache -/

theorem reachable (hc : c.Reachable) (h : ServedWhen again read c asked d) : d.Reachable := by
  induction h with
  | start => exact hc
  | ask path _ _ ih => exact ih.request path
  | answer _ _ _ ih => exact ih.complete _ _

theorem follows (hc : c.Coherent) (h : ServedWhen again read c asked d) : c.Follows read d := by
  induction h with
  | start => exact .refl hc
  | ask path _ _ ih => exact ih.request path
  | answer _ _ hload ih => exact ih.complete hload

private theorem serves (hc : c.Coherent) (h : ServedWhen again read c asked d) :
    ∀ entry ∈ asked, d.Serves entry.1 entry.2 := by
  induction h with
  | start => exact nofun
  | @ask asked d path hserved _ ih =>
    have hd := (hserved.follows hc).coherent
    intro entry hmem
    rcases List.mem_append.mp hmem with hold | hnew
    · exact (ih entry hold).mono (d.grows_request path)
    · rw [List.mem_singleton.mp hnew]
      exact hd.serves_request path
  | answer hserved _ hload ih =>
    have hd := (hserved.follows hc).coherent
    intro entry hmem
    exact (ih entry hmem).mono (hd.grows_complete _ _)

theorem redeem?_eq (hc : c.Coherent) (h : ServedWhen again read c asked d) :
    ∀ entry ∈ asked, ∀ outcome, d.redeem? entry.2 = some outcome →
      outcome = c.settled read entry.1 := by
  induction h with
  | start => exact nofun
  | @ask asked d path hserved _ ih =>
    intro entry hmem outcome hredeem
    rcases List.mem_append.mp hmem with hold | hnew
    · rw [redeem?_request] at hredeem
      exact ih entry hold outcome hredeem
    · rw [List.mem_singleton.mp hnew] at hredeem ⊢
      exact (hserved.follows hc).redeem?_ticket hredeem
  | answer hserved _ hload ih =>
    intro entry hmem outcome hredeem
    exact (hserved.follows hc).redeem?_complete hload (hserved.serves hc entry hmem) (ih entry hmem)
      hredeem

theorem unasked (hc : c.Coherent) (h : ServedWhen again read c asked d) {path : String}
    (hnot : path ∉ asked.map Prod.fst) :
    d.find? path = c.find? path ∧ d.underWay? path = c.underWay? path ∧
      d.readPaths.count path = c.readPaths.count path := by
  induction h with
  | start => exact ⟨rfl, rfl, rfl⟩
  | @ask asked d other hserved _ ih =>
    rw [List.map_append, List.mem_append, not_or] at hnot
    obtain ⟨hfind, hbusy, hcount⟩ := ih hnot.1
    have hne : path ≠ other := by simpa using hnot.2
    rw [count_readPaths_request, if_neg (Ne.symm hne), ← hfind, ← hbusy, ← hcount]
    rcases d.request_cases other with ⟨_, _, hr⟩ | ⟨_, _, _, hr⟩ | ⟨_, _, hr⟩
    · simp [hr]
    · simp [hr]
    · simp [hr, underWay?_start, hne]
  | @answer asked d index other hserved hmem hload ih =>
    obtain ⟨hfind, hbusy, hcount⟩ := ih hnot
    have hne : path ≠ other := by
      rintro rfl
      exact hnot hmem
    have hfree := (hserved.follows hc).coherent.find?_eq_none hload
    rw [find?_complete _ hload hfree, underWay?_complete _ hload, readPaths_complete, if_neg hne,
      if_neg hne]
    exact ⟨hfind, hbusy, hcount⟩

theorem find?_eq (hc : c.Coherent) (h : ServedWhen again read c asked d) {path : String}
    (hmem : path ∈ asked.map Prod.fst) (hidle : d.underWay? path = none) :
    d.find? path = (c.settled read path).toOption := by
  induction h with
  | start => cases hmem
  | @ask asked d other hserved _ ih =>
    have hfollows := hserved.follows hc
    rw [List.map_append, List.mem_append] at hmem
    rcases d.request_cases other with ⟨tokens, hfind, hr⟩ | ⟨_, _, hbusy, hr⟩ | ⟨_, _, hr⟩
    · rw [hr] at hidle ⊢
      rcases hmem with hold | hnew
      · exact ih hold hidle
      · obtain rfl : path = other := by simpa using hnew
        rw [hfind, hfollows.held path tokens hfind]
        rfl
    · rw [hr] at hidle ⊢
      rcases hmem with hold | hnew
      · exact ih hold hidle
      · obtain rfl : path = other := by simpa using hnew
        rw [hbusy] at hidle
        cases hidle
    · rw [hr] at hidle ⊢
      rw [underWay?_start] at hidle
      split at hidle
      · cases hidle
      · next hne =>
        have hold : path ∈ asked.map Prod.fst := by simpa [hne] using hmem
        exact ih hold hidle
  | @answer asked d index other hserved _ hload ih =>
    have hfollows := hserved.follows hc
    rw [find?_complete _ hload (hfollows.coherent.find?_eq_none hload)]
    rw [underWay?_complete _ hload] at hidle
    split
    · next heq =>
      rw [heq, hfollows.settled_of_underWay hload]
    · next hne =>
      rw [if_neg hne] at hidle
      exact ih hmem hidle

private theorem ticket_of_underWay (hc : c.Coherent) (h : ServedWhen again read c asked d)
    {path : String}
    {index : Nat} (hmem : path ∈ asked.map Prod.fst) (hbusy : d.underWay? path = some index) :
    (path, .load index) ∈ asked := by
  induction h with
  | start => cases hmem
  | @ask asked d other hserved _ ih =>
    have hfollows := hserved.follows hc
    rw [List.map_append, List.mem_append] at hmem
    rw [List.mem_append]
    rcases d.request_cases other with ⟨_, hfind, hr⟩ | ⟨_, _, hother, hr⟩ | ⟨_, _, hr⟩
    · rw [hr] at hbusy ⊢
      rcases hmem with hold | hnew
      · exact .inl (ih hold hbusy)
      · obtain rfl : path = other := by simpa using hnew
        rw [hfollows.coherent.apart path index hbusy] at hfind
        cases hfind
    · rw [hr] at hbusy ⊢
      rcases hmem with hold | hnew
      · exact .inl (ih hold hbusy)
      · obtain rfl : path = other := by simpa using hnew
        rw [hother, Option.some.injEq] at hbusy
        rw [hbusy]
        exact .inr (List.mem_singleton_self _)
    · rw [hr] at hbusy ⊢
      rw [underWay?_start] at hbusy
      split at hbusy
      · next heq =>
        rw [heq, Option.some.inj hbusy]
        exact .inr (List.mem_singleton_self _)
      · next hne =>
        have hold : path ∈ asked.map Prod.fst := by simpa [hne] using hmem
        exact .inl (ih hold hbusy)
  | @answer asked d other answered hserved _ hload ih =>
    rw [underWay?_complete _ hload] at hbusy
    split at hbusy
    · cases hbusy
    · exact ih hmem hbusy

theorem underWay?_eq_none (hc : c.Coherent) (h : ServedWhen again read c asked d)
    (hanswered : Answered asked d) {path : String} (hmem : path ∈ asked.map Prod.fst) :
    d.underWay? path = none := by
  cases hbusy : d.underWay? path with
  | none => rfl
  | some index =>
    have hsome := hanswered _ (h.ticket_of_underWay hc hmem hbusy)
    have hload := ((h.follows hc).coherent.register_iff path index).mp hbusy
    simp [redeem?, hload, Load.outcome?] at hsome

/-- What is held and what is being loaded at the end depends on the paths alone. -/
theorem find?_underWay?_eq (hc : c.Coherent) (h : ServedWhen again read c asked d)
    (hanswered : Answered asked d) (path : String) :
    d.find? path = (if path ∈ asked.map Prod.fst then (c.settled read path).toOption
      else c.find? path) ∧
    d.underWay? path = if path ∈ asked.map Prod.fst then none else c.underWay? path := by
  by_cases hmem : path ∈ asked.map Prod.fst
  · have hidle := h.underWay?_eq_none hc hanswered hmem
    rw [if_pos hmem, if_pos hmem, hidle, h.find?_eq hc hmem hidle]
    exact ⟨rfl, rfl⟩
  · obtain ⟨hfind, hbusy, -⟩ := h.unasked hc hmem
    rw [if_neg hmem, if_neg hmem, hfind, hbusy]
    exact ⟨rfl, rfl⟩

/-! ### How often a path is read -/

private theorem readsFor_eq_zero (hc : c.Coherent) (h : ServedWhen again read c asked d)
    {path : String}
    (hmem : path ∈ asked.map Prod.fst) {tokens : List Token}
    (hok : c.settled read path = .ok tokens) : d.readsFor path = 0 := by
  rw [readsFor, if_neg]
  rintro ⟨hfind, hidle⟩
  rw [h.find?_eq hc hmem hidle, hok] at hfind
  cases hfind

/-- The first request for a path reads it unless it was held or being loaded, and each further one
reads it at most once. -/
theorem count_readPaths (hc : c.Coherent) (h : ServedWhen again read c asked d) {path : String}
    (hmem : path ∈ asked.map Prod.fst) :
    c.readPaths.count path + c.readsFor path ≤ d.readPaths.count path ∧
      d.readPaths.count path + 1 ≤
        c.readPaths.count path + c.readsFor path + (asked.map Prod.fst).count path := by
  induction h with
  | start => cases hmem
  | @ask asked d other hserved _ ih =>
    rw [List.map_append, List.mem_append] at hmem
    rw [count_readPaths_request, List.map_append, List.count_append]
    by_cases hold : path ∈ asked.map Prod.fst
    · obtain ⟨hlow, hhigh⟩ := ih hold
      have hone : d.readsFor other ≤ 1 := by
        unfold readsFor
        split <;> omega
      by_cases hne : other = path
      · simp only [hne, if_true, List.map_cons, List.map_nil, List.count_singleton_self]
        rw [hne] at hone
        omega
      · simp only [hne, if_false]
        omega
    · -- nothing has happened to the path before it is asked for
      obtain rfl : path = other := by simpa [hold] using hmem
      obtain ⟨hfind, hbusy, hcount⟩ := hserved.unasked hc hold
      have hsame : d.readsFor path = c.readsFor path := by rw [readsFor, readsFor, hfind, hbusy]
      simp only [if_true, List.map_cons, List.map_nil, List.count_singleton_self, hcount, hsame]
      omega
  | answer _ _ _ ih =>
    rw [readPaths_complete]
    exact ih hmem

theorem count_readPaths_eq (hc : c.Coherent) (h : ServedWhen again read c asked d) {path : String}
    (hzero : ∀ asked d, ServedWhen again read c asked d → path ∈ asked.map Prod.fst →
      again d path → d.readsFor path = 0)
    (hmem : path ∈ asked.map Prod.fst) :
    d.readPaths.count path = c.readPaths.count path + c.readsFor path := by
  induction h with
  | start => cases hmem
  | @ask asked d other hserved hagain ih =>
    rw [List.map_append, List.mem_append] at hmem
    rw [count_readPaths_request]
    by_cases hold : path ∈ asked.map Prod.fst
    · rw [ih hold]
      by_cases hne : other = path
      · subst hne
        rw [if_pos rfl, hzero asked d hserved hold (hagain hold), Nat.add_zero]
      · rw [if_neg hne, Nat.add_zero]
    · obtain rfl : path = other := by simpa [hold] using hmem
      obtain ⟨hfind, hbusy, hcount⟩ := hserved.unasked hc hold
      rw [if_pos rfl, hcount, readsFor, readsFor, hfind, hbusy]
  | answer _ _ _ ih =>
    rw [readPaths_complete]
    exact ih hmem

theorem count_readPaths_of_ok (hc : c.Coherent) (h : ServedWhen again read c asked d)
    {path : String} (hmem : path ∈ asked.map Prod.fst) {tokens : List Token}
    (hok : c.settled read path = .ok tokens) :
    d.readPaths.count path = c.readPaths.count path + c.readsFor path :=
  count_readPaths_eq hc h (fun _ _ hserved hold _ => hserved.readsFor_eq_zero hc hold hok) hmem

theorem answersOf_eq (hc : c.Reachable) (h : ServedWhen again read c asked d) (path : String) :
    ∃ n, d.answersOf path = c.answersOf path ++ List.replicate n (read path).run := by
  induction h with
  | start => exact ⟨0, (List.append_nil _).symm⟩
  | ask other _ _ ih =>
    rw [answersOf_request]
    exact ih
  | @answer asked d index other hserved _ hload ih =>
    obtain ⟨n, hn⟩ := ih
    rw [answersOf_complete (hserved.reachable hc).orderly hload, hn]
    by_cases ho : other = path
    · refine ⟨n + 1, ?_⟩
      rw [if_pos ho, ho, List.append_assoc, List.replicate_succ']
    · refine ⟨n, ?_⟩
      rw [if_neg ho, List.append_nil]

theorem held_eq (hc : c.Coherent) (h : ServedWhen again read c asked d)
    (hfails : ∀ path ∈ asked.map Prod.fst, ∀ tokens, c.settled read path = .ok tokens →
      c.contains path = true) : d.held = c.held := by
  induction h with
  | start => rfl
  | ask path _ _ ih =>
    rw [held_request]
    exact ih fun other hmem => hfails other (by simp [hmem])
  | @answer asked d index path hserved hmem hload ih =>
    have hfollows := hserved.follows hc
    cases hout : tokensOf path (read path).run with
    | error failure => rw [held_complete hload hout, ih hfails]
    | ok tokens =>
      -- it would have been held all along, and so not been loaded
      have hheld := hfails path hmem tokens ((hfollows.settled_of_underWay hload).trans hout)
      obtain ⟨found, hfound⟩ := Option.isSome_iff_exists.mp hheld
      have hlater := hfollows.grows.held path found hfound
      rw [hfollows.coherent.find?_eq_none hload] at hlater
      cases hlater

/-! ### Getting an answer -/

private theorem grows_await (hd : d.Coherent) (read : String → Id ReadAnswer) (ticket : Ticket) :
    Grows d (d.await read ticket).run := by
  unfold await
  split
  · exact .refl d
  · split
    · exact hd.grows_complete _ _
    · exact .refl d

private theorem await (hc : c.Coherent) (h : ServedWhen again read c asked d) {path : String}
    {ticket : Ticket} (hmem : (path, ticket) ∈ asked) :
    ServedWhen again read c asked (d.await read ticket).run ∧
      ((d.await read ticket).run.redeem? ticket).isSome = true := by
  cases ticket with
  | tokens tokens => exact ⟨h, rfl⟩
  | load index =>
    obtain ⟨⟨found, result⟩, hload, hpath⟩ := h.serves hc _ hmem
    obtain rfl : found = path := hpath
    cases result with
    | none =>
      have hawait : (d.await read (.load index)).run = d.complete index (read found).run := by
        rw [TokenCache.await, hload]
        rfl
      rw [hawait, redeem?_complete_self _ hload]
      exact ⟨h.answer (List.mem_map_of_mem hmem) hload, rfl⟩
    | some result =>
      have hawait : (d.await read (.load index)).run = d := by
        rw [TokenCache.await, hload]
        rfl
      rw [hawait, redeem?, hload]
      exact ⟨h, rfl⟩

theorem awaitAll (hc : c.Coherent) (h : ServedWhen again read c asked d)
    {rest : List (String × Ticket)} (hsub : ∀ entry ∈ rest, entry ∈ asked) :
    ServedWhen again read c asked ((rest.map Prod.snd).foldlM (TokenCache.await read) d).run ∧
      Grows d ((rest.map Prod.snd).foldlM (TokenCache.await read) d).run ∧
      Answered rest ((rest.map Prod.snd).foldlM (TokenCache.await read) d).run := by
  induction rest generalizing d with
  | nil => exact ⟨h, .refl d, nofun⟩
  | cons entry rest ih =>
    obtain ⟨path, ticket⟩ := entry
    rw [List.forall_mem_cons] at hsub
    obtain ⟨hnext, hredeem⟩ := h.await hc hsub.1
    have hgrows := grows_await (h.follows hc).coherent read ticket
    obtain ⟨hserved, hlater, hanswered⟩ := ih hnext hsub.2
    have hfirst : Answered [(path, ticket)] (d.await read ticket).run := by
      intro entry hmem
      rw [List.mem_singleton.mp hmem]
      exact hredeem
    refine ⟨hserved, hgrows.trans hlater, ?_⟩
    exact List.forall_mem_cons.mpr ⟨hfirst.mono hlater _ (List.mem_singleton_self _), hanswered⟩

theorem get (hc : c.Coherent) (h : ServedWhen again read c asked d) (hanswered : Answered asked d)
    (path : String) (hagain : path ∈ asked.map Prod.fst → again d path) :
    ServedWhen again read c (asked ++ [(path, (d.request path).1)]) (d.get read path).run.2 ∧
      Answered (asked ++ [(path, (d.request path).1)]) (d.get read path).run.2 := by
  have hasked := h.ask path hagain
  have hmem : (path, (d.request path).1) ∈ asked ++ [(path, (d.request path).1)] := by simp
  obtain ⟨hserved, hredeem⟩ := hasked.await hc hmem
  have hgrows := (d.grows_request path).trans
    (grows_await (hasked.follows hc).coherent read (d.request path).1)
  refine ⟨hserved, ?_⟩
  intro entry hentry
  rcases List.mem_append.mp hentry with hold | hnew
  · exact hanswered.mono hgrows entry hold
  · rw [List.mem_singleton.mp hnew]
    exact hredeem

end ServedWhen

end TokenCache

end GoroutineDump.Highlight
