import Mathlib.Logic.Relation
import GoroutineDump.Proofs.Cache.Coherence

/-!
A history is a cache with a record of its past: the requests with their tickets, the paths that were
read, and the answers that loads got. Requests and answers come in any order, and an answer can be
anything, since the sources may change at any time.
-/

set_option autoImplicit false
set_option relaxedAutoImplicit false

namespace GoroutineDump.Highlight

open Source (ReadAnswer Token)

structure CacheHistory where
  cache : TokenCache := {}
  /-- the requests in order, each with its ticket -/
  requests : List (String × Ticket) := []
  /-- the paths that were read, in the order in which the reads began -/
  reads : List String := []
  /-- the answers to reads in the order in which they came, each with the number of its load -/
  answers : List (Nat × ReadAnswer) := []

namespace CacheHistory

/-- Someone asks for the tokens of a path. The path is read if the ticket is for a new load. -/
def request (h : CacheHistory) (path : String) : CacheHistory where
  cache := (h.cache.request path).2
  requests := h.requests ++ [(path, (h.cache.request path).1)]
  reads :=
    if (h.cache.request path).1 = .load h.cache.loads.length then h.reads ++ [path] else h.reads
  answers := h.answers

def answer (h : CacheHistory) (load : Nat) (answer : ReadAnswer) : CacheHistory :=
  { h with cache := h.cache.complete load answer, answers := h.answers ++ [(load, answer)] }

/-- What can happen next: a request for any path, or any answer to a load that is under way. -/
inductive Step : CacheHistory → CacheHistory → Prop
  | request (h : CacheHistory) (path : String) : Step h (h.request path)
  | answer (h : CacheHistory) {load : Nat} {path : String} (answer : ReadAnswer) :
      h.cache.loads[load]? = some ⟨path, none⟩ → Step h (h.answer load answer)

abbrev Leads : CacheHistory → CacheHistory → Prop := Relation.ReflTransGen Step

def Reachable (h : CacheHistory) : Prop := Leads {} h

def requestsFor (h : CacheHistory) (path : String) : List (String × Ticket) :=
  h.requests.filter fun request => request.1 == path

def Idle (h : CacheHistory) (path : String) : Prop :=
  h.cache.find? path = none ∧ h.cache.underWay? path = none

structure Recorded (h : CacheHistory) : Prop where
  coherent : h.cache.Coherent
  serves : ∀ path ticket, (path, ticket) ∈ h.requests → h.cache.Serves path ticket
  reads_eq : h.reads = h.cache.loads.map Load.path
  answers_iff : ∀ load answer, (load, answer) ∈ h.answers ↔
    ∃ path, h.cache.loads[load]? = some ⟨path, some (.ofAnswer path answer)⟩
  answers_nodup : (h.answers.map Prod.fst).Nodup

/-! ### Requests -/

private theorem recorded_request {h : CacheHistory} (hr : h.Recorded) (path : String) :
    (h.request path).Recorded := by
  have hgrows := h.cache.grows_request path
  have hserves : ∀ other ticket, (other, ticket) ∈ (h.request path).requests →
      (h.request path).cache.Serves other ticket := by
    intro other ticket hmem
    rcases List.mem_append.mp hmem with hold | hnew
    · exact (hr.serves other ticket hold).mono hgrows
    · obtain ⟨rfl, rfl⟩ := Prod.mk.inj (List.mem_singleton.mp hnew)
      exact hr.coherent.serves_request other
  rcases h.cache.request_cases path with ⟨tokens, _, hq⟩ | ⟨index, _, hbusy, hq⟩ | ⟨_, _, hq⟩
  · refine ⟨hr.coherent.request path, hserves, ?_, ?_, hr.answers_nodup⟩
    · simp [request, hq, hr.reads_eq]
    · simpa [request, hq] using hr.answers_iff
  · have hload := (hr.coherent.register_iff path index).mp hbusy
    have hne : index ≠ h.cache.loads.length :=
      Nat.ne_of_lt (List.getElem?_eq_some_iff.mp hload).1
    refine ⟨hr.coherent.request path, hserves, ?_, ?_, hr.answers_nodup⟩
    · simp [request, hq, hne, hr.reads_eq]
    · simpa [request, hq] using hr.answers_iff
  · refine ⟨hr.coherent.request path, hserves, ?_, ?_, hr.answers_nodup⟩
    · simp [request, hq, hr.reads_eq]
    · intro load answer
      simp only [request, hq, TokenCache.loads_start]
      rw [hr.answers_iff, List.getElem?_append]
      split
      · rfl
      · rename_i hle
        rw [List.getElem?_eq_none (by omega)]
        simp [List.getElem?_cons]

/-! ### Answers -/

private theorem recorded_answer {h : CacheHistory} (hr : h.Recorded) {load : Nat} {path : String}
    (hload : h.cache.loads[load]? = some ⟨path, none⟩) (answer : ReadAnswer) :
    (h.answer load answer).Recorded := by
  have hlt : load < h.cache.loads.length := (List.getElem?_eq_some_iff.mp hload).1
  have hloads := TokenCache.loads_complete answer hload
  have hgrows := hr.coherent.grows_complete load answer
  have hfresh : ∀ a, (load, a) ∉ h.answers := by
    intro a hmem
    obtain ⟨other, hother⟩ := (hr.answers_iff load a).mp hmem
    rw [hload] at hother
    cases hother
  constructor
  · exact hr.coherent.complete load answer
  · intro other ticket hmem
    exact (hr.serves other ticket hmem).mono hgrows
  · exact hr.reads_eq.trans (h.cache.readPaths_complete load answer).symm
  · intro i a
    show (i, a) ∈ h.answers ++ [(load, answer)] ↔ ∃ other,
      (h.cache.complete load answer).loads[i]? = some ⟨other, some (.ofAnswer other a)⟩
    rw [hloads, List.getElem?_set, List.mem_append, List.mem_singleton, Prod.mk.injEq]
    by_cases hi : load = i
    · subst hi
      simp only [hlt, if_true, hfresh, true_and, false_or, Option.some.injEq]
      constructor
      · rintro rfl
        exact ⟨path, rfl⟩
      · rintro ⟨other, heq⟩
        cases heq
        rfl
    · rw [if_neg hi, ← hr.answers_iff]
      simp [Ne.symm hi]
  · show ((h.answers ++ [(load, answer)]).map Prod.fst).Nodup
    rw [List.map_append, List.nodup_append]
    refine ⟨hr.answers_nodup, by simp, ?_⟩
    rintro i hi j hj rfl
    obtain ⟨⟨i, a⟩, hmem, rfl⟩ := List.mem_map.mp hi
    obtain rfl : i = load := by simpa using hj
    exact hfresh a hmem

private theorem recorded_step {h next : CacheHistory} (hr : h.Recorded) (hstep : Step h next) :
    next.Recorded := by
  cases hstep with
  | request path => exact recorded_request hr path
  | answer answer hload => exact recorded_answer hr hload answer

private theorem recorded_of_leads {h later : CacheHistory} (hr : h.Recorded)
    (hleads : Leads h later) : later.Recorded := by
  induction hleads with
  | refl => exact hr
  | tail _ hstep ih => exact recorded_step ih hstep

private theorem recorded_empty : Recorded {} where
  coherent := .empty
  serves _ _ h := by simp at h
  reads_eq := rfl
  answers_iff _ _ := by simp
  answers_nodup := by simp

private theorem Reachable.recorded {h : CacheHistory} (hreach : h.Reachable) : h.Recorded :=
  recorded_of_leads recorded_empty hreach

/-! ### Continuing a history -/

private theorem grows_step {h next : CacheHistory} (hr : h.Recorded) (hstep : Step h next) :
    TokenCache.Grows h.cache next.cache := by
  cases hstep with
  | request path => exact h.cache.grows_request path
  | answer answer _ => exact hr.coherent.grows_complete _ answer

private theorem grows_of_leads {h later : CacheHistory} (hr : h.Recorded)
    (hleads : Leads h later) : TokenCache.Grows h.cache later.cache := by
  induction hleads with
  | refl => exact .refl _
  | tail hleads hstep ih => exact ih.trans (grows_step (recorded_of_leads hr hleads) hstep)

private theorem requestsFor_step {h next : CacheHistory} (hstep : Step h next) (path : String) :
    h.requestsFor path <+: next.requestsFor path := by
  cases hstep with
  | request other =>
    simp only [requestsFor, request, List.filter_append]
    exact List.prefix_append _ _
  | answer answer _ => exact List.prefix_rfl

private theorem requestsFor_of_leads {h later : CacheHistory} (hleads : Leads h later)
    (path : String) : h.requestsFor path <+: later.requestsFor path := by
  induction hleads with
  | refl => exact List.prefix_rfl
  | tail _ hstep ih => exact ih.trans (requestsFor_step hstep path)

private theorem idle_step {h next : CacheHistory} (hr : h.Recorded) {path : String}
    (hidle : h.Idle path) (hstep : Step h next)
    (hquiet : next.requestsFor path = h.requestsFor path) : next.Idle path := by
  cases hstep with
  | request other =>
    have hne : path ≠ other := by
      rintro rfl
      simp [requestsFor, request] at hquiet
    rcases h.cache.request_cases other with ⟨_, _, hq⟩ | ⟨_, _, _, hq⟩ | ⟨_, _, hq⟩
    · simpa [Idle, request, hq] using hidle
    · simpa [Idle, request, hq] using hidle
    · simpa [Idle, request, hq, TokenCache.underWay?_start, hne] using hidle
  | @answer load other answer hload =>
    have hne : path ≠ other := by
      rintro rfl
      have hbusy := (hr.coherent.register_iff path load).mpr hload
      simp [hidle.2] at hbusy
    have hfree := hr.coherent.find?_eq_none hload
    refine ⟨?_, ?_⟩
    · show (h.cache.complete load answer).find? path = none
      rw [TokenCache.find?_complete answer hload hfree, if_neg hne, hidle.1]
    · show (h.cache.complete load answer).underWay? path = none
      rw [TokenCache.underWay?_complete answer hload, if_neg hne, hidle.2]

private theorem idle_of_leads {h later : CacheHistory} (hr : h.Recorded) {path : String}
    (hidle : h.Idle path) (hleads : Leads h later)
    (hquiet : later.requestsFor path = h.requestsFor path) : later.Idle path := by
  induction hleads with
  | refl => exact hidle
  | @tail middle last hleads hstep ih =>
    -- the requests for the path are squeezed between two equal lists
    have hbefore := requestsFor_of_leads hleads path
    have hafter := requestsFor_step hstep path
    have hmiddle : middle.requestsFor path = h.requestsFor path :=
      (hbefore.eq_of_length_le (hquiet ▸ hafter.length_le)).symm
    exact idle_step (recorded_of_leads hr hleads) (ih hmiddle) hstep (hquiet.trans hmiddle.symm)

/-! ### Safety -/

/-- What becomes of a history when a load of a path ends with an answer. -/
structure EndsCleanly (h : CacheHistory) (path : String) (answer : ReadAnswer)
    (next : CacheHistory) : Prop where
  /-- before, the path was not held, so nothing is overwritten -/
  free : h.cache.find? path = none
  /-- the load is out of the register -/
  removed : next.cache.underWay? path = none
  /-- the tokens are published exactly if there are any -/
  published : next.cache.find? path = (tokensOf path answer).toOption
  /-- no other path is touched -/
  others : ∀ other, other ≠ path → next.cache.find? other = h.cache.find? other ∧
    next.cache.underWay? other = h.cache.underWay? other
  /-- after a failure the cache holds what it held, and the next request for the path, whatever
  happens to other paths in between, reads it again -/
  retried : ∀ failure, tokensOf path answer = .error failure →
    next.cache.held = h.cache.held ∧
      ∀ later, Leads next later → later.requestsFor path = next.requestsFor path →
        (later.request path).reads = later.reads ++ [path] ∧
          (later.request path).requests =
            later.requests ++ [(path, .load later.cache.loads.length)]

/-- Requests that overlap share their loads, and nothing goes wrong in it. -/
structure Safe (h : CacheHistory) : Prop where
  /-- no path is both held and being loaded -/
  apart : ∀ path, h.cache.contains path = true → h.cache.underWay? path = none
  /-- at most one load of a path is under way, and it is the one in the register -/
  single : ∀ path (load : Nat), h.cache.loads[load]? = some ⟨path, none⟩ ↔
    h.cache.underWay? path = some load
  /-- a path is read once for each of its loads -/
  reads_count : ∀ path,
    h.reads.count path = h.cache.loads.countP fun load => load.path == path
  /-- what is held or being loaded is not read for a request -/
  no_read : ∀ path, h.cache.contains path = true ∨ (h.cache.underWay? path).isSome →
    (h.request path).reads = h.reads
  /-- whoever got the same load as a ticket asked for the same path -/
  same_path : ∀ path other load, (path, .load load) ∈ h.requests →
    (other, .load load) ∈ h.requests → path = other
  /-- a load is answered at most once, -/
  answered_once : (h.answers.map Prod.fst).Nodup
  /-- and all who wait for it get what follows from that answer -/
  shared : ∀ path load, (path, .load load) ∈ h.requests → ∀ outcome,
    h.cache.redeem? (.load load) = some outcome ↔
      ∃ answer, (load, answer) ∈ h.answers ∧ outcome = tokensOf path answer
  /-- what a ticket is once worth it stays worth -/
  lasting : ∀ later, Leads h later → ∀ path ticket, (path, ticket) ∈ h.requests →
    ∀ outcome, h.cache.redeem? ticket = some outcome → later.cache.redeem? ticket = some outcome
  /-- every load ends cleanly, with any answer -/
  ends : ∀ path (load : Nat), h.cache.loads[load]? = some ⟨path, none⟩ → ∀ answer,
    h.EndsCleanly path answer (h.answer load answer)

private theorem endsCleanly {h : CacheHistory} (hr : h.Recorded) {load : Nat} {path : String}
    (hload : h.cache.loads[load]? = some ⟨path, none⟩) (answer : ReadAnswer) :
    h.EndsCleanly path answer (h.answer load answer) := by
  have hfree := hr.coherent.find?_eq_none hload
  have hfind := TokenCache.find?_complete answer hload hfree
  have hbusy := TokenCache.underWay?_complete answer hload
  have hremoved : (h.answer load answer).cache.underWay? path = none := by
    show (h.cache.complete load answer).underWay? path = none
    rw [hbusy, if_pos rfl]
  have hpublished : (h.answer load answer).cache.find? path = (tokensOf path answer).toOption := by
    show (h.cache.complete load answer).find? path = _
    rw [hfind, if_pos rfl]
  refine ⟨hfree, hremoved, hpublished, ?_, ?_⟩
  · intro other hne
    show (h.cache.complete load answer).find? other = _ ∧
      (h.cache.complete load answer).underWay? other = _
    rw [hfind, hbusy, if_neg hne, if_neg hne]
    exact ⟨rfl, rfl⟩
  · intro failure herr
    refine ⟨TokenCache.held_complete hload herr, ?_⟩
    intro later hleads hquiet
    have hidle : (h.answer load answer).Idle path := by
      refine ⟨?_, hremoved⟩
      rw [hpublished, herr]
      rfl
    have hlater := idle_of_leads (recorded_answer hr hload answer) hidle hleads hquiet
    have hq : later.cache.request path =
        (.load later.cache.loads.length, later.cache.start path) := by
      rcases later.cache.request_cases path with ⟨_, hf, _⟩ | ⟨_, _, hu, _⟩ | ⟨_, _, hq⟩
      · simp [hlater.1] at hf
      · simp [hlater.2] at hu
      · exact hq
    simp [request, hq]

private theorem shared_outcome {h : CacheHistory} (hr : h.Recorded) {path : String} {load : Nat}
    (hmem : (path, .load load) ∈ h.requests) (outcome : Outcome) :
    h.cache.redeem? (.load load) = some outcome ↔
      ∃ answer, (load, answer) ∈ h.answers ∧ outcome = tokensOf path answer := by
  obtain ⟨found, hfound, rfl⟩ := hr.serves path (.load load) hmem
  rw [TokenCache.redeem?_load_eq_some]
  constructor
  · rintro ⟨same, hsame, hout⟩
    obtain rfl : same = found := Option.some.inj (hsame.symm.trans hfound)
    obtain ⟨path, _ | ⟨answer, _, rfl⟩⟩ := same
    · cases hout
    · exact ⟨answer, (hr.answers_iff load answer).mpr ⟨path, hsame⟩, (Option.some.inj hout).symm⟩
  · rintro ⟨answer, hanswer, rfl⟩
    obtain ⟨path, hload⟩ := (hr.answers_iff load answer).mp hanswer
    obtain rfl : found = ⟨path, some (.ofAnswer path answer)⟩ :=
      Option.some.inj (hfound.symm.trans hload)
    exact ⟨_, hload, rfl⟩

/-- Whatever requests are made and however their loads end, in any order and on any paths, requests
that overlap share their loads safely. -/
theorem coalescing_safe {h : CacheHistory} (hreach : h.Reachable) : h.Safe := by
  have hr := hreach.recorded
  constructor
  · intro path hheld
    cases hbusy : h.cache.underWay? path with
    | none => rfl
    | some load =>
      have hfree := hr.coherent.apart path load hbusy
      simp [TokenCache.contains, hfree] at hheld
  · intro path load
    exact (hr.coherent.register_iff path load).symm
  · intro path
    rw [hr.reads_eq, List.count, List.countP_map]
    rfl
  · intro path hknown
    rcases h.cache.request_cases path with ⟨tokens, _, hq⟩ | ⟨load, _, hbusy, hq⟩ | ⟨hf, hu, _⟩
    · simp [request, hq]
    · have hload := (hr.coherent.register_iff path load).mp hbusy
      have hne : load ≠ h.cache.loads.length :=
        Nat.ne_of_lt (List.getElem?_eq_some_iff.mp hload).1
      simp [request, hq, hne]
    · simp [TokenCache.contains, hf, hu] at hknown
  · intro path other load hpath hother
    obtain ⟨found, hfound, rfl⟩ := hr.serves path _ hpath
    obtain ⟨same, hsame, rfl⟩ := hr.serves other _ hother
    rw [Option.some.inj (hfound.symm.trans hsame)]
  · exact hr.answers_nodup
  · intro path load hmem outcome
    exact shared_outcome hr hmem outcome
  · intro later hleads path ticket _ outcome hworth
    exact (grows_of_leads hr hleads).redeem?_eq_some hworth
  · intro path load hload answer
    exact endsCleanly hr hload answer

def failedThenRead : CacheHistory :=
  (((((({} : CacheHistory).request "a.txt").request "a.txt").answer 0 (.error .missing)).request
    "a.txt").request "a.txt").answer 1 (.ok [104, 105])

private theorem reachable_failedThenRead : failedThenRead.Reachable :=
  Relation.ReflTransGen.refl
    |>.tail (.request _ "a.txt")
    |>.tail (.request _ "a.txt")
    |>.tail (.answer _ (.error .missing) rfl)
    |>.tail (.request _ "a.txt")
    |>.tail (.request _ "a.txt")
    |>.tail (.answer _ (.ok [104, 105]) rfl)

theorem coalescing_safe_failedThenRead :
    failedThenRead.Reachable ∧ failedThenRead.reads = ["a.txt", "a.txt"] ∧
      failedThenRead.requests = [("a.txt", .load 0), ("a.txt", .load 0), ("a.txt", .load 1),
        ("a.txt", .load 1)] ∧
      failedThenRead.cache.contains "a.txt" = true ∧ failedThenRead.Safe :=
  ⟨reachable_failedThenRead, by decide, by decide, by decide,
    coalescing_safe reachable_failedThenRead⟩

end CacheHistory

end GoroutineDump.Highlight
