import Mathlib.Data.List.Dedup
import GoroutineDump.Proofs.Cache.Serving

set_option autoImplicit false
set_option relaxedAutoImplicit false

namespace GoroutineDump.Highlight

open Source (ReadAnswer Token)

namespace TokenCache

variable {read : String → Id ReadAnswer} {c d : TokenCache} {asked : List (String × Ticket)}
  {again : TokenCache → String → Prop}

/-- Whoever asks for a path that was asked for before finds it held or being loaded. -/
abbrev Overlapping (read : String → Id ReadAnswer) (c : TokenCache) :
    List (String × Ticket) → TokenCache → Prop :=
  ServedWhen (fun d path => d.contains path = true ∨ (d.underWay? path).isSome = true) read c

/-- Several paths, asked for one after the other; each request waits for the answer to the last. -/
def getEach (read : String → Id ReadAnswer) (c : TokenCache) (paths : List String) : TokenCache :=
  paths.foldl (fun c path => (c.get read path).run.2) c

/-! ### One after the other -/

private theorem exists_served_getEach (hc : c.Coherent) (paths : List String)
    (h : Served read c asked d) (hanswered : Answered asked d) :
    ∃ more, more.map Prod.fst = paths ∧ Served read c (asked ++ more) (d.getEach read paths) ∧
      Answered (asked ++ more) (d.getEach read paths) := by
  induction paths generalizing asked d with
  | nil => exact ⟨[], rfl, by rwa [List.append_nil], by rwa [List.append_nil]⟩
  | cons path paths ih =>
    obtain ⟨hserved, hall⟩ := h.get hc hanswered path fun _ => trivial
    obtain ⟨more, hmore, hlater, hlast⟩ := ih hserved hall
    refine ⟨(path, (d.request path).1) :: more, by rw [List.map_cons, hmore], ?_, ?_⟩
    · rwa [List.append_assoc, List.singleton_append] at hlater
    · rwa [List.append_assoc, List.singleton_append] at hlast

theorem served_getEach (hc : c.Coherent) (read : String → Id ReadAnswer) (paths : List String) :
    ∃ asked, asked.map Prod.fst = paths ∧ Served read c asked (c.getEach read paths) ∧
      Answered asked (c.getEach read paths) :=
  exists_served_getEach hc paths .start nofun

private theorem readPaths_await (d : TokenCache) (ticket : Ticket) :
    (d.await read ticket).run.readPaths = d.readPaths := by
  unfold await
  split
  · rfl
  · split
    · exact d.readPaths_complete _ _
    · rfl

private theorem count_readPaths_get (d : TokenCache) (path other : String) :
    (d.get read path).run.2.readPaths.count other =
      d.readPaths.count other + if path = other then d.readsFor path else 0 := by
  have hget : (d.get read path).run.2.readPaths = (d.request path).2.readPaths :=
    readPaths_await _ _
  rw [hget, count_readPaths_request]

private theorem count_readPaths_getEach_of_mem (hc : c.Coherent) {path : String} {failure : Failure}
    (hfails : c.settled read path = .error failure) (paths : List String)
    (h : Served read c asked d) (hanswered : Answered asked d)
    (hmem : path ∈ asked.map Prod.fst) :
    (d.getEach read paths).readPaths.count path = d.readPaths.count path + paths.count path := by
  induction paths generalizing asked d with
  | nil => rfl
  | cons other paths ih =>
    obtain ⟨hserved, hall⟩ := h.get hc hanswered other fun _ => trivial
    have hrest := ih hserved hall (by simp [hmem])
    have hidle := h.underWay?_eq_none hc hanswered hmem
    have hone : d.readsFor path = 1 := by
      have hfree : d.find? path = none := by
        rw [h.find?_eq hc hmem hidle, hfails]
        rfl
      rw [readsFor, if_pos ⟨hfree, hidle⟩]
    rw [getEach, List.foldl_cons, ← getEach, hrest, count_readPaths_get, List.count_cons]
    by_cases ho : other = path
    · simp only [ho, if_true, beq_self_eq_true, hone]
      omega
    · simp [ho]

private theorem count_readPaths_getEach_of_notMem (hc : c.Coherent) {path : String}
    {failure : Failure} (hfails : c.settled read path = .error failure) {paths : List String}
    (h : Served read c asked d) (hanswered : Answered asked d)
    (hnot : path ∉ asked.map Prod.fst) (hpaths : path ∈ paths) :
    (d.getEach read paths).readPaths.count path + 1 =
      c.readPaths.count path + c.readsFor path + paths.count path := by
  induction paths generalizing asked d with
  | nil => cases hpaths
  | cons other paths ih =>
    obtain ⟨hserved, hall⟩ := h.get hc hanswered other fun _ => trivial
    obtain ⟨hfind, hbusy, hcount⟩ := h.unasked hc hnot
    rw [getEach, List.foldl_cons, ← getEach, List.count_cons]
    by_cases ho : other = path
    · subst ho
      have hsame : d.readsFor other = c.readsFor other := by rw [readsFor, readsFor, hfind, hbusy]
      rw [count_readPaths_getEach_of_mem hc hfails paths hserved hall (by simp),
        count_readPaths_get, if_pos rfl, hcount, hsame]
      simp only [beq_self_eq_true, if_true]
      omega
    · have hrest : path ∈ paths := by simpa [Ne.symm ho] using hpaths
      rw [ih hserved hall (by simp [hnot, Ne.symm ho]) hrest]
      simp [ho]

private theorem count_readPaths_getEach (hc : c.Coherent) (read : String → Id ReadAnswer)
    {paths : List String} {path : String} (hpaths : path ∈ paths) :
    (c.getEach read paths).readPaths.count path = c.readPaths.count path + c.readsFor path +
      match c.settled read path with
      | .ok _ => 0
      | .error _ => paths.count path - 1 := by
  obtain ⟨asked, hasked, hserved, -⟩ := served_getEach hc read paths
  cases hsettled : c.settled read path with
  | ok tokens => exact hserved.count_readPaths_of_ok hc (hasked ▸ hpaths) hsettled
  | error failure =>
    have hexact := count_readPaths_getEach_of_notMem hc hsettled
      (.start : Served read c [] c) nofun List.not_mem_nil hpaths
    have hpositive := List.count_pos_iff.mpr hpaths
    show (c.getEach read paths).readPaths.count path =
      c.readPaths.count path + c.readsFor path + (paths.count path - 1)
    omega

/-! ### Together -/

private theorem redeem_eq (hc : c.Coherent) (h : Served read c asked d)
    (hanswered : Answered asked d) {entry : String × Ticket} (hmem : entry ∈ asked) :
    d.redeem entry.2 = (c.get read entry.1).run.1 := by
  obtain ⟨outcome, hout⟩ := Option.isSome_iff_exists.mp (hanswered entry hmem)
  rw [redeem, hout, hc.get_eq_settled, h.redeem?_eq hc entry hmem outcome hout, Option.getD_some]

private theorem prefix_readPaths (h : Served read c asked d) : c.readPaths <+: d.readPaths := by
  induction h with
  | start => exact List.prefix_rfl
  | @ask asked d path _ _ ih =>
    rcases d.request_cases path with ⟨_, _, hr⟩ | ⟨_, _, _, hr⟩ | ⟨_, _, hr⟩
    · rwa [hr]
    · rwa [hr]
    · rw [hr, readPaths_start]
      exact ih.trans (List.prefix_append _ _)
  | answer _ _ _ ih => rwa [readPaths_complete]

private theorem length_readPaths (c : TokenCache) : c.readPaths.length = c.reads :=
  List.length_map ..

/-- Requests made together and answered, compared with the same requests one after the other. -/
structure AgreesWithEach (read : String → Id ReadAnswer) (c : TokenCache)
    (asked : List (String × Ticket)) (d : TokenCache) : Prop where
  /-- each gets what a single request for its path gets at first -/
  answers : asked.map (fun entry => d.redeem entry.2) =
    asked.map fun entry => (c.get read entry.1).run.1
  /-- whatever their order, requests one after the other lead to the same cache -/
  cache : ∀ paths, paths.Perm (asked.map Prod.fst) →
    (∀ path, (c.getEach read paths).find? path = d.find? path ∧
      (c.getEach read paths).underWay? path = d.underWay? path) ∧
    (c.getEach read paths).size = d.size
  /-- and they read at least as much -/
  reads : ∀ paths, paths.Perm (asked.map Prod.fst) →
    (∀ path, d.readPaths.count path ≤ (c.getEach read paths).readPaths.count path) ∧
    d.reads ≤ (c.getEach read paths).reads
  /-- what can be read is read once, if it was neither held nor being loaded -/
  readable : ∀ path ∈ asked.map Prod.fst, ∀ tokens, (c.get read path).run.1 = .ok tokens →
    d.readPaths.count path = c.readPaths.count path + c.readsFor path

/-- Requests that overlap, compared with the same requests made one after the other. -/
structure ReadsOnce (read : String → Id ReadAnswer) (c : TokenCache)
    (asked : List (String × Ticket)) (d : TokenCache) : Prop where
  /-- the paths read are those asked for that were neither held nor being loaded, without repeats -/
  distinct : ∃ later, d.readPaths = c.readPaths ++ later ∧
    later.Perm ((asked.map Prod.fst).dedup.filter fun path =>
      !c.contains path && (c.underWay? path).isNone)
  /-- so with nothing under way before, they are as many as different paths that were not held -/
  count : (∀ path, c.underWay? path = none) →
    d.reads = c.reads + ((asked.map Prod.fst).dedup.filter fun path => !c.contains path).length
  /-- requests one after the other also read paths that fail for each repeat, and nothing else -/
  repeats : ∀ paths, paths.Perm (asked.map Prod.fst) → ∀ path,
    (c.getEach read paths).readPaths.count path = d.readPaths.count path +
      match (c.get read path).run.1 with
      | .ok _ => 0
      | .error _ => paths.count path - 1

private theorem agreesWithEach (hc : c.Reachable) (h : Served read c asked d)
    (hanswered : Answered asked d) : AgreesWithEach read c asked d := by
  have hcoherent := hc.coherent
  have hreads : ∀ paths, paths.Perm (asked.map Prod.fst) → ∀ path,
      d.readPaths.count path ≤ (c.getEach read paths).readPaths.count path := by
    intro paths hperm path
    by_cases hmem : path ∈ asked.map Prod.fst
    · rw [count_readPaths_getEach hcoherent read (hperm.mem_iff.mpr hmem), hperm.count_eq path]
      cases hsettled : c.settled read path with
      | ok tokens => exact Nat.le_of_eq (h.count_readPaths_of_ok hcoherent hmem hsettled)
      | error failure =>
        have hbound := (h.count_readPaths hcoherent hmem).2
        show d.readPaths.count path ≤ c.readPaths.count path + c.readsFor path +
          ((asked.map Prod.fst).count path - 1)
        omega
    · obtain ⟨each, rfl, hserved, -⟩ := served_getEach hcoherent read paths
      have hpaths : path ∉ each.map Prod.fst := by rwa [hperm.mem_iff]
      have hnone := (h.unasked hcoherent hmem).2.2
      have heachNone := (hserved.unasked hcoherent hpaths).2.2
      omega
  refine ⟨?_, ?_, ?_, ?_⟩
  · exact List.map_congr_left fun entry hmem => redeem_eq hcoherent h hanswered hmem
  · intro paths hperm
    obtain ⟨each, heach, hserved, hall⟩ := served_getEach hcoherent read paths
    have hsame : ∀ path, (c.getEach read paths).find? path = d.find? path ∧
        (c.getEach read paths).underWay? path = d.underWay? path := by
      intro path
      have hmem : path ∈ paths ↔ path ∈ asked.map Prod.fst := hperm.mem_iff
      obtain ⟨hfind, hbusy⟩ := h.find?_underWay?_eq hcoherent hanswered path
      obtain ⟨hfind', hbusy'⟩ := hserved.find?_underWay?_eq hcoherent hall path
      rw [hfind, hbusy, hfind', hbusy', heach]
      simp only [hmem, and_self]
    refine ⟨hsame, size_eq_of_contains_eq (hserved.reachable hc) (h.reachable hc) ?_⟩
    intro path
    rw [contains, contains, (hsame path).1]
  · intro paths hperm
    refine ⟨hreads paths hperm, ?_⟩
    rw [← length_readPaths, ← length_readPaths]
    exact (List.subperm_ext_iff.mpr fun path _ => hreads paths hperm path).length_le
  · intro path hmem tokens hok
    rw [hcoherent.get_eq_settled] at hok
    exact h.count_readPaths_of_ok hcoherent hmem hok

private theorem count_readPaths_of_overlapping (hc : c.Coherent) (h : Overlapping read c asked d)
    {path : String} (hmem : path ∈ asked.map Prod.fst) :
    d.readPaths.count path = c.readPaths.count path + c.readsFor path := by
  refine h.count_readPaths_eq hc ?_ hmem
  intro _ d _ _ hagain
  rw [readsFor, if_neg]
  rintro ⟨hfind, hbusy⟩
  simp [contains, hfind, hbusy] at hagain

private theorem exists_readPaths_of_overlapping (hc : c.Reachable)
    (h : Overlapping read c asked d) :
    ∃ later, d.readPaths = c.readPaths ++ later ∧
      later.Perm ((asked.map Prod.fst).dedup.filter fun path =>
        !c.contains path && (c.underWay? path).isNone) := by
  have hcoherent := hc.coherent
  obtain ⟨later, hlater⟩ := prefix_readPaths h.served
  refine ⟨later, hlater.symm, ?_⟩
  have hcount : ∀ path, later.count path =
      if path ∈ asked.map Prod.fst then c.readsFor path else 0 := by
    intro path
    have hsum : d.readPaths.count path = c.readPaths.count path + later.count path := by
      rw [← hlater, List.count_append]
    by_cases hmem : path ∈ asked.map Prod.fst
    · rw [if_pos hmem]
      have hexact := count_readPaths_of_overlapping hcoherent h hmem
      omega
    · rw [if_neg hmem]
      have hexact := (h.unasked hcoherent hmem).2.2
      omega
  have hnodup : later.Nodup := by
    rw [List.nodup_iff_count_le_one]
    intro path
    rw [hcount, readsFor]
    split
    · split <;> omega
    · omega
  rw [List.perm_ext_iff_of_nodup hnodup ((List.nodup_dedup _).filter _)]
  intro path
  rw [← List.count_pos_iff, hcount, List.mem_filter, List.mem_dedup, readsFor]
  by_cases hmem : path ∈ asked.map Prod.fst
  · by_cases hfree : c.find? path = none ∧ c.underWay? path = none
    · simp [hmem, contains, hfree]
    · simp [hmem, contains, hfree]
  · simp [hmem]

private theorem readsOnce (hc : c.Reachable) (h : Overlapping read c asked d) :
    ReadsOnce read c asked d where
  distinct := exists_readPaths_of_overlapping hc h
  count hidle := by
    obtain ⟨later, hlater, hperm⟩ := exists_readPaths_of_overlapping hc h
    simp only [hidle, Option.isNone_none, Bool.and_true] at hperm
    rw [← length_readPaths, ← length_readPaths, hlater, List.length_append, hperm.length_eq]
  repeats paths hperm path := by
    have hcoherent := hc.coherent
    rw [hcoherent.get_eq_settled]
    by_cases hmem : path ∈ asked.map Prod.fst
    · rw [count_readPaths_getEach hcoherent read (hperm.mem_iff.mpr hmem),
        count_readPaths_of_overlapping hcoherent h hmem]
    · obtain ⟨each, rfl, hserved, -⟩ := served_getEach hcoherent read paths
      have hpaths : path ∉ each.map Prod.fst := by rwa [hperm.mem_iff]
      have hzero : (each.map Prod.fst).count path = 0 := List.count_eq_zero.mpr hpaths
      rw [(h.unasked hcoherent hmem).2.2, (hserved.unasked hcoherent hpaths).2.2, hzero]
      split <;> rfl

/-! ### Requests without a wait -/

private theorem known_request {path : String}
    (hknown : ∀ other ∈ asked.map Prod.fst,
      d.contains other = true ∨ (d.underWay? other).isSome = true) :
    ∀ other ∈ (asked ++ [(path, (d.request path).1)]).map Prod.fst,
      (d.request path).2.contains other = true ∨
        ((d.request path).2.underWay? other).isSome = true := by
  intro other hmem
  rw [List.map_append, List.mem_append] at hmem
  rcases d.request_cases path with ⟨_, hfind, hr⟩ | ⟨_, _, hbusy, hr⟩ | ⟨_, _, hr⟩
  · rw [hr]
    rcases hmem with hold | hnew
    · exact hknown other hold
    · obtain rfl : other = path := by simpa using hnew
      exact .inl (by rw [contains, hfind, Option.isSome_some])
  · rw [hr]
    rcases hmem with hold | hnew
    · exact hknown other hold
    · obtain rfl : other = path := by simpa using hnew
      exact .inr (by rw [hbusy, Option.isSome_some])
  · rw [hr, contains, find?_start, underWay?_start]
    split
    · exact .inr rfl
    · next hne =>
      have hold : other ∈ asked.map Prod.fst := by simpa [hne] using hmem
      exact hknown other hold

private theorem exists_overlapping_append (paths : List String) (h : Overlapping read c asked d)
    (hknown : ∀ path ∈ asked.map Prod.fst,
      d.contains path = true ∨ (d.underWay? path).isSome = true) :
    ∃ more e, more.map Prod.fst = paths ∧ Overlapping read c (asked ++ more) e := by
  induction paths generalizing asked d with
  | nil => exact ⟨[], d, rfl, by rwa [List.append_nil]⟩
  | cons path paths ih =>
    obtain ⟨more, e, hmore, hall⟩ := ih (h.ask path (hknown path)) (known_request hknown)
    refine ⟨(path, (d.request path).1) :: more, e, by rw [List.map_cons, hmore], ?_⟩
    rwa [List.append_assoc, List.singleton_append] at hall

/-- Any paths can be asked for so that the requests overlap, and everyone gets an answer. -/
private theorem exists_overlapping (hc : c.Coherent) (read : String → Id ReadAnswer)
    (paths : List String) :
    ∃ asked d, asked.map Prod.fst = paths ∧ Overlapping read c asked d ∧ Answered asked d := by
  obtain ⟨asked, d, hpaths, hall⟩ :=
    exists_overlapping_append paths (.start : Overlapping read c [] c) nofun
  rw [List.nil_append] at hall
  obtain ⟨hlast, -, hanswered⟩ := hall.awaitAll hc fun _ hmem => hmem
  exact ⟨asked, _, hpaths, hlast, hanswered⟩

/-- Requests made together, in whatever order they come and the loads they wait for end, give the
same answers and lead to the same cache as requests made one after the other, and never read more.
If they overlap, exactly the paths are read that were neither held nor being loaded, once each. The
order makes no difference to what each of them is answered. Any requests can be made so that they
overlap. -/
theorem together_agrees (hc : c.Reachable) (read : String → Id ReadAnswer) :
    (∀ asked d, Served read c asked d → Answered asked d → AgreesWithEach read c asked d) ∧
    (∀ asked d, Overlapping read c asked d → ReadsOnce read c asked d) ∧
    (∀ asked d asked' d', Served read c asked d → Answered asked d →
      Served read c asked' d' → Answered asked' d' →
      (asked'.map Prod.fst).Perm (asked.map Prod.fst) →
        (asked'.map fun entry => (entry.1, d'.redeem entry.2)).Perm
          (asked.map fun entry => (entry.1, d.redeem entry.2))) ∧
    ∀ paths, ∃ asked d, asked.map Prod.fst = paths ∧ Overlapping read c asked d ∧
      Answered asked d := by
  have hcoherent := hc.coherent
  refine ⟨fun asked d h hanswered => agreesWithEach hc h hanswered,
    fun asked d h => readsOnce hc h, ?_, exists_overlapping hcoherent read⟩
  intro asked d asked' d' h hanswered h' hanswered' hperm
  have halone {asked : List (String × Ticket)} {d : TokenCache} (h : Served read c asked d)
      (hanswered : Answered asked d) : asked.map (fun entry => (entry.1, d.redeem entry.2)) =
        (asked.map Prod.fst).map fun path => (path, (c.get read path).run.1) := by
    rw [List.map_map]
    apply List.map_congr_left
    intro entry hmem
    rw [redeem_eq hcoherent h hanswered hmem]
    rfl
  rw [halone h hanswered, halone h' hanswered']
  exact hperm.map _

def oneHeld : TokenCache := (({} : TokenCache).request "a.txt").2.complete 0 (.ok [104, 10])

def readB (path : String) : Id ReadAnswer :=
  pure (if path = "b.txt" then .ok [104, 105] else .error .missing)

theorem together_agrees_oneHeld :
    ∃ asked d, asked.map Prod.fst = ["x.txt", "a.txt", "x.txt", "b.txt", "x.txt"] ∧
      Overlapping readB oneHeld asked d ∧ oneHeld.reads = 1 ∧ d.reads = 3 ∧
      (oneHeld.getEach readB ["x.txt", "a.txt", "x.txt", "b.txt", "x.txt"]).reads = 5 ∧
      AgreesWithEach readB oneHeld asked d ∧ ReadsOnce readB oneHeld asked d := by
  have hheld : oneHeld.Reachable := .complete 0 _ (.request "a.txt" .empty)
  obtain ⟨hagrees, honce, -, hexists⟩ := together_agrees hheld readB
  obtain ⟨asked, d, hpaths, hoverlap, hanswered⟩ :=
    hexists ["x.txt", "a.txt", "x.txt", "b.txt", "x.txt"]
  have hreads := (honce asked d hoverlap).count fun _ => rfl
  rw [hpaths] at hreads
  exact ⟨asked, d, hpaths, hoverlap, by decide, hreads.trans (by decide), by decide,
    hagrees asked d hoverlap.served hanswered, honce asked d hoverlap⟩

end TokenCache

end GoroutineDump.Highlight
