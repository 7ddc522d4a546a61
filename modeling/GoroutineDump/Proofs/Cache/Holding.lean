import Mathlib.Data.List.Nodup
import Mathlib.Data.List.Perm.Basic
import GoroutineDump.Proofs.Cache.Coherence

set_option autoImplicit false
set_option relaxedAutoImplicit false

namespace GoroutineDump.Highlight

open Source (ReadAnswer Token)

def Load.answer? (load : Load) : Option ReadAnswer := load.result.map (·.answer)

theorem Load.outcome?_eq (load : Load) :
    load.outcome? = load.answer?.map (tokensOf load.path) := by
  obtain ⟨path, result⟩ := load
  cases result with
  | none => rfl
  | some result => exact congrArg some result.outcome_eq

private theorem Load.eq_of_outcome?_eq_none {load : Load} (h : load.outcome? = none) :
    load = ⟨load.path, none⟩ := by
  obtain ⟨path, result⟩ := load
  obtain rfl : result = none := by simpa [Load.outcome?] using h
  rfl

namespace TokenCache

variable {c d : TokenCache}

/-! ### The paths held -/

def heldPaths (c : TokenCache) : List String := c.held.map Prod.fst

theorem length_heldPaths (c : TokenCache) : c.heldPaths.length = c.size := List.length_map ..

theorem mem_heldPaths_iff {path : String} : path ∈ c.heldPaths ↔ c.contains path = true := by
  have hlookup : ∀ entries : List (String × List Token),
      path ∈ entries.map Prod.fst ↔ (entries.lookup path).isSome = true := by
    intro entries
    induction entries with
    | nil => simp
    | cons entry entries ih =>
      obtain ⟨key, tokens⟩ := entry
      by_cases hkey : path = key
      · subst hkey
        simp
      · have hne : (path == key) = false := beq_eq_false_iff_ne.mpr hkey
        simp [List.lookup_cons, hne, hkey, ← ih]
  exact hlookup c.held

theorem held_request (c : TokenCache) (path : String) : (c.request path).2.held = c.held := by
  rcases c.request_cases path with ⟨_, _, h⟩ | ⟨_, _, _, h⟩ | ⟨_, _, h⟩ <;> rw [h]
  rfl

private theorem nodup_heldPaths_publish (h : c.heldPaths.Nodup) (path : String)
    (tokens : List Token) :
    (c.publish path tokens).heldPaths.Nodup := by
  have hsub : ((c.held.filter fun entry => entry.1 != path).map Prod.fst).Sublist c.heldPaths :=
    List.filter_sublist.map Prod.fst
  have hnot : path ∉ (c.held.filter fun entry => entry.1 != path).map Prod.fst := by
    intro hmem
    obtain ⟨entry, hentry, heq⟩ := List.mem_map.mp hmem
    have hne := (List.mem_filter.mp hentry).2
    simp [heq] at hne
  exact List.nodup_cons.mpr ⟨hnot, h.sublist hsub⟩

theorem Reachable.nodup_heldPaths (h : c.Reachable) : c.heldPaths.Nodup := by
  induction h with
  | empty => exact List.nodup_nil
  | @request c path _ ih =>
    rw [heldPaths, held_request]
    exact ih
  | @complete c index answer _ ih =>
    by_cases hbusy : ∃ path, c.loads[index]? = some ⟨path, none⟩
    · obtain ⟨path, hload⟩ := hbusy
      rcases complete_of_underWay answer hload with ⟨tokens, _, hc⟩ | ⟨_, _, hc⟩
      · rw [hc]
        exact nodup_heldPaths_publish (c := c.finish index (.ofAnswer path answer)) ih path tokens
      · rw [hc]
        exact ih
    · rw [complete_of_not_underWay answer fun path hload => hbusy ⟨path, hload⟩]
      exact ih

theorem size_eq_of_contains_eq (hc : c.Reachable) (hd : d.Reachable)
    (h : ∀ path, c.contains path = d.contains path) : c.size = d.size := by
  have hperm : c.heldPaths.Perm d.heldPaths := by
    rw [List.perm_ext_iff_of_nodup hc.nodup_heldPaths hd.nodup_heldPaths]
    intro path
    rw [mem_heldPaths_iff, mem_heldPaths_iff, h]
  rw [← length_heldPaths, ← length_heldPaths, hperm.length_eq]

/-! ### The order of loads -/

/-- A path is read again only after its loads so far have failed. -/
def Orderly (c : TokenCache) : Prop :=
  ∀ (i j : Nat) (earlier later : Load), i < j → c.loads[i]? = some earlier →
    c.loads[j]? = some later → earlier.path = later.path →
      ∃ failure, earlier.outcome? = some (.error failure)

private theorem Orderly.path_ne (ho : c.Orderly) {index : Nat} {load : Load}
    (hload : c.loads[index]? = some load)
    (hgood : ∀ failure, load.outcome? ≠ some (.error failure)) (k : Nat) (later : Load)
    (hk : index < k) (hget : c.loads[k]? = some later) : load.path ≠ later.path := by
  intro heq
  obtain ⟨failure, hfailed⟩ := ho index k load later hk hload hget heq
  exact hgood failure hfailed

private theorem orderly_start (hc : c.Coherent) (ho : c.Orderly) {path : String}
    (hfind : c.find? path = none) (hidle : c.underWay? path = none) : (c.start path).Orderly := by
  intro i j earlier later hij hi hj hsame
  have hlength : (c.start path).loads.length = c.loads.length + 1 := by simp
  have hjlt := (List.getElem?_eq_some_iff.mp hj).1
  have hilt : i < c.loads.length := by omega
  rw [loads_start, List.getElem?_append_left hilt] at hi
  rcases Nat.lt_or_eq_of_le (Nat.le_of_lt_succ (hlength ▸ hjlt)) with hjlt | rfl
  · rw [loads_start, List.getElem?_append_left hjlt] at hj
    exact ho i j earlier later hij hi hj hsame
  · -- the new load is of a path that is neither held nor being loaded
    obtain rfl : later = ⟨path, none⟩ := by simpa [eq_comm] using hj
    obtain ⟨other, result⟩ := earlier
    obtain rfl : other = path := hsame
    cases result with
    | none =>
      rw [(hc.register_iff _ _).mpr hi] at hidle
      cases hidle
    | some result =>
      cases hout : result.outcome with
      | error failure => exact ⟨failure, by rw [Load.outcome?, Option.map_some, hout]⟩
      | ok tokens =>
        have hheld := (hc.held_iff other tokens).mpr
          ⟨i, _, hi, rfl, by rw [Load.outcome?, Option.map_some, hout]⟩
        rw [hheld] at hfind
        cases hfind

private theorem orderly_complete (ho : c.Orderly) {index : Nat} {path : String}
    (hload : c.loads[index]? = some ⟨path, none⟩) (answer : ReadAnswer) :
    (c.complete index answer).Orderly := by
  intro i j earlier later hij hi hj hsame
  have hlt : index < c.loads.length := (List.getElem?_eq_some_iff.mp hload).1
  rw [loads_complete answer hload, List.getElem?_set] at hi hj
  have hlast := ho.path_ne hload nofun
  by_cases hi' : index = i
  · subst hi'
    rw [if_neg (Nat.ne_of_lt hij)] at hj
    rw [if_pos rfl, if_pos hlt, Option.some.injEq] at hi
    subst hi
    exact absurd hsame (hlast j later hij hj)
  · rw [if_neg hi'] at hi
    by_cases hj' : index = j
    · subst hj'
      rw [if_pos rfl, if_pos hlt, Option.some.injEq] at hj
      subst hj
      exact ho i index earlier _ hij hi hload hsame
    · rw [if_neg hj'] at hj
      exact ho i j earlier later hij hi hj hsame

theorem Reachable.orderly (h : c.Reachable) : c.Orderly := by
  induction h with
  | empty =>
    intro i j earlier later _ hi
    simp at hi
  | @request c path hc ih =>
    rcases c.request_cases path with ⟨_, _, h⟩ | ⟨_, _, _, h⟩ | ⟨hfind, hidle, h⟩
    · rw [h]
      exact ih
    · rw [h]
      exact ih
    · rw [h]
      exact orderly_start hc.coherent ih hfind hidle
  | @complete c index answer _ ih =>
    by_cases hbusy : ∃ path, c.loads[index]? = some ⟨path, none⟩
    · obtain ⟨path, hload⟩ := hbusy
      exact orderly_complete ih hload answer
    · rw [complete_of_not_underWay answer fun path hload => hbusy ⟨path, hload⟩]
      exact ih

/-! ### The answers to the reads of a path -/

def answersOf (c : TokenCache) (path : String) : List ReadAnswer :=
  (c.loads.filter fun load => load.path == path).filterMap Load.answer?

theorem mem_answersOf_iff {path : String} {answer : ReadAnswer} :
    answer ∈ c.answersOf path ↔
      ∃ load ∈ c.loads, load.path = path ∧ load.answer? = some answer := by
  simp only [answersOf, List.mem_filterMap, List.mem_filter, beq_iff_eq, and_assoc]

private theorem answersOf_start (c : TokenCache) (path other : String) :
    (c.start path).answersOf other = c.answersOf other := by
  rw [answersOf, loads_start, List.filter_append, List.filterMap_append, ← answersOf]
  by_cases ho : path = other
  · simp [ho, Load.answer?]
  · simp [ho]

theorem answersOf_request (c : TokenCache) (path other : String) :
    (c.request path).2.answersOf other = c.answersOf other := by
  rcases c.request_cases path with ⟨_, _, h⟩ | ⟨_, _, _, h⟩ | ⟨_, _, h⟩
  · rw [h]
  · rw [h]
  · rw [h, answersOf_start]

private theorem exists_split {index : Nat} {load : Load} (hload : c.loads[index]? = some load)
    (hlast : ∀ (k : Nat) (later : Load), index < k → c.loads[k]? = some later →
      load.path ≠ later.path) :
    ∃ before after, c.loads = before ++ load :: after ∧ before.length = index ∧
      after.filter (fun later => later.path == load.path) = [] := by
  obtain ⟨hlt, hget⟩ := List.getElem?_eq_some_iff.mp hload
  refine ⟨c.loads.take index, c.loads.drop (index + 1), ?_, ?_, ?_⟩
  · rw [← hget, List.getElem_cons_drop, List.take_append_drop]
  · rw [List.length_take, Nat.min_eq_left (Nat.le_of_lt hlt)]
  · rw [List.filter_eq_nil_iff]
    intro later hmem
    obtain ⟨k, hk⟩ := List.mem_iff_getElem?.mp hmem
    rw [List.getElem?_drop] at hk
    have hne := hlast _ later (by omega) hk
    simpa using Ne.symm hne

theorem answersOf_complete (ho : c.Orderly) {index : Nat} {path : String}
    (hload : c.loads[index]? = some ⟨path, none⟩) (answer : ReadAnswer) (other : String) :
    (c.complete index answer).answersOf other =
      c.answersOf other ++ if path = other then [answer] else [] := by
  obtain ⟨before, after, hsplit, hlength, hafter⟩ := exists_split hload (ho.path_ne hload nofun)
  have hnew : (c.complete index answer).loads =
      before ++ ⟨path, some (.ofAnswer path answer)⟩ :: after := by
    rw [loads_complete answer hload, hsplit, List.set_append, if_neg (by omega)]
    simp [hlength]
  rw [answersOf, answersOf, hnew, hsplit]
  by_cases hpath : path = other
  · subst hpath
    simp [hafter, Load.answer?, LoadResult.ofAnswer]
  · simp [hpath]

theorem Reachable.count_readPaths (h : c.Reachable) (path : String) :
    c.readPaths.count path =
      (c.answersOf path).length + if (c.underWay? path).isSome then 1 else 0 := by
  induction h with
  | empty => rfl
  | @request c other hc ih =>
    rw [answersOf_request]
    rcases c.request_cases other with ⟨_, _, h⟩ | ⟨_, _, _, h⟩ | ⟨_, hidle, h⟩
    · rw [h]
      exact ih
    · rw [h]
      exact ih
    · rw [h, readPaths_start, List.count_append, ih, underWay?_start]
      by_cases ho : path = other
      · subst ho
        simp [hidle]
      · simp [ho, Ne.symm ho]
  | @complete c index answer hc ih =>
    by_cases hbusy : ∃ path, c.loads[index]? = some ⟨path, none⟩
    · obtain ⟨other, hload⟩ := hbusy
      rw [readPaths_complete, ih, answersOf_complete hc.orderly hload,
        underWay?_complete answer hload, List.length_append]
      by_cases ho : path = other
      · subst ho
        simp [(hc.coherent.register_iff path index).mpr hload]
      · simp [ho, Ne.symm ho]
    · rw [complete_of_not_underWay answer fun path hload => hbusy ⟨path, hload⟩]
      exact ih

/-- What is held for a path is what the last answer to its reads gave; those before gave nothing. -/
theorem find?_eq_some_iff (hc : c.Reachable) {path : String} {tokens : List Token} :
    c.find? path = some tokens ↔ ∃ before answer, c.answersOf path = before ++ [answer] ∧
      tokensOf path answer = .ok tokens ∧
        ∀ earlier ∈ before, ∃ failure, tokensOf path earlier = .error failure := by
  rw [hc.coherent.held_iff]
  constructor
  · rintro ⟨index, load, hload, rfl, hok⟩
    have hgood : ∀ failure, load.outcome? ≠ some (.error failure) := by simp [hok]
    obtain ⟨before, after, hsplit, hlength, hafter⟩ :=
      exists_split hload (hc.orderly.path_ne hload hgood)
    rw [Load.outcome?_eq, Option.map_eq_some_iff] at hok
    obtain ⟨answer, hanswer, hok⟩ := hok
    refine ⟨(before.filter fun earlier => earlier.path == load.path).filterMap Load.answer?, answer,
      ?_, hok, ?_⟩
    · rw [answersOf, hsplit]
      simp [hafter, hanswer]
    · intro earlier hmem
      obtain ⟨found, hfound, hfoundAnswer⟩ := List.mem_filterMap.mp hmem
      obtain ⟨hbefore, hpath⟩ := List.mem_filter.mp hfound
      rw [beq_iff_eq] at hpath
      obtain ⟨i, hi⟩ := List.mem_iff_getElem?.mp hbefore
      have hilt : i < before.length := (List.getElem?_eq_some_iff.mp hi).1
      have hget : c.loads[i]? = some found := by
        rw [hsplit, List.getElem?_append_left hilt, hi]
      obtain ⟨failure, hfailed⟩ :=
        hc.orderly i index found load (by omega) hget hload hpath
      rw [Load.outcome?_eq, hfoundAnswer, Option.map_some, hpath] at hfailed
      exact ⟨failure, Option.some.inj hfailed⟩
  · rintro ⟨before, answer, hanswers, hok, -⟩
    have hmem : answer ∈ c.answersOf path := by simp [hanswers]
    obtain ⟨load, hload, rfl, hanswer⟩ := mem_answersOf_iff.mp hmem
    obtain ⟨index, hindex⟩ := List.mem_iff_getElem?.mp hload
    exact ⟨index, load, hindex, rfl, by rw [Load.outcome?_eq, hanswer, Option.map_some, hok]⟩

/-! ### What was read since -/

/-- Every load but the first `n` has succeeded. -/
def SucceedsFrom (n : Nat) (c : TokenCache) : Prop :=
  ∀ (index : Nat) (load : Load), n ≤ index → c.loads[index]? = some load →
    ∃ tokens, load.outcome? = some (.ok tokens)

private theorem Grows.exists_load (hgrows : Grows c d) {index : Nat} {load : Load}
    (hload : c.loads[index]? = some load) :
    ∃ later, d.loads[index]? = some later ∧ later.path = load.path ∧
      ∀ outcome, load.outcome? = some outcome → later.outcome? = some outcome := by
  obtain ⟨later, hlater, hpath⟩ := hgrows.paths index load hload
  refine ⟨later, hlater, hpath, ?_⟩
  intro outcome hout
  obtain ⟨found, hfound, hsame⟩ := redeem?_load_eq_some.mp
    (hgrows.outcomes index outcome (redeem?_load_eq_some.mpr ⟨load, hload, hout⟩))
  exact Option.some.inj (hlater.symm.trans hfound) ▸ hsame

private theorem Grows.readPaths_eq (hgrows : Grows c d) :
    d.readPaths = c.readPaths ++ (d.loads.drop c.loads.length).map Load.path := by
  have hfront : (d.loads.take c.loads.length).map Load.path = c.readPaths := by
    apply List.ext_getElem?
    intro i
    rw [readPaths, List.getElem?_map, List.getElem?_map]
    rcases Nat.lt_or_ge i c.loads.length with hlt | hge
    · obtain ⟨later, hlater, hpath⟩ := hgrows.paths i _ (List.getElem?_eq_getElem hlt)
      rw [List.getElem?_take_of_lt hlt, hlater, List.getElem?_eq_getElem hlt]
      exact congrArg some hpath
    · rw [List.getElem?_take_eq_none hge, List.getElem?_eq_none hge]
  rw [← hfront, ← List.map_append, List.take_append_drop, readPaths]

private theorem contains_eq_false_of_load (hc : c.Coherent) (hd : d.Orderly) (hgrows : Grows c d)
    {index : Nat} {load : Load} (hindex : c.loads.length ≤ index)
    (hload : d.loads[index]? = some load) : c.contains load.path = false := by
  rw [← Bool.not_eq_true]
  intro hheld
  obtain ⟨tokens, hfind⟩ := Option.isSome_iff_exists.mp hheld
  obtain ⟨i, earlier, hearlier, hpath, hok⟩ := (hc.held_iff load.path tokens).mp hfind
  have hlt : i < c.loads.length := (List.getElem?_eq_some_iff.mp hearlier).1
  obtain ⟨later, hlater, hsame, hkept⟩ := hgrows.exists_load hearlier
  obtain ⟨failure, hfailed⟩ :=
    hd i index later load (by omega) hlater hload (hsame.trans hpath)
  rw [hkept _ hok] at hfailed
  cases hfailed

private theorem underWay?_or_contains (hc : c.Coherent) (hgrows : Grows c d) {index : Nat}
    {load : Load} {tokens : List Token} (hindex : index < c.loads.length)
    (hload : d.loads[index]? = some load) (hok : load.outcome? = some (.ok tokens)) :
    c.underWay? load.path ≠ none ∨ c.contains load.path = true := by
  have hearlier := List.getElem?_eq_getElem hindex
  obtain ⟨later, hlater, hpath, hkept⟩ := hgrows.exists_load hearlier
  obtain rfl : later = load := Option.some.inj (hlater.symm.trans hload)
  rw [hpath]
  cases hout : c.loads[index].outcome? with
  | none =>
    left
    rw [Load.eq_of_outcome?_eq_none hout] at hearlier
    simp [(hc.register_iff _ _).mpr hearlier]
  | some outcome =>
    right
    obtain rfl : outcome = .ok tokens := Option.some.inj ((hkept _ hout).symm.trans hok)
    rw [contains, (hc.held_iff _ tokens).mpr ⟨index, _, hearlier, rfl, hout⟩]
    rfl

/-- If every load since has succeeded, the paths read since are distinct and were not held before,
and they are all that have come to be held, but for those that were being loaded already. -/
theorem exists_reads_of_succeeds (hc : c.Coherent) (hd : d.Reachable) (hgrows : Grows c d)
    (hok : d.SucceedsFrom c.loads.length) :
    ∃ later, d.readPaths = c.readPaths ++ later ∧ later.Nodup ∧
      (∀ path ∈ later, c.contains path = false) ∧
      ∀ path, d.contains path = true → c.contains path = false → c.underWay? path = none →
        path ∈ later := by
  refine ⟨_, hgrows.readPaths_eq, ?_, ?_, ?_⟩
  · rw [List.Nodup, List.pairwise_iff_getElem]
    intro i j hi hj hij heq
    rw [List.length_map, List.length_drop] at hi hj
    rw [List.getElem_map, List.getElem_map, List.getElem_drop, List.getElem_drop] at heq
    have hfirst := List.getElem?_eq_getElem (l := d.loads) (i := c.loads.length + i) (by omega)
    have hsecond := List.getElem?_eq_getElem (l := d.loads) (i := c.loads.length + j) (by omega)
    obtain ⟨tokens, hgood⟩ := hok _ _ (Nat.le_add_right _ i) hfirst
    obtain ⟨failure, hfailed⟩ := hd.orderly _ _ _ _ (by omega) hfirst hsecond heq
    rw [hgood] at hfailed
    cases hfailed
  · intro path hmem
    obtain ⟨load, hload, rfl⟩ := List.mem_map.mp hmem
    obtain ⟨i, hi⟩ := List.mem_iff_getElem?.mp hload
    rw [List.getElem?_drop] at hi
    exact contains_eq_false_of_load hc hd.orderly hgrows (Nat.le_add_right _ i) hi
  · intro path hheld hfree hidle
    obtain ⟨tokens, hfind⟩ := Option.isSome_iff_exists.mp hheld
    obtain ⟨index, load, hload, rfl, hgood⟩ := (hd.coherent.held_iff path tokens).mp hfind
    rcases Nat.lt_or_ge index c.loads.length with hlt | hge
    · rcases underWay?_or_contains hc hgrows hlt hload hgood with hbusy | hcached
      · exact absurd hidle hbusy
      · rw [hfree] at hcached
        cases hcached
    · refine List.mem_map_of_mem (List.mem_of_getElem? (i := index - c.loads.length) ?_)
      rw [List.getElem?_drop, Nat.add_sub_cancel' hge, hload]

theorem underWay?_of_succeeds (hc : c.Coherent) (hd : d.Coherent) (hgrows : Grows c d)
    (hok : d.SucceedsFrom c.loads.length) {path : String} (hidle : c.underWay? path = none) :
    d.underWay? path = none := by
  cases hbusy : d.underWay? path with
  | none => rfl
  | some index =>
    have hload := (hd.register_iff path index).mp hbusy
    rcases Nat.lt_or_ge index c.loads.length with hlt | hge
    · obtain ⟨later, hlater, hpath, hkept⟩ := hgrows.exists_load (List.getElem?_eq_getElem hlt)
      obtain rfl : later = ⟨path, none⟩ := Option.some.inj (hlater.symm.trans hload)
      have hout : c.loads[index].outcome? = none := by
        cases hout : c.loads[index].outcome? with
        | none => rfl
        | some outcome => cases hkept outcome hout
      have hearlier : c.loads[index]? = some ⟨path, none⟩ := by
        rw [List.getElem?_eq_getElem hlt, Load.eq_of_outcome?_eq_none hout, ← hpath]
      rw [(hc.register_iff path index).mpr hearlier] at hidle
      cases hidle
    · obtain ⟨tokens, hgood⟩ := hok index _ hge hload
      cases hgood

end TokenCache

end GoroutineDump.Highlight
