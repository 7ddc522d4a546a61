import GoroutineDump.Proofs.Dump.Grammar

set_option autoImplicit false
set_option relaxedAutoImplicit false

namespace GoroutineDump.Dump

section Lines

variable {roots : Roots} {line : List Char}

namespace LocationFields

theorem ofLine?_eq_some_iff {f : LocationFields} :
    ofLine? line = some f ↔ '\n' ∉ line ∧ IsDigits f.line ∧
      ∃ after, (after = [] ∧ f.extra = [] ∨ after = ' ' :: f.extra) ∧
        line = '\t' :: (f.path ++ ':' :: (f.line ++ after)) ∧ ¬ NamesLine (f.line ++ after) := by
  constructor
  · intro h
    unfold ofLine? at h
    split at h
    · next cs =>
      split at h
      · cases h
      · next hfeed =>
        obtain ⟨⟨path, ds, extra⟩, hcut, rfl⟩ := Option.map_eq_some_iff.mp h
        obtain ⟨rest, -, rfl, hread, hlast⟩ := Text.lastCut_eq_some_iff.mp hcut
        obtain ⟨after, hne, hds, hafter, rfl, rfl⟩ := lineAndExtra?_eq_some hread
        refine ⟨by simpa using hfeed, ⟨hne, hds⟩, after, ?_, rfl, ?_⟩
        · rcases hafter with rfl | hblank
          · exact .inl ⟨rfl, rfl⟩
          · cases after with
            | nil => cases hblank
            | cons c after => exact .inr (by rw [← Option.some.inj hblank]; rfl)
        · rintro ⟨before, digits, behind, hne', hdigits, hbehind, hlater⟩
          have hlater' := lineAndExtra?_of_digits hne' hdigits hbehind
          have hle := hlast (path ++ ':' :: before) (':' :: (digits ++ behind))
            (by simp only [hlater, List.append_assoc, List.cons_append]) (by simp)
            (by rw [hlater']; rfl)
          rw [List.length_append, List.length_cons] at hle
          omega
    · cases h
  · obtain ⟨path, ds, extra⟩ := f
    rintro ⟨hfeed, ⟨hne, hds⟩, after, hafter, rfl, hlast⟩
    have hblank : after = [] ∨ after.head? = some ' ' := by
      rcases hafter with ⟨hnil, -⟩ | hcons
      · exact .inl hnil
      · exact .inr (by rw [hcons]; rfl)
    have hextra : after.tail = extra := by
      rcases hafter with ⟨rfl, hnil⟩ | rfl
      · exact hnil.symm
      · rfl
    have hread := lineAndExtra?_of_digits hne hds hblank
    have hcut := Text.lastCut_before hread ((lastCut_lineAndExtra?_eq_none_iff _).mpr hlast) path
    rw [List.mem_cons, not_or] at hfeed
    rw [ofLine?, if_neg hfeed.2, hcut, hextra]
    rfl

theorem splitsAt_of_ofLine? {f : LocationFields} (h : ofLine? line = some f) :
    SplitsAt line f.path f.line := by
  obtain ⟨-, hds, after, hafter, hline, -⟩ := ofLine?_eq_some_iff.mp h
  refine ⟨hds, after, ?_, hline⟩
  rcases hafter with ⟨hnil, -⟩ | rfl
  · exact .inl hnil
  · exact .inr rfl

theorem ofLine?_eq_none_iff (h : '\n' ∉ line) :
    ofLine? line = none ↔ ∀ path ds, ¬ SplitsAt line path ds := by
  by_cases htab : ∃ cs, line = '\t' :: cs
  · obtain ⟨cs, rfl⟩ := htab
    have hcs : '\n' ∉ cs := fun hmem => h (List.mem_cons_of_mem _ hmem)
    rw [ofLine?, if_neg hcs, Option.map_eq_none_iff, Text.lastCut_eq_none_iff]
    simp only [splitsAt_iff, not_exists, not_and]
    constructor
    · intro hnone path ds rest extra hcut hread
      have hne : rest ≠ [] := by
        rintro rfl
        cases hread
      rw [hnone path rest hcut hne] at hread
      cases hread
    · intro hnot path rest hcut _
      cases hread : lineAndExtra? rest with
      | none => rfl
      | some found => exact absurd hread (hnot path found.1 rest found.2 hcut)
  · have hnone : ofLine? line = none := by
      unfold ofLine?
      split
      · exact absurd ⟨_, rfl⟩ htab
      · rfl
    refine iff_of_true hnone ?_
    rintro path ds ⟨-, after, -, rfl⟩
    exact htab ⟨_, rfl⟩

end LocationFields

namespace LocationLine

theorem read_eq_error_iff {e : Error} :
    read roots line = .error e ↔
      LocationFields.ofLine? line = none ∧ .malformedLocation (String.ofList line) = e ∨
      ∃ f, LocationFields.ofLine? line = some f ∧
        (roots.classify (String.ofList f.path) = none ∧ .unknownRoot (String.ofList f.path) = e ∨
          readNumber .lineNumber f.line line = .error e ∧
            (roots.classify (String.ofList f.path)).isSome = true) := by
  unfold read
  cases LocationFields.ofLine? line with
  | none => simp [throw_eq_error]
  | some f =>
    cases hclassify : roots.classify (String.ofList f.path) with
    | none => simp [hclassify, throw_eq_error]
    | some found => simp [hclassify, map_eq_error]

end LocationLine

/-- What is said of a place is what its line is put together from. Behind the colon in front of the
line number there is no other colon that digits and then a blank or the end of the line follow. -/
def CutsPlace (roots : Roots) (line : List Char) (place : LocationLine) : Prop :=
  ∃ path ds after, line = '\t' :: (path ++ ':' :: (ds ++ after)) ∧ IsDigits ds ∧
    (after = [] ∧ place.extra = "" ∨ after = ' ' :: place.extra.toList) ∧
    ¬ NamesLine (ds ++ after) ∧
    roots.classify (String.ofList path) = some (place.location.tree, place.location.file) ∧
    IsWord ds ∧ place.location.line.toNat = Nat.ofDigitChars 10 ds 0

def CutsCall (line : List Char) (c : CallLine) : Prop :=
  ∃ name, line = name ++ '(' :: (c.call.args.toList ++ [')']) ∧ '(' ∉ c.call.args.toList ∧
    splitQualifiedName name = (c.call.package.toList, c.call.method.toList)

/-- What is said of an origin is what follows its mark: a name and the number of a parent, or only a
name. -/
structure CutsOrigin (origin : List Char) (c : CallLine) : Prop where
  parent_iff : c.parent.isSome = true ↔
    ∃ name ds, IsDigits ds ∧ origin = name ++ " in goroutine ".toList ++ ds
  parent : ∀ name ds, IsDigits ds → origin = name ++ " in goroutine ".toList ++ ds →
    splitQualifiedName name = (c.call.package.toList, c.call.method.toList) ∧
      ∃ id, c.parent = some id ∧ id.toNat = Nat.ofDigitChars 10 ds 0
  orphan : c.parent = none →
    splitQualifiedName origin = (c.call.package.toList, c.call.method.toList)

private theorem LocationLine.cutsPlace_of_read {place : LocationLine}
    (h : LocationLine.read roots line = .ok place) : CutsPlace roots line place := by
  obtain ⟨f, hfields, hclassify, hnumber, hextra⟩ := read_eq_ok_iff.mp h
  obtain ⟨-, hds, after, hafter, hline, hlast⟩ := LocationFields.ofLine?_eq_some_iff.mp hfields
  refine ⟨f.path, f.line, after, hline, hds, ?_, hlast, hclassify, readNumber_eq_ok_iff.mp hnumber⟩
  rw [← hextra, String.toList_ofList]
  rcases hafter with ⟨hnil, hnone⟩ | hcons
  · exact .inl ⟨hnil, by rw [hnone]⟩
  · exact .inr hcons

private theorem LocationLine.read_eq_malformed_iff (h : '\n' ∉ line) (text : String) :
    LocationLine.read roots line = .error (.malformedLocation text) ↔
      (∀ path ds, ¬ SplitsAt line path ds) ∧ text = String.ofList line := by
  rw [← LocationFields.ofLine?_eq_none_iff h, read_eq_error_iff]
  constructor
  · rintro (⟨hnone, heq⟩ | ⟨f, -, ⟨-, heq⟩ | ⟨heq, -⟩⟩)
    · exact ⟨hnone, (Error.malformedLocation.inj heq).symm⟩
    · cases heq
    · cases (readNumber_eq_error_iff.mp heq).2
  · rintro ⟨hnone, rfl⟩
    exact .inl ⟨hnone, rfl⟩

private theorem CallLine.cutsCall_of_read {c : CallLine} (hmark : ¬ originMark <+: line)
    (h : CallLine.read line = .ok c) : CutsCall line c := by
  rw [read_of_not_origin hmark] at h
  split at h
  · cases h
  · next name args hcut =>
    obtain rfl := Except.ok.inj h
    obtain ⟨-, hopen, hline⟩ := cutArguments?_eq_some_iff.mp hcut
    exact ⟨name, by simpa using hline, by simpa using hopen, by simp⟩

theorem CallLine.cutsOrigin_of_read {origin : List Char} {c : CallLine} (hfeed : '\n' ∉ origin)
    (h : CallLine.read (originMark ++ origin) = .ok c) : CutsOrigin origin c := by
  rw [read_origin rfl, readOrigin_eq, map_eq_ok] at h
  obtain ⟨parent, hparent, rfl⟩ := h
  have hnames : NamesParent origin ↔
      ∃ name ds, IsDigits ds ∧ origin = name ++ " in goroutine ".toList ++ ds := by
    simp only [NamesParent, IsDigits, List.append_assoc, and_assoc]
  have hnumber {ds : List Char} (hds : (cutParent origin).2 = some ds) :
      ∃ id, parent = some id ∧ id.toNat = Nat.ofDigitChars 10 ds 0 := by
    rw [hds, Option.mapM_some, map_eq_ok] at hparent
    obtain ⟨id, hid, rfl⟩ := hparent
    exact ⟨id, rfl, (readNumber_eq_ok_iff.mp hid).2⟩
  have horphan (hnot : ¬ NamesParent origin) : parent = none := by
    rw [cutParent_of_not_namesParent hnot, Option.mapM_none, pure_eq_ok] at hparent
    exact hparent.symm
  constructor
  case parent_iff =>
    rw [← hnames]
    constructor
    · intro hsome
      by_contra hnot
      rw [horphan hnot] at hsome
      cases hsome
    · intro hnamed
      obtain ⟨name, ds, hds, horigin⟩ := hnames.mp hnamed
      obtain ⟨id, rfl, -⟩ := hnumber (congrArg Prod.snd (cutParent_of_digits hfeed hds horigin))
      rfl
  case parent =>
    intro name ds hds horigin
    refine ⟨?_, hnumber (congrArg Prod.snd (cutParent_of_digits hfeed hds horigin))⟩
    simp [cutParent_of_digits hfeed hds horigin]
  case orphan =>
    rintro rfl
    have hnot : ¬ NamesParent origin := by
      intro hnamed
      obtain ⟨name, ds, hds, horigin⟩ := hnames.mp hnamed
      obtain ⟨id, hid, -⟩ := hnumber (congrArg Prod.snd (cutParent_of_digits hfeed hds horigin))
      cases hid
    simp [cutParent_of_not_namesParent hnot]

/-- The lines of a frame are cut without loss and at the rightmost place: a location line that is
read, and one is malformed exactly when it cannot be cut at all; an ordinary call; and an origin, in
which a parent is read exactly when there is one. -/
theorem lines_cut (roots : Roots) {line : List Char} (h : '\n' ∉ line) :
    (∀ place, LocationLine.read roots line = .ok place → CutsPlace roots line place) ∧
    (∀ text, LocationLine.read roots line = .error (.malformedLocation text) ↔
      (∀ path ds, ¬ SplitsAt line path ds) ∧ text = String.ofList line) ∧
    (∀ c, ¬ "created by ".toList <+: line → CallLine.read line = .ok c → CutsCall line c) ∧
    ∀ origin c, line = "created by ".toList ++ origin → CallLine.read line = .ok c →
      CutsOrigin origin c := by
  refine ⟨fun _ => LocationLine.cutsPlace_of_read, LocationLine.read_eq_malformed_iff h,
    fun _ => CallLine.cutsCall_of_read, ?_⟩
  rintro origin c rfl hread
  exact CallLine.cutsOrigin_of_read (fun hmem => h (List.mem_append_right _ hmem)) hread

theorem lines_cut_rightmost :
    (∃ place, LocationLine.read {} "\t_cgo_a:1:23 +0x1f:x".toList = .ok place ∧
      (place.location.file, place.location.line, place.extra) = ("_cgo_a:1", 23, "+0x1f:x") ∧
      CutsPlace {} "\t_cgo_a:1:23 +0x1f:x".toList place) ∧
    (∀ path ds, ¬ SplitsAt "\t_cgo_a:1x".toList path ds) ∧
    (∃ c, CallLine.read "main.f(g(1))".toList = .ok c ∧
      (c.call.package, c.call.method, c.call.args) = ("main", "f(g", "1)") ∧
      CutsCall "main.f(g(1))".toList c) ∧
    ∃ c, CallLine.read "created by main.f in goroutine 5 in goroutine 7".toList = .ok c ∧
      (c.call.package, c.call.method, c.parent) = ("main", "f in goroutine 5", some 7) ∧
      CutsOrigin "main.f in goroutine 5 in goroutine 7".toList c := by
  refine ⟨⟨⟨⟨.generated, "_cgo_a:1", 23⟩, "+0x1f:x"⟩, rfl, rfl, ?_⟩, ?_,
    ⟨⟨{ package := "main", method := "f(g", args := "1)" }, none⟩, rfl, rfl, ?_⟩,
    ⟨{ package := "main", method := "f in goroutine 5", origin := true }, some 7⟩, rfl, rfl, ?_⟩
  · exact (lines_cut {} (by decide)).1 _ rfl
  · exact (((lines_cut {} (by decide)).2.1 _).mp rfl).1
  · exact (lines_cut {} (by decide)).2.2.1 _ (by decide) rfl
  · exact (lines_cut {} (by decide)).2.2.2 _ _ rfl rfl

end Lines

/-- An item as lines are taken: an elision, or a line that is none together with the next one. Whether
the lines can be read as a call and a place is left open. -/
def Item.IsCut : Item → Prop
  | elision line => IsElision line
  | frame call _ => ¬ IsElision call

variable {roots : Roots} {first call : List Char} {rest : List (List Char)} {item : Item}
  {items : List Item}

theorem Item.Fits.isCut (h : item.Fits IsCall roots) : item.IsCut := by
  cases item with
  | elision line => exact h
  | frame call place => exact isElision_eq_false_iff.mp (isElision_eq_false_of_isCall h.1)

namespace Body

def append (front back : Body) : Body where
  frames := front.frames ++ back.frames
  parent := back.parent.or front.parent

private theorem append_cons (c : CallLine) (l : LocationLine) (front : Body) :
    (cons c l front).append = fun back => cons c l (front.append back) := by
  funext back
  simp only [append, cons, List.cons_append, Option.or_assoc]

theorem read_frame (h : ¬ IsElision call) (place : List Char) (rest : List (List Char)) :
    Body.read roots (call :: place :: rest) = (do
      let c ← CallLine.read call
      let l ← LocationLine.read roots place
      cons c l <$> Body.read roots rest) := by
  rw [Body.read, if_neg (mt isElision_eq_true_iff.mp h)]

theorem read_last (h : ¬ IsElision call) :
    Body.read roots [call] =
      CallLine.read call >>= fun _ => .error (.missingLocation (String.ofList call)) := by
  rw [Body.read, if_neg (mt isElision_eq_true_iff.mp h)]
  rfl

theorem read_append (h : ∀ item ∈ items, item.IsCut) (rest : List (List Char)) :
    Body.read roots (items.flatMap Item.lines ++ rest) = (do
      let front ← Body.read roots (items.flatMap Item.lines)
      front.append <$> Body.read roots rest) := by
  induction items with
  | nil =>
    show Body.read roots rest = append ⟨[], none⟩ <$> Body.read roots rest
    cases Body.read roots rest with
    | error e => rfl
    | ok back =>
      have hback : append ⟨[], none⟩ back = back := by
        simp only [append, List.nil_append, Option.or_none]
      exact congrArg Except.ok hback.symm
  | cons item items ih =>
    rw [List.forall_mem_cons] at h
    have htail := ih h.2
    cases item with
    | elision line =>
      have helision : isElision line = true := isElision_eq_true_iff.mpr h.1
      have hline (behind : List (List Char)) :
          Body.read roots (line :: behind) = Body.read roots behind := read_elision helision behind
      show Body.read roots (line :: (items.flatMap Item.lines ++ rest)) =
        Body.read roots (line :: items.flatMap Item.lines) >>= _
      rw [hline, hline, htail]
    | frame call place =>
      show Body.read roots (call :: place :: (items.flatMap Item.lines ++ rest)) =
        Body.read roots (call :: place :: items.flatMap Item.lines) >>= _
      -- A frame in front is read before the other items on either side.
      rw [read_frame h.1, read_frame h.1, htail]
      simp only [bind_assoc, map_bind, bind_map_left, Functor.map_map, append_cons]

end Body

def goroutine (header : Header) (body : Body) : Goroutine where
  id := header.id
  state := header.state
  blocked := header.blocked
  locked := header.locked
  parent := body.parent
  stack := body.frames

theorem readRecord_of_body {header : Header} {body : Body} (hheader : Header.read first = .ok header)
    (hbody : Body.read roots rest = .ok body) :
    readRecord roots (first :: rest) =
      if header.id = 0 ∨ body.frames = [] then .error (.emptyRecord (joinLines (first :: rest)))
      else .ok (goroutine header body) := by
  rw [readRecord, hheader]
  show (Body.read roots rest >>= _) = _
  rw [hbody]
  show (if _ then _ else _) = _
  split <;> rfl

end GoroutineDump.Dump
