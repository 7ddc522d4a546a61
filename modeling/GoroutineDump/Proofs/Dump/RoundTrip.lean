import GoroutineDump.Proofs.Dump.Grammar

set_option autoImplicit false
set_option relaxedAutoImplicit false

namespace GoroutineDump.Dump

variable {roots : Roots}

structure PlainFrame (roots : Roots) (f : Frame) : Prop where
  call : PlainCall f.call
  path_unbroken : Unbroken (roots.pathOf f.location).toList

/-- What a goroutine has to be like to be printed as one record: its header and its frames are
plain, and only the outermost frame tells of an origin, without which there is no parent. -/
structure Printable (roots : Roots) (g : Goroutine) : Prop extends PlainHeader g where
  state_unbroken : Unbroken g.state.toList
  stack_ne : g.stack ≠ []
  frames : ∀ f ∈ g.stack, PlainFrame roots f
  origin_last : ∀ f ∈ g.stack.dropLast, f.call.origin = false
  parent_origin : g.parent ≠ none → ∀ f, g.stack.getLast? = some f → f.call.origin = true

/-- A frame that its two lines tell apart from every other one. -/
structure Recoverable (roots : Roots) (parent : Option UInt64) (f : Frame) : Prop where
  excerpt : f.excerpt = {}
  classified : roots.classify (roots.pathOf f.location) = some (f.location.tree, f.location.file)
  line : ¬ NamesLine f.call.extra.toList
  origin_args : f.call.origin = true → f.call.args = ""
  origin_parent : f.call.origin = true → parent = none → ¬ NamesParent f.call.method.toList

private theorem Unbroken.append {a b : List Char} (ha : Unbroken a) (hb : Unbroken b) :
    Unbroken (a ++ b) := by
  refine ⟨?_, ?_⟩
  · rw [List.mem_append, not_or]
    exact ⟨ha.1, hb.1⟩
  · rw [List.mem_append, not_or]
    exact ⟨ha.2, hb.2⟩

private theorem Unbroken.cons {c : Char} {cs : List Char} (hc : Unbroken [c]) (hcs : Unbroken cs) :
    Unbroken (c :: cs) := hc.append hcs

private theorem unbroken_digits (n : Nat) : Unbroken (Text.digits n) :=
  ⟨notMem_digits (by decide) n, notMem_digits (by decide) n⟩

private theorem unbroken_headerLine {g : Goroutine} (h : Unbroken g.state.toList) :
    Unbroken (headerLine g) := by
  unfold headerLine
  have hminutes (m : Nat) :
      Unbroken (if m = 0 then [] else ", ".toList ++ Text.digits m ++ " minutes".toList) := by
    split
    · decide
    · exact (Unbroken.append (by decide) (unbroken_digits m)).append (by decide)
  have hlocked : Unbroken (if g.locked then ", locked to thread".toList else []) := by
    split <;> decide
  have hstart : Unbroken ("goroutine ".toList ++ Text.digits g.id.toNat ++ " [".toList) :=
    (Unbroken.append (by decide) (unbroken_digits _)).append (by decide)
  exact (((hstart.append h).append (hminutes _)).append hlocked).append (by decide)

private theorem unbroken_callLine {c : Call} (h : PlainCall c) (parent : Option UInt64) :
    Unbroken (callLine parent c) := by
  have hname : Unbroken (c.package.toList ++ '.' :: c.method.toList) :=
    h.package_unbroken.append (.cons (by decide) h.method_unbroken)
  unfold callLine
  simp only
  split
  · refine (Unbroken.append (by decide) hname).append ?_
    cases parent with
    | none => exact (by decide : Unbroken [])
    | some id => exact Unbroken.append (by decide) (unbroken_digits _)
  · rw [List.append_assoc]
    refine hname.append ?_
    exact .cons (by decide) (h.args_unbroken.append (by decide))

private theorem unbroken_locationLine {f : Frame} (h : PlainFrame roots f) :
    Unbroken (locationLine roots f) := by
  have hextra : Unbroken (if f.call.extra.isEmpty then [] else ' ' :: f.call.extra.toList) := by
    split
    · decide
    · exact .cons (by decide) h.call.extra_unbroken
  have hplace : Unbroken ('\t' :: (roots.pathOf f.location).toList ++
      ':' :: Text.digits f.location.line.toNat) :=
    .append (.cons (by decide) h.path_unbroken) (.cons (by decide) (unbroken_digits _))
  exact hplace.append hextra

private theorem isBlank_of_mem {line : List Char} {c : Char} (hc : Unicode.isSpace c = false)
    (h : c ∈ line) : Unicode.isBlank line = false := by
  rw [Unicode.isBlank, List.all_eq_false]
  exact ⟨c, h, by simp [hc]⟩

private theorem lines_recordLines {g : Goroutine} (h : Printable roots g) :
    ∀ line ∈ recordLines roots g, Unbroken line ∧ Unicode.isBlank line = false := by
  intro line hmem
  rcases List.mem_cons.mp hmem with rfl | hmem
  · have hletter : 'g' ∈ headerLine g := by
      unfold headerLine
      simp only [List.append_assoc]
      exact List.mem_append_left _ (by decide)
    exact ⟨unbroken_headerLine h.state_unbroken, isBlank_of_mem (by decide) hletter⟩
  · obtain ⟨f, hf, hline⟩ := List.mem_flatMap.mp hmem
    have hplain := h.frames f hf
    simp only [List.mem_cons, List.not_mem_nil, or_false] at hline
    rcases hline with rfl | rfl
    · have hdot : '.' ∈ callLine g.parent f.call := by
        unfold callLine
        simp only
        split <;> simp
      exact ⟨unbroken_callLine hplain.call g.parent, isBlank_of_mem (by decide) hdot⟩
    · have hcolon : ':' ∈ locationLine roots f := by simp [locationLine]
      exact ⟨unbroken_locationLine hplain, isBlank_of_mem (by decide) hcolon⟩

private theorem isElision_callLine (parent : Option UInt64) (c : Call) :
    isElision (callLine parent c) = false := by
  cases helided : isElision (callLine parent c) with
  | false => rfl
  | true =>
    obtain ⟨hfirst, hlast⟩ := isElision_ends helided
    cases horigin : c.origin with
    | true =>
      have hmark : (callLine parent c).head? = some 'c' := by simp [callLine, horigin]
      rw [hmark] at hfirst
      exact absurd (Option.some.inj hfirst) (by decide)
    | false =>
      have hline : callLine parent c =
          (c.package.toList ++ '.' :: c.method.toList ++ '(' :: c.args.toList) ++ [')'] := by
        simp [callLine, horigin]
      have hclose : (callLine parent c).getLast? = some ')' := by
        rw [hline, List.getLast?_concat]
      rw [hclose] at hlast
      exact absurd (Option.some.inj hlast) (by decide)

private theorem exists_cons_iff {parent : Option UInt64} {f : Frame} (hf : PlainFrame roots f)
    {tail : Body} (htail : f.call.origin = true → tail.parent = none) :
    (∃ call location, CallLine.read (callLine parent f.call) = .ok call ∧
        LocationLine.read roots (locationLine roots f) = .ok location ∧
        Body.cons call location tail = ⟨f :: tail.frames, parent⟩) ↔
      Recoverable roots parent f ∧
        tail.parent.or (if f.call.origin then parent else none) = parent := by
  have hcall := CallLine.read_callLine hf.call parent
  have hlocation := LocationLine.read_locationLine hf.path_unbroken hf.call.extra_unbroken
  constructor
  · rintro ⟨call, location, hreadCall, hreadLocation, hcons⟩
    simp only [Body.cons, Body.mk.injEq, List.cons.injEq, and_true] at hcons
    obtain ⟨hframe, hparent⟩ := hcons
    have hplace : location = ⟨f.location, f.call.extra⟩ := by
      rw [← hframe]
    have hnamed : call.call = { f.call with extra := "" } := by
      rw [← hframe, ← CallLine.read_extra hreadCall]
    have hmade : call.parent = if f.call.origin then parent else none := by
      cases horigin : f.call.origin with
      | false =>
        have hordinary := CallLine.read_ordinary hf.call horigin parent
        rw [hreadCall] at hordinary
        rw [Except.ok.inj hordinary]
        rfl
      | true =>
        rw [htail horigin, Option.none_or] at hparent
        rw [if_pos rfl, hparent]
    have hfields : call = ⟨{ f.call with extra := "" }, if f.call.origin then parent else none⟩ := by
      rw [← hnamed, ← hmade]
    rw [hfields, hcall] at hreadCall
    rw [hplace, hlocation] at hreadLocation
    refine ⟨⟨?_, hreadLocation.2, hreadLocation.1, ?_, ?_⟩, hmade ▸ hparent⟩
    · rw [← hframe]
    · exact fun horigin => (hreadCall horigin).1
    · exact fun horigin => (hreadCall horigin).2
  · rintro ⟨hrecoverable, hparent⟩
    refine ⟨_, _, hcall.mpr ?_, hlocation.mpr ⟨hrecoverable.line, hrecoverable.classified⟩, ?_⟩
    · exact fun horigin => ⟨hrecoverable.origin_args horigin, hrecoverable.origin_parent horigin⟩
    · have hexcerpt := hrecoverable.excerpt
      simp only [Body.cons, hparent]
      cases f
      simp_all

def stackLines (roots : Roots) (parent : Option UInt64) (stack : List Frame) :
    List (List Char) :=
  stack.flatMap fun f => [callLine parent f.call, locationLine roots f]

private theorem read_frame_iff {parent : Option UInt64} {f : Frame} (hf : PlainFrame roots f)
    {stack : List Frame}
    (hsingle : f.call.origin = true → stack = []) :
    Body.read roots (stackLines roots parent (f :: stack)) = .ok ⟨f :: stack, parent⟩ ↔
      Recoverable roots parent f ∧
        ∃ above, Body.read roots (stackLines roots parent stack) = .ok ⟨stack, above⟩ ∧
          above.or (if f.call.origin then parent else none) = parent := by
  have hlines : stackLines roots parent (f :: stack) =
      callLine parent f.call :: locationLine roots f :: stackLines roots parent stack := rfl
  have hnone (above : Option UInt64)
      (hread : Body.read roots (stackLines roots parent stack) = .ok ⟨stack, above⟩)
      (horigin : f.call.origin = true) : above = none := by
    rw [hsingle horigin] at hread
    exact (congrArg Body.parent (Except.ok.inj hread)).symm
  rw [hlines, Body.read_frame_eq_ok_iff (isElision_callLine parent f.call)]
  constructor
  · rintro ⟨tail, hread, c, l, hcall, hplace, hcons⟩
    have hframes : tail.frames = stack := by
      have hstack := congrArg Body.frames hcons
      exact (List.cons.inj hstack).2
    obtain ⟨frames, above⟩ := tail
    obtain rfl : frames = stack := hframes
    obtain ⟨hrecoverable, hparent⟩ :=
      (exists_cons_iff hf (hnone above hread)).mp ⟨c, l, hcall, hplace, hcons⟩
    exact ⟨hrecoverable, above, hread, hparent⟩
  · rintro ⟨hrecoverable, above, hread, hparent⟩
    exact ⟨⟨stack, above⟩, hread,
      (exists_cons_iff hf (hnone above hread)).mpr ⟨hrecoverable, hparent⟩⟩

private theorem read_stackLines_iff {parent : Option UInt64} {stack : List Frame} (hne : stack ≠ [])
    (hframes : ∀ f ∈ stack, PlainFrame roots f)
    (hlast : ∀ f ∈ stack.dropLast, f.call.origin = false)
    (hparent : parent ≠ none → ∀ f, stack.getLast? = some f → f.call.origin = true) :
    Body.read roots (stackLines roots parent stack) = .ok ⟨stack, parent⟩ ↔
      ∀ f ∈ stack, Recoverable roots parent f := by
  induction stack with
  | nil => exact absurd rfl hne
  | cons f stack ih =>
    have hf := hframes f List.mem_cons_self
    cases stack with
    | nil =>
      have hown : (none : Option UInt64).or (if f.call.origin then parent else none) = parent := by
        cases horigin : f.call.origin with
        | true => rfl
        | false =>
          cases parent with
          | none => rfl
          | some id =>
            have := hparent (by simp) f rfl
            rw [horigin] at this
            cases this
      rw [read_frame_iff hf fun _ => rfl]
      constructor
      · rintro ⟨hrecoverable, -⟩ g hg
        rw [List.mem_singleton.mp hg]
        exact hrecoverable
      · intro hall
        exact ⟨hall f List.mem_cons_self, none, rfl, hown⟩
    | cons next stack =>
      have hordinary : f.call.origin = false := hlast f (by simp)
      have htail := ih (by simp) (fun g hg => hframes g (List.mem_cons_of_mem f hg))
        (fun g hg => hlast g (by simp [hg]))
        (fun h g hg => hparent h g (by simpa using hg))
      have hsingle : f.call.origin = true → next :: stack = [] := by
        rw [hordinary]
        intro h
        cases h
      rw [read_frame_iff hf hsingle, List.forall_mem_cons, ← htail, hordinary]
      constructor
      · rintro ⟨hrecoverable, above, hread, habove⟩
        simp only [Bool.false_eq_true, if_false, Option.or_none] at habove
        exact ⟨hrecoverable, habove ▸ hread⟩
      · rintro ⟨hrecoverable, hread⟩
        exact ⟨hrecoverable, parent, hread, by simp⟩

private theorem readRecord_recordLines_iff {g : Goroutine} (h : Printable roots g) :
    readRecord roots (recordLines roots g) = .ok g ↔
      ∀ f ∈ g.stack, Recoverable roots g.parent f := by
  have hbody := read_stackLines_iff h.stack_ne h.frames h.origin_last h.parent_origin
  have hlines : recordLines roots g = headerLine g :: stackLines roots g.parent g.stack := rfl
  rw [← hbody, hlines, readRecord, Header.read_headerLine h.toPlainHeader]
  cases hread : Body.read roots (stackLines roots g.parent g.stack) with
  | error e => simp [bind, Except.bind]
  | ok body =>
    obtain ⟨frames, parent⟩ := body
    simp only [bind, Except.bind, h.id_ne, false_or, Except.ok.injEq, Body.mk.injEq]
    by_cases hnil : frames = []
    · simp [hnil, Ne.symm h.stack_ne, throw, throwThe, MonadExceptOf.throw]
    · cases g
      simp [hnil, pure, Except.pure, and_comm]

/-- Reading undoes printing, for every list of goroutines whose fields keep to their places in the
lines of a dump, exactly when each frame can be recovered from its own two lines. -/
theorem parse_print (roots : Roots) {gs : List Goroutine} (h : ∀ g ∈ gs, Printable roots g) :
    parse roots (print roots gs) = .ok gs ↔
      ∀ g ∈ gs, ∀ f ∈ g.stack, Recoverable roots g.parent f := by
  have hne : [] ∉ gs.map (recordLines roots) := by
    intro hmem
    obtain ⟨g, -, hg⟩ := List.mem_map.mp hmem
    cases hg
  have hlines : ∀ r ∈ gs.map (recordLines roots), ∀ line ∈ r,
      Unbroken line ∧ Unicode.isBlank line = false := by
    intro r hr
    obtain ⟨g, hg, rfl⟩ := List.mem_map.mp hr
    exact lines_recordLines (h g hg)
  rw [parse, print, String.toList_ofList, records_dumpLines hne hlines, mapM_eq_ok_iff,
    List.forall₂_map_left_iff, List.forall₂_same]
  refine forall₂_congr fun g hg => ?_
  exact readRecord_recordLines_iff (h g hg)

def exampleRoots : Roots := ⟨"/src/app/", "/usr/go", ""⟩

def waitingAndRunning : List Goroutine :=
  [{ id := 7, state := "chan receive", blocked := Duration.ofSeconds 300, locked := true,
     parent := some 1,
     stack :=
      [⟨⟨.runtime, "src/net/http/server.go", 1934⟩,
          { package := "net/http", method := "(*conn).serve", args := "0xc0001, {0x7f3a, 0x1}",
            extra := "+0x8a5" }, {}⟩,
        ⟨⟨.project, "main.go", 12⟩,
          { package := "main", method := "main.func1", origin := true }, {}⟩] },
    { id := 1, state := "running",
      stack :=
      [⟨⟨.generated, "_cgo_gotypes.go", 3⟩, { package := "main", method := "_Cfunc_run" }, {}⟩,
        ⟨⟨.runtime, "src/runtime/proc.go", 310⟩,
          { package := "runtime", method := "init.6", origin := true, extra := "+0x25" }, {}⟩] }]

theorem parse_print_waitingAndRunning :
    (∀ g ∈ waitingAndRunning, Printable exampleRoots g) ∧
      parse exampleRoots (print exampleRoots waitingAndRunning) = .ok waitingAndRunning := by
  have hprintable : ∀ g ∈ waitingAndRunning, Printable exampleRoots g := by
    intro g hg
    simp only [waitingAndRunning, List.mem_cons, List.not_mem_nil, or_false] at hg
    rcases hg with rfl | rfl
    · refine ⟨⟨by decide, by decide, by decide, by decide, 5, by decide, rfl⟩, by decide, by decide,
        ?_, by decide, by decide⟩
      intro f hf
      simp only [List.mem_cons, List.not_mem_nil, or_false] at hf
      rcases hf with rfl | rfl
      · exact ⟨by constructor <;> decide, by decide⟩
      · exact ⟨by constructor <;> decide, by decide⟩
    · refine ⟨⟨by decide, by decide, by decide, by decide, 0, by decide, rfl⟩, by decide, by decide,
        ?_, by decide, by decide⟩
      intro f hf
      simp only [List.mem_cons, List.not_mem_nil, or_false] at hf
      rcases hf with rfl | rfl
      · exact ⟨by constructor <;> decide, by decide⟩
      · exact ⟨by constructor <;> decide, by decide⟩
  refine ⟨hprintable, (parse_print exampleRoots hprintable).mpr ?_⟩
  intro g hg f hf
  simp only [waitingAndRunning, List.mem_cons, List.not_mem_nil, or_false] at hg
  rcases hg with rfl | rfl
  · simp only [List.mem_cons, List.not_mem_nil, or_false] at hf
    rcases hf with rfl | rfl
    · exact ⟨rfl, by decide, not_namesLine (by decide), by decide, nofun⟩
    · exact ⟨rfl, by decide, not_namesLine (by decide), by decide, nofun⟩
  · simp only [List.mem_cons, List.not_mem_nil, or_false] at hf
    rcases hf with rfl | rfl
    · exact ⟨rfl, by decide, not_namesLine (by decide), by decide, nofun⟩
    · exact ⟨rfl, by decide, not_namesLine (by decide), by decide,
        fun _ _ => not_namesParent (by decide)⟩

end GoroutineDump.Dump
