import GoroutineDump.Proofs.Dump.Cuts
import GoroutineDump.Proofs.Dump.WellFormed
import GoroutineDump.Proofs.Goroutine.Order

/-!
Behind its header the lines of a record are taken as items, in one way only. Those that are no
elisions are the frames, and each frame is read by itself.
-/

set_option autoImplicit false
set_option relaxedAutoImplicit false

namespace GoroutineDump.Dump

def Item.frame? : Item → Option (List Char × List Char)
  | elision _ => none
  | frame call place => some (call, place)

/-- The lines of the frames in a record: of each the line that names the call, and the one that says
where it stands. -/
def HasFrames (record : List (List Char)) (frames : List (List Char × List Char)) : Prop :=
  ∃ (first : List Char) (items : List Item), record = first :: items.flatMap Item.lines ∧
    (∀ item ∈ items, item.IsCut) ∧ frames = items.filterMap Item.frame?

def ReadsAs (roots : Roots) (lines : List Char × List Char) (said : CallLine × LocationLine) :
    Prop :=
  CallLine.read lines.1 = .ok said.1 ∧ LocationLine.read roots lines.2 = .ok said.2

def Body.ofSaid (said : List (CallLine × LocationLine)) : Body :=
  said.foldr (fun s body => Body.cons s.1 s.2 body) ⟨[], none⟩

section Frames

variable {roots : Roots} {record : List (List Char)} {items : List Item}
  {frames others : List (List Char × List Char)}

/-! ### Items -/

/-- There is only one way to take lines as items. -/
private theorem eq_of_flatMap_lines_eq {others : List Item} (hitems : ∀ item ∈ items, item.IsCut)
    (hothers : ∀ item ∈ others, item.IsCut)
    (h : items.flatMap Item.lines = others.flatMap Item.lines) : items = others := by
  induction items generalizing others with
  | nil =>
    cases others with
    | nil => rfl
    | cons other others => cases other <;> cases h
  | cons item items ih =>
    cases others with
    | nil => cases item <;> cases h
    | cons other others =>
      rw [List.forall_mem_cons] at hitems hothers
      have htail := ih hitems.2 hothers.2
      cases item with
      | elision line =>
        cases other with
        | elision line' =>
          obtain ⟨rfl, hrest⟩ := List.cons.inj h
          rw [htail hrest]
        | frame call place =>
          obtain ⟨rfl, -⟩ := List.cons.inj h
          exact absurd hitems.1 hothers.1
      | frame call place =>
        cases other with
        | elision line =>
          obtain ⟨rfl, -⟩ := List.cons.inj h
          exact absurd hothers.1 hitems.1
        | frame call' place' =>
          obtain ⟨rfl, hplace⟩ := List.cons.inj h
          obtain ⟨rfl, hrest⟩ := List.cons.inj hplace
          rw [htail hrest]

theorem HasFrames.unique (h : HasFrames record frames) (h' : HasFrames record others) :
    frames = others := by
  obtain ⟨first, items, rfl, hcut, rfl⟩ := h
  obtain ⟨first', items', hsame, hcut', rfl⟩ := h'
  rw [eq_of_flatMap_lines_eq hcut hcut' (List.cons.inj hsame).2]

private theorem HasFrames.mem (h : HasFrames record frames) {lines : List Char × List Char}
    (hlines : lines ∈ frames) : lines.1 ∈ record ∧ lines.2 ∈ record := by
  obtain ⟨first, items, rfl, -, rfl⟩ := h
  obtain ⟨item, hitem, hframe⟩ := List.mem_filterMap.mp hlines
  cases item with
  | elision line => cases hframe
  | frame call place =>
    obtain rfl := Option.some.inj hframe
    have hmem (line : List Char) (hline : line ∈ (Item.frame call place).lines) :
        line ∈ first :: items.flatMap Item.lines :=
      List.mem_cons_of_mem _ (List.mem_flatMap.mpr ⟨_, hitem, hline⟩)
    exact ⟨hmem call (by simp [Item.lines]), hmem place (by simp [Item.lines])⟩

/-! ### Bodies -/

private theorem Body.exists_said_of_read (hcut : ∀ item ∈ items, item.IsCut) {body : Body}
    (h : Body.read roots (items.flatMap Item.lines) = .ok body) :
    ∃ said, List.Forall₂ (ReadsAs roots) (items.filterMap Item.frame?) said ∧
      body = ofSaid said := by
  induction items generalizing body with
  | nil =>
    obtain rfl := Except.ok.inj h
    exact ⟨[], .nil, rfl⟩
  | cons item items ih =>
    rw [List.forall_mem_cons] at hcut
    rw [List.flatMap_cons] at h
    cases item with
    | elision line =>
      have hskip : Body.read roots (line :: items.flatMap Item.lines) =
          Body.read roots (items.flatMap Item.lines) :=
        read_elision (isElision_eq_true_iff.mpr hcut.1) _
      exact ih hcut.2 (hskip ▸ h)
    | frame call place =>
      obtain ⟨tail, htail, c, l, hcall, hplace, rfl⟩ :=
        (read_frame_eq_ok_iff (isElision_eq_false_iff.mpr hcut.1)).mp h
      obtain ⟨said, hsaid, rfl⟩ := ih hcut.2 htail
      exact ⟨(c, l) :: said, .cons ⟨hcall, hplace⟩ hsaid, rfl⟩

/-! ### Records -/

/-- A goroutine as it is read from the lines of its frames. None of them has a line feed in it. -/
structure ReadFrom (roots : Roots) (frames : List (List Char × List Char))
    (said : List (CallLine × LocationLine)) (g : Goroutine) : Prop where
  unbroken : ∀ lines ∈ frames, '\n' ∉ lines.1 ∧ '\n' ∉ lines.2
  reads : List.Forall₂ (ReadsAs roots) frames said
  stack : g.stack = (Body.ofSaid said).frames
  parent : g.parent = (Body.ofSaid said).parent
  stack_ne : g.stack ≠ []

theorem exists_frames_of_readRecord {g : Goroutine} (hfeed : ∀ line ∈ record, '\n' ∉ line)
    (h : readRecord roots record = .ok g) :
    ∃ frames said, HasFrames record frames ∧ ReadFrom roots frames said g := by
  cases record with
  | nil => cases h
  | cons first rest =>
    obtain ⟨header, body, -, hbody, -, hne, rfl⟩ := exists_of_readRecord h
    obtain ⟨items, rfl, hfits, -⟩ :=
      Body.exists_items_of_read (fun line hline => hfeed line (List.mem_cons_of_mem _ hline)) hbody
    have hcut : ∀ item ∈ items, item.IsCut := fun item hitem => (hfits item hitem).isCut
    obtain ⟨said, hreads, rfl⟩ := Body.exists_said_of_read hcut hbody
    have hframes : HasFrames (first :: items.flatMap Item.lines) (items.filterMap Item.frame?) :=
      ⟨first, items, rfl, hcut, rfl⟩
    refine ⟨_, said, hframes, ?_, hreads, rfl, rfl, hne⟩
    intro lines hlines
    obtain ⟨hcall, hplace⟩ := hframes.mem hlines
    exact ⟨hfeed _ hcall, hfeed _ hplace⟩

/-- Each goroutine of a dump that is read is put together from what the frames of its record say. -/
theorem exists_frames_of_parse {text : String} {gs : List Goroutine}
    (h : parse roots text = .ok gs) :
    ∃ runs, HasRuns (Text.dumpLines text.toList) runs ∧
      List.Forall₂ (fun record g =>
        ∃ frames said, HasFrames record frames ∧ ReadFrom roots frames said g) runs gs := by
  have hruns : HasRuns (Text.dumpLines text.toList) (records (Text.dumpLines text.toList)) :=
    hasRuns_iff.mpr rfl
  refine ⟨_, hruns, ?_⟩
  rw [parse, mapM_eq_ok_iff] at h
  rw [List.forall₂_iff_get] at h ⊢
  refine ⟨h.1, fun i hi hi' => ?_⟩
  have hmem := List.getElem_mem hi
  exact exists_frames_of_readRecord
    (fun line hline => Text.notMem_of_mem_dumpLines ((hruns.of_mem hmem).2 line hline)) (h.2 i hi hi')

end Frames

def NamesId (line : List Char) (id : UInt64) : Prop :=
  ∃ name ds, IsDigits ds ∧
    line = "created by ".toList ++ (name ++ " in goroutine ".toList ++ ds) ∧
    id.toNat = Nat.ofDigitChars 10 ds 0

def LastNamed (calls : List (List Char)) : Option UInt64 → Prop
  | none => ∀ call ∈ calls, ∀ id, ¬ NamesId call id
  | some id => ∃ before call after, calls = before ++ call :: after ∧ NamesId call id ∧
      ∀ later ∈ after, ∀ other, ¬ NamesId later other

structure ReadsOrigins (calls : List (List Char)) (g : Goroutine) : Prop where
  marks : g.stack.map (·.call.origin) = calls.map ("created by ".toList.isPrefixOf ·)
  entry : g.isEntry = true ↔
    ∃ call, calls.getLast? = some call ∧ ¬ "created by ".toList <+: call
  parent : LastNamed calls g.parent

/-- The origin ends its stack. Only the last frame may be one, an entry goroutine is one without an
origin, and the parent is the one that the last call line names. -/
structure OriginEnds (calls : List (List Char)) (g : Goroutine) : Prop where
  last : ∀ f ∈ g.stack.dropLast, f.call.origin = false
  once : (g.stack.filter (·.call.origin)).length ≤ 1
  entry : g.isEntry = true ↔ ∀ f ∈ g.stack, f.call.origin = false
  parent : ∀ id, g.parent = some id ↔ ∃ call, calls.getLast? = some call ∧ NamesId call id

variable {roots : Roots} {line call : List Char} {calls : List (List Char)} {g : Goroutine}

/-! ### Call lines -/

private theorem NamesId.marked {id : UInt64} (h : NamesId line id) :
    "created by ".toList <+: line := by
  obtain ⟨name, ds, -, rfl, -⟩ := h
  exact List.prefix_append _ _

private theorem CallLine.ordinary_of_read {c : CallLine} (hmark : ¬ originMark <+: line)
    (h : read line = .ok c) : c.call.origin = false ∧ c.parent = none := by
  rw [read_of_not_origin hmark] at h
  split at h
  · cases h
  · obtain rfl := Except.ok.inj h
    exact ⟨rfl, rfl⟩

private theorem CallLine.origin_of_read {c : CallLine} (h : read line = .ok c) :
    c.call.origin = "created by ".toList.isPrefixOf line := by
  by_cases hmark : originMark <+: line
  · have hmarked : "created by ".toList.isPrefixOf line = true :=
      List.isPrefixOf_iff_prefix.mpr hmark
    obtain ⟨origin, rfl⟩ := hmark
    rw [read_origin rfl, readOrigin_eq, map_eq_ok] at h
    obtain ⟨parent, -, rfl⟩ := h
    exact hmarked.symm
  · have hmarked : "created by ".toList.isPrefixOf line = false :=
      Bool.eq_false_iff.mpr fun htrue => hmark (List.isPrefixOf_iff_prefix.mp htrue)
    rw [hmarked, (ordinary_of_read hmark h).1]

private theorem CallLine.parent_eq_some_iff {c : CallLine} (hfeed : '\n' ∉ line)
    (h : read line = .ok c) {id : UInt64} : c.parent = some id ↔ NamesId line id := by
  by_cases hmark : originMark <+: line
  · obtain ⟨origin, rfl⟩ := hmark
    have hcuts := cutsOrigin_of_read (fun hmem => hfeed (List.mem_append_right _ hmem)) h
    constructor
    · intro hparent
      obtain ⟨name, ds, hds, horigin⟩ := hcuts.parent_iff.mp (hparent ▸ rfl)
      obtain ⟨-, id', hparent', hvalue⟩ := hcuts.parent name ds hds horigin
      obtain rfl := Option.some.inj (hparent.symm.trans hparent')
      exact ⟨name, ds, hds, horigin ▸ rfl, hvalue⟩
    · rintro ⟨name, ds, hds, hline, hvalue⟩
      obtain ⟨-, id', hparent, hvalue'⟩ :=
        hcuts.parent name ds hds (List.append_cancel_left hline)
      rw [hparent, UInt64.toNat_inj.mp (hvalue'.trans hvalue.symm)]
  · rw [(ordinary_of_read hmark h).2]
    exact iff_of_false nofun fun hnames => hmark hnames.marked

private theorem NamesId.unique {id other : UInt64} (hfeed : '\n' ∉ line) (h : NamesId line id)
    (h' : NamesId line other) : id = other := by
  obtain ⟨name, ds, hds, rfl, hvalue⟩ := h
  obtain ⟨name', ds', hds', hline, hvalue'⟩ := h'
  have hback : '\n' ∉ name ++ " in goroutine ".toList ++ ds :=
    fun hmem => hfeed (List.mem_append_right _ hmem)
  have hcut := CallLine.cutParent_of_digits hback hds rfl
  rw [CallLine.cutParent_of_digits hback hds' (List.append_cancel_left hline)] at hcut
  obtain rfl := Option.some.inj (Prod.mk.inj hcut).2
  exact UInt64.toNat_inj.mp (hvalue.trans hvalue'.symm)

/-! ### Stacks -/

private theorem LastNamed.cons {parent own : Option UInt64} (h : LastNamed calls parent)
    (hown : ∀ id, own = some id ↔ NamesId call id) :
    LastNamed (call :: calls) (parent.or own) := by
  cases parent with
  | some id =>
    obtain ⟨before, named, after, rfl, hnames, hafter⟩ := h
    exact ⟨call :: before, named, after, rfl, hnames, hafter⟩
  | none =>
    cases own with
    | some id => exact ⟨[], call, calls, rfl, (hown id).mp rfl, h⟩
    | none =>
      refine List.forall_mem_cons.mpr ⟨fun id hnames => ?_, h⟩
      cases (hown id).mpr hnames

private theorem marks_and_parent_of_reads {frames : List (List Char × List Char)}
    {said : List (CallLine × LocationLine)} (hreads : List.Forall₂ (ReadsAs roots) frames said)
    (hfeed : ∀ lines ∈ frames, '\n' ∉ lines.1) :
    (Body.ofSaid said).frames.map (·.call.origin) =
        (frames.map Prod.fst).map ("created by ".toList.isPrefixOf ·) ∧
      LastNamed (frames.map Prod.fst) (Body.ofSaid said).parent := by
  induction hreads with
  | nil => exact ⟨rfl, nofun⟩
  | @cons lines s frames said hread _ ih =>
    rw [List.forall_mem_cons] at hfeed
    obtain ⟨hmarks, hparent⟩ := ih hfeed.2
    have hmark : s.1.call.origin = "created by ".toList.isPrefixOf lines.1 :=
      CallLine.origin_of_read hread.1
    exact ⟨List.cons_eq_cons.mpr ⟨hmark, hmarks⟩,
      hparent.cons fun _ => CallLine.parent_eq_some_iff hfeed.1 hread.1⟩

private theorem readsOrigins_of_readFrom {frames : List (List Char × List Char)}
    {said : List (CallLine × LocationLine)} (h : ReadFrom roots frames said g) :
    ReadsOrigins (frames.map Prod.fst) g := by
  obtain ⟨hmarks, hparent⟩ :=
    marks_and_parent_of_reads h.reads fun lines hlines => (h.unbroken lines hlines).1
  rw [← h.stack] at hmarks
  rw [← h.parent] at hparent
  refine ⟨hmarks, ?_, hparent⟩
  have hentry : g.isEntry = true ↔ g.stack.getLast?.map (·.call.origin) = some false :=
    Goroutine.isEntry_iff.trans Option.map_eq_some_iff.symm
  have hlast := congrArg List.getLast? hmarks
  rw [List.getLast?_map, List.getLast?_map] at hlast
  rw [hentry, hlast, Option.map_eq_some_iff]
  simp only [Bool.eq_false_iff, List.isPrefixOf_iff_prefix, ne_eq]

private theorem ReadsOrigins.forall_dropLast_iff (h : ReadsOrigins calls g) :
    (∀ f ∈ g.stack.dropLast, f.call.origin = false) ↔
      ∀ call ∈ calls.dropLast, ¬ "created by ".toList <+: call := by
  have hmarks := congrArg List.dropLast h.marks
  rw [← List.map_dropLast, ← List.map_dropLast] at hmarks
  have hframes : (∀ f ∈ g.stack.dropLast, f.call.origin = false) ↔
      ∀ mark ∈ g.stack.dropLast.map (·.call.origin), mark = false := by
    rw [List.forall_mem_map]
  rw [hframes, hmarks, List.forall_mem_map]
  simp only [Bool.eq_false_iff, List.isPrefixOf_iff_prefix, ne_eq]

private theorem LastNamed.eq_some_iff {parent : Option UInt64} (h : LastNamed calls parent)
    (hfeed : ∀ call ∈ calls, '\n' ∉ call)
    (hfront : ∀ call ∈ calls.dropLast, ¬ "created by ".toList <+: call) {id : UInt64} :
    parent = some id ↔ ∃ call, calls.getLast? = some call ∧ NamesId call id := by
  -- Behind a call that names a parent there is no other call.
  have hends {id : UInt64} (hnamed : LastNamed calls (some id)) :
      ∃ call, calls.getLast? = some call ∧ NamesId call id := by
    obtain ⟨before, call, after, rfl, hnames, -⟩ := hnamed
    cases after with
    | nil => exact ⟨call, List.getLast?_concat, hnames⟩
    | cons next after =>
      refine absurd hnames.marked (hfront call ?_)
      rw [List.dropLast_append_cons]
      simp
  constructor
  · rintro rfl
    exact hends h
  · rintro ⟨call, hlast, hnames⟩
    cases parent with
    | none => exact absurd hnames (h call (List.mem_of_getLast? hlast) id)
    | some other =>
      obtain ⟨last, hlast', hnames'⟩ := hends h
      obtain rfl := Option.some.inj (hlast.symm.trans hlast')
      rw [hnames'.unique (hfeed call (List.mem_of_getLast? hlast)) hnames]

private theorem ReadsOrigins.originEnds_iff (h : ReadsOrigins calls g) (hstack : g.stack ≠ [])
    (hfeed : ∀ call ∈ calls, '\n' ∉ call) :
    OriginEnds calls g ↔ ∀ call ∈ calls.dropLast, ¬ "created by ".toList <+: call := by
  refine ⟨fun hends => h.forall_dropLast_iff.mp hends.last, fun hfront => ?_⟩
  have hlast := h.forall_dropLast_iff.mpr hfront
  obtain ⟨front, f, hf⟩ : ∃ front f, g.stack = front ++ [f] :=
    ⟨_, _, (List.dropLast_append_getLast hstack).symm⟩
  rw [hf, List.dropLast_concat] at hlast
  have hnone : front.filter (·.call.origin) = [] :=
    List.filter_eq_nil_iff.mpr fun f' hf' => Bool.not_eq_true _ ▸ hlast f' hf'
  constructor
  case last => rwa [hf, List.dropLast_concat]
  case once =>
    rw [hf, List.filter_append, hnone, List.nil_append]
    exact List.length_filter_le _ [f]
  case entry =>
    rw [Goroutine.isEntry_iff, Goroutine.IsEntry, hf, List.getLast?_concat, List.forall_mem_append,
      and_iff_right hlast, List.forall_mem_singleton]
    simp only [Option.some.injEq, exists_eq_left']
  case parent => exact fun _ => h.parent.eq_some_iff hfeed hfront

/-! ### Dumps -/

/-- In a goroutine that is read a frame is an origin if its call line has the mark, the goroutine is an
entry if the last call line has not, and its parent is the one that is named last. In the records in
which no call line but the last has the mark, and in no others, the origin ends the stack. -/
theorem parse_originEnds {text : String} {gs : List Goroutine} (h : parse roots text = .ok gs) :
    ∃ runs, HasRuns (Text.dumpLines text.toList) runs ∧
      List.Forall₂ (fun record g => ∃ frames, HasFrames record frames ∧
        ReadsOrigins (frames.map Prod.fst) g ∧
        (OriginEnds (frames.map Prod.fst) g ↔
          ∀ call ∈ (frames.map Prod.fst).dropLast, ¬ "created by ".toList <+: call)) runs gs := by
  obtain ⟨runs, hruns, hall⟩ := exists_frames_of_parse h
  refine ⟨runs, hruns, hall.imp ?_⟩
  rintro record g ⟨frames, said, hframes, hread⟩
  have horigins := readsOrigins_of_readFrom hread
  have hfeed : ∀ call ∈ frames.map Prod.fst, '\n' ∉ call := by
    rw [List.forall_mem_map]
    exact fun lines hlines => (hread.unbroken lines hlines).1
  exact ⟨frames, hframes, horigins, horigins.originEnds_iff hread.stack_ne hfeed⟩

def startedBehindElision : String :=
  "goroutine 9 [select]:\nmain.f(1)\n\t_cgo_a:3\n...2 frames elided...\n" ++
    "created by main.start in goroutine 7\n\t_cgo_a:4"

private def startedRecord : List (List Char) :=
  ["goroutine 9 [select]:".toList, "main.f(1)".toList, "\t_cgo_a:3".toList,
    "...2 frames elided...".toList, "created by main.start in goroutine 7".toList,
    "\t_cgo_a:4".toList]

private def startedFrames : List (List Char × List Char) :=
  [("main.f(1)".toList, "\t_cgo_a:3".toList),
    ("created by main.start in goroutine 7".toList, "\t_cgo_a:4".toList)]

private theorem hasFrames_startedRecord : HasFrames startedRecord startedFrames := by
  refine ⟨_, [.frame "main.f(1)".toList "\t_cgo_a:3".toList,
    .elision "...2 frames elided...".toList,
    .frame "created by main.start in goroutine 7".toList "\t_cgo_a:4".toList], rfl, ?_, rfl⟩
  have hcall (line : List Char) (h : isElision line = false) : ¬ IsElision line :=
    isElision_eq_false_iff.mp h
  simp only [List.forall_mem_cons, Item.IsCut]
  exact ⟨hcall _ rfl, isElision_eq_true_iff.mp rfl, hcall _ rfl, nofun⟩

theorem parse_originEnds_startedBehindElision :
    ∃ g, parse {} startedBehindElision = .ok [g] ∧ g.parent = some 7 ∧ g.isEntry = false ∧
      OriginEnds (startedFrames.map Prod.fst) g := by
  have hrecords : records (Text.dumpLines startedBehindElision.toList) = [startedRecord] := by
    decide +kernel
  obtain ⟨g, hread, hparent, hentry⟩ : ∃ g, readRecord {} startedRecord = .ok g ∧
      g.parent = some 7 ∧ g.isEntry = false := ⟨_, rfl, rfl, rfl⟩
  have hparse := parse_of_records hrecords hread
  obtain ⟨runs, hruns, hall⟩ := parse_originEnds hparse
  obtain rfl := hruns.records_eq.symm.trans hrecords
  obtain ⟨⟨frames, hframes, -, hends⟩, -⟩ := List.forall₂_cons.mp hall
  obtain rfl := hframes.unique hasFrames_startedRecord
  exact ⟨g, hparse, hparent, hentry, hends.mpr (by decide)⟩

def startedInFront : String :=
  "goroutine 1 [running]:\ncreated by main.start in goroutine 7\n\t_cgo_a:3\n" ++
    "main.work()\n\t_cgo_b:4"

/-- An origin that does not end its stack is accepted: the goroutine has an origin and a parent and
is an entry nevertheless. -/
theorem parse_startedInFront :
    ∃ g, parse {} startedInFront = .ok [g] ∧ g.stack.map (·.call.origin) = [true, false] ∧
      g.parent = some 7 ∧ g.isEntry = true ∧ ∀ calls, ¬ OriginEnds calls g := by
  have hrecords : records (Text.dumpLines startedInFront.toList) =
      [["goroutine 1 [running]:".toList, "created by main.start in goroutine 7".toList,
        "\t_cgo_a:3".toList, "main.work()".toList, "\t_cgo_b:4".toList]] := by
    decide +kernel
  obtain ⟨g, hread, hmarks, hparent, hentry⟩ : ∃ g, readRecord {}
      ["goroutine 1 [running]:".toList, "created by main.start in goroutine 7".toList,
        "\t_cgo_a:3".toList, "main.work()".toList, "\t_cgo_b:4".toList] = .ok g ∧
      g.stack.map (·.call.origin) = [true, false] ∧ g.parent = some 7 ∧ g.isEntry = true :=
    ⟨_, rfl, rfl, rfl, rfl⟩
  refine ⟨g, parse_of_records hrecords hread, hmarks, hparent, hentry, fun calls hends => ?_⟩
  have hordinary := hends.entry.mp hentry
  have hmem : true ∈ g.stack.map (·.call.origin) := hmarks ▸ List.mem_cons_self
  obtain ⟨f, hf, hmark⟩ := List.mem_map.mp hmem
  rw [hordinary f hf] at hmark
  cases hmark

end GoroutineDump.Dump
