import GoroutineDump.Proofs.Dump.Cuts
import GoroutineDump.Proofs.Dump.WellFormed

/-!
The roots are asked for the paths of places and for nothing else.
-/

set_option autoImplicit false
set_option relaxedAutoImplicit false

namespace GoroutineDump

def Frame.movedTo (f : Frame) (found : SourceTree × String) : Frame :=
  { f with location := { f.location with tree := found.1, file := found.2 } }

/-- The second goroutine is the first one with other frames, one for each of the first and related
to it. -/
def Goroutine.SameBut (frames : Frame → Frame → Prop) (g g' : Goroutine) : Prop :=
  g' = { g with stack := g'.stack } ∧ List.Forall₂ frames g.stack g'.stack

theorem Goroutine.SameBut.imp {frames others : Frame → Frame → Prop} {g g' : Goroutine}
    (himp : ∀ f f', frames f f' → others f f') (h : g.SameBut frames g') : g.SameBut others g' :=
  ⟨h.1, h.2.imp himp⟩

namespace Dump

/-- A line stands, behind a header, where a place is read: next to a line that is taken for a call,
and behind items. -/
def StandsAsPlace (body : List (List Char)) (place : List Char) : Prop :=
  ∃ (items : List Item) (call : List Char) (rest : List (List Char)),
    body = items.flatMap Item.lines ++ call :: place :: rest ∧
      (∀ item ∈ items, item.IsCut) ∧ ¬ IsElision call

def NamesPath (text path : String) : Prop :=
  ∃ record ∈ records (Text.dumpLines text.toList), ∃ place fields,
    StandsAsPlace record.tail place ∧ LocationFields.ofLine? place = some fields ∧
      String.ofList fields.path = path

variable {roots others : Roots} {line call place other : List Char} {body : List (List Char)}

private theorem StandsAsPlace.elision (hline : IsElision line) (h : StandsAsPlace body place) :
    StandsAsPlace (line :: body) place := by
  obtain ⟨items, call, rest, rfl, hitems, hcall⟩ := h
  exact ⟨.elision line :: items, call, rest, rfl, List.forall_mem_cons.mpr ⟨hline, hitems⟩, hcall⟩

private theorem StandsAsPlace.head (hcall : ¬ IsElision call) (place : List Char)
    (body : List (List Char)) : StandsAsPlace (call :: place :: body) place :=
  ⟨[], call, body, rfl, List.forall_mem_nil _, hcall⟩

private theorem StandsAsPlace.frame (hother : ¬ IsElision other) (h : StandsAsPlace body place)
    (line : List Char) : StandsAsPlace (other :: line :: body) place := by
  obtain ⟨items, call, rest, rfl, hitems, hcall⟩ := h
  exact ⟨.frame other line :: items, call, rest, rfl, List.forall_mem_cons.mpr ⟨hother, hitems⟩,
    hcall⟩

private theorem StandsAsPlace.mem (h : StandsAsPlace body place) : place ∈ body := by
  obtain ⟨items, call, rest, rfl, -⟩ := h
  exact List.mem_append_right _ (List.mem_cons_of_mem call List.mem_cons_self)

theorem NamesPath.exists_line {text path : String} (h : NamesPath text path) :
    ∃ record ∈ records (Text.dumpLines text.toList), ∃ line ∈ record, ∃ fields,
      LocationFields.ofLine? line = some fields ∧ String.ofList fields.path = path := by
  obtain ⟨record, hrecord, place, fields, hplace, hfields, hpath⟩ := h
  exact ⟨record, hrecord, place, List.mem_of_mem_tail hplace.mem, fields, hfields, hpath⟩

private theorem LocationLine.read_congr
    (h : ∀ fields, LocationFields.ofLine? line = some fields →
      roots.classify (String.ofList fields.path) = others.classify (String.ofList fields.path)) :
    LocationLine.read roots line = LocationLine.read others line := by
  unfold LocationLine.read
  cases hcut : LocationFields.ofLine? line with
  | none => rfl
  | some fields =>
    dsimp only
    rw [h fields hcut]

private theorem Body.read_congr
    (h : ∀ place, StandsAsPlace body place →
      LocationLine.read roots place = LocationLine.read others place) :
    Body.read roots body = Body.read others body := by
  induction body using Body.read.induct with
  | case1 => rfl
  | case2 line rest helision ih =>
    rw [read_elision helision, read_elision helision]
    apply ih
    intro place hplace
    exact h place (hplace.elision (isElision_eq_true_iff.mp helision))
  | case3 call rest helision ih =>
    have hnot : ¬ IsElision call := mt isElision_eq_true_iff.mpr helision
    cases rest with
    | nil => rw [read_last hnot, read_last hnot]
    | cons place rest =>
      have hplace := h place (.head hnot place rest)
      have hrest : Body.read roots rest = Body.read others rest := by
        apply ih
        intro line hline
        exact h line (hline.frame hnot place)
      rw [read_frame hnot, read_frame hnot, hplace, hrest]

private theorem mapM_congr {α β : Type} {read read' : α → Except Error β} {as : List α}
    (h : ∀ a ∈ as, read a = read' a) : as.mapM read = as.mapM read' := by
  induction as with
  | nil => rfl
  | cons a as ih =>
    rw [List.forall_mem_cons] at h
    rw [List.mapM_cons, List.mapM_cons, h.1, ih h.2]

/-- Roots that agree on the paths of its places read a dump alike. -/
theorem parse_congr {text : String}
    (h : ∀ path, NamesPath text path → roots.classify path = others.classify path) :
    parse roots text = parse others text := by
  apply mapM_congr
  intro record hmem
  cases record with
  | nil => rfl
  | cons first rest =>
    have hbody : Body.read roots rest = Body.read others rest := by
      apply Body.read_congr
      intro place hplace
      apply LocationLine.read_congr
      intro fields hfields
      exact h _ ⟨first :: rest, hmem, place, fields, hplace, hfields, rfl⟩
    rw [readRecord, readRecord, hbody]

/-- What is found for a path under some roots is found for it under others, in a tree and a file to
which `moves` leads. -/
def Carries (moves : SourceTree × String → SourceTree × String → Prop) (roots others : Roots) :
    Prop :=
  ∀ path found, roots.classify path = some found →
    ∃ found', others.classify path = some found' ∧ moves found found'

def Follows (moves : SourceTree × String → SourceTree × String → Prop) (f f' : Frame) : Prop :=
  ∃ found, moves (f.location.tree, f.location.file) found ∧ f' = f.movedTo found

variable {moves : SourceTree × String → SourceTree × String → Prop}

private theorem LocationLine.exists_read_of_carries (hmoves : Carries moves roots others)
    {l : LocationLine}
    (h : LocationLine.read roots line = .ok l) :
    ∃ found, moves (l.location.tree, l.location.file) found ∧
      LocationLine.read others line =
        .ok { l with location := { l.location with tree := found.1, file := found.2 } } := by
  obtain ⟨fields, hfields, hclassify, hnumber, hextra⟩ := read_eq_ok_iff.mp h
  obtain ⟨found, hfound, hmove⟩ := hmoves _ _ hclassify
  exact ⟨found, hmove, read_eq_ok_iff.mpr ⟨fields, hfields, hfound, hnumber, hextra⟩⟩

private theorem Body.exists_read_of_carries (hmoves : Carries moves roots others) {b : Body}
    (h : Body.read roots body = .ok b) :
    ∃ b', Body.read others body = .ok b' ∧ b'.parent = b.parent ∧
      List.Forall₂ (Follows moves) b.frames b'.frames := by
  induction body using Body.read.induct generalizing b with
  | case1 =>
    obtain rfl := Except.ok.inj h
    exact ⟨⟨[], none⟩, rfl, rfl, .nil⟩
  | case2 line rest helision ih =>
    rw [read_elision helision] at h ⊢
    exact ih h
  | case3 call rest helision ih =>
    cases rest with
    | nil =>
      rw [Body.read, if_neg helision] at h
      obtain ⟨_, -, hthrow⟩ := bind_eq_ok.mp h
      exact absurd hthrow throw_ne_ok
    | cons place rest =>
      rw [Bool.not_eq_true] at helision
      obtain ⟨tail, htail, c, l, hcall, hplace, rfl⟩ := (read_frame_eq_ok_iff helision).mp h
      obtain ⟨tail', htail', hparent, hframes⟩ := ih htail
      obtain ⟨found, hmove, hplace'⟩ := LocationLine.exists_read_of_carries hmoves hplace
      refine ⟨_, (read_frame_eq_ok_iff helision).mpr ⟨tail', htail', c, _, hcall, hplace', rfl⟩,
        ?_, ?_⟩
      · simp only [cons, hparent]
      · exact .cons ⟨found, hmove, rfl⟩ hframes

theorem exists_readRecord_of_carries (hmoves : Carries moves roots others)
    {record : List (List Char)} {g : Goroutine} (h : readRecord roots record = .ok g) :
    ∃ g', readRecord others record = .ok g' ∧ g.SameBut (Follows moves) g' := by
  cases record with
  | nil => cases h
  | cons first rest =>
    obtain ⟨header, b, hheader, hbody, hid, hframes, rfl⟩ := exists_of_readRecord h
    obtain ⟨b', hbody', hparent, hfollows⟩ := Body.exists_read_of_carries hmoves hbody
    have hframes' : b'.frames ≠ [] := by
      intro hnil
      rw [hnil, List.forall₂_nil_right_iff] at hfollows
      exact hframes hfollows
    refine ⟨goroutine header b', ?_, ?_, hfollows⟩
    · rw [readRecord_of_body hheader hbody', if_neg (not_or.mpr ⟨hid, hframes'⟩)]
    · rw [goroutine, hparent]

/-- Roots that find whatever others find read whatever the others read. -/
theorem parse_of_carries (hmoves : Carries moves roots others) {text : String}
    {gs : List Goroutine} (h : parse roots text = .ok gs) :
    ∃ gs', parse others text = .ok gs' ∧
      List.Forall₂ (Goroutine.SameBut (Follows moves)) gs gs' := by
  rw [parse, mapM_eq_ok_iff] at h
  simp only [parse, mapM_eq_ok_iff]
  generalize records (Text.dumpLines text.toList) = rs at h ⊢
  induction h with
  | nil => exact ⟨[], .nil, .nil⟩
  | cons hrecord _ ih =>
    obtain ⟨g', hrecord', hsame⟩ := exists_readRecord_of_carries hmoves hrecord
    obtain ⟨gs', hrecords, hrest⟩ := ih
    exact ⟨g' :: gs', .cons hrecord' hrecords, .cons hsame hrest⟩

end Dump

end GoroutineDump
