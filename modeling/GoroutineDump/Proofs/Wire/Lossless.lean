import Mathlib.Algebra.GroupWithZero.Nat
import Mathlib.Data.List.Forall2
import Mathlib.Data.List.Nodup
import GoroutineDump.Wire.Goroutine

/-!
An object says the same when its entries stand in another order and when it has further entries
under keys that nobody asks for.
-/

set_option autoImplicit false
set_option relaxedAutoImplicit false

namespace GoroutineDump.Json

variable {names : List String} {value : String → Json → Json → Prop}
  {entries written : List (String × Json)} {name : String}

/-- Entries that are written in another way: each value in a way that its key allows, all entries in
any order, and with them others whose keys are not among the names. -/
def Respells (names : List String) (value : String → Json → Json → Prop)
    (entries written : List (String × Json)) : Prop :=
  ∃ changed added : List (String × Json),
    List.Forall₂ (fun e e' => e.1 = e'.1 ∧ value e.1 e.2 e'.2) entries changed ∧
    (∀ e ∈ added, e.1 ∉ names) ∧ written.Perm (changed ++ added)

def Unchanged : String → Json → Json → Prop := fun _ => Eq

inductive RecordRespelled (names : List String) (value : String → Json → Json → Prop) :
    Json → Json → Prop
  | obj {entries written : List (String × Json)} :
      Respells names value entries written →
        RecordRespelled names value (.obj entries) (.obj written)

inductive ListRespelled (item : Json → Json → Prop) : Json → Json → Prop
  | arr {items written : List Json} :
      List.Forall₂ item items written → ListRespelled item (.arr items) (.arr written)

theorem RecordRespelled.refl (hvalue : ∀ e ∈ entries, value e.1 e.2 e.2) :
    RecordRespelled names value (.obj entries) (.obj entries) :=
  .obj ⟨entries, [], List.forall₂_same.mpr fun e he => ⟨rfl, hvalue e he⟩, by simp, by simp⟩

theorem ListRespelled.refl {β : Type} {item : Json → Json → Prop} {encode : β → Json}
    {bs : List β}
    (hitem : ∀ b ∈ bs, item (encode b) (encode b)) :
    ListRespelled item (list encode bs) (list encode bs) := by
  refine .arr (List.forall₂_same.mpr fun j hj => ?_)
  obtain ⟨b, hb, rfl⟩ := List.mem_map.mp hj
  exact hitem b hb

private theorem respells_unchanged_iff :
    Respells names Unchanged entries written ↔
      ∃ added, (∀ e ∈ added, e.1 ∉ names) ∧ written.Perm (entries ++ added) := by
  have hsame (changed : List (String × Json)) :
      List.Forall₂ (fun e e' => e.1 = e'.1 ∧ Unchanged e.1 e.2 e'.2) entries changed ↔
        entries = changed := by
    have heq : (fun e e' : String × Json => e.1 = e'.1 ∧ Unchanged e.1 e.2 e'.2) = Eq := by
      funext e e'
      rw [Prod.ext_iff, Unchanged]
    rw [heq, List.forall₂_eq_eq_eq]
  simp only [Respells, hsame, exists_and_left, exists_eq_left']

private theorem Respells.part {part others : List (String × Json)} {own : List String}
    (h : Respells names Unchanged entries written) (hparts : entries.Perm (part ++ others))
    (hsub : own ⊆ names) (hothers : ∀ e ∈ others, e.1 ∉ own) :
    Respells own Unchanged part written := by
  obtain ⟨added, hadded, hperm⟩ := respells_unchanged_iff.mp h
  refine respells_unchanged_iff.mpr ⟨others ++ added, ?_, ?_⟩
  · intro e he
    rcases List.mem_append.mp he with he | he
    · exact hothers e he
    · exact fun hmem => hadded e he (hsub hmem)
  · rw [← List.append_assoc]
    exact hperm.trans (hparts.append_right added)

/-! ### Looking up -/

private theorem mem_of_lookup {v : Json} (h : entries.lookup name = some v) :
    (name, v) ∈ entries := by
  obtain ⟨front, back, rfl, -⟩ := List.lookup_eq_some_iff.mp h
  simp

private theorem lookup_of_mem (hnodup : (entries.map Prod.fst).Nodup) {v : Json}
    (h : (name, v) ∈ entries) : entries.lookup name = some v := by
  cases hfound : entries.lookup name with
  | none => simpa using List.lookup_eq_none_iff.mp hfound _ h
  | some w =>
    have hsole : (name, w) = (name, v) :=
      List.inj_on_of_nodup_map hnodup (mem_of_lookup hfound) h rfl
    rw [(Prod.mk.inj hsole).2]

private theorem lookup_perm_append {changed added : List (String × Json)}
    (hnodup : (changed.map Prod.fst).Nodup) (hadded : ∀ e ∈ added, e.1 ∉ names)
    (hperm : written.Perm (changed ++ added)) (hname : name ∈ names) :
    written.lookup name = changed.lookup name := by
  cases hfound : written.lookup name with
  | none =>
    refine (List.lookup_eq_none_iff.mpr fun e he => ?_).symm
    exact List.lookup_eq_none_iff.mp hfound e (hperm.mem_iff.mpr (List.mem_append_left _ he))
  | some v =>
    rcases List.mem_append.mp (hperm.mem_iff.mp (mem_of_lookup hfound)) with hold | hnew
    · exact (lookup_of_mem hnodup hold).symm
    · exact absurd hname (hadded _ hnew)

private theorem Respells.lookup (h : Respells names value entries written)
    (hnodup : (entries.map Prod.fst).Nodup) (hname : name ∈ names) :
    Option.Rel (value name) (entries.lookup name) (written.lookup name) := by
  obtain ⟨changed, added, hchanged, hadded, hperm⟩ := h
  have hkeys : entries.map Prod.fst = changed.map Prod.fst := by
    rw [← List.forall₂_eq_eq_eq, List.forall₂_map_left_iff, List.forall₂_map_right_iff]
    exact hchanged.imp fun _ _ he => he.1
  -- The order and what is added do not matter, so only the changed values are left.
  rw [lookup_perm_append (hkeys ▸ hnodup) hadded hperm hname]
  clear hkeys hperm hnodup
  induction hchanged with
  | nil => exact .none
  | @cons e e' entries changed he _ ih =>
    obtain ⟨key, v⟩ := e
    obtain ⟨key', w⟩ := e'
    obtain ⟨rfl, hvalue⟩ := he
    rw [List.lookup_cons, List.lookup_cons]
    cases hkey : name == key with
    | true => exact .some (beq_iff_eq.mp hkey ▸ hvalue)
    | false => exact ih

@[simp]
theorem lookup_entryUnless (omitted : Bool) (key : String) (v : Json) (name : String) :
    (entryUnless omitted key v).lookup name =
      if name = key then (if omitted then none else some v) else none := by
  cases omitted with
  | true => simp [entryUnless]
  | false =>
    by_cases hkey : name = key
    · simp [entryUnless, hkey]
    · simp [entryUnless, List.lookup_cons, beq_false_of_ne hkey, hkey]

private theorem eq_of_mem_entryUnless {omitted : Bool} {key : String} {v : Json} {e : String × Json}
    (h : e ∈ entryUnless omitted key v) : e = (key, v) := by
  cases omitted with
  | true => cases h
  | false => exact List.mem_singleton.mp h

private theorem keys_entryUnless (omitted : Bool) (key : String) (v : Json) :
    ((entryUnless omitted key v).map Prod.fst).Sublist [key] := by
  cases omitted <;> simp [entryUnless]

variable {α : Type} {place : Nat} {decode : Json → Option α} {a default : α} {v : Json}

private theorem Respells.required_eq (h : Respells names value entries written)
    (hnodup : (entries.map Prod.fst).Nodup) (hname : name ∈ names)
    (hfound : entries.lookup name = some v) (hdecode : ∀ w, value name v w → decode w = some a) :
    (Fields.named written).required place name decode = some a := by
  have hrel := h.lookup hnodup hname
  rw [Fields.required, Fields.get?]
  rw [hfound] at hrel
  generalize written.lookup name = found at hrel
  cases hrel with
  | some hvalue => exact hdecode _ hvalue

private theorem Respells.optional_eq (h : Respells names value entries written)
    (hnodup : (entries.map Prod.fst).Nodup) (omitted : Bool) (v : Json) (hname : name ∈ names)
    (hfound : entries.lookup name = if omitted then none else some v)
    (homitted : omitted = true → a = default) (hdecode : ∀ w, value name v w → decode w = some a) :
    (Fields.named written).optional place name default decode = some a := by
  have hrel := h.lookup hnodup hname
  rw [Fields.optional, Fields.get?]
  rw [hfound] at hrel
  generalize written.lookup name = found at hrel
  cases omitted with
  | true =>
    cases hrel
    rw [homitted rfl]
  | false =>
    cases hrel with
    | some hvalue => exact hdecode _ hvalue

private theorem list?_of_respelled {β : Type} {item : Json → Json → Prop} {encode : β → Json}
    {decode : Json → Option β} {bs : List β}
    (hitem : ∀ b ∈ bs, ∀ j, item (encode b) j → decode j = some b) {j : Json}
    (h : ListRespelled item (list encode bs) j) : list? decode j = some bs := by
  cases h with
  | @arr items written hall =>
    rw [list?]
    induction bs generalizing written with
    | nil => cases hall; rfl
    | cons b bs ih =>
      cases hall with
      | cons hb hbs =>
        have htail := ih (fun b hb => hitem b (List.mem_cons_of_mem _ hb)) hbs
        rw [List.mapM_cons, hitem b List.mem_cons_self _ hb, htail]
        rfl

end GoroutineDump.Json

namespace GoroutineDump

open Json (Respells RecordRespelled ListRespelled Unchanged)

private theorem SourceTree.ofName?_name (t : SourceTree) : ofName? t.name = some t := by
  cases t <;> decide

private theorem word?_word (n : UInt64) : (Json.word n).word? = some n := by
  have hsize : n.toNat < UInt64.size := n.toNat_lt
  simp [Json.word, Json.word?, hsize]

namespace Location

def names : List String := ["root", "file", "line"]

def Respelled : Json → Json → Prop := RecordRespelled names Unchanged

variable {l : Location} {written : List (String × Json)}

private theorem keys_entries (l : Location) : (l.entries.map Prod.fst).Sublist names :=
  List.Sublist.refl names

private theorem ofFields?_of_respells {tree? : Json → Option SourceTree}
    (htree : tree? l.tree.toJson = some l.tree) (h : Respells names Unchanged l.entries written) :
    ofFields? tree? (.named written) = some l := by
  have hnodup : (l.entries.map Prod.fst).Nodup := (by decide : names.Nodup).sublist (keys_entries l)
  have hroot : (Json.Fields.named written).required 0 "root" tree? = some l.tree :=
    h.required_eq hnodup (by decide) rfl (by rintro _ rfl; exact htree)
  have hfile : (Json.Fields.named written).required 1 "file" Json.text? = some l.file :=
    h.required_eq hnodup (by decide) rfl (by rintro _ rfl; rfl)
  have hline : (Json.Fields.named written).required 2 "line" Json.word? = some l.line :=
    h.required_eq hnodup (by decide) rfl (by rintro _ rfl; exact word?_word l.line)
  rw [ofFields?, hroot, hfile, hline]
  rfl

theorem ofJson?_of_respelled {j : Json} (h : Respelled l.toJson j) : ofJson? j = some l := by
  cases h with
  | obj h => exact ofFields?_of_respells (SourceTree.ofName?_name l.tree) h

end Location

namespace Call

def names : List String := ["package", "method", "args", "extra", "origin"]

def Respelled : Json → Json → Prop := RecordRespelled names Unchanged

variable {c : Call} {written : List (String × Json)}

private theorem keys_entries (c : Call) : (c.entries.map Prod.fst).Sublist names := by
  simp only [entries, List.map_append]
  exact (((List.Sublist.refl ["package", "method"]).append (Json.keys_entryUnless _ _ _)).append
    (Json.keys_entryUnless _ _ _)).append (Json.keys_entryUnless _ _ _)

private theorem ofFields?_of_respells (h : Respells names Unchanged c.entries written) :
    ofFields? (.named written) = some c := by
  have hnodup : (c.entries.map Prod.fst).Nodup := (by decide : names.Nodup).sublist (keys_entries c)
  have hpackage : (Json.Fields.named written).required 0 "package" Json.text? = some c.package :=
    h.required_eq hnodup (by decide) rfl (by rintro _ rfl; rfl)
  have hmethod : (Json.Fields.named written).required 1 "method" Json.text? = some c.method :=
    h.required_eq hnodup (by decide) rfl (by rintro _ rfl; rfl)
  have hargs : (Json.Fields.named written).optional 2 "args" "" Json.text? = some c.args :=
    h.optional_eq hnodup c.args.isEmpty (.str c.args) (by decide)
      (by simp [entries, List.lookup_cons, List.lookup_append])
      String.isEmpty_iff.mp (by rintro _ rfl; rfl)
  have hextra : (Json.Fields.named written).optional 3 "extra" "" Json.text? = some c.extra :=
    h.optional_eq hnodup c.extra.isEmpty (.str c.extra) (by decide)
      (by simp [entries, List.lookup_cons, List.lookup_append])
      String.isEmpty_iff.mp (by rintro _ rfl; rfl)
  have horigin :
      (Json.Fields.named written).optional 4 "origin" false Json.bool? = some c.origin :=
    h.optional_eq hnodup (!c.origin) (.bool c.origin) (by decide)
      (by simp [entries, List.lookup_cons, List.lookup_append])
      (by simp) (by rintro _ rfl; rfl)
  rw [ofFields?, hpackage, hmethod, hargs, hextra, horigin]
  rfl

theorem ofJson?_of_respelled {j : Json} (h : Respelled c.toJson j) : ofJson? j = some c := by
  cases h with
  | obj h => exact ofFields?_of_respells h

end Call

namespace Excerpt

def names : List String := ["prefix", "suffix"]

def Respelled : Json → Json → Prop := RecordRespelled names Unchanged

variable {e : Excerpt} {written : List (String × Json)}

private theorem keys_entries (e : Excerpt) : (e.entries.map Prod.fst).Sublist names := by
  rw [entries, List.map_append]
  exact (Json.keys_entryUnless _ _ _).append (Json.keys_entryUnless _ _ _)

private theorem ofFields?_of_respells (h : Respells names Unchanged e.entries written) :
    ofFields? (.named written) = some e := by
  have hnodup : (e.entries.map Prod.fst).Nodup := (by decide : names.Nodup).sublist (keys_entries e)
  have hleading : (Json.Fields.named written).optional 0 "prefix" "" Json.text? = some e.leading :=
    h.optional_eq hnodup e.leading.isEmpty (.str e.leading) (by decide)
      (by simp [entries, List.lookup_append]) String.isEmpty_iff.mp (by rintro _ rfl; rfl)
  have htrailing :
      (Json.Fields.named written).optional 1 "suffix" "" Json.text? = some e.trailing :=
    h.optional_eq hnodup e.trailing.isEmpty (.str e.trailing) (by decide)
      (by simp [entries, List.lookup_append]) String.isEmpty_iff.mp (by rintro _ rfl; rfl)
  rw [ofFields?, hleading, htrailing]
  rfl

theorem ofJson?_of_respelled {j : Json} (h : Respelled e.toJson j) : ofJson? j = some e := by
  cases h with
  | obj h => exact ofFields?_of_respells h

end Excerpt

namespace Frame

def names : List String := Location.names ++ Call.names ++ Excerpt.names

def Respelled : Json → Json → Prop := RecordRespelled names Unchanged

private theorem notMem_of_keys {entries others : List (String × Json)} {own ns ms : List String}
    (hentries : (entries.map Prod.fst).Sublist ns) (hothers : (others.map Prod.fst).Sublist ms)
    (hdisjoint : ∀ name ∈ ns ++ ms, name ∉ own) : ∀ e ∈ entries ++ others, e.1 ∉ own := by
  have hkeys : ((entries ++ others).map Prod.fst).Sublist (ns ++ ms) := by
    rw [List.map_append]
    exact hentries.append hothers
  exact fun _ he => hdisjoint _ (hkeys.subset (List.mem_map_of_mem he))

theorem ofJson?_of_respelled {f : Frame} {j : Json} (h : Respelled f.toJson j) :
    ofJson? j = some f := by
  cases h with
  | @obj _ written h =>
    have hl := Location.keys_entries f.location
    have hc := Call.keys_entries f.call
    have he := Excerpt.keys_entries f.excerpt
    have hlocation : Location.ofFields? treeOfJson? (.named written) = some f.location := by
      refine Location.ofFields?_of_respells (SourceTree.ofName?_name f.location.tree)
        (h.part ?_ (by decide) (notMem_of_keys hc he (by decide)))
      rw [List.append_assoc]
    have hcall : Call.ofFields? (.named written) = some f.call := by
      refine Call.ofFields?_of_respells
        (h.part ?_ (by decide) (notMem_of_keys hl he (by decide)))
      rw [← List.append_assoc]
      exact List.perm_append_comm.append_right _
    have hexcerpt : Excerpt.ofFields? (.named written) = some f.excerpt :=
      Excerpt.ofFields?_of_respells
        (h.part List.perm_append_comm (by decide) (notMem_of_keys hl hc (by decide)))
    rw [ofJson?, hlocation, hcall, hexcerpt]
    rfl

end Frame

namespace Duration

/-- What is left of a span of time if its nanoseconds have to fit into 64 bits. -/
def onWire (d : Duration) : Duration := ⟨min d.nanoseconds (UInt64.size - 1)⟩

private theorem onWire_of_le {d : Duration} (h : d.nanoseconds ≤ UInt64.size - 1) :
    d.onWire = d := by
  rw [onWire, Nat.min_eq_left h]

private theorem toJson_of_le {d : Duration} (h : UInt64.size - 1 ≤ d.nanoseconds) :
    d.toJson = .count (UInt64.size - 1) := by
  rw [toJson, Nat.min_eq_right h]

private theorem ofJson?_toJson (d : Duration) : ofJson? d.toJson = some d.onWire := by
  have hlt : min d.nanoseconds (UInt64.size - 1) < UInt64.size :=
    Nat.lt_of_le_of_lt (Nat.min_le_right _ _) (by decide)
  rw [ofJson?, toJson, Json.count, Json.word?, if_pos ⟨Int.natCast_nonneg _, hlt⟩]
  rw [Int.toNat_natCast, Option.map_some, UInt64.toNat_ofNat_of_lt' hlt, onWire]

end Duration

namespace Goroutine

def names : List String := ["id", "op", "duration", "lockedToThread", "parent", "callStack"]

/-- A goroutine that is written in another way; each of its frames may be, too. -/
def Respelled : Json → Json → Prop :=
  RecordRespelled names fun name =>
    if name = "callStack" then ListRespelled Frame.Respelled else Eq

def entries (g : Goroutine) : List (String × Json) :=
  [("id", .word g.id), ("op", .str g.state)] ++
    Json.entryUnless (g.blocked = .zero) "duration" g.blocked.toJson ++
    Json.entryUnless (!g.locked) "lockedToThread" (.bool g.locked) ++
    Json.entryUnless g.parent.isNone "parent" (.nullable Json.word g.parent) ++
    Json.entryUnless g.stack.isEmpty "callStack" (.list Frame.toJson g.stack)

private theorem keys_entries (g : Goroutine) : (g.entries.map Prod.fst).Sublist names := by
  simp only [entries, List.map_append]
  exact ((((List.Sublist.refl ["id", "op"]).append (Json.keys_entryUnless _ _ _)).append
    (Json.keys_entryUnless _ _ _)).append (Json.keys_entryUnless _ _ _)).append
      (Json.keys_entryUnless _ _ _)

private theorem nullable?_nullable (parent : Option UInt64) :
    Json.nullable? Json.word? (Json.nullable Json.word parent) = some parent := by
  cases parent with
  | none => rfl
  | some id =>
    change some <$> (Json.word id).word? = _
    rw [word?_word]
    rfl

private theorem respelled_refl (g : Goroutine) : Respelled g.toJson g.toJson := by
  refine RecordRespelled.refl fun e he => ?_
  simp only [List.mem_append, List.mem_cons, List.not_mem_nil, or_false] at he
  rcases he with ((((rfl | rfl) | he) | he) | he) | he
  · rfl
  · rfl
  · rw [Json.eq_of_mem_entryUnless he]; rfl
  · rw [Json.eq_of_mem_entryUnless he]; rfl
  · rw [Json.eq_of_mem_entryUnless he]; rfl
  · rw [Json.eq_of_mem_entryUnless he, if_pos rfl]
    exact ListRespelled.refl fun _ _ => RecordRespelled.refl fun _ _ => rfl

theorem ofJson?_of_respelled {g : Goroutine} {j : Json} (h : Respelled g.toJson j) :
    ofJson? j = some { g with blocked := g.blocked.onWire } := by
  change RecordRespelled names _ (.obj g.entries) j at h
  cases h with
  | @obj _ written h =>
    have hnodup : (g.entries.map Prod.fst).Nodup :=
      (by decide : names.Nodup).sublist (keys_entries g)
    have hid : (Json.Fields.named written).required 0 "id" Json.word? = some g.id :=
      h.required_eq hnodup (by decide) rfl (by rintro _ rfl; exact word?_word g.id)
    have hstate : (Json.Fields.named written).required 1 "op" Json.text? = some g.state :=
      h.required_eq hnodup (by decide) rfl (by rintro _ rfl; rfl)
    have hblocked : (Json.Fields.named written).optional 2 "duration" .zero Duration.ofJson? =
        some g.blocked.onWire :=
      h.optional_eq hnodup (g.blocked = .zero) g.blocked.toJson (by decide)
        (by simp [entries, List.lookup_cons, List.lookup_append])
        (fun hzero => by rw [of_decide_eq_true hzero]; rfl)
        (by rintro _ rfl; exact g.blocked.ofJson?_toJson)
    have hlocked : (Json.Fields.named written).optional 3 "lockedToThread" false Json.bool? =
        some g.locked :=
      h.optional_eq hnodup (!g.locked) (.bool g.locked) (by decide)
        (by simp [entries, List.lookup_cons, List.lookup_append])
        (by simp) (by rintro _ rfl; rfl)
    have hparent : (Json.Fields.named written).optional 4 "parent" none
        (Json.nullable? Json.word?) = some g.parent :=
      h.optional_eq hnodup g.parent.isNone (.nullable Json.word g.parent) (by decide)
        (by simp [entries, List.lookup_cons, List.lookup_append])
        Option.isNone_iff_eq_none.mp (by rintro _ rfl; exact nullable?_nullable g.parent)
    have hstack : (Json.Fields.named written).optional 5 "callStack" []
        (Json.list? Frame.ofJson?) = some g.stack :=
      h.optional_eq hnodup g.stack.isEmpty (.list Frame.toJson g.stack) (by decide)
        (by simp [entries, List.lookup_cons, List.lookup_append])
        List.isEmpty_iff.mp
        fun j hj => Json.list?_of_respelled (fun _ _ _ => Frame.ofJson?_of_respelled) hj
    simp only [ofJson?, Json.fields?, Option.bind_eq_bind, Option.bind_some, hid, hstate, hblocked,
      hlocked, hparent, hstack]
    rfl

def durationOf (j : Json) : Int :=
  match j.get? "duration" with
  | some (.int n) => n
  | _ => 0

private theorem get?_duration (g : Goroutine) :
    g.toJson.get? "duration" = if g.blocked = .zero then none else some g.blocked.toJson := by
  simp [toJson, Json.get?, List.lookup_cons, List.lookup_append]

private theorem durationOf_toJson (g : Goroutine) :
    durationOf g.toJson = g.blocked.onWire.nanoseconds := by
  rw [durationOf, get?_duration]
  by_cases hzero : g.blocked = .zero
  · rw [if_pos hzero, hzero]
    rfl
  · rw [if_neg hzero]
    rfl

private theorem ne_zero_of_le {d : Duration} (h : UInt64.size - 1 ≤ d.nanoseconds) :
    d ≠ .zero := by
  rintro rfl
  exact absurd h (by decide)

private theorem toJson_eq_of_le {g : Goroutine} {d : Duration}
    (hg : UInt64.size - 1 ≤ g.blocked.nanoseconds) (hd : UInt64.size - 1 ≤ d.nanoseconds) :
    { g with blocked := d }.toJson = g.toJson := by
  simp only [toJson, ne_zero_of_le hg, ne_zero_of_le hd, Duration.toJson_of_le hg,
    Duration.toJson_of_le hd]

private theorem get?_duration_of_le {g : Goroutine} (h : UInt64.size - 1 ≤ g.blocked.nanoseconds) :
    g.toJson.get? "duration" = some (.count (UInt64.size - 1)) := by
  rw [get?_duration, if_neg (ne_zero_of_le h), Duration.toJson_of_le h]

end Goroutine

namespace StackGroup

def names : List String := ["stack", "calls"]

/-- A group that is written in another way; each of its locations and calls may be, too. -/
def Respelled : Json → Json → Prop :=
  RecordRespelled names fun name =>
    if name = "stack" then ListRespelled Location.Respelled
    else ListRespelled (ListRespelled Call.Respelled)

private theorem respelled_refl (g : StackGroup) : Respelled g.toJson g.toJson := by
  refine RecordRespelled.refl fun e he => ?_
  simp only [entries, List.mem_cons, List.not_mem_nil, or_false] at he
  rcases he with rfl | rfl
  · rw [if_pos rfl]
    exact ListRespelled.refl fun _ _ => RecordRespelled.refl fun _ _ => rfl
  · have hcalls : ListRespelled (ListRespelled Call.Respelled)
        (.list (Json.list Call.toJson) g.calls) (.list (Json.list Call.toJson) g.calls) :=
      ListRespelled.refl fun _ _ => ListRespelled.refl fun _ _ =>
        RecordRespelled.refl fun _ _ => rfl
    exact hcalls

theorem ofJson?_of_respelled {g : StackGroup} {j : Json} (h : Respelled g.toJson j) :
    ofJson? j = some g := by
  cases h with
  | @obj _ written h =>
    have hnodup : (g.entries.map Prod.fst).Nodup := (by decide : names.Nodup)
    have hstack : (Json.Fields.named written).required 0 "stack"
        (Json.list? Location.ofJson?) = some g.stack :=
      h.required_eq hnodup (by decide) rfl
        fun j hj => Json.list?_of_respelled (fun _ _ _ => Location.ofJson?_of_respelled) hj
    have hcalls : (Json.Fields.named written).required 1 "calls"
        (Json.list? (Json.list? Call.ofJson?)) = some g.calls :=
      h.required_eq hnodup (by decide) rfl
        fun j hj => Json.list?_of_respelled (fun _ _ _ hcalls =>
          Json.list?_of_respelled (fun _ _ _ => Call.ofJson?_of_respelled) hcalls) hj
    simp only [ofJson?, Json.fields?, Option.bind_eq_bind, Option.bind_some, hstack, hcalls]
    rfl

end StackGroup

namespace Roots

def names : List String := ["root", "goroot", "gopath"]

def Respelled : Json → Json → Prop := RecordRespelled names Unchanged

theorem ofJson?_of_respelled {r : Roots} {surplus : Json.Surplus} {j : Json}
    (h : Respelled r.toJson j) : ofJson? surplus j = some r := by
  cases h with
  | @obj entries written h =>
    have hroot : (Json.Fields.named written).optional 0 "root" "" Json.text? = some r.project :=
      h.optional_eq (by decide : names.Nodup) false (.str r.project) (by decide) rfl
        Bool.noConfusion (by rintro _ rfl; rfl)
    have hruntime : (Json.Fields.named written).optional 1 "goroot" "" Json.text? =
        some r.runtime :=
      h.optional_eq (by decide : names.Nodup) false (.str r.runtime) (by decide) rfl
        Bool.noConfusion (by rintro _ rfl; rfl)
    have hlibrary : (Json.Fields.named written).optional 2 "gopath" "" Json.text? =
        some r.library :=
      h.optional_eq (by decide : names.Nodup) false (.str r.library) (by decide) rfl
        Bool.noConfusion (by rintro _ rfl; rfl)
    simp only [ofJson?, Json.fields?, Option.bind_eq_bind, Option.bind_some, hroot, hruntime,
      hlibrary]
    rfl

end Roots

def ReadsBack {α : Type} (encode : α → Json) (respelled : Json → Json → Prop)
    (decode : Json → Option α) (a : α) : Prop :=
  decode (encode a) = some a ∧ ∀ j, respelled (encode a) j → decode j = some a

private theorem readsBack {α : Type} {encode : α → Json} {respelled : Json → Json → Prop}
    {decode : Json → Option α} {a : α} (hrefl : respelled (encode a) (encode a))
    (hdecode : ∀ {j}, respelled (encode a) j → decode j = some a) :
    ReadsBack encode respelled decode a :=
  ⟨hdecode hrefl, fun _ => hdecode⟩

/-- Nothing is lost in writing, but for spans of time whose nanoseconds do not fit into 64 bits:
they are all written as the longest that does. A longer span is never written as a shorter one. -/
theorem wire_lossless :
    (∀ g : Goroutine, g.blocked.nanoseconds ≤ 2 ^ 64 - 1 →
      ReadsBack Goroutine.toJson Goroutine.Respelled Goroutine.ofJson? g) ∧
    (∀ g : StackGroup, ReadsBack StackGroup.toJson StackGroup.Respelled StackGroup.ofJson? g) ∧
    (∀ f : Frame, ReadsBack Frame.toJson Frame.Respelled Frame.ofJson? f) ∧
    (∀ l : Location, ReadsBack Location.toJson Location.Respelled Location.ofJson? l) ∧
    (∀ c : Call, ReadsBack Call.toJson Call.Respelled Call.ofJson? c) ∧
    (∀ e : Excerpt, ReadsBack Excerpt.toJson Excerpt.Respelled Excerpt.ofJson? e) ∧
    (∀ (surplus : Json.Surplus) (r : Roots),
      ReadsBack Roots.toJson Roots.Respelled (Roots.ofJson? surplus) r) ∧
    (∀ g : Goroutine, 2 ^ 64 - 1 < g.blocked.nanoseconds →
      g.toJson.get? "duration" = some (.count (2 ^ 64 - 1))) ∧
    (∀ (g : Goroutine) (d : Duration), 2 ^ 64 - 1 < g.blocked.nanoseconds →
      2 ^ 64 - 1 < d.nanoseconds → { g with blocked := d }.toJson = g.toJson) ∧
    ∀ g h : Goroutine, g.blocked.nanoseconds ≤ h.blocked.nanoseconds →
      Goroutine.durationOf g.toJson ≤ Goroutine.durationOf h.toJson := by
  refine ⟨?_, fun g => readsBack g.respelled_refl StackGroup.ofJson?_of_respelled,
    fun f => readsBack (.refl fun _ _ => rfl) Frame.ofJson?_of_respelled,
    fun l => readsBack (.refl fun _ _ => rfl) Location.ofJson?_of_respelled,
    fun c => readsBack (.refl fun _ _ => rfl) Call.ofJson?_of_respelled,
    fun e => readsBack (.refl fun _ _ => rfl) Excerpt.ofJson?_of_respelled,
    fun surplus r => readsBack (.refl fun _ _ => rfl) Roots.ofJson?_of_respelled, ?_, ?_, ?_⟩
  · intro g hle
    refine readsBack g.respelled_refl fun hrespelled => ?_
    rw [Goroutine.ofJson?_of_respelled hrespelled, Duration.onWire_of_le hle]
  · exact fun g hlt => Goroutine.get?_duration_of_le (Nat.le_of_lt hlt)
  · exact fun g d hg hd => Goroutine.toJson_eq_of_le (Nat.le_of_lt hg) (Nat.le_of_lt hd)
  · intro g h hle
    rw [Goroutine.durationOf_toJson, Goroutine.durationOf_toJson]
    have hmin : g.blocked.onWire.nanoseconds ≤ h.blocked.onWire.nanoseconds := by
      simp only [Duration.onWire]
      omega
    exact Int.ofNat_le.mpr hmin

def waiting : Goroutine where
  id := 7
  state := "select"
  blocked := ⟨5⟩
  stack := [⟨⟨.project, "a", 4⟩, { package := "p", method := "f" }, {}⟩]

private def frameReversed : Json :=
  .obj [("column", .int 1), ("method", .str "f"), ("package", .str "p"), ("line", .int 4),
    ("file", .str "a"), ("root", .str "PROJECT")]

def waitingReversed : Json :=
  .obj [("trace", .null), ("callStack", .arr [frameReversed]), ("duration", .int 5),
    ("op", .str "select"), ("id", .int 7)]

private theorem respelled_waitingReversed : Goroutine.Respelled waiting.toJson waitingReversed := by
  have hframe : ∀ f ∈ waiting.stack, Frame.Respelled f.toJson frameReversed := by
    intro f hf
    obtain rfl := List.mem_singleton.mp hf
    exact .obj (Json.respells_unchanged_iff.mpr
      ⟨[("column", .int 1)], by decide, (List.reverse_perm _).symm⟩)
  have hstack : ListRespelled Frame.Respelled (.list Frame.toJson waiting.stack)
      (.arr [frameReversed]) := .arr (.cons (hframe _ List.mem_cons_self) .nil)
  refine .obj ⟨[("id", .int 7), ("op", .str "select"), ("duration", .int 5),
    ("callStack", .arr [frameReversed])], [("trace", .null)], ?_, by decide,
    (List.reverse_perm _).symm⟩
  exact .cons ⟨rfl, rfl⟩ (.cons ⟨rfl, rfl⟩ (.cons ⟨rfl, rfl⟩ (.cons ⟨rfl, hstack⟩ .nil)))

theorem wire_lossless_waitingReversed :
    waiting.blocked.nanoseconds ≤ 2 ^ 64 - 1 ∧ Goroutine.Respelled waiting.toJson waitingReversed ∧
      Goroutine.ofJson? waitingReversed = some waiting :=
  ⟨by decide, respelled_waitingReversed,
    (wire_lossless.1 waiting (by decide)).2 _ respelled_waitingReversed⟩

end GoroutineDump
