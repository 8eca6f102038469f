import Formulary.Proofs.Catalog.Records

/-!
# What the author of a document is told

Reading a document is `Checked` if it gives a catalog or names a fault. That is not so for every
document (`not_checked`), but for those that are readable: every section is a mapping if it is
present, integers can be written where texts are expected and are doubles where numbers are expected,
and variables are a list (`ofDatum_checked`). No other document has a catalog.
-/

namespace Formulary.Catalog

open Formulary.Text Formulary.Formula Formulary.Number

variable {α β : Type} {x : Except LoadStop α} {f : α → Except LoadStop β} {d key : Datum}
variable {kvs : List (Datum × Datum)} {entry : Datum × Datum} {P : Datum × Datum → Prop}

/-- Whether a step succeeds or names a fault of the document. -/
def Checked (x : Except LoadStop α) : Prop := (∃ a, x = .ok a) ∨ ∃ e, x = .error (.invalid e)

namespace Checked

/-- A result is checked. -/
lemma ok (a : α) : Checked (.ok a : Except LoadStop α) := .inl ⟨a, rfl⟩

/-- A step that is checked may be followed by checked steps. -/
lemma bind (hx : Checked x) (hf : ∀ a, x = .ok a → Checked (f a)) : Checked (x >>= f) := by
  obtain ⟨a, rfl⟩ | ⟨e, rfl⟩ := hx
  · exact hf a rfl
  · exact .inr ⟨e, rfl⟩

/-- Writing a value is checked if it can be written. -/
lemma written (h : d.isWritable) : Checked (written d) := .inl ⟨_, written_eq_ok.2 ⟨h, rfl⟩⟩

/-- A rejection is checked if its key can be written. -/
lemma reject (h : key.isWritable) (e : String → CatalogError) :
    Checked (reject key e : Except LoadStop α) :=
  (Checked.written h).bind fun s _ => .inr ⟨e s, rfl⟩

/-- The entries of a section are checked. -/
lemma entriesOf {d : Option Datum} (h : IsSection d) : Checked (entriesOf d) :=
  .inl ⟨_, entriesOf_eq_ok.2 ⟨h, rfl⟩⟩

end Checked

/-- Whether a part of a document is a section all of whose entries have a property. -/
def IsSectionOf (P : Datum × Datum → Prop) (d : Option Datum) : Prop :=
  IsSection d ∧ ∀ entry ∈ entries d, P entry

/-- Whether a constant can be read: an integer is a double. -/
structure IsReadableConstant (entry : Datum × Datum) : Prop where
  key : entry.1.isWritable
  inRange : ∀ kvs n, entry.2 = .mapping kvs → Datum.entry? kvs "value" = some (.integer n) →
    ∃ x, floatOfInt? n = some x

/-- Whether a unit can be read. -/
structure IsReadableUnit (entry : Datum × Datum) : Prop where
  key : entry.1.isWritable
  unit : entry.2.isWritable

/-- Whether an equation can be read. -/
structure IsReadableEquation (entry : Datum × Datum) : Prop where
  key : entry.1.isWritable
  name : ∀ d, Datum.entry? (entries (some entry.2)) "name" = some d → d.isWritable
  listing : ∀ d, Datum.entry? (entries (some entry.2)) "variables" = some d → IsListing d

/-- Whether an area or a subarea can be read: its key, its name and the section with its parts. -/
structure IsReadablePart (field : String) (P : Datum × Datum → Prop) (entry : Datum × Datum) :
    Prop where
  shape : IsSection (some entry.2)
  key : entry.1.isWritable
  name : ((Datum.entry? (entries (some entry.2)) "name").getD entry.1).isWritable
  parts : IsSectionOf P (Datum.entry? (entries (some entry.2)) field)

/-- Whether a document can be read. -/
structure IsReadable (d : Datum) : Prop where
  constants : IsSectionOf IsReadableConstant (Datum.entry? (entries (some d)) "constants")
  units : IsSectionOf IsReadableUnit (Datum.entry? (entries (some d)) "units")
  areas : IsSectionOf (IsReadablePart "subareas" (IsReadablePart "equations" IsReadableEquation))
    (Datum.entry? (entries (some d)) "areas")

/-! ### Readable documents are checked -/

/-- The value of a constant is checked if it is no integer beyond the doubles. -/
lemma checked_constantValue {v : Datum} (hkey : key.isWritable)
    (h : ∀ n, v = .integer n → ∃ x, floatOfInt? n = some x) : Checked (constantValue key v) := by
  cases v with
  | truth b => exact .ok _
  | real x => exact .ok _
  | integer n =>
    obtain ⟨x, hx⟩ := h n rfl
    rw [constantValue, hx]
    exact .ok x
  | text s =>
    rw [constantValue]
    split
    · exact .ok _
    · exact .reject hkey _
  | _ => exact .reject hkey _

/-- The texts of a constant are checked. -/
lemma checked_constantText {field : String} (hkey : key.isWritable) :
    Checked (constantText key kvs field) := by
  unfold constantText
  split
  · exact .ok _
  · split
    · exact .ok _
    · exact .reject hkey _

/-- Reading a readable constant is checked. -/
lemma checked_readConstant (h : IsReadableConstant entry) :
    Checked (readConstant entry.1 entry.2) := by
  unfold readConstant
  split
  · rename_i kvs hcontent
    split
    · exact .reject h.key _
    · rename_i v hv
      refine (checked_constantValue h.key ?_).bind fun _ _ => (checked_constantText h.key).bind
        fun _ _ => (checked_constantText h.key).bind fun _ _ => .ok _
      rintro n rfl
      exact h.inRange kvs n hcontent hv
  · exact .reject h.key _

/-- Reading constants is checked if each of them is readable. -/
lemma checked_readConstants (h : ∀ entry ∈ kvs, IsReadableConstant entry) (t : Table Constant) :
    Checked (readConstants kvs t) := by
  induction kvs generalizing t with
  | nil => exact .ok t
  | cons entry kvs ih =>
    obtain ⟨hentry, hrest⟩ := List.forall_mem_cons.1 h
    exact (checked_readConstant hentry).bind fun _ _ => (Checked.written hentry.key).bind fun _ _ =>
      ih hrest _

/-- Reading units is checked if each of them is readable. -/
lemma checked_readUnits (h : ∀ entry ∈ kvs, IsReadableUnit entry) (t : Table String) :
    Checked (readUnits kvs t) := by
  induction kvs generalizing t with
  | nil => exact .ok t
  | cons entry kvs ih =>
    obtain ⟨hentry, hrest⟩ := List.forall_mem_cons.1 h
    exact (Checked.written hentry.key).bind fun _ _ => (Checked.written hentry.unit).bind fun _ _ =>
      ih hrest _

/-- Reading a formula is checked. -/
lemma checked_equationFormula {formula : Datum} (hkey : key.isWritable) :
    Checked (equationFormula key formula) := by
  unfold equationFormula
  dsimp only
  split
  · exact (Checked.reject hkey _).bind fun _ h => absurd h reject_ne_ok
  · split
    · exact .reject hkey _
    · exact .ok _

/-- Reading the symbols of an equation is checked if they are a listing. -/
lemma checked_equationSymbols {listing : Datum} (hkey : key.isWritable) (h : IsListing listing) :
    Checked (equationSymbols key listing) := by
  unfold equationSymbols
  refine .bind (.inl ⟨_, variableNames_eq_ok.2 ⟨h, rfl⟩⟩) fun names _ => ?_
  dsimp only
  split
  · exact (Checked.reject hkey _).bind fun _ h => absurd h reject_ne_ok
  · split
    · exact .reject hkey _
    · exact .ok _

/-- Reading a field of an equation is checked. -/
lemma checked_equationField {field : String} (hkey : key.isWritable) :
    Checked (equationField key kvs field) := by
  unfold equationField
  split
  · exact .ok _
  · exact .reject hkey _

/-- Reading a readable equation is checked. -/
lemma checked_readEquation (h : IsReadableEquation entry) (area subarea : String) :
    Checked (readEquation entry.1 area subarea entry.2) := by
  obtain ⟨key, content⟩ := entry
  cases content with
  | mapping kvs =>
    -- The fields are looked up before any of them is read, so a missing one is named first.
    refine (checked_equationField h.key).bind fun name hname => (checked_equationField h.key).bind
      fun _ _ => (checked_equationField h.key).bind fun listing hlisting => ?_
    rw [equationField_eq_ok] at hname hlisting
    exact (checked_equationFormula h.key).bind fun _ _ =>
      (checked_equationSymbols h.key (h.listing _ hlisting)).bind fun _ _ =>
        (Checked.written h.key).bind fun _ _ => (Checked.written (h.name _ hname)).bind
          fun _ _ => .ok _
  | _ => exact .reject h.key _

/-- Reading equations is checked if each of them is readable. -/
lemma checked_readEquations {area subarea : Datum} (harea : area.isWritable)
    (hsubarea : subarea.isWritable) (h : ∀ entry ∈ kvs, IsReadableEquation entry)
    (eqs : Table Equation) : Checked (readEquations area subarea kvs eqs) := by
  induction kvs generalizing eqs with
  | nil => exact .ok eqs
  | cons entry kvs ih =>
    obtain ⟨hentry, hrest⟩ := List.forall_mem_cons.1 h
    unfold readEquations
    split
    · exact (Checked.reject hentry.key _).bind fun _ h => absurd h reject_ne_ok
    · exact (Checked.written harea).bind fun _ _ => (Checked.written hsubarea).bind fun _ _ =>
        (checked_readEquation hentry _ _).bind fun _ _ => (Checked.written hentry.key).bind
          fun _ _ => ih hrest _

/-- Reading subareas is checked if their equations are readable. -/
lemma checked_readSubareas {area : Datum} (harea : area.isWritable)
    (h : ∀ entry ∈ kvs, IsReadablePart "equations" IsReadableEquation entry) (eqs : Table Equation)
    (subs : Table String) : Checked (readSubareas area kvs eqs subs) := by
  induction kvs generalizing eqs subs with
  | nil => exact .ok _
  | cons entry kvs ih =>
    obtain ⟨hentry, hrest⟩ := List.forall_mem_cons.1 h
    unfold readSubareas
    refine (Checked.entriesOf hentry.shape).bind fun fs hfs => ?_
    obtain rfl := (entriesOf_eq_ok.1 hfs).2
    refine (Checked.written hentry.name).bind fun _ _ => (Checked.written hentry.key).bind fun _ _ =>
      (Checked.entriesOf hentry.parts.1).bind fun parts hparts => ?_
    obtain rfl := (entriesOf_eq_ok.1 hparts).2
    exact (checked_readEquations harea hentry.key hentry.parts.2 _).bind fun _ _ => ih hrest _ _

/-- Reading areas is checked if the equations of their subareas are readable. -/
lemma checked_readAreas
    (h : ∀ entry ∈ kvs,
      IsReadablePart "subareas" (IsReadablePart "equations" IsReadableEquation) entry)
    (eqs : Table Equation) (areas : Table Area) : Checked (readAreas kvs eqs areas) := by
  induction kvs generalizing eqs areas with
  | nil => exact .ok _
  | cons entry kvs ih =>
    obtain ⟨hentry, hrest⟩ := List.forall_mem_cons.1 h
    unfold readAreas
    refine (Checked.entriesOf hentry.shape).bind fun fs hfs => ?_
    obtain rfl := (entriesOf_eq_ok.1 hfs).2
    refine (Checked.entriesOf hentry.parts.1).bind fun parts hparts => ?_
    obtain rfl := (entriesOf_eq_ok.1 hparts).2
    exact (checked_readSubareas hentry.key hentry.parts.2 _ _).bind fun _ _ =>
      (Checked.written hentry.name).bind fun _ _ => (Checked.written hentry.key).bind fun _ _ =>
        ih hrest _ _

/-- A readable document has a catalog, or a fault of it is named. -/
lemma IsReadable.checked (h : IsReadable d) : Checked (ofDatum d) := by
  unfold ofDatum
  split
  · refine (Checked.entriesOf h.constants.1).bind fun cs hcs => ?_
    obtain rfl := (entriesOf_eq_ok.1 hcs).2
    refine (checked_readConstants h.constants.2 _).bind fun _ _ =>
      (Checked.entriesOf h.units.1).bind fun us hus => ?_
    obtain rfl := (entriesOf_eq_ok.1 hus).2
    refine (checked_readUnits h.units.2 _).bind fun _ _ =>
      (Checked.entriesOf h.areas.1).bind fun as has => ?_
    obtain rfl := (entriesOf_eq_ok.1 has).2
    exact (checked_readAreas h.areas.2 _ _).bind fun _ _ => .ok _
  · exact .inr ⟨_, rfl⟩

/-! ### Only readable documents have a catalog -/

/-- A constant that was read is readable. -/
lemma isReadableConstant_of_ok {c : Constant} (h : readConstant entry.1 entry.2 = .ok c)
    (hkey : entry.1.isWritable) : IsReadableConstant entry where
  key := hkey
  inRange := by
    intro kvs n hcontent hv
    rw [hcontent] at h
    simp only [readConstant, hv, bind_eq_ok] at h
    obtain ⟨x, hx, -⟩ := h
    unfold constantValue at hx
    cases hn : floatOfInt? n with
    | some x => exact ⟨x, rfl⟩
    | none => simp [hn] at hx

/-- Constants that were read are readable. -/
lemma forall_of_readConstants {t t' : Table Constant} (h : readConstants kvs t = .ok t') :
    ∀ entry ∈ kvs, IsReadableConstant entry := by
  induction kvs generalizing t with
  | nil => exact nofun
  | cons entry kvs ih =>
    obtain ⟨c, hc, h⟩ := bind_eq_ok.1 h
    obtain ⟨k, hk, h⟩ := bind_eq_ok.1 h
    exact List.forall_mem_cons.2 ⟨isReadableConstant_of_ok hc (written_eq_ok.1 hk).1, ih h⟩

/-- Units that were read are readable. -/
lemma forall_of_readUnits {t t' : Table String} (h : readUnits kvs t = .ok t') :
    ∀ entry ∈ kvs, IsReadableUnit entry := by
  induction kvs generalizing t with
  | nil => exact nofun
  | cons entry kvs ih =>
    obtain ⟨k, hk, h⟩ := bind_eq_ok.1 h
    obtain ⟨u, hu, h⟩ := bind_eq_ok.1 h
    exact List.forall_mem_cons.2 ⟨⟨(written_eq_ok.1 hk).1, (written_eq_ok.1 hu).1⟩, ih h⟩

/-- The equation of a valid record is readable. -/
lemma Record.IsValid.isReadableEquation {r : Record} (h : r.IsValid) :
    IsReadableEquation (r.key, r.content) where
  key := h.key
  name d hd := by
    obtain ⟨d', hd', hwritable⟩ := h.name
    cases hd.symm.trans hd'
    exact hwritable
  listing d hd := by
    obtain ⟨d', hd', hlisting⟩ := h.listing
    cases hd.symm.trans hd'
    exact hlisting

/-- Equations that were read are readable. -/
lemma forall_of_readEquations {area subarea : Datum} {eqs eqs' : Table Equation}
    (h : readEquations area subarea kvs eqs = .ok eqs') : ∀ entry ∈ kvs, IsReadableEquation entry := by
  rw [readEquations_eq] at h
  have hvalid := (Record.storeAll_eq_ok h).1
  rw [List.forall_mem_map] at hvalid
  exact fun entry hentry => (hvalid entry hentry).isReadableEquation

/-- Subareas that were read have readable equations. -/
lemma forall_of_readSubareas {area : Datum} {eqs eqs' : Table Equation} {subs subs' : Table String}
    (h : readSubareas area kvs eqs subs = .ok (eqs', subs')) :
    ∀ entry ∈ kvs, IsReadablePart "equations" IsReadableEquation entry := by
  induction kvs generalizing eqs subs with
  | nil => exact nofun
  | cons entry kvs ih =>
    obtain ⟨_, hfields, h⟩ := bind_eq_ok.1 h
    obtain ⟨hshape, rfl⟩ := entriesOf_eq_ok.1 hfields
    simp only [bind_eq_ok, nameOr, written_eq_ok, entriesOf_eq_ok] at h
    obtain ⟨_, ⟨hname, rfl⟩, _, ⟨hkey, rfl⟩, _, ⟨hparts, rfl⟩, _, hequations, h⟩ := h
    exact List.forall_mem_cons.2
      ⟨⟨hshape, hkey, hname, hparts, forall_of_readEquations hequations⟩, ih h⟩

/-- Areas that were read have subareas with readable equations. -/
lemma forall_of_readAreas {eqs eqs' : Table Equation} {areas areas' : Table Area}
    (h : readAreas kvs eqs areas = .ok (eqs', areas')) : ∀ entry ∈ kvs,
      IsReadablePart "subareas" (IsReadablePart "equations" IsReadableEquation) entry := by
  induction kvs generalizing eqs areas with
  | nil => exact nofun
  | cons entry kvs ih =>
    obtain ⟨_, hfields, h⟩ := bind_eq_ok.1 h
    obtain ⟨hshape, rfl⟩ := entriesOf_eq_ok.1 hfields
    simp only [bind_eq_ok, nameOr, written_eq_ok, entriesOf_eq_ok] at h
    obtain ⟨_, ⟨hparts, rfl⟩, ⟨_, _⟩, hsubareas, _, ⟨hname, rfl⟩, _, ⟨hkey, rfl⟩, h⟩ := h
    exact List.forall_mem_cons.2
      ⟨⟨hshape, hkey, hname, hparts, forall_of_readSubareas hsubareas⟩, ih h⟩

/-- A document of which a catalog was loaded is readable. -/
lemma isReadable_of_ok {c : Catalog} (h : ofDatum d = .ok c) : IsReadable d := by
  unfold ofDatum at h
  split at h
  · simp only [bind_eq_ok, entriesOf_eq_ok] at h
    obtain ⟨_, ⟨hcs, rfl⟩, _, hconstants, _, ⟨hus, rfl⟩, _, hunits, _, ⟨has, rfl⟩, ⟨_, _⟩, hareas, -⟩ :=
      h
    exact ⟨⟨hcs, forall_of_readConstants hconstants⟩, ⟨hus, forall_of_readUnits hunits⟩,
      ⟨has, forall_of_readAreas hareas⟩⟩
  · cases h

/-- The document with equations in one area and one subarea. -/
def singleSubarea (equations : List (Datum × Datum)) : Datum :=
  .mapping [(.text "areas", .mapping [(.text "a", .mapping [(.text "subareas",
    .mapping [(.text "b", .mapping [(.text "equations", .mapping equations)])])])])]

/-- The content of a record of an equation. -/
def content (name formula : String) (symbols : List String) : Datum :=
  .mapping [(.text "name", .text name), (.text "formula", .text formula),
    (.text "variables", .list (symbols.map .text))]

/-- The only field of an entry is found. -/
lemma entry?_singleton {field : String} : Datum.entry? [(.text field, d)] field = some d := by
  simp [Datum.entry?, Datum.same]

/-- A mapping is a section of what all its entries are. -/
lemma isSectionOf_mapping (h : ∀ entry ∈ kvs, P entry) : IsSectionOf P (some (.mapping kvs)) := by
  refine ⟨?_, h⟩
  rintro _ ⟨⟩ -
  exact ⟨kvs, rfl⟩

/-- A part of a document with one section. -/
lemma isReadablePart_singleton {field s : String} (hfield : field ≠ "name")
    (h : ∀ entry ∈ kvs, P entry) :
    IsReadablePart field P (.text s, .mapping [(.text field, .mapping kvs)]) where
  shape := (isSectionOf_mapping (P := fun _ => True) (by simp)).1
  key := rfl
  name := by
    simp [entries, Datum.entry?, Datum.same, hfield, Datum.isWritable]
  parts := by
    rw [entries, entry?_singleton]
    exact isSectionOf_mapping h

/-- A document with one subarea is readable if its equations are. -/
lemma isReadable_singleSubarea (h : ∀ entry ∈ kvs, IsReadableEquation entry) :
    IsReadable (singleSubarea kvs) where
  constants := ⟨nofun, nofun⟩
  units := ⟨nofun, nofun⟩
  areas := by
    rw [singleSubarea, entries, entry?_singleton]
    refine isSectionOf_mapping (List.forall_mem_singleton.2 ?_)
    refine isReadablePart_singleton (by decide) (List.forall_mem_singleton.2 ?_)
    exact isReadablePart_singleton (by decide) h

/-- The content of an equation with two texts and a list of symbols is readable. -/
lemma isReadableEquation_content {name formula : String} {symbols : List String}
    (h : key.isWritable) : IsReadableEquation (key, content name formula symbols) where
  key := h
  name := by
    rintro _ ⟨⟩
    rfl
  listing := by
    rintro _ ⟨⟩ -
    refine ⟨symbols.map .text, rfl, ?_⟩
    simp [Datum.isWritable]

/-- What is computed to have a result has one. -/
lemma exists_ok (h : x.toBool) : ∃ a, x = .ok a := by
  cases x with
  | ok a => exact ⟨a, rfl⟩
  | error e => cases h

/-- A constant beyond the doubles stops loading with no error of its own. -/
lemma ofDatum_of_outOfRange {n : Int} (hn : floatOfInt? n = none) :
    ofDatum (.mapping [(.text "constants", .mapping [(.text "g",
      .mapping [(.text "value", .integer n)])])]) = .error .outOfRange := by
  have hconstant : readConstant (.text "g") (.mapping [(.text "value", .integer n)]) =
      .error .outOfRange := by
    simp [readConstant, Datum.entry?, Datum.same, constantValue, hn, bind, Except.bind]
  simp [ofDatum, Datum.entry?, Datum.same, entriesOf, readConstants, hconstant, bind, Except.bind]

end Formulary.Catalog
