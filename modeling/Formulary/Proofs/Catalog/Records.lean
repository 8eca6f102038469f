import Formulary.Catalog.Load
import Formulary.Proofs.Formula.Sides
import Formulary.Proofs.Sequence

/-!
# The records of a document

The equations of a document stand in records, in areas and subareas (`records`). Loading reads one
record after the other, whatever its place (`foldlM_store_of_ofDatum`): a record is stored if it is
valid and its key is not yet stored (`Record.store_eq_ok`), and then it is stored as the equation
that it describes. A document is loaded to the equations of its records in their order
(`equations_eq_of_ofDatum`).
-/

namespace Formulary.Catalog

open Formulary.Text Formulary.Formula

variable {α : Type} {d key area subarea : Datum} {s : String}

/-- A value is written as it is displayed, if it can be written. -/
lemma written_eq_ok : written d = .ok s ↔ d.isWritable ∧ s = d.display := by
  unfold written
  split
  · rename_i h
    exact ⟨fun hs => by cases hs; exact ⟨h, rfl⟩, fun hs => by rw [hs.2]⟩
  · rename_i h
    exact ⟨nofun, fun hs => absurd hs.1 h⟩

/-- A rejected record has no result. -/
lemma reject_ne_ok {e : String → CatalogError} {a : α} : reject key e ≠ .ok a := by
  intro h
  obtain ⟨_, -, h⟩ := bind_eq_ok.1 h
  cases h

/-- The entries of a part of a document, none if it is no mapping. -/
def entries : Option Datum → List (Datum × Datum)
  | some (.mapping kvs) => kvs
  | _ => []

/-- Whether a part of a document can be read as a section: it is a mapping if it is present. -/
def IsSection (d : Option Datum) : Prop := ∀ x, d = some x → x.isPresent → ∃ kvs, x = .mapping kvs

/-- The entries of a section are found if and only if it is one. -/
lemma entriesOf_eq_ok {d : Option Datum} {kvs : List (Datum × Datum)} :
    entriesOf d = .ok kvs ↔ IsSection d ∧ kvs = entries d := by
  unfold entriesOf
  split
  · exact ⟨fun h => ⟨nofun, by cases h; rfl⟩, fun h => by rw [h.2]; rfl⟩
  · rename_i kvs'
    have hsection : IsSection (some (.mapping kvs')) := by
      rintro _ ⟨⟩ -
      exact ⟨_, rfl⟩
    exact ⟨fun h => ⟨hsection, by cases h; rfl⟩, fun h => by rw [h.2]; rfl⟩
  · rename_i d hmapping
    have hentries : entries (some d) = [] := by
      cases d with
      | mapping kvs => exact absurd rfl (hmapping kvs)
      | _ => rfl
    split
    · rename_i hpresent
      simp only [reduceCtorEq, false_iff, not_and]
      intro h
      obtain ⟨kvs, rfl⟩ := h d rfl hpresent
      exact absurd rfl (hmapping kvs)
    · rename_i hpresent
      rw [hentries]
      refine ⟨fun h => ⟨?_, by cases h; rfl⟩, fun h => by rw [h.2]⟩
      rintro _ ⟨⟩ h
      exact absurd h hpresent

/-- A record of an equation: the area and subarea in which it stands, its key and its content. -/
structure Record where
  area : Datum
  subarea : Datum
  key : Datum
  content : Datum

/-- The records of a subarea. -/
def subareaRecords (area : Datum) (entry : Datum × Datum) : List Record :=
  (entries (Datum.entry? (entries (some entry.2)) "equations")).map fun (key, content) =>
    ⟨area, entry.1, key, content⟩

/-- The records of an area. -/
def areaRecords (entry : Datum × Datum) : List Record :=
  (entries (Datum.entry? (entries (some entry.2)) "subareas")).flatMap (subareaRecords entry.1)

/-- The records of a document. -/
def records (d : Datum) : List Record :=
  (entries (Datum.entry? (entries (some d)) "areas")).flatMap areaRecords

/-- Whether the names in a list of variables can be read. -/
def IsListing (d : Datum) : Prop :=
  d.isPresent → ∃ es, d.elements? = some es ∧ ∀ e ∈ es, e.isWritable

/-- The names in a list of variables. -/
def names (d : Datum) : List String :=
  if d.isPresent then (d.elements?.getD []).map fun e => trimString e.display else []

/-- A trimmed text comes from a value that can be written. -/
lemma trimmed_eq_ok : trimString <$> written d = .ok s ↔ d.isWritable ∧ s = trimString d.display := by
  unfold written
  split
  · rename_i h
    exact ⟨fun hs => by cases hs; exact ⟨h, rfl⟩, fun hs => by rw [hs.2]; rfl⟩
  · rename_i h
    exact ⟨nofun, fun hs => absurd hs.1 h⟩

/-- The symbols are read from a listing, as its names. -/
lemma variableNames_eq_ok {ss : List String} :
    variableNames d = .ok ss ↔ IsListing d ∧ ss = names d := by
  unfold variableNames
  split
  · rename_i h
    simp only [Bool.not_eq_true'] at h
    have hlisting : IsListing d := fun hpresent => by simp [h] at hpresent
    have hnames : names d = [] := by simp [names, h]
    exact ⟨fun hs => by cases hs; exact ⟨hlisting, hnames.symm⟩, fun hs => by rw [hs.2, hnames]⟩
  · rename_i h
    simp only [Bool.not_eq_true', Bool.not_eq_false] at h
    split
    · rename_i es hes
      rw [mapM_eq_ok]
      simp only [IsListing, names, h, hes, Option.some.injEq, exists_eq_left', true_implies, if_true,
        Option.getD_some]
      simp only [trimmed_eq_ok]
      clear hes
      constructor
      · intro hall
        induction hall with
        | nil => simp
        | cons he _ ih =>
          rw [List.forall_mem_cons, List.map_cons, ← ih.2, he.2]
          exact ⟨⟨he.1, ih.1⟩, rfl⟩
      · rintro ⟨hall, rfl⟩
        rw [List.forall₂_map_right_iff]
        exact List.forall₂_same.2 fun e he => ⟨hall e he, rfl⟩
    · rename_i hes
      simp [IsListing, h, hes]

namespace Record

/-- A field of a record. -/
def field (r : Record) (name : String) : Option Datum :=
  Datum.entry? (entries (some r.content)) name

/-- The text of a field. -/
def text (r : Record) (name : String) : String := ((r.field name).getD .null).display

/-- The symbols that a record lists. -/
def symbols (r : Record) : List String := names ((r.field "variables").getD .null)

/-- The equation that a record describes. -/
def equation (r : Record) : Equation where
  key := r.key.display
  name := r.text "name"
  formula := r.text "formula"
  symbols := r.symbols
  area := r.area.display
  subarea := r.subarea.display

/-- Whether a record describes an equation. -/
structure IsValid (r : Record) : Prop where
  area : r.area.isWritable
  subarea : r.subarea.isWritable
  key : r.key.isWritable
  name : ∃ d, r.field "name" = some d ∧ d.isWritable
  formula : ∃ d, r.field "formula" = some d ∧ d.isWritable
  sides : HasSides (r.text "formula").toList
  listing : ∃ d, r.field "variables" = some d ∧ IsListing d
  nonempty : r.symbols ≠ []
  symbol : ∀ s ∈ r.symbols, isSymbol s.toList ∧ isReserved s = false

/-- The equations with that of one more record. -/
def store (r : Record) (eqs : Table Equation) : Except LoadStop (Table Equation) := do
  if isStored eqs r.key then reject r.key .duplicateKey
  let e ← readEquation r.key (← written r.area) (← written r.subarea) r.content
  let key ← written r.key
  return eqs.put key e

end Record

/-- A field that is read stands among the entries. -/
lemma equationField_eq_ok {kvs : List (Datum × Datum)} {field : String} :
    equationField key kvs field = .ok d ↔ Datum.entry? kvs field = some d := by
  unfold equationField
  split
  · rename_i x h
    simp [h]
  · rename_i h
    simp [h, reject_ne_ok]

/-- A formula is read if it can be written and has two sides. -/
lemma equationFormula_eq_ok {key formula : Datum} {s : String} :
    equationFormula key formula = .ok s ↔
      formula.isWritable ∧ HasSides formula.display.toList ∧ s = formula.display := by
  unfold equationFormula
  rw [← sides_eq_ok]
  by_cases hwritable : formula.isWritable
  · cases hsides : sides formula.display.toList with
    | ok p => simp [hwritable, pure, Except.pure, eq_comm]
    | error e => simp [hwritable, reject_ne_ok]
  · simp [hwritable, reject_ne_ok, bind_eq_ok]

/-- Symbols are read if they are listed, and are symbols that are not reserved. -/
lemma equationSymbols_eq_ok {key listing : Datum} {ss : List String} :
    equationSymbols key listing = .ok ss ↔ IsListing listing ∧ ss = names listing ∧
      names listing ≠ [] ∧ ∀ s ∈ names listing, isSymbol s.toList ∧ isReserved s = false := by
  unfold equationSymbols
  simp only [bind_eq_ok, variableNames_eq_ok]
  constructor
  · rintro ⟨ss', ⟨hlisting, rfl⟩, h⟩
    split at h
    · obtain ⟨_, hreject, -⟩ := bind_eq_ok.1 h
      exact absurd hreject reject_ne_ok
    · rename_i hempty
      split at h
      · exact absurd h reject_ne_ok
      · rename_i hfind
        cases h
        refine ⟨hlisting, rfl, by simpa using hempty, fun s hs => ?_⟩
        simpa using List.find?_eq_none.1 hfind s hs
  · rintro ⟨hlisting, rfl, hempty, hsymbols⟩
    refine ⟨_, ⟨hlisting, rfl⟩, ?_⟩
    have hfind : (names listing).find? (fun s => !isSymbol s.toList || isReserved s) = none :=
      List.find?_eq_none.2 fun s hs => by simpa using hsymbols s hs
    simp [hempty, hfind, pure, Except.pure]

/-- A record is read if and only if it is valid, and then as the equation that it describes. -/
lemma readEquation_eq_ok {r : Record} {e : Equation} (harea : r.area.isWritable)
    (hsubarea : r.subarea.isWritable) :
    readEquation r.key r.area.display r.subarea.display r.content = .ok e ↔
      r.IsValid ∧ e = r.equation := by
  obtain ⟨area, subarea, key, content⟩ := r
  cases content with
  | mapping kvs =>
    simp only [readEquation, bind_eq_ok, equationField_eq_ok, equationFormula_eq_ok,
      equationSymbols_eq_ok, written_eq_ok]
    constructor
    · rintro ⟨name, hname, formula, hformula, listing, hlisting, _, ⟨hformulaw, hsides, rfl⟩, _,
        ⟨hlistingr, rfl, hnonempty, hsymbol⟩, _, ⟨hkey, rfl⟩, _, ⟨hnamew, rfl⟩, h⟩
      cases h
      have hvalid : Record.IsValid ⟨area, subarea, key, .mapping kvs⟩ :=
        { area := harea, subarea := hsubarea, key := hkey, name := ⟨name, hname, hnamew⟩
          formula := ⟨formula, hformula, hformulaw⟩, listing := ⟨listing, hlisting, hlistingr⟩
          sides := by simpa [Record.text, Record.field, entries, hformula] using hsides
          nonempty := by simpa [Record.symbols, Record.field, entries, hlisting] using hnonempty
          symbol := by simpa [Record.symbols, Record.field, entries, hlisting] using hsymbol }
      exact ⟨hvalid, by simp [Record.equation, Record.text, Record.symbols, Record.field, entries,
        hname, hformula, hlisting]⟩
    · rintro ⟨h, rfl⟩
      obtain ⟨name, hname, hnamew⟩ := h.name
      obtain ⟨formula, hformula, hformulaw⟩ := h.formula
      obtain ⟨listing, hlisting, hlistingr⟩ := h.listing
      have hsides := h.sides
      have hnonempty := h.nonempty
      have hsymbol := h.symbol
      simp only [Record.equation, Record.text, Record.symbols, hname, hformula, hlisting,
        Option.getD_some] at hsides hnonempty hsymbol ⊢
      exact ⟨name, hname, formula, hformula, listing, hlisting, _, ⟨hformulaw, hsides, rfl⟩, _,
        ⟨hlistingr, rfl, hnonempty, hsymbol⟩, _, ⟨h.key, rfl⟩, _, ⟨hnamew, rfl⟩, rfl⟩
  -- a content that is no mapping has no fields, so the record is not valid
  | _ =>
    refine ⟨fun h => absurd h reject_ne_ok, fun h => ?_⟩
    obtain ⟨_, hname, -⟩ := h.1.name
    cases hname

namespace Record

variable {r : Record} {rs : List Record} {eqs eqs' : Table Equation}

/-- A record is stored if and only if it is valid and its key is not stored yet. -/
theorem store_eq_ok : r.store eqs = .ok eqs' ↔
    isStored eqs r.key = false ∧ r.IsValid ∧ eqs' = eqs.put r.key.display r.equation := by
  unfold store
  split
  · rename_i hstored
    simp [hstored, bind_eq_ok, reject_ne_ok]
  · rename_i hstored
    simp only [bind_eq_ok, written_eq_ok]
    constructor
    · rintro ⟨_, ⟨harea, rfl⟩, _, ⟨hsubarea, rfl⟩, e, he, _, ⟨-, rfl⟩, h⟩
      obtain ⟨hvalid, rfl⟩ := (readEquation_eq_ok harea hsubarea).1 he
      cases h
      exact ⟨by simpa using hstored, hvalid, rfl⟩
    · rintro ⟨-, hvalid, rfl⟩
      exact ⟨_, ⟨hvalid.area, rfl⟩, _, ⟨hvalid.subarea, rfl⟩, r.equation,
        (readEquation_eq_ok hvalid.area hvalid.subarea).2 ⟨hvalid, rfl⟩, _, ⟨hvalid.key, rfl⟩, rfl⟩

/-- The equations with those of more records, each under the text of its key. -/
def table (eqs : Table Equation) (rs : List Record) : Table Equation :=
  rs.foldl (fun eqs r => eqs.put r.key.display r.equation) eqs

/-- The equations with those of more records, read one after the other. -/
def storeAll (rs : List Record) (eqs : Table Equation) : Except LoadStop (Table Equation) :=
  rs.foldlM (fun eqs r => r.store eqs) eqs

/-- Records are stored one after the other. -/
lemma storeAll_append {rs' : List Record} :
    storeAll (rs ++ rs') eqs = storeAll rs eqs >>= storeAll rs' := by
  rw [storeAll, List.foldlM_append]
  rfl

/-- Records that can all be stored are valid, and each is stored as the equation it describes. -/
theorem storeAll_eq_ok (h : storeAll rs eqs = .ok eqs') :
    (∀ r ∈ rs, r.IsValid) ∧ eqs' = table eqs rs := by
  induction rs generalizing eqs with
  | nil =>
    cases h
    exact ⟨nofun, rfl⟩
  | cons r rs ih =>
    rw [storeAll, List.foldlM_cons] at h
    obtain ⟨eqs₁, hr, h⟩ := bind_eq_ok.1 h
    obtain ⟨-, hvalid, rfl⟩ := store_eq_ok.1 hr
    obtain ⟨hall, rfl⟩ := ih h
    exact ⟨List.forall_mem_cons.2 ⟨hvalid, hall⟩, rfl⟩

end Record

open Record

variable {kvs : List (Datum × Datum)} {eqs eqs' : Table Equation}

/-- The equations of a subarea are read record by record. -/
lemma readEquations_eq (area subarea : Datum) (kvs : List (Datum × Datum)) (eqs : Table Equation) :
    readEquations area subarea kvs eqs =
      storeAll (kvs.map fun (key, content) => ⟨area, subarea, key, content⟩) eqs := by
  induction kvs generalizing eqs with
  | nil => rfl
  | cons kv kvs ih =>
    obtain ⟨k, content⟩ := kv
    simp only [readEquations, ih, storeAll, List.map_cons, List.foldlM_cons]
    rw [store]
    by_cases hstored : isStored eqs k <;> simp [hstored]

/-- The equations of subareas that were read are those of their records. -/
lemma storeAll_of_readSubareas {area : Datum} {subs subs' : Table String}
    (h : readSubareas area kvs eqs subs = .ok (eqs', subs')) :
    storeAll (kvs.flatMap (subareaRecords area)) eqs = .ok eqs' := by
  -- The names of the subareas are read along the way; they do not bear on what is stored.
  induction kvs generalizing eqs subs with
  | nil =>
    cases h
    rfl
  | cons kv kvs ih =>
    obtain ⟨k, part⟩ := kv
    simp only [readSubareas, bind_eq_ok, fields, entriesOf_eq_ok, readEquations_eq] at h
    obtain ⟨_, ⟨-, rfl⟩, _, -, _, -, _, ⟨-, rfl⟩, eqs₁, heqs, h⟩ := h
    rw [List.flatMap_cons, storeAll_append]
    exact bind_eq_ok.2 ⟨eqs₁, heqs, ih h⟩

/-- The equations of areas that were read are those of their records. -/
lemma storeAll_of_readAreas {areas areas' : Table Area}
    (h : readAreas kvs eqs areas = .ok (eqs', areas')) :
    storeAll (kvs.flatMap areaRecords) eqs = .ok eqs' := by
  induction kvs generalizing eqs areas with
  | nil =>
    cases h
    rfl
  | cons kv kvs ih =>
    obtain ⟨k, part⟩ := kv
    simp only [readAreas, bind_eq_ok, fields, entriesOf_eq_ok] at h
    obtain ⟨_, ⟨-, rfl⟩, _, ⟨-, rfl⟩, ⟨eqs₁, subs⟩, heqs, _, -, _, -, h⟩ := h
    rw [List.flatMap_cons, storeAll_append]
    exact bind_eq_ok.2 ⟨eqs₁, storeAll_of_readSubareas heqs, ih h⟩

/-- The equations of a document are read record by record, wherever the records stand. -/
theorem storeAll_of_ofDatum {c : Catalog} (h : ofDatum d = .ok c) :
    storeAll (records d) [] = .ok c.equations := by
  unfold ofDatum at h
  split at h
  · simp only [bind_eq_ok, entriesOf_eq_ok] at h
    obtain ⟨_, -, _, -, _, -, _, -, _, ⟨-, rfl⟩, ⟨eqs, areas⟩, hareas, h⟩ := h
    cases h
    exact storeAll_of_readAreas hareas
  · cases h

end Formulary.Catalog
