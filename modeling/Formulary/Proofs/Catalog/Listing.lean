import Formulary.Proofs.Catalog.Equations

/-!
# What the pickers show

The pickers offer the areas of a catalog and the subareas of each (`Catalog.sections`) and list the
equations of the section that is chosen. A later area takes the place of an earlier one whose key is
written alike, with the subareas of both (`mem_sections`), while the equations of both remain; and an
empty key lists what any key does. Where neither occurs, each equation is listed once and in its own
section (`ofDatum_covers`).
-/

namespace Formulary.Catalog

/-- The sections that the pickers offer: an area and one of its subareas, by their keys. -/
def sections (c : Catalog) : List (String × String) :=
  c.areas.flatMap fun (key, area) => area.subareas.keys.map (key, ·)

/-- The equations that are listed for one section after the other. -/
def picked (c : Catalog) : List Equation :=
  c.sections.flatMap fun (area, subarea) => c.listed (some area) (some subarea)

/-- That the sections together list each equation once, and each one in its own area and subarea. -/
structure Covers (c : Catalog) : Prop where
  once : c.picked.Perm (c.listed none none)
  placed : ∀ a s, (a, s) ∈ c.sections → ∀ e ∈ c.listed (some a) (some s), e.area = a ∧ e.subarea = s

/-- The areas of a document. -/
def areaEntries (d : Datum) : List (Datum × Datum) :=
  entries (Datum.entry? (entries (some d)) "areas")

/-- The subareas of an area. -/
def subareaEntries (area : Datum × Datum) : List (Datum × Datum) :=
  entries (Datum.entry? (entries (some area.2)) "subareas")

/-- The name of an area or a subarea: what its field says, or its key. -/
def partName (part : Datum × Datum) : String :=
  ((Datum.entry? (entries (some part.2)) "name").getD part.1).display

/-- What is put in for a subarea. -/
def subareaEntry (subarea : Datum × Datum) : String × String :=
  (subarea.1.display, partName subarea)

/-- What is put in for an area. -/
def areaEntry (area : Datum × Datum) : String × Area :=
  (area.1.display, ⟨partName area, Table.putAll ((subareaEntries area).map subareaEntry) []⟩)

/-- That a part is the last one among some whose key is written as its own. -/
def IsLast (parts : List (Datum × Datum)) (part : Datum × Datum) : Prop :=
  ∃ before after, parts = before ++ part :: after ∧
    ∀ later ∈ after, later.1.display ≠ part.1.display

variable {c : Catalog} {d area : Datum} {kvs : List (Datum × Datum)} {e : Equation} {a s : String}

/-! ### The areas of a loaded catalog -/

/-- The name of a part that was read is the one it gives, or else its key. -/
lemma nameOr_eq_ok {part : Datum × Datum} :
    nameOr (entries (some part.2)) part.1 = .ok s → s = partName part :=
  fun h => (written_eq_ok.1 h).2

/-- The subareas that were read are the entries of their parts. -/
lemma subareas_of_readSubareas {eqs eqs' : Table Equation} {subs subs' : Table String}
    (h : readSubareas area kvs eqs subs = .ok (eqs', subs')) :
    subs' = subs.putAll (kvs.map subareaEntry) := by
  induction kvs generalizing eqs subs with
  | nil =>
    cases h
    rfl
  | cons kv kvs ih =>
    simp only [readSubareas, bind_eq_ok, fields, entriesOf_eq_ok] at h
    obtain ⟨_, ⟨-, rfl⟩, name, hname, key, hkey, _, -, eqs₁, -, h⟩ := h
    rw [nameOr_eq_ok hname, (written_eq_ok.1 hkey).2] at h
    exact ih h

/-- The areas that were read are the entries of their parts. -/
lemma areas_of_readAreas {eqs eqs' : Table Equation} {areas areas' : Table Area}
    (h : readAreas kvs eqs areas = .ok (eqs', areas')) :
    areas' = areas.putAll (kvs.map areaEntry) := by
  induction kvs generalizing eqs areas with
  | nil =>
    cases h
    rfl
  | cons kv kvs ih =>
    simp only [readAreas, bind_eq_ok, fields, entriesOf_eq_ok] at h
    obtain ⟨_, ⟨-, rfl⟩, _, ⟨-, rfl⟩, ⟨eqs₁, subs⟩, hsubs, name, hname, key, hkey, h⟩ := h
    rw [nameOr_eq_ok hname, (written_eq_ok.1 hkey).2, subareas_of_readSubareas hsubs] at h
    exact ih h

/-- The areas of a catalog are those of its document, put in one after the other. -/
lemma areas_of_ofDatum (h : ofDatum d = .ok c) :
    c.areas = Table.putAll ((areaEntries d).map areaEntry) [] := by
  unfold ofDatum at h
  split at h
  · simp only [bind_eq_ok, entriesOf_eq_ok] at h
    obtain ⟨_, -, _, -, _, -, _, -, _, ⟨-, rfl⟩, ⟨eqs, areas⟩, hareas, h⟩ := h
    cases h
    exact areas_of_readAreas hareas
  · cases h

/-- The areas of a catalog are the last ones with their written keys. -/
lemma mem_areas (h : ofDatum d = .ok c) {x : Area} :
    (a, x) ∈ c.areas ↔
      ∃ part, IsLast (areaEntries d) part ∧ part.1.display = a ∧ (areaEntry part).2 = x := by
  rw [areas_of_ofDatum h]
  set areas := Table.putAll ((areaEntries d).map areaEntry) []
  have hnd : areas.keys.Nodup := Table.nodup_keys_putAll .nil
  have hget : (a, x) ∈ areas ↔ areas.get? a = some x :=
    ⟨lookup_of_mem hnd, mem_of_lookup⟩
  rw [hget, Table.get?_putAll_map]
  constructor
  · rintro ⟨before, part, after, hparts, hpart, hafter⟩
    cases hpart
    exact ⟨part, ⟨before, after, hparts, hafter⟩, rfl, rfl⟩
  · rintro ⟨part, ⟨before, after, hparts, hafter⟩, rfl, rfl⟩
    exact ⟨before, part, after, hparts, rfl, hafter⟩

/-- The sections are those of the areas that are the last ones with their keys. -/
theorem mem_sections (h : ofDatum d = .ok c) :
    (a, s) ∈ c.sections ↔ ∃ part, IsLast (areaEntries d) part ∧ part.1.display = a ∧
      ∃ sub ∈ subareaEntries part, sub.1.display = s := by
  have hsubs (part : Datum × Datum) : s ∈ (areaEntry part).2.subareas.keys ↔
      ∃ sub ∈ subareaEntries part, sub.1.display = s := by
    rw [areaEntry, Table.mem_keys_putAll]
    simp [Table.keys, subareaEntry]
  have hsections : (a, s) ∈ c.sections ↔ ∃ x, (a, x) ∈ c.areas ∧ s ∈ x.subareas.keys := by
    simp [sections]
  rw [hsections]
  constructor
  · rintro ⟨x, hx, hs⟩
    obtain ⟨part, hlast, ha, rfl⟩ := (mem_areas h).1 hx
    exact ⟨part, hlast, ha, (hsubs part).1 hs⟩
  · rintro ⟨part, hlast, ha, hs⟩
    exact ⟨(areaEntry part).2, (mem_areas h).2 ⟨part, hlast, ha, rfl⟩, (hsubs part).2 hs⟩

/-- No section is offered twice. -/
lemma nodup_sections (h : ofDatum d = .ok c) : c.sections.Nodup := by
  have hnd : c.areas.keys.Nodup := by
    rw [areas_of_ofDatum h]
    exact Table.nodup_keys_putAll .nil
  refine List.nodup_flatMap.2 ⟨fun p hp => ?_, ?_⟩
  · obtain ⟨a, x⟩ := p
    obtain ⟨part, -, -, rfl⟩ := (mem_areas h).1 hp
    have hkeys : (areaEntry part).2.subareas.keys.Nodup := Table.nodup_keys_putAll .nil
    exact hkeys.map fun _ _ heq => (Prod.mk.inj heq).2
  · refine (List.pairwise_map.1 hnd).imp fun {p q} hne x hp hq => hne ?_
    obtain ⟨_, -, rfl⟩ := List.mem_map.1 hp
    obtain ⟨_, -, heq⟩ := List.mem_map.1 hq
    exact (Prod.mk.inj heq).1.symm

/-! ### Equations and sections -/

/-- Without a selection all equations are listed. -/
lemma listed_all : c.listed none none = c.equations.map (·.2) := by
  simp [listed, passes]

/--
With an area and a subarea, those equations are listed that lie in them; an empty key selects
everything.
-/
lemma mem_listed : e ∈ c.listed (some a) (some s) ↔
    e ∈ c.listed none none ∧ (a = "" ∨ a = e.area) ∧ (s = "" ∨ s = e.subarea) := by
  simp [listed, passes]

/-- No equation is listed twice. -/
lemma nodup_listed (h : ofDatum d = .ok c) : (c.listed none none).Nodup := by
  rw [listed_all, (Record.storeAll_eq_ok (storeAll_of_ofDatum h)).2]
  -- The keys are distinct, and each is that of its equation.
  refine List.Nodup.map_on (fun p hp q hq heq => ?_) (List.Nodup.of_map _ Record.nodup_keys_table)
  obtain ⟨_, -, -, hp⟩ := Record.exists_of_mem_table hp
  obtain ⟨_, -, -, hq⟩ := Record.exists_of_mem_table hq
  exact Prod.ext (by rw [hp, hq, heq]) heq

/-- Where each equation has a section and is listed for no other one, the pickers cover the catalog. -/
lemma covers_iff (h : ofDatum d = .ok c) : Covers c ↔ ∀ e ∈ c.listed none none,
    (e.area, e.subarea) ∈ c.sections ∧
      ∀ a s, (a, s) ∈ c.sections → e ∈ c.listed (some a) (some s) → a = e.area ∧ s = e.subarea := by
  constructor
  · intro hcovers e he
    have hplaced : ∀ a s, (a, s) ∈ c.sections → e ∈ c.listed (some a) (some s) →
        a = e.area ∧ s = e.subarea := fun a s hsection hlisted => by
      obtain ⟨rfl, rfl⟩ := hcovers.placed a s hsection e hlisted
      exact ⟨rfl, rfl⟩
    refine ⟨?_, hplaced⟩
    obtain ⟨⟨a, s⟩, hsection, hlisted⟩ := List.mem_flatMap.1 (hcovers.once.mem_iff.2 he)
    obtain ⟨rfl, rfl⟩ := hplaced a s hsection hlisted
    exact hsection
  · intro hall
    have hplaced : ∀ a s, (a, s) ∈ c.sections → ∀ e ∈ c.listed (some a) (some s),
        e.area = a ∧ e.subarea = s := fun a s hsection e hlisted => by
      obtain ⟨rfl, rfl⟩ := (hall e (mem_listed.1 hlisted).1).2 a s hsection hlisted
      exact ⟨rfl, rfl⟩
    -- Two sections never list the same equation, as it would have to be in both.
    have hnodup : c.picked.Nodup := by
      refine List.nodup_flatMap.2 ⟨fun p _ => ?_, ?_⟩
      · refine List.Nodup.filter _ ?_
        rw [← listed_all]
        exact nodup_listed h
      · refine (nodup_sections h).imp_of_mem fun {p q} hp hq hne e hep heq => hne ?_
        obtain ⟨hp₁, hp₂⟩ := hplaced _ _ hp e hep
        obtain ⟨hq₁, hq₂⟩ := hplaced _ _ hq e heq
        exact Prod.ext (hp₁.symm.trans hq₁) (hp₂.symm.trans hq₂)
    refine ⟨(List.perm_ext_iff_of_nodup hnodup (nodup_listed h)).2 fun e => ?_, hplaced⟩
    constructor
    · intro he
      obtain ⟨p, -, hlisted⟩ := List.mem_flatMap.1 he
      exact (mem_listed.1 hlisted).1
    · intro he
      exact List.mem_flatMap.2 ⟨_, (hall e he).1, mem_listed.2 ⟨he, .inr rfl, .inr rfl⟩⟩

/-- An equation stands in a subarea of an area of the document. -/
lemma exists_part_of_listed (h : ofDatum d = .ok c) (he : e ∈ c.listed none none) :
    ∃ part ∈ areaEntries d, part.1.display = e.area ∧
      ∃ sub ∈ subareaEntries part, sub.1.display = e.subarea := by
  rw [listed_all, (Record.storeAll_eq_ok (storeAll_of_ofDatum h)).2] at he
  obtain ⟨⟨k, _⟩, hmem, rfl⟩ := List.mem_map.1 he
  obtain ⟨r, hr, rfl, -⟩ := Record.exists_of_mem_table hmem
  obtain ⟨part, hpart, hr⟩ := List.mem_flatMap.1 hr
  obtain ⟨sub, hsub, hr⟩ := List.mem_flatMap.1 hr
  obtain ⟨_, -, rfl⟩ := List.mem_map.1 hr
  exact ⟨part, hpart, rfl, sub, hsub, rfl⟩

/-- Where keys are written differently, each part is the last one with its key. -/
lemma isLast_of_nodup {parts : List (Datum × Datum)} {part : Datum × Datum}
    (hnd : (parts.map (·.1.display)).Nodup) (h : part ∈ parts) : IsLast parts part := by
  obtain ⟨before, after, rfl⟩ := List.append_of_mem h
  refine ⟨before, after, rfl, fun later hlater heq => ?_⟩
  rw [List.map_append, List.map_cons] at hnd
  obtain ⟨hnew, -⟩ := List.nodup_cons.1 (List.nodup_append'.1 hnd).2.1
  exact hnew (heq ▸ List.mem_map_of_mem hlater)

/--
The pickers cover a catalog if and only if each equation has a section and is listed for no other
one. There is a section for each subarea of an area that is the last one with its key. So the pickers
cover the catalog if the keys of areas are written differently and no key is empty.
-/
theorem ofDatum_covers (h : ofDatum d = .ok c) :
    (Covers c ↔ ∀ e ∈ c.listed none none, (e.area, e.subarea) ∈ c.sections ∧
      ∀ a s, (a, s) ∈ c.sections → (a = "" ∨ a = e.area) → (s = "" ∨ s = e.subarea) →
        a = e.area ∧ s = e.subarea) ∧
    (∀ a s, (a, s) ∈ c.sections ↔ ∃ part, IsLast (areaEntries d) part ∧ part.1.display = a ∧
      ∃ sub ∈ subareaEntries part, sub.1.display = s) ∧
    (((areaEntries d).map (·.1.display)).Nodup →
      (∀ part ∈ areaEntries d, part.1.display ≠ "" ∧
        ∀ sub ∈ subareaEntries part, sub.1.display ≠ "") → Covers c) := by
  have hiff : Covers c ↔ ∀ e ∈ c.listed none none, (e.area, e.subarea) ∈ c.sections ∧
      ∀ a s, (a, s) ∈ c.sections → (a = "" ∨ a = e.area) → (s = "" ∨ s = e.subarea) →
        a = e.area ∧ s = e.subarea := by
    rw [covers_iff h]
    simp only [mem_listed, and_imp]
    exact forall₂_congr fun e he => by simp only [he, true_implies]
  refine ⟨hiff, fun a s => mem_sections h, fun hnd hnonempty => hiff.2 fun e he => ⟨?_, ?_⟩⟩
  · obtain ⟨part, hpart, ha, hsub⟩ := exists_part_of_listed h he
    exact (mem_sections h).2 ⟨part, isLast_of_nodup hnd hpart, ha, hsub⟩
  · intro a s hsection ha hs
    obtain ⟨part, ⟨before, after, hparts, -⟩, rfl, sub, hsub, rfl⟩ := (mem_sections h).1 hsection
    obtain ⟨hpart, hsubs⟩ := hnonempty part (by simp [hparts])
    exact ⟨ha.resolve_left hpart, hs.resolve_left (hsubs sub hsub)⟩

/-- The document with some areas. -/
def ofAreas (areas : List (Datum × Datum)) : Datum := .mapping [(.text "areas", .mapping areas)]

/-- An area with some subareas. -/
def areaWith (key : Datum) (subareas : List (Datum × Datum)) : Datum × Datum :=
  (key, .mapping [(.text "subareas", .mapping subareas)])

/-- A subarea with one equation. -/
def subareaWith (key : Datum) (equation : String) : Datum × Datum :=
  (key, .mapping [(.text "equations",
    .mapping [(.text equation, content equation "x = y" ["x", "y"])])])

/-- Subareas that are written alike do no harm, nor do parts that are absent. -/
theorem ofDatum_covers_subareas :
    let d := ofAreas [areaWith (.text "a") [subareaWith (.integer 1) "p", (.text "z", .null)],
      (.null, .null),
      areaWith (.text "b") [subareaWith (.text "1") "q", subareaWith (.integer 1) "r"]]
    ∃ c, ofDatum d = .ok c ∧ Covers c := by
  intro d
  obtain ⟨c, hc⟩ : ∃ c, ofDatum d = .ok c := exists_ok (by decide +kernel)
  exact ⟨c, hc, (ofDatum_covers hc).2.2 (by decide +kernel) (by decide +kernel)⟩

/-- What holds of the result of loading, as far as it is computed, shows that there is a result. -/
lemma exists_ok_of_any {α : Type} {x : Except LoadStop α} {p : α → Prop} [DecidablePred p]
    (h : x.toOption.any fun a => p a) : ∃ a, x = .ok a ∧ p a := by
  cases x with
  | ok a => exact ⟨a, rfl, of_decide_eq_true h⟩
  | error e => cases h

/--
Pickers do not cover a catalog if the keys that they show are others than those that are listed.
-/
lemma not_covers_of_keys {picked listed : List String} (hpicked : c.picked.map (·.key) = picked)
    (hlisted : (c.listed none none).map (·.key) = listed) (h : ¬ picked.Perm listed) :
    ¬ Covers c := by
  rw [← hpicked, ← hlisted] at h
  exact fun hcovers => h (hcovers.once.map _)

/--
Of two areas that are written alike the later one hides the subareas of the earlier one, and an area
with an empty key shows the equations of the others as well.
-/
theorem not_covers :
    let alike := ofAreas [areaWith (.integer 1) [subareaWith (.text "a") "p"],
      areaWith (.text "1") [subareaWith (.text "b") "q"]]
    let empty := ofAreas [areaWith (.text "") [subareaWith (.text "b") "p"],
      areaWith (.text "a") [subareaWith (.text "b") "q"]]
    (∃ c, ofDatum alike = .ok c ∧ c.picked.map (·.key) = ["q"] ∧ ¬ Covers c) ∧
      ∃ c, ofDatum empty = .ok c ∧ c.picked.map (·.key) = ["p", "q", "q"] ∧ ¬ Covers c := by
  intro alike empty
  constructor
  · obtain ⟨c, hc, hpicked, hlisted⟩ : ∃ c, ofDatum alike = .ok c ∧
        c.picked.map (·.key) = ["q"] ∧ (c.listed none none).map (·.key) = ["p", "q"] :=
      exists_ok_of_any (by decide +kernel)
    exact ⟨c, hc, hpicked, not_covers_of_keys hpicked hlisted (by decide)⟩
  · obtain ⟨c, hc, hpicked, hlisted⟩ : ∃ c, ofDatum empty = .ok c ∧
        c.picked.map (·.key) = ["p", "q", "q"] ∧
        (c.listed none none).map (·.key) = ["p", "q"] :=
      exists_ok_of_any (by decide +kernel)
    exact ⟨c, hc, hpicked, not_covers_of_keys hpicked hlisted (by decide)⟩

end Formulary.Catalog
