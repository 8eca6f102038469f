import Formulary.Proofs.Catalog.Validation
import Formulary.Proofs.Lookup

/-!
# The equations of a loaded catalog

A record is stored under the text of its key, but a key counts as taken only if it is a text itself.
So two texts never clash, while a number that is written like an earlier key replaces what is stored
there: all records are in the catalog if and only if no two keys are written alike
(`ofDatum_keeps_records`). What is in the catalog is fit to be solved (`ofDatum_solvable`).
-/

namespace Formulary.Catalog

open Formulary.Text Formulary.Formula

variable {d : Datum} {c : Catalog} {eqs eqs' : Table Equation} {rs : List Record} {r : Record}
variable {k : String} {e : Equation}

namespace Record

/-- The texts of the keys of records. -/
def displays (rs : List Record) : List String := rs.map (·.key.display)

/-- The entries that records make. -/
def tableEntries (rs : List Record) : List (String × Equation) :=
  rs.map fun r => (r.key.display, r.equation)

/-- The table of some records is built up entry by entry. -/
lemma table_eq_putAll : table eqs rs = eqs.putAll (tableEntries rs) := by
  rw [table, Table.putAll, tableEntries, List.foldl_map]

/-- The entries of the table have the written keys of the records. -/
lemma map_fst_tableEntries : (tableEntries rs).map (·.1) = displays rs := List.map_map

/-- The keys of the table are the written keys of the records. -/
lemma mem_keys_table : k ∈ (table [] rs).keys ↔ k ∈ displays rs := by
  rw [table_eq_putAll, Table.mem_keys_putAll, map_fst_tableEntries]
  simp [Table.keys]

/-- No key stands in the table twice. -/
lemma nodup_keys_table : (table [] rs).keys.Nodup := by
  rw [table_eq_putAll]
  exact Table.nodup_keys_putAll .nil

/-- Every equation is that of a record, and stands under its key. -/
lemma exists_of_mem_table (h : (k, e) ∈ table [] rs) : ∃ r ∈ rs, e = r.equation ∧ k = e.key := by
  rw [table_eq_putAll] at h
  obtain ⟨r, hr, heq⟩ := List.mem_map.1 ((Table.mem_putAll h).resolve_left List.not_mem_nil)
  cases heq
  exact ⟨r, hr, rfl, rfl⟩

/-- As many equations are stored as there are records if and only if no keys are written alike. -/
lemma length_table : (table [] rs).length = rs.length ↔ (displays rs).Nodup := by
  have hkeys : (table [] rs).keys.length = (table [] rs).length := List.length_map _
  have hdisplays : (displays rs).length = rs.length := List.length_map _
  -- The keys that are stored are those of the records without repetition; none is missing just if
  -- there are as many of them.
  have hsubperm : (table [] rs).keys.Subperm (displays rs) :=
    List.Nodup.subperm nodup_keys_table fun k hk => mem_keys_table.1 hk
  constructor
  · intro h
    exact (hsubperm.perm_of_length_le (by omega)).nodup_iff.1 nodup_keys_table
  · intro h
    have := hsubperm.length_le
    have := (List.Nodup.subperm h fun k hk => mem_keys_table.2 hk).length_le
    omega

/-- Records whose keys are written differently are all found. -/
lemma get?_table (hnd : (displays rs).Nodup) (hr : r ∈ rs) :
    (table [] rs).get? r.key.display = some r.equation := by
  rw [table_eq_putAll]
  refine Table.get?_putAll_of_nodup ?_ (List.mem_map_of_mem hr)
  rwa [map_fst_tableEntries]

/-- Whether a key is a text that is the key of an earlier record as it is written. -/
def Clashes (r r' : Record) : Prop := r'.key = .text r.key.display

/-- A record counts as new unless its key is a text that stands in the table. -/
lemma isStored_eq_false : isStored eqs r.key = false ↔ ∀ k ∈ eqs.keys, r.key ≠ .text k := by
  cases hkey : r.key with
  | text s =>
    simp only [isStored, Option.isSome_eq_false_iff, Option.isNone_iff_eq_none, Table.get?,
      List.lookup_eq_none_iff, Table.keys, List.forall_mem_map, ne_eq, Datum.text.injEq]
    simp
  | _ => simp [isStored]

/-- Where all records can be stored, no key clashes with an earlier one. -/
lemma not_clashes_of_storeAll (h : storeAll rs eqs = .ok eqs') :
    (∀ r ∈ rs, ∀ k ∈ eqs.keys, r.key ≠ .text k) ∧ rs.Pairwise fun r r' => ¬ Clashes r r' := by
  -- The first part is the invariant: later records must not clash with what is stored already,
  -- which includes every earlier record.
  induction rs generalizing eqs with
  | nil => exact ⟨nofun, .nil⟩
  | cons r rs ih =>
    obtain ⟨eqs₁, hr, h⟩ := bind_eq_ok.1 h
    obtain ⟨hstored, -, rfl⟩ := store_eq_ok.1 hr
    obtain ⟨hnew, hpairwise⟩ := ih h
    rw [Table.keys_put] at hnew
    refine ⟨List.forall_mem_cons.2 ⟨isStored_eq_false.1 hstored, fun r' hr' k hk => ?_⟩,
      List.pairwise_cons.2 ⟨fun r' hr' => ?_, hpairwise⟩⟩
    · refine hnew r' hr' k ?_
      split
      · exact hk
      · exact List.mem_append_left _ hk
    · refine hnew r' hr' r.key.display ?_
      split
      · assumption
      · simp

end Record

open Record

/--
All records of a document that has a catalog are in it, each under the text of its key, if and only if
no two keys are written alike. Where a text is written like an earlier key, a fault is named.
-/
theorem ofDatum_keeps_records (d : Datum) :
    (∀ c, ofDatum d = .ok c →
      ((c.equations.length = (records d).length ∧
          ∀ r ∈ records d, c.equations.get? r.key.display = some r.equation) ↔
        (displays (records d)).Nodup)) ∧
    (IsReadable d → ¬ (records d).Pairwise (fun r r' => ¬ Clashes r r') →
      ∃ e, ofDatum d = .error (.invalid e)) := by
  constructor
  · intro c hc
    rw [(storeAll_eq_ok (storeAll_of_ofDatum hc)).2]
    exact ⟨fun h => length_table.1 h.1, fun h => ⟨length_table.2 h, fun r hr => get?_table h hr⟩⟩
  · intro hreadable hclash
    obtain ⟨c, hc⟩ | he := hreadable.checked
    · exact absurd (not_clashes_of_storeAll (storeAll_of_ofDatum hc)).2 hclash
    · exact he

/--
A record is kept. Of two records whose keys are written alike, a later one with a text for its key
is refused.
-/
theorem ofDatum_keeps_records_single :
    (∃ c, ofDatum (singleSubarea [(.text "e", content "E" "x = y" ["x", "y"])]) = .ok c ∧
      c.equations.length = 1) ∧
    ∃ e, ofDatum (singleSubarea [(.integer 1, content "A" "x = y" ["x", "y"]),
      (.text "1", content "B" "x = y" ["x", "y"])]) = .error (.invalid e) := by
  constructor
  · obtain ⟨c, hc⟩ : ∃ c, ofDatum (singleSubarea [(.text "e", content "E" "x = y" ["x", "y"])]) =
        .ok c := exists_ok (by decide +kernel)
    exact ⟨c, hc, (((ofDatum_keeps_records _).1 c hc).2 (by decide +kernel)).1⟩
  · refine (ofDatum_keeps_records _).2 (isReadable_singleSubarea ?_) ?_
    · exact List.forall_mem_cons.2 ⟨isReadableEquation_content (by decide +kernel),
        List.forall_mem_singleton.2 (isReadableEquation_content (by decide))⟩
    · intro h
      have hdisplay : "1" = (Datum.integer 1).display := by decide
      exact List.rel_of_pairwise_cons h List.mem_cons_self (congrArg Datum.text hdisplay)

/-- A number replaces what is stored under the text that it is written as. -/
theorem integer_replaces_text :
    (∃ c, ofDatum (singleSubarea [(.text "1", content "A" "x = y" ["x", "y"]),
        (.integer 1, content "B" "x = y" ["x", "y"])]) = .ok c ∧
      c.equations.map (·.2.name) = ["B"]) ∧
    (records (singleSubarea [(.text "1", content "A" "x = y" ["x", "y"]),
        (.integer 1, content "B" "x = y" ["x", "y"])])).map (fun r => (r.key.display, r.text "name")) =
      [("1", "A"), ("1", "B")] := by
  refine ⟨?_, by decide +kernel⟩
  obtain ⟨c, hc⟩ : ∃ c, ofDatum (singleSubarea [(.text "1", content "A" "x = y" ["x", "y"]),
      (.integer 1, content "B" "x = y" ["x", "y"])]) = .ok c := exists_ok (by decide +kernel)
  refine ⟨c, hc, ?_⟩
  rw [(storeAll_eq_ok (storeAll_of_ofDatum hc)).2]
  decide +kernel

/--
An equation of a catalog stands under its key, lists symbols that are not reserved, and its canonical
form has a residual; its area and subarea are those of a record.
-/
theorem ofDatum_solvable (h : ofDatum d = .ok c) (he : (k, e) ∈ c.equations) :
    (k = e.key ∧ c.equations.get? e.key = some e) ∧
      (e.symbols ≠ [] ∧ ∀ s ∈ e.symbols, isSymbol s.toList ∧ isReserved s = false) ∧
      (∃ r ∈ records d, e.area = r.area.display ∧ e.subarea = r.subarea.display) ∧
      ∃ t, residual (canonical e.formula.toList) = .ok t := by
  obtain ⟨hvalid, htable⟩ := storeAll_eq_ok (storeAll_of_ofDatum h)
  rw [htable] at he ⊢
  obtain ⟨r, hr, rfl, rfl⟩ := exists_of_mem_table he
  have hr' := hvalid r hr
  exact ⟨⟨rfl, lookup_of_mem nodup_keys_table he⟩, ⟨hr'.nonempty, hr'.symbol⟩, ⟨r, hr, rfl, rfl⟩,
    residual_eq_ok.2 hr'.sides.canonical⟩

/-- The equation of a record can be solved: it is found with its symbols, and it has a residual. -/
theorem ofDatum_solvable_single :
    ∃ c, ofDatum (singleSubarea [(.text "e", content "E" "y = sin(x)" ["x", "y"])]) = .ok c ∧
      ("e", ⟨"e", "E", "y = sin(x)", ["x", "y"], "a", "b"⟩) ∈ c.equations ∧
      ∃ t, residual (canonical "y = sin(x)".toList) = .ok t := by
  obtain ⟨c, hc⟩ : ∃ c, ofDatum (singleSubarea [(.text "e", content "E" "y = sin(x)" ["x", "y"])]) =
      .ok c := exists_ok (by decide +kernel)
  have he : ("e", ⟨"e", "E", "y = sin(x)", ["x", "y"], "a", "b"⟩) ∈ c.equations := by
    rw [(storeAll_eq_ok (storeAll_of_ofDatum hc)).2]
    decide +kernel
  exact ⟨c, hc, he, (ofDatum_solvable hc he).2.2.2⟩

end Formulary.Catalog
