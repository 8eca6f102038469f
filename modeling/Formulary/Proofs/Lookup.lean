import Mathlib
import Formulary.Table

/-!
# Look-ups among pairs

In a list of pairs with distinct keys a look-up does not depend on the order (`lookup_perm`). The keys
of a table remain distinct when something is put in (`Table.nodup_keys_put`). Where several entries
are put in, the last one under a key is found (`Table.get?_putAll`).
-/

namespace Formulary

variable {β : Type} {l l' : List (String × β)} {k : String} {v : β}

/-- What is found stands in the list. -/
lemma mem_of_lookup (h : l.lookup k = some v) : (k, v) ∈ l := by
  obtain ⟨_, _, rfl, -⟩ := List.lookup_eq_some_iff.1 h
  simp

/-- What stands in a list without repeated keys is found. -/
lemma lookup_of_mem (hnd : (l.map (·.1)).Nodup) (h : (k, v) ∈ l) : l.lookup k = some v := by
  cases hl : l.lookup k with
  | none =>
    have := List.lookup_eq_none_iff.1 hl _ h
    simp at this
  | some w =>
    cases List.inj_on_of_nodup_map hnd (mem_of_lookup hl) h rfl
    rfl

/-- The order of pairs with distinct keys does not matter for what is found. -/
theorem lookup_perm (hnd : (l.map (·.1)).Nodup) (hp : l.Perm l') (k : String) :
    l.lookup k = l'.lookup k := by
  have hnd' : (l'.map (·.1)).Nodup := (hp.map _).nodup_iff.1 hnd
  cases h : l.lookup k with
  | some v => exact (lookup_of_mem hnd' (hp.subset (mem_of_lookup h))).symm
  | none =>
    cases h' : l'.lookup k with
    | none => rfl
    | some v =>
      rw [lookup_of_mem hnd (hp.symm.subset (mem_of_lookup h'))] at h
      cases h

namespace Table

variable {t : Table β} {key k : String} {value v : β}

/-- Putting an entry into a table repeats no key. -/
lemma nodup_keys_put (h : (keys t).Nodup) :
    (keys (put key value t)).Nodup := by
  rw [keys_put]
  split
  · exact h
  · rename_i hk
    refine List.nodup_append.2 ⟨h, List.nodup_singleton key, fun a ha b hb hab => hk ?_⟩
    rwa [← List.mem_singleton.1 hb, ← hab]

/-- What is in a table after a change was in it before or was put in. -/
lemma mem_put (h : (k, v) ∈ put key value t) :
    (k, v) = (key, value) ∨ (k, v) ∈ t := by
  induction t with
  | nil => exact .inl (List.mem_singleton.1 h)
  | cons e rest ih =>
    obtain ⟨k', v'⟩ := e
    unfold put at h
    split at h
    · rename_i hk
      subst hk
      obtain h | h := List.mem_cons.1 h
      · exact .inl h
      · exact .inr (List.mem_cons_of_mem _ h)
    · obtain h | h := List.mem_cons.1 h
      · exact .inr (h ▸ List.mem_cons_self)
      · exact (ih h).imp_right (List.mem_cons_of_mem _)

variable {entries : List (String × β)}

/-- The table with more entries, put in one after the other. -/
def putAll (entries : List (String × β)) (t : Table β) : Table β :=
  entries.foldl (fun t e => t.put e.1 e.2) t

/-- Putting an entry into a table adds its key. -/
lemma mem_keys_put : k ∈ keys (put key value t) ↔ k ∈ keys t ∨ k = key := by
  rw [keys_put]
  split
  · rename_i hkey
    exact ⟨.inl, fun h => h.elim id fun heq => heq ▸ hkey⟩
  · simp

/-- Putting entries into a table adds their keys. -/
lemma mem_keys_putAll : k ∈ keys (putAll entries t) ↔ k ∈ keys t ∨ k ∈ entries.map (·.1) := by
  induction entries generalizing t with
  | nil => simp [putAll]
  | cons e entries ih =>
    show k ∈ keys (putAll entries (t.put e.1 e.2)) ↔ _
    rw [ih, mem_keys_put, List.map_cons, List.mem_cons, or_assoc]

/-- Putting entries into a table repeats no key. -/
lemma nodup_keys_putAll (h : (keys t).Nodup) : (keys (putAll entries t)).Nodup := by
  induction entries generalizing t with
  | nil => exact h
  | cons e entries ih => exact ih (nodup_keys_put h)

/-- Putting entries into a table adds nothing else. -/
lemma mem_putAll (h : (k, v) ∈ putAll entries t) : (k, v) ∈ t ∨ (k, v) ∈ entries := by
  induction entries generalizing t with
  | nil => exact .inl h
  | cons e entries ih =>
    obtain h | h := ih h
    · obtain h | h := mem_put h
      · exact .inr (h ▸ List.mem_cons_self)
      · exact .inl h
    · exact .inr (List.mem_cons_of_mem _ h)

/-- Under a key stands what was put in last. -/
lemma get?_putAll (k : String) :
    get? (putAll entries t) k = (entries.reverse.lookup k).or (get? t k) := by
  induction entries generalizing t with
  | nil => rfl
  | cons e entries ih =>
    obtain ⟨key, value⟩ := e
    show get? (putAll entries (t.put key value)) k = _
    rw [ih, get?_put, List.reverse_cons, List.lookup_append, Option.or_assoc, List.lookup_cons]
    by_cases hk : k = key
    · simp [hk]
    · have hb : (k == key) = false := by simpa using hk
      simp [hk, hb]

/-- What is found among entries is the last one with its key. -/
lemma get?_putAll_map {α : Type} {f : α → String × β} {as : List α} :
    get? (putAll (as.map f) []) k = some v ↔
      ∃ before a after, as = before ++ a :: after ∧ f a = (k, v) ∧ ∀ b ∈ after, (f b).1 ≠ k := by
  rw [get?_putAll, get?, List.lookup_nil, Option.or_none, ← List.map_reverse,
    List.lookup_eq_some_iff]
  constructor
  · rintro ⟨after, before, has, hafter⟩
    obtain ⟨after, rest, hsplit, rfl, hrest⟩ := List.map_eq_append_iff.1 has
    obtain ⟨a, before, rfl, ha, rfl⟩ := List.map_eq_cons_iff.1 hrest
    refine ⟨before.reverse, a, after.reverse, ?_, ha, fun b hb heq => ?_⟩
    · simpa using congrArg List.reverse hsplit
    · simpa [heq] using hafter (f b) (List.mem_map_of_mem (List.mem_reverse.1 hb))
  · rintro ⟨before, a, after, rfl, ha, hafter⟩
    refine ⟨after.reverse.map f, before.reverse.map f, by simp [ha], fun p hp => ?_⟩
    obtain ⟨b, hb, rfl⟩ := List.mem_map.1 hp
    simpa using (hafter b (List.mem_reverse.1 hb)).symm

/-- Entries without repeated keys are found. -/
lemma get?_putAll_of_nodup (hnd : (entries.map (·.1)).Nodup) (h : (k, v) ∈ entries) :
    get? (putAll entries t) k = some v := by
  have hnd' : (entries.reverse.map (·.1)).Nodup := by simpa using hnd
  rw [get?_putAll, lookup_of_mem hnd' (List.mem_reverse.2 h), Option.some_or]

end Table
end Formulary
