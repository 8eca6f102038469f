/-!
# Tables

A table maps texts to values and keeps the order in which keys were first put in. `get?_put` says
what a look-up finds after a change, and `keys_put` what becomes of the order.
-/

namespace Formulary

/-- A table: keys with their values in the order of first insertion. -/
abbrev Table (β : Type) := List (String × β)

namespace Table

variable {β : Type}

/-- The value under a key. -/
def get? (t : Table β) (key : String) : Option β := List.lookup key t

/-- The table with a value under a key: in place of the old value, or at the end. -/
def put (key : String) (value : β) : Table β → Table β
  | [] => [(key, value)]
  | (k, v) :: rest => if k = key then (k, value) :: rest else (k, v) :: put key value rest

/-- The keys in their order. -/
def keys (t : Table β) : List String := t.map (·.1)

/-- A look-up finds what was put in last. -/
theorem get?_put (t : Table β) (key : String) (value : β) (k : String) :
    get? (put key value t) k = if k = key then some value else get? t k := by
  induction t with
  | nil =>
    by_cases h : k = key
    · simp [put, get?, h]
    · have hb : (k == key) = false := by simpa using h
      simp [put, get?, List.lookup_cons, h, hb]
  | cons e rest ih =>
    obtain ⟨k', v'⟩ := e
    simp only [get?] at ih ⊢
    by_cases h : k' = key
    · subst h
      by_cases hk : k = k'
      · simp [put, hk]
      · have hb : (k == k') = false := by simpa using hk
        simp [put, List.lookup_cons, hk, hb]
    · by_cases hk : k = k'
      · subst hk
        simp [put, h]
      · have hb : (k == k') = false := by simpa using hk
        simp [put, h, List.lookup_cons, hb, ih]

/-- A new key goes to the end and an old one stays where it is. -/
theorem keys_put (t : Table β) (key : String) (value : β) :
    keys (put key value t) = if key ∈ keys t then keys t else keys t ++ [key] := by
  induction t with
  | nil => simp [put, keys]
  | cons e rest ih =>
    obtain ⟨k, v⟩ := e
    by_cases h : k = key
    · simp [put, keys, h]
    · have h' : ¬ key = k := fun e => h e.symm
      simp only [keys] at ih ⊢
      simp only [put, if_neg h, List.map_cons, ih, List.mem_cons, h', false_or]
      split <;> simp_all

end Table
end Formulary
