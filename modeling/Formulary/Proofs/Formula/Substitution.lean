import Mathlib
import Formulary.Formula.Substitution

/-!
# Substitution run by run

A text falls into runs: adhering characters as far as they reach, and every other character alone.
A substitution replaces those runs that are the name and leaves the others (`substitute_eq`).
Therefore two substitutions can be exchanged unless one value contains the other name
(`substitute_comm`).
-/

namespace Formulary.Formula

open Formulary.Text Formulary.Number

/-- Whether two neighbouring characters belong together. -/
def glued (a b : Char) : Bool := adheres a && adheres b

/-- The runs of a text: adhering characters as far as they reach, every other character alone. -/
def runs (s : List Char) : List (List Char) := s.splitBy glued

/-- Whether a text can be the run of a name. -/
def IsName (s : List Char) : Prop := s ≠ [] ∧ ∀ c ∈ s, adheres c

/-- A text one of whose ends two characters of another could not be glued to. -/
def Apart (s t : List Char) : Prop := ∀ x ∈ s.getLast?, ∀ y ∈ t.head?, glued x y = false

/-- The empty text stands apart from everything. -/
lemma Apart.nil_left (t : List Char) : Apart [] t := fun _ h => nomatch h

/-- What stands apart from a text stands apart from more of it. -/
lemma Apart.append_right {s t u : List Char} (ht : t ≠ []) (h : Apart s t) : Apart s (t ++ u) := by
  simpa only [Apart, List.head?_append_of_ne_nil _ ht] using h

/-- The first of several runs is not glued to the others. -/
lemma Apart.flatten {r : List Char} {l : List (List Char)} (hne : [] ∉ l)
    (h : (r :: l).IsChain Apart) : Apart r l.flatten := by
  cases l with
  | nil => exact fun _ _ _ => nofun
  | cons t l => exact .append_right (fun ht => hne (by simp [ht])) h.rel

/-- The runs of two texts that are not glued together. -/
lemma runs_append {s t : List Char} (h : Apart s t) : runs (s ++ t) = runs s ++ runs t :=
  List.splitBy_append h

/-- A text stands apart from what begins with no adhering character. -/
lemma apart_of_head {s t : List Char} (h : ∀ c ∈ t.head?, adheres c = false) : Apart s t := by
  intro x _ y hy
  simp [glued, h y hy]

/-- A character that does not adhere stands apart from everything. -/
lemma apart_single {c : Char} {t : List Char} (hc : adheres c = false) : Apart [c] t := by
  intro x hx y _
  cases hx
  simp [glued, hc]

/-- A name is one run. -/
lemma runs_name {m : List Char} (hm : IsName m) : runs m = [m] := by
  refine List.splitBy_of_isChain hm.1 (List.pairwise_of_forall_mem_list fun c hc d hd => ?_).isChain
  simp [glued, hm.2 c hc, hm.2 d hd]

/-- The runs of a text make up the text. -/
@[simp]
lemma flatten_runs (s : List Char) : (runs s).flatten = s := List.flatten_splitBy glued s

/-- A run is a single character, or all of its characters adhere. -/
lemma run_adheres {r : List Char} (hr : r.IsChain fun a b => glued a b) :
    (∃ c, r = [c]) ∨ ∀ c ∈ r, adheres c := by
  induction r with
  | nil => exact .inr nofun
  | cons c rest ih =>
    cases rest with
    | nil => exact .inl ⟨c, rfl⟩
    | cons d rest =>
      obtain ⟨hcd, hrest⟩ := List.isChain_cons_cons.1 hr
      simp only [glued, Bool.and_eq_true] at hcd
      right
      obtain ⟨e, he⟩ | h := ih hrest
      · cases he
        simp [hcd]
      · simp only [List.mem_cons, forall_eq_or_imp] at h ⊢
        exact ⟨hcd.1, h⟩

section
variable {name lit : List Char}

/-- A prefix is dropped from the texts that begin with it. -/
lemma dropPrefix?_eq_some {p s rest : List Char} : dropPrefix? p s = some rest ↔ s = p ++ rest := by
  induction p generalizing s with
  | nil => simp [dropPrefix?, eq_comm]
  | cons c p ih =>
    cases s with
    | nil => simp [dropPrefix?]
    | cons d s =>
      simp only [dropPrefix?, List.cons_append, List.cons.injEq]
      split
      · rename_i h
        simp [ih, h]
      · rename_i h
        simp [Ne.symm h]

/--
A rule that replaces whole runs and looks at nothing else: `f` gives the text for each run that it
replaces.
-/
structure Runwise (rule : Rule) (f : List Char → Option (List Char)) : Prop where
  nil : ∀ before, rule before [] = none
  /-- a run of adhering characters is replaced as a whole or not at all -/
  run : ∀ {before r rest}, r ≠ [] → (∀ c ∈ r, adheres c) → before.any adheres = false →
    rest.head?.any adheres = false → rule before (r ++ rest) = (f r).map (·, r.length)
  /-- nothing is replaced behind an adhering character -/
  inside : ∀ {before following}, before.any adheres → rule before following = none
  /-- other characters stay -/
  single : ∀ {before c rest}, adheres c = false → rule before (c :: rest) = none ∧ f [c] = none

section
variable {rule : Rule} {f : List Char → Option (List Char)}

/-- Nothing is replaced behind an adhering character. -/
lemma Runwise.replaceFrom_inside (h : Runwise rule f) {r rest : List Char} {b : Char}
    (hb : adheres b) (hr : ∀ c ∈ r, adheres c) :
    replaceFrom rule 0 (some b) (r ++ rest) =
      r ++ replaceFrom rule 0 (r.getLast?.or (some b)) rest := by
  induction r generalizing b with
  | nil => rfl
  | cons c r ih =>
    have hc := hr c (by simp)
    have : rule (some b) (c :: (r ++ rest)) = none := h.inside hb
    rw [List.cons_append, replaceFrom, this]
    simp only [List.cons_append, List.cons.injEq, true_and]
    rw [ih hc fun d hd => hr d (by simp [hd])]
    cases r <;> simp [List.getLast?_cons]

/-- What a replacement covers is skipped. -/
lemma replaceFrom_skip {r rest : List Char} {before : Option Char} :
    replaceFrom rule r.length before (r ++ rest) =
      replaceFrom rule 0 (r.getLast?.or before) rest := by
  induction r generalizing before with
  | nil => rfl
  | cons c r ih =>
    rw [List.cons_append, List.length_cons, replaceFrom, ih]
    cases r <;> simp [List.getLast?_cons]

/-- Behind an adhering character, nothing that stands apart begins with one. -/
lemma not_adheres_of_apart {s t : List Char} (h : Apart s t) {c : Char} (hs : s.getLast? = some c)
    (hc : adheres c) : t.head?.any adheres = false := by
  cases t with
  | nil => rfl
  | cons d t => simpa [glued, hc] using h c hs d rfl

/-- Of one run the whole is replaced or nothing. -/
lemma Runwise.replaceFrom_run (h : Runwise rule f) {r rest : List Char} {before : Option Char}
    (hr : r.IsChain fun a b => glued a b) (hne : r ≠ [])
    (hbefore : Apart before.toList r) (hrest : Apart r rest) :
    replaceFrom rule 0 before (r ++ rest) =
      (f r).getD r ++ replaceFrom rule 0 r.getLast? rest := by
  cases r with
  | nil => exact absurd rfl hne
  | cons c r =>
    by_cases hc : adheres c
    · have hall : ∀ d ∈ c :: r, adheres d := by
        obtain ⟨d, hd⟩ | hall := run_adheres hr
        · cases hd
          simpa using hc
        · exact hall
      have hbefore : before.any adheres = false := by
        cases before with
        | none => rfl
        | some b => simpa [glued, hc] using hbefore b rfl c rfl
      have hrest : rest.head?.any adheres = false :=
        not_adheres_of_apart hrest (List.getLast?_eq_some_getLast (List.cons_ne_nil c r))
          (hall _ (List.getLast_mem _))
      have hrule := h.run hne hall hbefore hrest
      rw [List.cons_append] at hrule ⊢
      rw [replaceFrom, hrule]
      cases f (c :: r) with
      | some replacement =>
        simp only [Option.map_some, List.length_cons, Option.getD_some]
        rw [replaceFrom_skip]
        cases r <;> simp [List.getLast?_cons]
      | none =>
        simp only [Option.map_none, Option.getD_none]
        rw [h.replaceFrom_inside hc fun d hd => hall d (by simp [hd])]
        cases r <;> simp [List.getLast?_cons]
    · obtain rfl : r = [] := by
        obtain ⟨d, hd⟩ | hall := run_adheres hr
        · cases hd
          rfl
        · exact absurd (hall c (by simp)) hc
      have hc : adheres c = false := Bool.not_eq_true _ ▸ hc
      obtain ⟨hrule, hf⟩ : rule before (c :: rest) = none ∧ f [c] = none := h.single hc
      simp [replaceFrom, hrule, hf]

/-- A rule for whole runs takes a text run by run. -/
lemma Runwise.replaceFrom_flatten (h : Runwise rule f) {l : List (List Char)} {before : Option Char}
    (hne : [] ∉ l) (hchain : ∀ r ∈ l, r.IsChain fun a b => glued a b)
    (hapart : l.IsChain Apart) (hbefore : Apart before.toList l.flatten) :
    replaceFrom rule 0 before l.flatten = l.flatMap fun r => (f r).getD r := by
  induction l generalizing before with
  | nil => simp [replaceFrom, h.nil]
  | cons r l ih =>
    simp only [List.mem_cons, not_or] at hne
    have hrne : r ≠ [] := Ne.symm hne.1
    have hhead : (r :: l).flatten.head? = r.head? := by
      simp [List.head?_append_of_ne_nil _ hrne]
    have hrest : Apart r l.flatten := .flatten hne.2 hapart
    rw [List.flatten_cons, h.replaceFrom_run (hchain r (by simp)) hrne
      (by simpa only [Apart, hhead] using hbefore) hrest, List.flatMap_cons,
      ih hne.2 (fun t ht => hchain t (by simp [ht])) hapart.tail]
    cases hlast : r.getLast? with
    | none =>
      intro a ha
      cases ha
    | some c => simpa [Apart, hlast] using hrest
end

/-- The characters that are taken from a text are those before the first other one. -/
lemma takeWhile_append_of_head {p : Char → Bool} {r rest : List Char} (hr : ∀ c ∈ r, p c)
    (hrest : rest.head?.any p = false) : (r ++ rest).takeWhile p = r := by
  rw [List.takeWhile_append_of_pos hr]
  cases rest with
  | nil => simp
  | cons c rest =>
    have hc : p c = false := hrest
    simp [hc]

/-- A run that begins with an adhering character is replaced if it is the name. -/
lemma occurrence_run (hname : IsName name) {r rest : List Char} {before : Option Char}
    (hr : ∀ c ∈ r, adheres c) (hbefore : before.any adheres = false)
    (hrest : rest.head?.any adheres = false) :
    occurrence name lit before (r ++ rest) = if r = name then some (lit, name.length) else none := by
  simp only [occurrence, hbefore, Bool.false_eq_true, if_false]
  split
  · rename_i rest' h
    rw [dropPrefix?_eq_some] at h
    have hstart : (name ++ rest').takeWhile adheres = r := h ▸ takeWhile_append_of_head hr hrest
    split
    · rename_i hadh
      have hne : r ≠ name := by
        rintro rfl
        rw [List.append_cancel_left h] at hrest
        rw [hrest] at hadh
        cases hadh
      rw [if_neg hne]
    · rename_i hadh
      rw [if_pos (hstart.symm.trans (takeWhile_append_of_head hname.2 (by simpa using hadh)))]
  · rename_i h
    have hne : r ≠ name := by
      rintro rfl
      rw [dropPrefix?_eq_some.2 rfl] at h
      cases h
    rw [if_neg hne]

/-- A name replaces the runs that are the name. -/
lemma runwise_occurrence (hname : IsName name) :
    Runwise (occurrence name lit) fun r => if r = name then some lit else none where
  nil before := by
    obtain ⟨hne, -⟩ := hname
    cases name with
    | nil => exact absurd rfl hne
    | cons d name => simp [occurrence, dropPrefix?]
  run _ hr hbefore hrest := by
    rw [occurrence_run hname hr hbefore hrest]
    split
    · rename_i heq
      rw [heq]
      rfl
    · rfl
  inside hb := by simp [occurrence, hb]
  single {before c rest} hc := by
    have hne : [c] ≠ name := by
      rintro rfl
      rw [hname.2 c (by simp)] at hc
      cases hc
    refine ⟨?_, if_neg hne⟩
    obtain ⟨hname, hadh⟩ := hname
    cases name with
    | nil => exact absurd rfl hname
    | cons d name =>
      have hdc : d ≠ c := by
        rintro rfl
        rw [hadh d (by simp)] at hc
        cases hc
      simp [occurrence, dropPrefix?, hdc]
end

variable {s : List Char} {n m : String} {v w : Float}

/-- No run is empty. -/
lemma nil_notMem_runs (s : List Char) : [] ∉ runs s := List.nil_notMem_splitBy glued s

/-- The characters of a run are glued to each other. -/
lemma isChain_of_mem_runs {s r : List Char} (h : r ∈ runs s) : r.IsChain fun a b => glued a b :=
  List.isChain_of_mem_splitBy h

/-- Neighbouring runs stand apart. -/
lemma isChain_runs (s : List Char) : (runs s).IsChain Apart := by
  refine (List.isChain_getLast_head_splitBy glued s).imp ?_
  rintro a b ⟨ha, hb, h⟩ x hx y hy
  rw [List.getLast?_eq_some_getLast ha] at hx
  rw [List.head?_eq_some_head hb] at hy
  cases hx
  cases hy
  exact h

/-- A rule for whole runs is applied to the runs of a text. -/
lemma replaceBy_eq {rule : Rule} {f : List Char → Option (List Char)} (h : Runwise rule f) :
    replaceBy rule s = (runs s).flatMap fun r => (f r).getD r := by
  have hflatten : replaceFrom rule 0 none (runs s).flatten = _ :=
    h.replaceFrom_flatten (nil_notMem_runs s) (fun r => isChain_of_mem_runs) (isChain_runs s)
      (.nil_left _)
  rwa [flatten_runs] at hflatten

/-- Substitution takes a text run by run. -/
theorem substitute_eq (hn : IsName n.toList) :
    substitute s n v = (runs s).flatMap fun r => if r = n.toList then literal v else r := by
  refine (replaceBy_eq (runwise_occurrence hn)).trans (List.flatMap_congr fun r _ => ?_)
  split <;> rfl

/-- A text that cannot be glued to anything. -/
structure Isolated (s : List Char) : Prop where
  nonempty : s ≠ []
  before : ∀ t, Apart t s
  behind : ∀ t, Apart s t

/-- The runs of a text in which whole runs were replaced by isolated texts. -/
lemma runs_flatMap {l : List (List Char)} {f : List Char → List Char} (hne : [] ∉ l)
    (hchain : ∀ r ∈ l, r.IsChain fun a b => glued a b) (hapart : l.IsChain Apart)
    (hf : ∀ r ∈ l, f r = r ∨ Isolated (f r)) :
    runs (l.flatMap f) = l.flatMap fun r => runs (f r) := by
  induction l with
  | nil => rfl
  | cons r l ih =>
    -- A run that stays is apart from its neighbours as before, and a replaced one from anything.
    have hrest : Apart (f r) (l.flatMap f) := by
      obtain hr | hr := hf r (by simp)
      · cases l with
        | nil => exact fun _ _ _ => nofun
        | cons t l =>
          obtain ht | ht := hf t (by simp)
          · rw [hr, List.flatMap_cons, ht]
            exact .append_right (fun h => hne (by simp [h])) hapart.rel
          · exact .append_right ht.nonempty (ht.before _)
      · exact hr.behind _
    rw [List.flatMap_cons, runs_append hrest, List.flatMap_cons,
      ih (fun h => hne (by simp [h])) (fun t ht => hchain t (by simp [ht])) hapart.tail
        fun t ht => hf t (by simp [ht])]

/-- The literal of a value stands alone. -/
lemma isolated_literal (v : Float) : Isolated (literal v) where
  nonempty := by simp [literal]
  before t x _ y hy := by
    cases hy
    simp [glued, show adheres '(' = false by decide]
  behind t x hx y _ := by
    have hlast : (literal v).getLast? = some ')' := by
      rw [literal, List.getLast?_concat]
    rw [hlast] at hx
    cases hx
    simp [glued, show adheres ')' = false by decide]

/-- The runs of a text after a substitution. -/
lemma runs_substitute (hn : IsName n.toList) :
    runs (substitute s n v) =
      (runs s).flatMap fun r => if r = n.toList then runs (literal v) else [r] := by
  rw [substitute_eq hn, runs_flatMap (nil_notMem_runs s) (fun r => isChain_of_mem_runs)
    (isChain_runs s)]
  · refine List.flatMap_congr fun r hr => ?_
    split
    · rfl
    · exact List.splitBy_of_isChain (List.ne_nil_of_mem_splitBy hr) (isChain_of_mem_runs hr)
  · intro r _
    split
    · exact .inr (isolated_literal v)
    · exact .inl rfl

/-- A substitution changes nothing where the name is not a run. -/
lemma substitute_of_not_mem (hn : IsName n.toList) (h : n.toList ∉ runs s) :
    substitute s n v = s := by
  have hid : ∀ r ∈ runs s, (if r = n.toList then literal v else r) = id r := by
    intro r hr
    rw [if_neg, id]
    rintro rfl
    exact h hr
  rw [substitute_eq hn, List.flatMap_congr hid, List.flatMap_id, flatten_runs]

/-- Two substitutions commute if neither name stands in the text of the other value. -/
theorem substitute_comm (hn : IsName n.toList) (hm : IsName m.toList) (hnm : n ≠ m)
    (hv : m.toList ∉ runs (literal v)) (hw : n.toList ∉ runs (literal w)) :
    substitute (substitute s n v) m w = substitute (substitute s m w) n v := by
  have hnm' : n.toList ≠ m.toList := fun h => hnm (String.toList_inj.1 h)
  have hkeepv := (substitute_eq (v := w) hm).symm.trans (substitute_of_not_mem hm hv)
  have hkeepw := (substitute_eq (v := v) hn).symm.trans (substitute_of_not_mem hn hw)
  -- In either order the text is taken run by run, and a run is one of the two names or neither.
  rw [substitute_eq hm, runs_substitute hn, substitute_eq hn, runs_substitute hm,
    List.flatMap_assoc, List.flatMap_assoc]
  refine List.flatMap_congr fun r _ => ?_
  by_cases hrn : r = n.toList
  · subst hrn
    simp [hnm', hkeepv]
  · by_cases hrm : r = m.toList
    · subst hrm
      simp [hnm'.symm, hkeepw]
    · simp [hrn, hrm]
end Formulary.Formula
