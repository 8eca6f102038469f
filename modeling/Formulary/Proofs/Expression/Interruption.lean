import Formulary.Expression.Eval
import Formulary.Proofs.Sequence

/-!
# Interrupted evaluations

Almost nothing interrupts the evaluation of an expression: operators, signs and calls make it
undefined at worst. `Expression.eval_interrupted` names what has to stand in the expression for each
of the three interruptions, and `Expression.name_mem_names` finds the name among its names.
-/

namespace Formulary

open Formulary.Number Formulary.Formula Formulary.Text

namespace Value

/-- An operation of numbers has a result or is undefined. -/
lemma ofScalar_ne_interrupted {r : Except Undefined Scalar} {i : Interruption} :
    ofScalar r ≠ .error (.interrupted i) := by
  cases r <;> simp [ofScalar]

/-- So is one of two values that have to be numbers. -/
lemma onScalars_ne_interrupted {f : Scalar → Scalar → Except Undefined Scalar} {v w : Value}
    {i : Interruption} : onScalars f v w ≠ .error (.interrupted i) := by
  unfold onScalars
  split
  · exact ofScalar_ne_interrupted
  · simp

/-- So is one of two values that have to be integers. -/
lemma onIntegers_ne_interrupted {f : Int → Int → Except Undefined Int} {v w : Value}
    {i : Interruption} : onIntegers f v w ≠ .error (.interrupted i) := by
  unfold onIntegers
  split
  · exact ofScalar_ne_interrupted
  · simp

/-- Whatever is added, the sum is there or undefined. -/
lemma add_ne_interrupted {v w : Value} {i : Interruption} :
    add v w ≠ .error (.interrupted i) := by
  unfold add
  split
  · simp
  · simp
  · simp
  · exact onScalars_ne_interrupted

/-- Copies of a row of elements are there unless they are too many. -/
lemma copies_ne_interrupted {α : Type} {n : Int} {es : List α} {i : Interruption} :
    copies n es ≠ .error (.interrupted i) := by
  unfold copies
  split <;> simp

/-- A text, a tuple or a list is there several times, or it is undefined. -/
lemma repeated_ne_interrupted {v w : Value} {i : Interruption} :
    repeated v w ≠ .error (.interrupted i) := by
  intro h
  unfold repeated at h
  split at h
  case h_4 => cases h
  all_goals
    obtain h | ⟨es, -, h⟩ := bind_eq_error.1 h
    · exact copies_ne_interrupted h
    · cases h

/-- Whatever is multiplied, the product is there or undefined. -/
lemma mul_ne_interrupted {v w : Value} {i : Interruption} :
    mul v w ≠ .error (.interrupted i) := by
  unfold mul
  split
  · exact repeated_ne_interrupted
  · split
    · exact repeated_ne_interrupted
    · exact onScalars_ne_interrupted

/-- Two numbers compare, or their order is undefined. -/
lemma orderedScalars_ne_interrupted {f : Ordering → Bool} {v w : Value} {i : Interruption} :
    orderedScalars f v w ≠ .error (.interrupted i) := by
  unfold orderedScalars
  split
  · split <;> simp
  · simp

/-- Two values compare or their order is undefined, and so do the elements of two rows. -/
lemma ordered_ne_interrupted (f : Ordering → Bool) (i : Interruption) :
    (∀ v w, ordered f v w ≠ .error (.interrupted i)) ∧
      ∀ vs ws, orderedAll f vs ws ≠ .error (.interrupted i) := by
  -- The cases of the comparison: two texts (1), tuples (2) and lists (3), which are compared row by
  -- row, other values (4), and rows of which one is at its end (5 to 7) or that begin with equal
  -- elements (8) or with others (9).
  apply ordered.mutual_induct
  case case2 | case3 =>
    intro es es' ih
    rwa [ordered]
  case case4 =>
    intro v w htext htuple hlist
    rw [ordered]
    · exact orderedScalars_ne_interrupted
    · exact htext
    · exact htuple
    · exact hlist
  case case8 =>
    intro v vs w ws heq ih
    rwa [orderedAll, if_pos heq]
  case case9 =>
    intro v vs w ws hne ih
    rwa [orderedAll, if_neg hne]
  all_goals
    intros
    simp [ordered, orderedAll]

/-- Whether a value is an element of another is known or undefined. -/
lemma isMember_ne_interrupted {v w : Value} {i : Interruption} :
    isMember v w ≠ .error (.interrupted i) := by
  unfold isMember
  split
  · simp
  · simp
  · split <;> simp
  · simp

/-- No binary operator interrupts an evaluation. -/
lemma binary_ne_interrupted {op : BinaryOp} {v w : Value} {i : Interruption} :
    binary op v w ≠ .error (.interrupted i) := by
  cases op with
  | add => exact add_ne_interrupted
  | mul => exact mul_ne_interrupted
  | sub | div | floorDiv | mod | pow => exact onScalars_ne_interrupted
  | bitAnd | bitOr | shiftLeft | shiftRight => exact onIntegers_ne_interrupted
  | lt | le | gt | ge =>
    exact (ordered_ne_interrupted _ i).1 v w
  | matMul | eq | ne | same | notSame | and | or => simp [binary]
  | member | notMember =>
    intro h
    obtain h | ⟨b, -, h⟩ := bind_eq_error.1 h
    · exact isMember_ne_interrupted h
    · cases h

/-- No unary operator interrupts an evaluation. -/
lemma unary_ne_interrupted {op : UnaryOp} {v : Value} {i : Interruption} :
    unary op v ≠ .error (.interrupted i) := by
  cases op with
  | plus | minus => exact ofScalar_ne_interrupted
  | invert =>
    simp only [unary]
    split <;> simp
  | not => simp [unary]

/-- No call interrupts an evaluation. -/
lemma call_ne_interrupted {f : Value} {vs : List Value} {i : Interruption} :
    f.call vs ≠ .error (.interrupted i) := by
  unfold call
  split
  · exact ofScalar_ne_interrupted
  · simp

/-- A part that is asked for is found or interrupts the evaluation as one that is not there. -/
lemma part_interrupted {v : Value} {s : String} {i : Interruption}
    (h : v.part s = .error (.interrupted i)) : i = .noPart := by
  unfold part at h
  split at h <;> simp_all

/-- An index interrupts an evaluation only by being out of range. -/
lemma index_interrupted {v w : Value} {i : Interruption}
    (h : v.index w = .error (.interrupted i)) : i = .outOfRange := by
  have element_interrupted {es : List Value} (h : element es w = .error (.interrupted i)) :
      i = .outOfRange := by
    unfold element at h
    split at h
    · cases h
    · simp only at h
      split at h <;> simp_all
  unfold index at h
  split at h
  · exact element_interrupted h
  · exact element_interrupted h
  · exact element_interrupted h
  · cases h

end Value

namespace Expression

mutual

/-- An expression and all that it is built from. -/
def subexpressions : Expression → List Expression
  | .unary op e => .unary op e :: e.subexpressions
  | .binary op a b => .binary op a b :: (a.subexpressions ++ b.subexpressions)
  | .conditional c a b =>
    .conditional c a b :: (c.subexpressions ++ a.subexpressions ++ b.subexpressions)
  | .call f args => .call f args :: (f.subexpressions ++ subexpressionsOfAll args)
  | .part e s => .part e s :: e.subexpressions
  | .index e i => .index e i :: (e.subexpressions ++ i.subexpressions)
  | .tuple es => .tuple es :: subexpressionsOfAll es
  | .list es => .list es :: subexpressionsOfAll es
  | e => [e]

/-- What the expressions of a list are built from. -/
def subexpressionsOfAll : List Expression → List Expression
  | [] => []
  | e :: es => e.subexpressions ++ subexpressionsOfAll es

end

/-- Whether an expression takes a part or an element of a value. -/
def isSelection : Expression → Bool
  | .part _ _ | .index _ _ => true
  | _ => false

/-- What has to occur in an expression for its evaluation to be interrupted. -/
def Cause (scope : Scope) (es : List Expression) : Interruption → Prop
  | .unbound n => .name n ∈ es ∧ scope.lookup n = none ∧ Value.builtin? n = none
  | .noPart => ∃ e s, .part e s ∈ es
  | .outOfRange => ∃ e i, .index e i ∈ es

/-- What interrupts some expressions interrupts more of them. -/
lemma Cause.mono {scope : Scope} {es es' : List Expression} {i : Interruption}
    (h : Cause scope es i) (hs : es ⊆ es') : Cause scope es' i := by
  cases i with
  | unbound n => exact ⟨hs h.1, h.2⟩
  | noPart =>
    obtain ⟨e, s, h⟩ := h
    exact ⟨e, s, hs h⟩
  | outOfRange =>
    obtain ⟨e, i, h⟩ := h
    exact ⟨e, i, hs h⟩

/-- An expression is built from itself. -/
lemma mem_subexpressions (e : Expression) : e ∈ e.subexpressions := by
  cases e <;> simp [subexpressions]

/-- That whatever interrupts a computation has its cause in some expressions. -/
def Traced {α : Type} (scope : Scope) (es : List Expression) (r : Except EvalError α) : Prop :=
  ∀ i, r = .error (.interrupted i) → Cause scope es i

section
variable {α β γ : Type} {scope : Scope} {es es' : List Expression} {r : Except EvalError α}

/-- A result that is traced to some expressions is traced to more of them. -/
lemma Traced.mono (h : Traced scope es r) (hs : es ⊆ es') : Traced scope es' r :=
  fun i hi => (h i hi).mono hs

/-- A result that is no interruption is traced to anything. -/
lemma Traced.of_ne (h : ∀ i, r ≠ .error (.interrupted i)) : Traced scope es r :=
  fun i hi => absurd hi (h i)

/-- A value is traced to anything. -/
lemma Traced.ok (a : α) : Traced scope es (.ok a) := .of_ne nofun

/-- Of two steps in a row, either one may be interrupted. -/
lemma Traced.bind {k : α → Except EvalError β} (hr : Traced scope es r) (hs : es ⊆ es')
    (hk : ∀ a, Traced scope es' (k a)) : Traced scope es' (r >>= k) := by
  intro i h
  obtain h | ⟨a, -, h⟩ := bind_eq_error.1 h
  · exact (hr i h).mono hs
  · exact hk a i h

/-- What is done with the results for two parts of an expression may be interrupted by either one. -/
lemma Traced.bind₂ {e : Expression} {s : Except EvalError β} {k : α → β → Except EvalError γ}
    (hr : Traced scope es r) (hs : Traced scope es' s)
    (hk : ∀ a b, Traced scope (e :: (es ++ es')) (k a b)) :
    Traced scope (e :: (es ++ es')) (r >>= fun a => s >>= k a) := by
  refine hr.bind ?_ fun a => hs.bind ?_ (hk a)
  · exact List.subset_cons_of_subset e (List.subset_append_left es es')
  · exact List.subset_cons_of_subset e (List.subset_append_right es es')

/-- A name interrupts an evaluation if it has no value. -/
lemma traced_lookup (n : String) : Traced scope [.name n] (lookup scope n) := by
  intro i h
  unfold lookup at h
  split at h
  · cases h
  · rename_i hs
    split at h
    · cases h
    · rename_i hb
      cases h
      exact ⟨List.mem_singleton.2 rfl, hs, hb⟩

/-- A part interrupts an evaluation if it is not there. -/
lemma traced_part {e : Expression} {s : String} (h : .part e s ∈ es) (v : Value) :
    Traced scope es (v.part s) := by
  intro i hi
  cases Value.part_interrupted hi
  exact ⟨e, s, h⟩

/-- An index interrupts an evaluation if it is out of range. -/
lemma traced_index {e k : Expression} (h : .index e k ∈ es) (v w : Value) :
    Traced scope es (v.index w) := by
  intro i hi
  cases Value.index_interrupted hi
  exact ⟨e, k, h⟩

end

/-- An evaluation is interrupted by a name without a value, by a part, or by an index. -/
theorem eval_interrupted (scope : Scope) :
    (∀ e, Traced scope e.subexpressions (eval scope e)) ∧
      ∀ es, Traced scope (subexpressionsOfAll es) (evalAll scope es) := by
  -- The cases of the evaluation: a name (8), operators and conditionals (9 to 13), a call, a part
  -- and an index (14 to 16), tuples and lists (17, 18), and several expressions (19, 20); the
  -- others are constants.
  apply eval.mutual_induct
  case case8 =>
    intro n
    rw [eval]
    exact traced_lookup n
  case case9 =>
    intro op e ih
    rw [eval]
    exact ih.bind (List.subset_cons_self _ _) fun v => .of_ne fun _ => Value.unary_ne_interrupted
  case case10 =>
    intro a b iha ihb
    rw [eval]
    refine iha.bind (fun x hx => ?_) fun v => ?_
    · simp [subexpressions, hx]
    · split
      · exact ihb.mono fun x hx => by simp [subexpressions, hx]
      · exact .ok v
  case case11 =>
    intro a b iha ihb
    rw [eval]
    refine iha.bind (fun x hx => ?_) fun v => ?_
    · simp [subexpressions, hx]
    · split
      · exact .ok v
      · exact ihb.mono fun x hx => by simp [subexpressions, hx]
  case case12 =>
    intro op a b hand hor iha ihb
    rw [eval]
    · exact iha.bind₂ ihb fun v w => .of_ne fun _ => Value.binary_ne_interrupted
    · exact hand
    · exact hor
  case case13 =>
    intro c a b ihc iha ihb
    rw [eval]
    refine ihc.bind (fun x hx => ?_) fun v => ?_
    · simp [subexpressions, hx]
    · split
      · exact iha.mono fun x hx => by simp [subexpressions, hx]
      · exact ihb.mono fun x hx => by simp [subexpressions, hx]
  case case14 =>
    intro f args ihf ihargs
    rw [eval]
    exact ihf.bind₂ ihargs fun v vs => .of_ne fun _ => Value.call_ne_interrupted
  case case15 =>
    intro e s ih
    rw [eval]
    exact ih.bind (List.subset_cons_self _ _) (traced_part (mem_subexpressions (.part e s)))
  case case16 =>
    intro e k ihe ihk
    rw [eval]
    exact ihe.bind₂ ihk (traced_index (mem_subexpressions (.index e k)))
  case case17 | case18 =>
    intro es ih
    rw [eval]
    exact ih.bind (List.subset_cons_self _ _) fun vs => .ok _
  case case19 => exact .ok []
  case case20 =>
    intro e es ihe ihes
    rw [evalAll]
    refine ihe.bind (List.subset_append_left _ _) fun v => ?_
    exact ihes.bind (List.subset_append_right _ _) fun vs => .ok _
  all_goals
    intros
    rw [eval]
    exact .ok _

mutual

/-- A name that stands in an expression is one of its names. -/
lemma name_mem_names (n : String) :
    (e : Expression) → .name n ∈ e.subexpressions → n ∈ e.names
  | .name s, h => by simpa [subexpressions, names] using h
  | .unary _ e, h => by
    have ih := name_mem_names n e
    simp_all [subexpressions, names]
  | .binary _ a b, h => by
    have iha := name_mem_names n a
    have ihb := name_mem_names n b
    simp only [subexpressions, names, List.mem_cons, List.mem_append] at h ⊢
    tauto
  | .conditional c a b, h => by
    have ihc := name_mem_names n c
    have iha := name_mem_names n a
    have ihb := name_mem_names n b
    simp only [subexpressions, names, List.mem_cons, List.mem_append] at h ⊢
    tauto
  | .call f args, h => by
    have ihf := name_mem_names n f
    have ih := name_mem_namesOfAll n args
    simp only [subexpressions, names, List.mem_cons, List.mem_append] at h ⊢
    tauto
  | .part e s, h => by
    have ih := name_mem_names n e
    simp only [subexpressions, names, List.mem_cons, List.mem_append] at h ⊢
    tauto
  | .index e i, h => by
    have ihe := name_mem_names n e
    have ihi := name_mem_names n i
    simp only [subexpressions, names, List.mem_cons, List.mem_append] at h ⊢
    tauto
  | .tuple es, h | .list es, h => by
    have ih := name_mem_namesOfAll n es
    simp_all [subexpressions, names]
  | .integer _, h | .decimal _ _, h | .imaginary _ _, h | .text _, h | .truth _, h | .nothing, h
  | .ellipsis, h => by simp [subexpressions] at h

/-- The same for the expressions of a list. -/
lemma name_mem_namesOfAll (n : String) :
    (es : List Expression) → .name n ∈ subexpressionsOfAll es → n ∈ namesOfAll es
  | [], h => by simp [subexpressionsOfAll] at h
  | e :: es, h => by
    have ihe := name_mem_names n e
    have ihes := name_mem_namesOfAll n es
    simp only [subexpressionsOfAll, namesOfAll, List.mem_append] at h ⊢
    tauto

end

/-- The free names are those without a built-in value. -/
lemma mem_freeNames {e : Expression} {n : String} :
    n ∈ e.freeNames ↔ n ∈ e.names ∧ Value.builtin? n = none := by
  simp [freeNames]

end Expression
end Formulary
