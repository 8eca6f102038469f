import Mathlib
import Formulary.Expression.Eval

/-!
# Deciding whether two expressions are the same

`Expression.same` compares two syntax trees constructor by constructor; it makes equality of
expressions decidable, so that what a text is read as can be computed in a proof.
-/

namespace Formulary.Expression

mutual

/-- Whether two expressions are the same. -/
def same : Expression → Expression → Bool
  | .integer m, .integer n => m == n
  | .decimal m i, .decimal n j => m == n && i == j
  | .imaginary m i, .imaginary n j => m == n && i == j
  | .text s, .text t => s == t
  | .truth b, .truth c => b == c
  | .nothing, .nothing => true
  | .ellipsis, .ellipsis => true
  | .name s, .name t => s == t
  | .unary op e, .unary op' e' => op == op' && e.same e'
  | .binary op a b, .binary op' a' b' => op == op' && a.same a' && b.same b'
  | .conditional c a b, .conditional c' a' b' => c.same c' && a.same a' && b.same b'
  | .call f args, .call f' args' => f.same f' && sameAll args args'
  | .part e s, .part e' s' => e.same e' && s == s'
  | .index e i, .index e' i' => e.same e' && i.same i'
  | .tuple es, .tuple es' => sameAll es es'
  | .list es, .list es' => sameAll es es'
  | _, _ => false

/-- Whether two lists of expressions are the same. -/
def sameAll : List Expression → List Expression → Bool
  | [], [] => true
  | e :: es, e' :: es' => e.same e' && sameAll es es'
  | _, _ => false

end

mutual

/-- An expression is the same as itself. -/
lemma same_refl : (e : Expression) → e.same e
  | .integer _ | .decimal _ _ | .imaginary _ _ | .text _ | .truth _ | .nothing | .ellipsis
  | .name _ => by simp [same]
  | .unary _ e => by simp [same, same_refl e]
  | .binary _ a b => by simp [same, same_refl a, same_refl b]
  | .conditional c a b => by simp [same, same_refl c, same_refl a, same_refl b]
  | .call f args => by simp [same, same_refl f, sameAll_refl args]
  | .part e _ => by simp [same, same_refl e]
  | .index e i => by simp [same, same_refl e, same_refl i]
  | .tuple es | .list es => by simp [same, sameAll_refl es]

/-- Expressions are the same as themselves, one by one. -/
lemma sameAll_refl : (es : List Expression) → sameAll es es
  | [] => rfl
  | e :: es => by simp [sameAll, same_refl e, sameAll_refl es]

end

mutual

/-- Expressions that are the same are equal. -/
lemma eq_of_same : (e e' : Expression) → e.same e' → e = e'
  | .unary _ e, e', h => by
    cases e' <;> simp only [same, Bool.and_eq_true, beq_iff_eq, Bool.false_eq_true] at h
    rw [h.1, eq_of_same _ _ h.2]
  | .binary _ a b, e', h => by
    cases e' <;> simp only [same, Bool.and_eq_true, beq_iff_eq, Bool.false_eq_true] at h
    rw [h.1.1, eq_of_same _ _ h.1.2, eq_of_same _ _ h.2]
  | .conditional c a b, e', h => by
    cases e' <;> simp only [same, Bool.and_eq_true, Bool.false_eq_true] at h
    rw [eq_of_same _ _ h.1.1, eq_of_same _ _ h.1.2, eq_of_same _ _ h.2]
  | .call f args, e', h => by
    cases e' <;> simp only [same, Bool.and_eq_true, Bool.false_eq_true] at h
    rw [eq_of_same _ _ h.1, eq_of_sameAll _ _ h.2]
  | .part e s, e', h => by
    cases e' <;> simp only [same, Bool.and_eq_true, beq_iff_eq, Bool.false_eq_true] at h
    rw [eq_of_same _ _ h.1, h.2]
  | .index e i, e', h => by
    cases e' <;> simp only [same, Bool.and_eq_true, Bool.false_eq_true] at h
    rw [eq_of_same _ _ h.1, eq_of_same _ _ h.2]
  | .tuple es, e', h | .list es, e', h => by
    cases e' <;> simp only [same, Bool.false_eq_true] at h
    rw [eq_of_sameAll _ _ h]
  | .integer _, e', h | .decimal _ _, e', h | .imaginary _ _, e', h | .text _, e', h
  | .truth _, e', h | .nothing, e', h | .ellipsis, e', h | .name _, e', h => by
    cases e' <;> simp_all [same]

/-- Expressions that are the same one by one are equal. -/
lemma eq_of_sameAll : (es es' : List Expression) → sameAll es es' → es = es'
  | [], [], _ => rfl
  | [], _ :: _, h | _ :: _, [], h => by simp [sameAll] at h
  | e :: es, e' :: es', h => by
    simp only [sameAll, Bool.and_eq_true] at h
    rw [eq_of_same _ _ h.1, eq_of_sameAll _ _ h.2]

end

/-- Expressions can be compared. -/
instance : DecidableEq Expression := fun e e' =>
  if h : e.same e' then .isTrue (eq_of_same e e' h)
  else .isFalse fun he => h (he ▸ same_refl e)

end Formulary.Expression
