import Formulary.Proofs.Formula.Substitution
import Formulary.Proofs.Number.Finite

/-!
# Values written into a formula

The text of a finite value is numeric: each of its runs of adhering characters begins with a digit
(`isNumeric_text`). No symbol does, so that no later substitution changes a value that is written
into a formula already (`symbol_notMem_literal`).
-/

namespace Formulary.Formula

open Formulary.Text Formulary.Number

/-- Whether a character adheres behind a text, given whether one does before it. -/
def adheresAfter (before : Bool) : List Char → Bool
  | [] => before
  | c :: rest => adheresAfter (adheres c) rest

/--
Whether each run of adhering characters begins with a digit, given whether the text continues one.
-/
def isNumeric (inside : Bool) : List Char → Bool
  | [] => true
  | c :: rest => (inside || !adheres c || isDigit c) && isNumeric (adheres c) rest

/-- A text is numeric if its parts are, the second one behind the first one. -/
lemma isNumeric_append {inside : Bool} {s t : List Char} :
    isNumeric inside (s ++ t) = (isNumeric inside s && isNumeric (adheresAfter inside s) t) := by
  induction s generalizing inside with
  | nil => simp [isNumeric, adheresAfter]
  | cons c s ih => simp [isNumeric, adheresAfter, ih, Bool.and_assoc]

/-- A digit of ASCII. -/
lemma isDigit_of_char {c : Char} (h : c.isDigit) : isDigit c ∧ adheres c := by
  obtain ⟨h1, h2⟩ : 48 ≤ c.toNat ∧ c.toNat ≤ 57 := by
    simp only [Char.isDigit, Bool.and_eq_true, decide_eq_true_eq] at h
    exact ⟨h.1, h.2⟩
  have hd : isDigit c := by
    have : 48 ≤ c.toNat ∧ c.toNat < 48 + 10 := by omega
    simp [isDigit, digitValue?, digitZeros, this]
  have hw : isWord c := by
    have hmem : isWord c = (if c.toNat < 48 then false else
        decide (c.toNat ≤ 57) || CodePoints.mem c.toNat words.tail) := rfl
    rw [hmem, if_neg (Nat.not_lt.2 h1), decide_eq_true h2, Bool.true_or]
  exact ⟨hd, by simp [adheres, hw]⟩

/-- Digits are numeric. -/
lemma isNumeric_of_digits {inside : Bool} {s : List Char} (h : ∀ c ∈ s, c.isDigit) :
    isNumeric inside s := by
  induction s generalizing inside with
  | nil => rfl
  | cons c s ih =>
    have hc := isDigit_of_char (h c (by simp))
    simp [isNumeric, hc.1, ih fun d hd => h d (by simp [hd])]

/-- Whether a character adheres behind a text depends on the last character of the text. -/
lemma adheresAfter_eq {inside : Bool} {s : List Char} (hs : s ≠ []) :
    adheresAfter inside s = adheres (s.getLast hs) := by
  induction s generalizing inside with
  | nil => exact absurd rfl hs
  | cons c s ih =>
    cases s with
    | nil => rfl
    | cons d s => exact @ih (adheres c) (List.cons_ne_nil d s)

/-- A character adheres behind digits. -/
lemma adheresAfter_of_digits {inside : Bool} {s : List Char} (hs : s ≠ [])
    (h : ∀ c ∈ s, c.isDigit) : adheresAfter inside s := by
  rw [adheresAfter_eq hs]
  exact (isDigit_of_char (h _ (List.getLast_mem hs))).2

/-- The digits of a number are digits. -/
lemma isDigit_of_mem_digits {n : Nat} : ∀ c ∈ digits n, c.isDigit :=
  fun _ hc => Nat.isDigit_of_mem_toDigits (by decide) (by decide) hc

/-- The digits of a number with zeros in front are digits. -/
lemma isDigit_of_mem_paddedDigits {w n : Nat} : ∀ c ∈ paddedDigits w n, c.isDigit := by
  intro c hc
  simp only [paddedDigits, List.mem_append, List.mem_replicate] at hc
  obtain ⟨-, rfl⟩ | hc := hc
  · decide
  · exact isDigit_of_mem_digits c hc

/-- Behind a digit an exponent continues the numeral. -/
lemma isNumeric_exponentText {e : Int} : isNumeric true (exponentText e) := by
  have h : isNumeric false (paddedDigits 2 e.natAbs) :=
    isNumeric_of_digits isDigit_of_mem_paddedDigits
  have hm : adheres '-' = false := by decide
  have hp : adheres '+' = false := by decide
  simp only [exponentText, isNumeric, Bool.true_or, Bool.true_and]
  split
  · simp [hm, h]
  · simp [hp, h]

/-- Digits with a point behind them may stand in front of a numeric text. -/
lemma isNumeric_point {s t : List Char} (hs : ∀ c ∈ s, c.isDigit) (ht : isNumeric false t) :
    isNumeric false (s ++ '.' :: t) := by
  have hp : adheres '.' = false := by decide
  rw [isNumeric_append, isNumeric_of_digits hs]
  simp [isNumeric, hp, ht]

/-- A number in positional form is numeric. -/
lemma isNumeric_positional {n : Nat} {e : Int} : isNumeric false (positional n e) := by
  unfold positional
  split
  · refine isNumeric_point (fun c hc => ?_) (by decide)
    obtain hc | hc := List.mem_append.1 hc
    · exact isDigit_of_mem_digits c hc
    · rw [List.eq_of_mem_replicate hc]
      rfl
  · refine isNumeric_point (fun c hc => ?_) (isNumeric_of_digits fun c hc => ?_)
    · exact isDigit_of_mem_paddedDigits c (List.mem_of_mem_take hc)
    · exact isDigit_of_mem_paddedDigits c (List.mem_of_mem_drop hc)

/-- A number in exponential form is numeric. -/
lemma isNumeric_exponential {n : Nat} {e : Int} : isNumeric false (exponential n e) := by
  have hd := isDigit_of_mem_digits (n := n)
  unfold exponential
  split
  · rfl
  · rename_i d h
    have hc := isDigit_of_char (hd d (by simp [h]))
    simp [isNumeric, hc.1, hc.2, isNumeric_exponentText]
  · rename_i d ds hds h
    rw [h] at hd
    have hds' : ∀ c ∈ ds, c.isDigit := fun c hc => hd c (by simp [hc])
    refine isNumeric_point (s := [d]) (t := ds ++ _) (fun c hc => hd c (by simp_all)) ?_
    rw [isNumeric_append, isNumeric_of_digits hds', adheresAfter_of_digits (fun h => hds (by simp_all)) hds',
      isNumeric_exponentText]
    rfl

/-- The text of a decimal number is numeric. -/
lemma isNumeric_text {form : ShortestForm} {d : Decimal} : isNumeric false (d.text form) := by
  have hm : adheres '-' = false := by decide
  simp only [Decimal.text]
  have hbody : isNumeric false (if d.coefficient = 0 then ['0', '.', '0']
      else if form.leastPositional ≤ d.exponent + (digits d.coefficient).length - 1 ∧
        d.exponent + (digits d.coefficient).length - 1 ≤ form.greatestPositional then
      positional d.coefficient d.exponent
    else exponential d.coefficient d.exponent) := by
    split
    · decide
    · split
      · exact isNumeric_positional
      · exact isNumeric_exponential
  split
  · simp only [isNumeric, hm, Bool.not_false, Bool.or_true, Bool.true_or, Bool.true_and]
    exact hbody
  · exact hbody

/-- The literal of a finite double is numeric. -/
lemma isNumeric_literal {v : Float} {negative : Bool} {m : Nat} {e : Int}
    (hv : Double.ofFloat v = .finite negative m e) : isNumeric false (literal v) := by
  have ho : adheres '(' = false := by decide
  have hc : adheres ')' = false := by decide
  have htext : isNumeric false (shortestText v).toList := by
    simp only [shortestText, hv, String.toList_ofList]
    exact isNumeric_text
  simp [literal, isNumeric, ho, isNumeric_append, htext, hc]

/-- In a numeric text every run that adheres begins with a digit. -/
lemma isDigit_of_mem_runs {l : List (List Char)} {inside : Bool} (hne : [] ∉ l)
    (hapart : l.IsChain Apart) (hinside : inside → l.flatten.head?.any adheres = false)
    (h : isNumeric inside l.flatten) {c : Char} {r : List Char} (hr : c :: r ∈ l)
    (hc : adheres c) : isDigit c := by
  induction l generalizing inside with
  | nil => cases hr
  | cons t l ih =>
    simp only [List.mem_cons, not_or] at hne
    cases t with
    | nil => exact absurd rfl hne.1
    | cons d t =>
      rw [List.flatten_cons, isNumeric_append, Bool.and_eq_true] at h
      obtain hr | hr := List.mem_cons.1 hr
      · cases hr
        have hfalse : inside = false := by
          cases inside with
          | false => rfl
          | true =>
            have := hinside rfl
            simp [hc] at this
        have h1 := h.1
        simp only [isNumeric, hfalse, hc, Bool.not_true, Bool.false_or, Bool.and_eq_true] at h1
        exact h1.1
      · refine ih hne.2 hapart.tail (fun hin => ?_) h.2 hr
        have hlast := List.getLast?_eq_some_getLast (List.cons_ne_nil d t)
        refine not_adheres_of_apart (.flatten hne.2 hapart) hlast ?_
        rwa [adheresAfter_eq (List.cons_ne_nil d t)] at hin

/-- A symbol stands in no numeric text. -/
lemma symbol_notMem_runs {s m : List Char} (hs : isNumeric false s) (hm : isSymbol m) :
    m ∉ runs s := by
  intro h
  cases m with
  | nil => cases hm
  | cons c m =>
    simp only [isSymbol, isWordStart, Bool.and_eq_true, Bool.not_eq_true'] at hm
    have hs : isNumeric false (runs s).flatten := by rwa [flatten_runs]
    have hd := isDigit_of_mem_runs (nil_notMem_runs s) (isChain_runs s) (by simp) hs h
      (by simp [adheres, hm.1.1])
    rw [hm.1.2] at hd
    cases hd

/-- No symbol stands in a value, apart from those of three letters if the value is not finite. -/
theorem symbol_notMem_literal {v : Float} {m : List Char} (hm : isSymbol m)
    (h : v.isFinite ∨ 3 < m.length) : m ∉ runs (literal v) := by
  cases hv : Double.ofFloat v with
  | finite negative a e => exact symbol_notMem_runs (isNumeric_literal hv) hm
  | infinite negative | nan =>
    have hlen : 3 < m.length := by
      refine h.resolve_left fun hfin => ?_
      obtain ⟨_, _, _, hfin⟩ := ofFloat_of_isFinite hfin
      rw [hv] at hfin
      cases hfin
    have hshort : ∀ r ∈ runs (literal v), r.length ≤ 3 := by
      simp only [literal, shortestText, hv, String.toList_ofList]
      first | decide | (cases negative <;> decide)
    exact fun hmem => absurd (hshort m hmem) (Nat.not_le.2 hlen)

end Formulary.Formula
