import Formulary.Proofs.Display.Order
import Formulary.Proofs.Formula.Value
import Formulary.Proofs.Lookup
import Formulary.Proofs.Number.Conversion

/-!
# Displaying what was displayed

The text of a value is read as a double again, which is displayed with the same text if and only if it
lies in the regime of the value (`displayText_redisplayed`). All texts but six are kept (`crossings`).
With these the digits are rounded up to a magnitude where another form begins, or past the greatest
double, and what they become is kept (`displayText_settles`). Elsewhere the double that is read is so
close to the number that is shown that it is rounded to the same digits.
-/

namespace Formulary

open Formulary.Number Formulary.Formula

/-- The magnitudes that are displayed in one way. -/
inductive Regime where
  | zero
  | small
  | fixed
  | large
  deriving DecidableEq, Repr

/-- The regime that a value lies in. -/
def regime (v : ℚ) : Regime :=
  if |v| < zeroBelow then .zero
  else if |v| < fixedFrom then .small
  else if |v| < fixedBelow then .fixed
  else .large

/-- The texts that are not kept when they are read and displayed again, and what they become. -/
def crossings : List (String × String) :=
  [("1.00e-03", "0.001"), ("-1.00e-03", "-0.001"), ("10000", "1.00e+04"), ("-10000", "-1.00e+04"),
    ("1.80e+308", "inf"), ("-1.80e+308", "-inf")]

/-- What the text of a value becomes when it is read and displayed again. -/
def redisplayed (t : String) : String := (crossings.lookup t).getD t

/-- A text from a regime is kept if and only if it is read as a double in that regime. -/
def Redisplays (t : String) (r : Regime) : Prop :=
  ∃ y, readFloat? t = some y ∧ displayText true y = redisplayed t ∧
    (redisplayed t = t ↔ (exactValue? y).map regime = some r)

instance (t : String) (r : Regime) : Decidable (Redisplays t r) :=
  decidable_of_iff ((readFloat? t).any fun y => displayText true y = redisplayed t ∧
    (redisplayed t = t ↔ (exactValue? y).map regime = some r)) (by
      rw [Option.any_eq_true]
      simp only [decide_eq_true_eq, Redisplays])

variable {negative : Bool} {s : List Char} {t : String} {r : Regime} {m n a : ℕ} {q e k : ℤ} {v : ℚ}
  {y : Float}

/-! ### Regimes -/

/-- The regime does not depend on the sign. -/
lemma regime_signed : regime (signed negative v) = regime v := by
  simp only [regime, abs_signed]

/-- The magnitude where zero ends, as a fraction. -/
lemma zeroBelow_eq_div : zeroBelow = 0x10624DD2F1A9FC / 2 ^ 63 := by
  rw [zeroBelow, Rat.mkRat_eq_div]
  norm_num

/-- The magnitude where fixed form begins, as a fraction. -/
lemma fixedFrom_eq_div : fixedFrom = 0x10624DD2F1A9FC / 2 ^ 62 := by
  rw [fixedFrom, Rat.mkRat_eq_div]
  norm_num

/-- Zero ends below the fixed forms. -/
lemma zeroBelow_lt : zeroBelow < fixedFrom := by
  rw [zeroBelow_eq_div, fixedFrom_eq_div]
  norm_num

/-- The fixed forms begin below where they end. -/
lemma fixedFrom_lt : fixedFrom < fixedBelow := by
  rw [fixedFrom_eq_div, fixedBelow]
  norm_num

/-- The small magnitudes are those between zero and the fixed forms. -/
lemma regime_eq_small (hv : 0 ≤ v) : regime v = .small ↔ zeroBelow ≤ v ∧ v < fixedFrom := by
  have := zeroBelow_lt
  rw [regime, abs_of_nonneg hv]
  grind

/-- The fixed magnitudes are those between their two bounds. -/
lemma regime_eq_fixed (hv : 0 ≤ v) : regime v = .fixed ↔ fixedFrom ≤ v ∧ v < fixedBelow := by
  have := zeroBelow_lt
  rw [regime, abs_of_nonneg hv]
  grind

/-- The large magnitudes are those from the end of the fixed forms on. -/
lemma regime_eq_large (hv : 0 ≤ v) : regime v = .large ↔ fixedBelow ≤ v := by
  have := zeroBelow_lt
  have := fixedFrom_lt
  rw [regime, abs_of_nonneg hv]
  grind

/-- Where the numbers with three digits pass the greatest double. -/
lemma overflow_bounds : (10000 : ℚ) < 2 ^ 1024 - 2 ^ 970 ∧ (179 : ℚ) * 10 ^ 306 < 2 ^ 1024 - 2 ^ 970 ∧
    (10 : ℚ) ^ (308 : ℤ) ≤ 179 * 10 ^ 306 ∧ (180 : ℚ) * 10 ^ 306 < 10 ^ (308 + 1 : ℤ) := by
  decide +kernel

/-- How a value is shown depends on its regime. -/
lemma Shown.of_regime (negative : Bool) (m : ℕ) (q : ℤ) : Shown.of true negative m q =
    match regime (Double.magnitude m q) with
    | .zero => .zero
    | .fixed => .fixed negative (fixedUnits fixedPlaces m q)
    | _ => .scientific negative (scientificUnits scientificPlaces m q).1
        (scientificUnits scientificPlaces m q).2 := by
  have hnonneg : 0 ≤ Double.magnitude m q := magnitude_nonneg
  have hsmall := zeroBelow_lt
  have hzero : m = 0 → Double.magnitude m q < zeroBelow := fun hm =>
    (magnitude_eq_zero.2 hm).trans_lt zeroBelow_pos
  rw [of_eq, regime, abs_of_nonneg hnonneg]
  grind

/-! ### Reading a text -/

/-- The fixed form is written with the characters of magnitudes. -/
lemma Number.IsFixedForm.chars {places : ℕ} (h : IsFixedForm places s) :
    ∀ c ∈ s, isMagnitudeChar c := by
  intro c hc
  cases h with
  | whole _ hds => exact isMagnitudeChar_of_isDigit (hds c hc)
  | places _ hds hes =>
    obtain hc | hc := List.mem_append.1 hc
    · exact isMagnitudeChar_of_isDigit (hds c hc)
    · obtain rfl | hc := List.mem_cons.1 hc
      · decide
      · exact isMagnitudeChar_of_isDigit (hes c hc)

/-- The scientific form is written with the characters of magnitudes. -/
lemma Number.IsScientificForm.chars {places : ℕ} (h : IsScientificForm places s) :
    ∀ c ∈ s, isMagnitudeChar c := by
  intro c hc
  cases h with
  | of hd _ hds _ hsign hes =>
    simp only [List.cons_append, List.mem_cons, List.mem_append] at hc
    obtain rfl | rfl | hc | rfl | rfl | hc := hc
    · exact isMagnitudeChar_of_isDigit hd
    · decide
    · exact isMagnitudeChar_of_isDigit (hds c hc)
    · decide
    · obtain rfl | rfl := hsign <;> decide
    · exact isMagnitudeChar_of_isDigit (hes c hc)

/-- The text of a number in range is read as a double that is close to the number. -/
lemma exists_read (hchars : ∀ c ∈ s, isMagnitudeChar c) (hs : ∃ d t, s = d :: t ∧ d.isDigit)
    (hread : takeDecimal? s = some (a, e, [])) (hrange : InRange (a * 10 ^ e)) (negative : Bool) :
    ∃ y m q, readFloat? (String.ofList (withMinus negative s)) = some y ∧
      Double.ofFloat y = .finite negative m q ∧
        |Double.magnitude m q - a * 10 ^ e| ≤ a * 10 ^ e / 2 ^ 53 := by
  obtain ⟨m, q, hfinite, hnear⟩ := ofFloat_toFloat (d := ⟨negative, a, e⟩) hrange
  exact ⟨_, m, q, (readFloat?_withMinus hchars hs).2 ⟨a, e, hread, rfl⟩, hfinite, hnear⟩

/-! ### Texts that are kept -/

/-- A text is kept, or it is one of the six that are not. -/
lemma redisplayed_cases (t : String) : redisplayed t = t ∨ (t, redisplayed t) ∈ crossings := by
  rw [redisplayed]
  cases hlookup : crossings.lookup t with
  | none => exact .inl rfl
  | some u => exact .inr (mem_of_lookup hlookup)

/-- The texts that are not kept become others, which are kept. -/
lemma crossings_spec : ∀ p ∈ crossings, (readFloat? p.1).map (displayText true) = some p.2 ∧
    p.2 ≠ p.1 ∧ (readFloat? p.2).map (displayText true) = some p.2 := by
  decide +kernel

/-- A text that is displayed again is none of those that are not kept. -/
lemma redisplayed_eq_self (hread : readFloat? t = some y) (htext : displayText true y = t) :
    redisplayed t = t := by
  refine (redisplayed_cases t).resolve_right fun hmem => ?_
  obtain ⟨hbecomes, hne, -⟩ := crossings_spec _ hmem
  rw [hread, Option.map_some, htext, Option.some.injEq] at hbecomes
  exact hne hbecomes.symm

/-- A text is kept if it is read as a value of the regime that is shown in the same way. -/
lemma Redisplays.of_shown (hread : readFloat? t = some y)
    (hfinite : Double.ofFloat y = .finite negative m q)
    (hshown : t = String.ofList (Shown.of true negative m q).text)
    (hregime : regime (Double.magnitude m q) = r) : Redisplays t r := by
  have htext : displayText true y = t := by rw [hshown, displayText, hfinite]
  have hkept := redisplayed_eq_self hread htext
  refine ⟨y, hread, htext.trans hkept.symm, fun _ => ?_, fun _ => hkept⟩
  rw [exactValue?_of_finite hfinite, Option.map_some, regime_signed, hregime]

/-- That all numbers as close to one as the double that is read lie in a regime. -/
def Surrounds (r : Regime) (v : ℚ) : Prop := ∀ w, |w - v| ≤ v / 2 ^ 53 → regime w = r

/-- All numbers close to one that is well within the small ones are small. -/
lemma surrounds_small (hlow : 501 / 10 ^ 6 ≤ v) (hhigh : v ≤ 999 / 10 ^ 6) : Surrounds .small v := by
  intro w hw
  have hbelow : zeroBelow ≤ 5005 / 10 ^ 7 := by
    rw [zeroBelow_eq_div]
    norm_num
  have habove : 9995 / 10 ^ 7 ≤ fixedFrom := by
    rw [fixedFrom_eq_div]
    norm_num
  obtain ⟨hw, hw'⟩ := abs_le.1 hw
  exact (regime_eq_small (by linarith)).2 ⟨by linarith, by linarith⟩

/-- All numbers close to one that is well within the fixed ones are fixed. -/
lemma surrounds_fixed (hlow : 101 / 10 ^ 5 ≤ v) (hhigh : v ≤ 999999999 / 10 ^ 5) :
    Surrounds .fixed v := by
  intro w hw
  have hbelow : fixedFrom ≤ 1005 / 10 ^ 6 := by
    rw [fixedFrom_eq_div]
    norm_num
  have habove : fixedBelow = 10000 := rfl
  obtain ⟨hw, hw'⟩ := abs_le.1 hw
  exact (regime_eq_fixed (by linarith)).2 ⟨by linarith, by linarith⟩

/-- All numbers close to one that is well within the large ones are large. -/
lemma surrounds_large (hlow : 10100 ≤ v) : Surrounds .large v := by
  intro w hw
  have hbelow : fixedBelow = 10000 := rfl
  obtain ⟨hw, -⟩ := abs_le.1 hw
  exact (regime_eq_large (by linarith)).2 (by linarith)

/-- A minus sign in front of a text. -/
lemma append_eq_withMinus (negative : Bool) (s : List Char) :
    (if negative then ['-'] else []) ++ s = withMinus negative s := by
  cases negative <;> rfl

/-- The text of what is shown in fixed form. -/
lemma text_fixed_eq : (Shown.fixed negative n).text =
    withMinus negative (Shown.dropTrailing (fixedText Shown.fixedPlaces n)) :=
  append_eq_withMinus negative _

/-- The text of what is shown in scientific form. -/
lemma text_scientific_eq : (Shown.scientific negative n k).text =
    withMinus negative (scientificText Shown.scientificPlaces n k) :=
  append_eq_withMinus negative _

/-- In fixed form a text is kept if it denotes a number that is well within its regime. -/
lemma redisplays_fixed (hn : n ≤ 10 ^ 9) (hrange : InRange (n / 10 ^ 5))
    (h : Surrounds .fixed (n / 10 ^ 5)) (negative : Bool) :
    Redisplays (String.ofList (Shown.fixed negative n).text) .fixed := by
  obtain ⟨hform, a, e, hread, hvalue⟩ := Shown.isFixedForm_dropTrailing Shown.fixedPlaces n
  have hvalue : (a * 10 ^ e : ℚ) = n / 10 ^ 5 := hvalue
  obtain ⟨y, m, q, hy, hfinite, hnear⟩ :=
    exists_read hform.chars hform.begins hread (hvalue ▸ hrange) negative
  rw [hvalue] at hnear
  have hregime := h _ hnear
  have hunits : fixedUnits Shown.fixedPlaces m q = n := by
    have hn : (n : ℚ) ≤ 10 ^ 9 := by exact_mod_cast hn
    obtain ⟨hbelow, habove⟩ := abs_le.1 hnear
    refine fixedUnits_eq (abs_lt.2 ?_)
    rw [Shown.fixedPlaces]
    constructor <;> linarith
  refine .of_shown (text_fixed_eq ▸ hy) hfinite ?_ hregime
  rw [Shown.of_regime, hregime, ← hunits]

/-- In scientific form likewise. -/
lemma redisplays_scientific (hlow : 100 ≤ n) (hhigh : n < 1000) (hrange : InRange (n * 10 ^ (k - 2)))
    (h : Surrounds r (n * 10 ^ (k - 2))) (hr : r = .small ∨ r = .large) (negative : Bool) :
    Redisplays (String.ofList (Shown.scientific negative n k).text) r := by
  have hlow' : 10 ^ Shown.scientificPlaces ≤ n := hlow
  obtain ⟨hform, hread⟩ := Shown.isScientificForm_scientificText hlow' hhigh k
  obtain ⟨y, m, q, hy, hfinite, hnear⟩ := exists_read hform.chars hform.begins hread hrange negative
  have hregime := h _ hnear
  have hunits : scientificUnits Shown.scientificPlaces m q = (n, k) := by
    have hunit : (0 : ℚ) < 10 ^ (k - 2) := zpow_pos (by norm_num) _
    have hn : (n * 10 ^ (k - 2) : ℚ) ≤ 1000 * 10 ^ (k - 2) := by
      gcongr
      exact_mod_cast hhigh.le
    refine scientificUnits_eq hlow hhigh (hnear.trans_lt ?_)
    show n * 10 ^ (k - 2) / 2 ^ 53 < (10 : ℚ) ^ (k - 2) / 20
    linarith
  refine .of_shown (text_scientific_eq ▸ hy) hfinite ?_ hregime
  rw [Shown.of_regime, hregime, hunits]
  obtain rfl | rfl := hr <;> rfl

/-! ### The digits of a regime -/

/-- Three digits denote a number between two powers of ten. -/
lemma digits_bounds (hlow : 100 ≤ n) (hhigh : n < 1000) (k : ℤ) :
    (10 : ℚ) ^ k ≤ n * 10 ^ (k - 2) ∧ (n * 10 ^ (k - 2) : ℚ) < 10 ^ (k + 1) := by
  have hlow : (100 : ℚ) ≤ n := by exact_mod_cast hlow
  have hhigh : (n : ℚ) < 1000 := by exact_mod_cast hhigh
  have hunit : (0 : ℚ) < 10 ^ (k - 2) := zpow_pos (by norm_num) _
  have hpower : (10 : ℚ) ^ k = 100 * 10 ^ (k - 2) := by
    rw [zpow_sub₀ (by norm_num)]
    norm_num
    ring
  rw [zpow_add_one₀ (by norm_num), hpower]
  constructor
  · gcongr
  · rw [mul_right_comm]
    gcongr
    linarith

/-- The exponent of a number below a power of ten is below that of the power. -/
lemma exponent_le {i : ℤ} (h : (10 : ℚ) ^ k ≤ v) (hv : v < 10 ^ (i + 1)) : k ≤ i := by
  have := (zpow_lt_zpow_iff_right₀ (by norm_num)).1 (h.trans_lt hv)
  omega

/-- What scientific form shows of a positive magnitude has three digits. -/
lemma exists_digits (hm : 0 < m) (q : ℤ) : ∃ n k, 100 ≤ n ∧ n < 1000 ∧
    scientificUnits Shown.scientificPlaces m q = (n, k) ∧
      Shown.scientificValue m q = n * 10 ^ (k - 2) := by
  obtain ⟨hlow, hhigh, -⟩ := scientificUnits_spec Shown.scientificPlaces q hm
  exact ⟨_, _, hlow, hhigh, rfl, rfl⟩

/-- What is shown of a small value is at least `0.0005` and at most `0.001`. -/
lemma digits_of_small (hlow : 100 ≤ n) (hhigh : n < 1000) (hge : (1 / 2000 : ℚ) ≤ n * 10 ^ (k - 2))
    (hle : (n * 10 ^ (k - 2) : ℚ) ≤ 1 / 1000) : n = 100 ∧ k = -3 ∨ 500 ≤ n ∧ k = -4 := by
  obtain ⟨hbelow, habove⟩ := digits_bounds hlow hhigh k
  have hk : k ≤ -3 := exponent_le (hbelow.trans hle) (by norm_num)
  have hk' : -4 ≤ k := exponent_le (v := 1 / 2000) (by norm_num) (hge.trans_lt habove)
  obtain rfl | rfl : k = -3 ∨ k = -4 := by omega
  · left
    norm_num at hle
    have : (n : ℚ) ≤ 100 := by linarith
    have : n ≤ 100 := by exact_mod_cast this
    omega
  · right
    norm_num at hge
    have : (500 : ℚ) ≤ n := by linarith
    exact ⟨by exact_mod_cast this, rfl⟩

/-- What is shown of a large value is at least `10000`, and the next number is a hundred more. -/
lemma digits_of_large (hlow : 100 ≤ n) (hhigh : n < 1000) (hge : (10000 : ℚ) ≤ n * 10 ^ (k - 2)) :
    n = 100 ∧ k = 4 ∨ (10100 : ℚ) ≤ n * 10 ^ (k - 2) := by
  obtain ⟨hbelow, habove⟩ := digits_bounds hlow hhigh k
  have hk : 4 ≤ k := exponent_le (v := 10000) (by norm_num) (hge.trans_lt habove)
  obtain rfl | hk := hk.eq_or_lt
  · obtain rfl | hn := hlow.eq_or_lt
    · exact .inl ⟨rfl, rfl⟩
    · right
      have : (101 : ℚ) ≤ n := by exact_mod_cast hn
      norm_num
      linarith
  · right
    have hpower : (10 : ℚ) ^ (5 : ℤ) ≤ 10 ^ k := zpow_le_zpow_right₀ (by norm_num) (by omega)
    norm_num at hpower
    linarith

/-- Of the numbers that are shown of large values only one is read as infinite. -/
lemma digits_of_overflow (hlow : 100 ≤ n) (hhigh : n < 1000)
    (hle : (n * 10 ^ (k - 2) : ℚ) ≤ 180 * 10 ^ 306)
    (hge : (2 : ℚ) ^ 1024 - 2 ^ 970 ≤ n * 10 ^ (k - 2)) : n = 180 ∧ k = 308 := by
  obtain ⟨-, hlarge, hfirst, hlast⟩ := overflow_bounds
  obtain ⟨hbelow, habove⟩ := digits_bounds hlow hhigh k
  have hk : k ≤ 308 := exponent_le (hbelow.trans hle) hlast
  have hk' : 308 ≤ k := exponent_le hfirst (hlarge.trans_le (hge.trans habove.le))
  obtain rfl : k = 308 := le_antisymm hk hk'
  have hunit : (308 : ℤ) - 2 = (306 : ℕ) := by norm_num
  have hpos : (0 : ℚ) < 10 ^ 306 := by positivity
  rw [hunit, zpow_natCast] at hle hge
  have hn : (n : ℚ) ≤ 180 := (mul_le_mul_iff_left₀ hpos).1 hle
  have hn' : (179 : ℚ) < n := (mul_lt_mul_iff_left₀ hpos).1 (hlarge.trans_le hge)
  have hn : n ≤ 180 := by exact_mod_cast hn
  have hn' : 179 < n := by exact_mod_cast hn'
  exact ⟨by omega, rfl⟩

/-! ### Every regime -/

/-- A magnitude that is not shown as zero is not zero. -/
lemma pos_of_zeroBelow_le (h : zeroBelow ≤ Double.magnitude m q) : 0 < m :=
  Nat.pos_of_ne_zero fun hm => (zeroBelow_pos.trans_le h).ne' (magnitude_eq_zero.2 hm)

/-- The least magnitude that is not shown as zero is shown as `0.0005`. -/
lemma le_value_of_zeroBelow_le (h : zeroBelow ≤ Double.magnitude m q) :
    1 / 2000 ≤ Shown.scientificValue m q := by
  have hunits : scientificUnits Shown.scientificPlaces 0x10624DD2F1A9FC (-63) = (500, -4) := by
    decide +kernel
  have heq : zeroBelow = Double.magnitude 0x10624DD2F1A9FC (-63) := by
    rw [zeroBelow_eq_div, Double.magnitude, zpow_neg]
    norm_num
  have hvalue : Shown.scientificValue 0x10624DD2F1A9FC (-63) = 1 / 2000 := by
    rw [Shown.scientificValue, hunits]
    norm_num [Shown.scientificPlaces]
  exact hvalue ▸ Shown.scientificValue_mono (by decide) (heq ▸ h)

/-- Magnitudes from `0.0005` up to the greatest double are in range. -/
lemma inRange_of_le (hlow : 1 / 2000 ≤ v) (hhigh : v < 2 ^ 1024 - 2 ^ 970) : InRange v := by
  have hleast : (2 : ℚ) ^ (-1022 : ℤ) ≤ 2 ^ (-11 : ℤ) :=
    zpow_le_zpow_right₀ (by norm_num) (by norm_num)
  exact ⟨hleast.trans (le_trans (by norm_num) hlow), hhigh⟩

/-- Magnitudes from `0.0005` up to `10000` are in range. -/
lemma inRange_of_le_fixedBelow (hlow : 1 / 2000 ≤ v) (hhigh : v ≤ 10000) : InRange v :=
  inRange_of_le hlow (hhigh.trans_lt overflow_bounds.1)

/--
Zero, and the first and the last number that is shown from each other regime, where the double that is
read may lie on the other side. Their texts are read and displayed again one by one.
-/
def boundaries (negative : Bool) : List (Shown × Regime) :=
  [(.zero, .zero), (.scientific negative 500 (-4), .small), (.scientific negative 100 (-3), .small),
    (.fixed negative 100, .fixed), (.fixed negative (10 ^ 9), .fixed),
    (.scientific negative 100 4, .large), (.scientific negative 180 308, .large)]

/-- At the boundaries, every text is kept or is one of the six. -/
lemma redisplays_boundary (negative : Bool) :
    ∀ p ∈ boundaries negative, Redisplays (String.ofList p.1.text) p.2 := by
  cases negative <;> decide +kernel

/-- What is shown of a small magnitude is kept, or crosses into the fixed ones. -/
lemma redisplays_of_small (hr : regime (Double.magnitude m q) = .small) (negative : Bool) :
    Redisplays (String.ofList (Shown.of true negative m q).text) .small := by
  obtain ⟨hlow, hhigh⟩ := (regime_eq_small magnitude_nonneg).1 hr
  have hm := pos_of_zeroBelow_le hlow
  obtain ⟨n, k, hn, hn', hunits, hvalue⟩ := exists_digits hm q
  have hle := Shown.scientificValue_le_of_lt hm hhigh
  have hge := le_value_of_zeroBelow_le hlow
  rw [hvalue] at hle hge
  rw [Shown.of_regime, hr, hunits]
  obtain ⟨rfl, rfl⟩ | ⟨h500, rfl⟩ := digits_of_small hn hn' hge hle
  · exact redisplays_boundary negative (.scientific negative 100 (-3), .small) (by simp [boundaries])
  · obtain rfl | h500 := h500.eq_or_lt
    · exact redisplays_boundary negative (.scientific negative 500 (-4), .small) (by simp [boundaries])
    · have h501 : (501 : ℚ) ≤ n := by exact_mod_cast h500
      have h999 : (n : ℚ) + 1 ≤ 1000 := by exact_mod_cast hn'
      have hunit : (10 : ℚ) ^ ((-4 : ℤ) - 2) = 1 / 10 ^ 6 := by norm_num
      refine redisplays_scientific hn hn' (inRange_of_le_fixedBelow hge (hle.trans (by norm_num)))
        ?_ (.inl rfl) negative
      rw [hunit]
      exact surrounds_small (by linarith) (by linarith)

/-- What is shown of a fixed magnitude is kept, or crosses into the large ones. -/
lemma redisplays_of_fixed (hr : regime (Double.magnitude m q) = .fixed) (negative : Bool) :
    Redisplays (String.ofList (Shown.of true negative m q).text) .fixed := by
  obtain ⟨hlow, hhigh⟩ := (regime_eq_fixed magnitude_nonneg).1 hr
  have hge := Shown.le_fixedValue_of_le hlow
  have hle := Shown.fixedValue_le_of_lt hhigh
  rw [Shown.fixedValue, Shown.fixedPlaces] at hle hge
  rw [Shown.of_regime, hr]
  show Redisplays (String.ofList (Shown.fixed negative (fixedUnits 5 m q)).text) .fixed
  generalize fixedUnits 5 m q = n at *
  have h100 : 100 ≤ n := by
    have : (100 : ℚ) ≤ n := by linarith
    exact_mod_cast this
  have hn : n ≤ 10 ^ 9 := by
    have : (n : ℚ) ≤ 10 ^ 9 := by linarith
    exact_mod_cast this
  obtain rfl | h100 := h100.eq_or_lt
  · exact redisplays_boundary negative (.fixed negative 100, .fixed) (by simp [boundaries])
  obtain rfl | h9 := hn.eq_or_lt
  · exact redisplays_boundary negative (.fixed negative (10 ^ 9), .fixed) (by simp [boundaries])
  · have h101 : (101 : ℚ) ≤ n := by exact_mod_cast h100
    have h9 : (n : ℚ) + 1 ≤ 10 ^ 9 := by exact_mod_cast h9
    exact redisplays_fixed hn (inRange_of_le_fixedBelow (by linarith) hle)
      (surrounds_fixed (by linarith) (by linarith)) negative

/-- The magnitude of a finite double is at most that of the greatest one. -/
lemma magnitude_le_greatest {x : Float} (h : Double.ofFloat x = .finite negative m q) :
    Double.magnitude m q ≤ Double.magnitude (2 ^ 53 - 1) 971 := by
  have hbounds : m ≤ 2 ^ 53 - 1 ∧ q ≤ 971 := by
    simp only [Double.ofFloat, Nat.pow_eq] at h
    split at h
    · split at h <;> cases h
    · split at h <;> cases h <;> omega
  obtain ⟨hm, hq⟩ := hbounds
  rw [Double.magnitude, Double.magnitude]
  gcongr
  norm_num

/-- The greatest double is shown as `1.80e+308`. -/
lemma value_le_greatest (hm : 0 < m) (h : Double.magnitude m q ≤ Double.magnitude (2 ^ 53 - 1) 971) :
    Shown.scientificValue m q ≤ 180 * 10 ^ 306 := by
  have hunits : scientificUnits Shown.scientificPlaces (2 ^ 53 - 1) 971 = (180, 308) := by
    decide +kernel
  have hvalue : Shown.scientificValue (2 ^ 53 - 1) 971 = 180 * 10 ^ 306 := by
    have hexponent : (308 : ℤ) - Shown.scientificPlaces = (306 : ℕ) := rfl
    rw [Shown.scientificValue, hunits, hexponent, zpow_natCast, Nat.cast_ofNat]
  exact hvalue ▸ Shown.scientificValue_mono hm h

/-- What is shown of a large magnitude is kept, or is read as infinite. -/
lemma redisplays_of_large (hr : regime (Double.magnitude m q) = .large)
    (hgreatest : Double.magnitude m q ≤ Double.magnitude (2 ^ 53 - 1) 971) (negative : Bool) :
    Redisplays (String.ofList (Shown.of true negative m q).text) .large := by
  have hlow := (regime_eq_large magnitude_nonneg).1 hr
  have hm := pos_of_zeroBelow_le (zeroBelow_lt.le.trans (fixedFrom_lt.le.trans hlow))
  obtain ⟨n, k, hn, hn', hunits, hvalue⟩ := exists_digits hm q
  have hge := Shown.le_scientificValue_of_le hlow
  have hle := value_le_greatest hm hgreatest
  rw [hvalue] at hle hge
  rw [Shown.of_regime, hr, hunits]
  obtain ⟨rfl, rfl⟩ | hlarge := digits_of_large hn hn' hge
  · exact redisplays_boundary negative (.scientific negative 100 4, .large) (by simp [boundaries])
  obtain hover | hrange := le_or_gt ((2 : ℚ) ^ 1024 - 2 ^ 970) ((n : ℚ) * 10 ^ (k - 2))
  · obtain ⟨rfl, rfl⟩ := digits_of_overflow hn hn' hle hover
    exact redisplays_boundary negative (.scientific negative 180 308, .large) (by simp [boundaries])
  · have hleast : (1 / 2000 : ℚ) ≤ n * 10 ^ (k - 2) := le_trans (by norm_num) hlarge
    exact redisplays_scientific hn hn' (inRange_of_le hleast hrange) (surrounds_large hlarge)
      (.inr rfl) negative

/-- The text of a finite value is kept or crosses into another regime. -/
lemma exists_redisplays {x : Float} (hx : x.isFinite) :
    ∃ v, exactValue? x = some v ∧ Redisplays (displayText true x) (regime v) := by
  obtain ⟨negative, m, q, hfinite⟩ := ofFloat_of_isFinite hx
  have hshown : displayText true x = String.ofList (Shown.of true negative m q).text := by
    rw [displayText, hfinite]
  refine ⟨_, exactValue?_of_finite hfinite, ?_⟩
  rw [hshown, regime_signed]
  cases hr : regime (Double.magnitude m q) with
  | zero =>
    rw [Shown.of_regime, hr]
    exact redisplays_boundary negative (.zero, .zero) (by simp [boundaries])
  | small => exact redisplays_of_small hr negative
  | fixed => exact redisplays_of_fixed hr negative
  | large => exact redisplays_of_large hr (magnitude_le_greatest hfinite) negative

/--
The text of a finite value is read as a double, which is displayed with the same text, but for six
texts (`crossings`). It is the same text exactly if the double lies in the regime of the value.
-/
theorem displayText_redisplayed {x : Float} (hx : x.isFinite) :
    ∃ v y, exactValue? x = some v ∧ readFloat? (displayText true x) = some y ∧
      displayText true y = redisplayed (displayText true x) ∧
        (redisplayed (displayText true x) = displayText true x ↔
          (exactValue? y).map regime = some (regime v)) := by
  obtain ⟨v, hv, y, hread, htext, hkept⟩ := exists_redisplays hx
  exact ⟨v, y, hv, hread, htext, hkept⟩

/-- A value that is displayed in scientific form and read as one that is displayed in fixed form. -/
theorem displayText_redisplayed_carry : (-0.00099999 : Float).isFinite ∧
    ∃ v y, exactValue? (-0.00099999) = some v ∧ readFloat? (displayText true (-0.00099999)) = some y ∧
      displayText true y = redisplayed (displayText true (-0.00099999)) ∧
        (redisplayed (displayText true (-0.00099999)) = displayText true (-0.00099999) ↔
          (exactValue? y).map regime = some (regime v)) := by
  have hfinite : (-0.00099999 : Float).isFinite := by decide +kernel
  exact ⟨hfinite, displayText_redisplayed hfinite⟩

example : displayText true (-0.00099999) = "-1.00e-03" ∧ displayText true (-0.001) = "-0.001" := by
  decide +kernel

/-- Not every text is kept: the digits of `9999.999999` are rounded up to `10000`. -/
theorem displayText_not_kept : ¬ ∀ x : Float, x.isFinite →
    (readFloat? (displayText true x)).map (displayText true) = some (displayText true x) := by
  intro h
  have hkept := h 9999.999999 (by decide +kernel)
  have hfirst : displayText true 9999.999999 = "10000" := by decide +kernel
  have hagain : (readFloat? "10000").map (displayText true) = some "1.00e+04" := by decide +kernel
  rw [hfirst, hagain] at hkept
  exact absurd hkept (by decide)

/-- What a text becomes is kept: from the second time on the text of a finite value does not change. -/
theorem displayText_settles {x : Float} (hx : x.isFinite) :
    ∃ y, readFloat? (displayText true x) = some y ∧
      (readFloat? (displayText true y)).map (displayText true) = some (displayText true y) := by
  obtain ⟨-, -, y, hread, htext, -⟩ := exists_redisplays hx
  refine ⟨y, hread, ?_⟩
  rw [htext]
  obtain hkept | hmem := redisplayed_cases (displayText true x)
  · rw [hkept, hread, Option.map_some, htext, hkept]
  · obtain ⟨-, -, hkept⟩ := crossings_spec _ hmem
    exact hkept

end Formulary
