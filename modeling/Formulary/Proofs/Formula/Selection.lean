import Formulary.Proofs.Expression.Selection
import Formulary.Proofs.Formula.Sides

/-!
# Formulas that select nothing

A formula without the bracket `[` in which points stand only before digits remains such a text on its
way to an expression: in its canonical form, as the difference of its sides, and with aliases for its
symbols. So what is read in the end takes no part and no element of a value
(`selectsNothing_of_compile`).
-/

namespace Formulary.Formula

open Formulary.Text

variable {s u v rest : List Char} {c : Char} {a : Aliases}

/-- What begins with a digit does so whatever follows. -/
lemma startsWithDigit_append (h : startsWithDigit u) : startsWithDigit (u ++ v) := by
  cases u with
  | nil => cases h
  | cons c u => exact h

/-- Texts that select nothing may follow each other. -/
lemma selectsNothing_append (hu : selectsNothing u) (hv : selectsNothing v) :
    selectsNothing (u ++ v) := by
  induction u with
  | nil => exact hv
  | cons c u ih =>
    obtain ⟨hbracket, hpoint, hu⟩ := selectsNothing_cons.1 hu
    exact selectsNothing_cons.2 ⟨hbracket, fun hc => startsWithDigit_append (hpoint hc), ih hu⟩

/-- What stands before something other than a digit selects nothing either. -/
lemma selectsNothing_of_append (h : selectsNothing (u ++ v)) (hv : startsWithDigit v = false) :
    selectsNothing u := by
  induction u with
  | nil => rfl
  | cons c u ih =>
    obtain ⟨hbracket, hpoint, h⟩ := selectsNothing_cons.1 h
    refine selectsNothing_cons.2 ⟨hbracket, fun hc => ?_, ih h⟩
    cases u with
    | nil =>
      have hdigit : startsWithDigit v := hpoint hc
      rw [hv] at hdigit
      cases hdigit
    | cons d u => exact hpoint hc

/-- A word selects nothing. -/
lemma selectsNothing_of_word (h : ∀ c ∈ s, c ≠ '[' ∧ c ≠ '.') : selectsNothing s := by
  induction s with
  | nil => rfl
  | cons c s ih =>
    obtain ⟨hc, hs⟩ := List.forall_mem_cons.1 h
    exact selectsNothing_cons.2 ⟨hc.1, fun hpoint => absurd hpoint hc.2, ih hs⟩

/-! ### Spacing -/

/-- Digits are not blank. -/
lemma isBlank_of_isDigit (h : c.isDigit) : isBlank c = false :=
  isBlank_of_isWord (isWord_of_isAlphanum (.inl (by simp [Char.isAlphanum, h])))

/-- A text that begins with a digit does so with its gaps collapsed. -/
lemma startsWithDigit_collapse {b : Bool} (h : startsWithDigit s) : startsWithDigit (collapse b s) := by
  cases s with
  | nil => cases h
  | cons c s =>
    have hc : c.isDigit := by simpa [startsWithDigit] using h
    simpa [collapse, isBlank_of_isDigit hc, startsWithDigit] using hc

/-- Collapsing gaps selects nothing. -/
lemma selectsNothing_collapse {b : Bool} (h : selectsNothing s) : selectsNothing (collapse b s) := by
  induction s generalizing b with
  | nil => rfl
  | cons c s ih =>
    obtain ⟨hbracket, hpoint, h⟩ := selectsNothing_cons.1 h
    unfold collapse
    split
    · split
      · exact ih h
      · exact selectsNothing_cons_of_ne (by decide) (by decide) (ih h)
    · exact selectsNothing_cons.2
        ⟨hbracket, fun hc => startsWithDigit_collapse (hpoint hc), ih h⟩

/-- Blanks do not begin with a digit. -/
lemma startsWithDigit_blanks (hv : ∀ c ∈ v, isBlank c) : startsWithDigit v = false := by
  cases v with
  | nil => rfl
  | cons c v =>
    by_contra h
    have hc : c.isDigit := by simpa [startsWithDigit] using h
    have hblank := hv c List.mem_cons_self
    rw [isBlank_of_isDigit hc] at hblank
    cases hblank

/-- Trimming selects nothing. -/
lemma selectsNothing_trim (h : selectsNothing s) : selectsNothing (trim s) := by
  rw [trim_eq]
  obtain ⟨v, hv, hsplit, -⟩ := exists_trimEnd (s.dropWhile isBlank)
  refine selectsNothing_of_append ?_ (startsWithDigit_blanks hv)
  rw [← hsplit]
  exact selectsNothing_of_suffix h (List.dropWhile_suffix _)

/-! ### Angles -/

/-- Whether a rule replaces what selects nothing by something like it, and no digit at its beginning. -/
def IsHarmless (rule : Rule) : Prop :=
  ∀ ⦃before s replacement n⦄, rule before s = some (replacement, n) → selectsNothing s →
    n ≠ 0 ∧ startsWithDigit s = false ∧ selectsNothing replacement

/-- A harmless rule may be applied all over a text that selects nothing. -/
lemma IsHarmless.replaceFrom {rule : Rule} (hrule : IsHarmless rule) {skip : Nat}
    {before : Option Char} (h : selectsNothing s) :
    selectsNothing (replaceFrom rule skip before s) ∧
      (skip = 0 → startsWithDigit s → startsWithDigit (replaceFrom rule skip before s)) := by
  -- A point is copied with the digit after it, as nothing is replaced where a digit stands.
  induction s generalizing skip before with
  | nil =>
    refine ⟨?_, fun _ h => by cases h⟩
    unfold Text.replaceFrom
    split
    · exact (hrule ‹_› rfl).2.2
    · rfl
  | cons c s ih =>
    obtain ⟨hbracket, hpoint, hs⟩ := selectsNothing_cons.1 h
    cases skip with
    | succ skip => exact ⟨(ih hs).1, fun h => by cases h⟩
    | zero =>
      rw [Text.replaceFrom]
      split
      · exact absurd rfl (hrule ‹_› h).1
      · obtain ⟨-, hdigit, hreplacement⟩ := hrule ‹_› h
        exact ⟨selectsNothing_append hreplacement (ih hs).1, fun _ hc => by simp [hdigit] at hc⟩
      · exact ⟨selectsNothing_cons.2 ⟨hbracket, fun hc => (ih hs).2 rfl (hpoint hc), (ih hs).1⟩,
          fun _ hc => hc⟩

/-- The conversion of the calls of a function is harmless. -/
lemma isHarmless_callInRadians (f : Function) : IsHarmless (callInRadians f) := by
  intro before s replacement n hrule h
  obtain ⟨c, u, rest, rfl, rfl, rfl⟩ := eq_of_callInRadians hrule
  have hhead : selectsNothing (f.name.toList ++ ['(']) ∧
      ∀ r, startsWithDigit (f.name.toList ++ ['('] ++ r) = false := by
    cases f <;> exact ⟨by decide, fun r => rfl⟩
  have harg : selectsNothing (c :: u) := by
    rw [List.append_assoc] at h
    exact selectsNothing_of_append (selectsNothing_of_suffix h (List.suffix_append _ _)) rfl
  have hcall : selectsNothing (f.name.toList ++ ['('] ++ '(' :: c :: u) :=
    selectsNothing_append hhead.1 (selectsNothing_cons_of_ne (by decide) (by decide) harg)
  refine ⟨by simp, ?_, selectsNothing_append hcall (by decide)⟩
  rw [List.append_assoc]
  exact hhead.2 _

/-- The conversion from degrees selects nothing. -/
lemma selectsNothing_inRadians (h : selectsNothing s) : selectsNothing (inRadians s) :=
  List.foldlRecOn (motive := fun s => selectsNothing s) _ _ h fun _ hs f _ =>
    ((isHarmless_callInRadians f).replaceFrom hs).1

/-- The canonical form of a formula that selects nothing does not either. -/
lemma selectsNothing_canonical (h : selectsNothing s) : selectsNothing (canonical s) :=
  selectsNothing_inRadians (selectsNothing_trim (selectsNothing_collapse h))

/-! ### Sides -/

/-- The residual of a formula that selects nothing does not either. -/
lemma selectsNothing_residual {d : List Char} (h : selectsNothing s) (hd : residual s = .ok d) :
    selectsNothing d := by
  simp only [residual] at hd
  cases hsides : sides s with
  | error e =>
    rw [hsides] at hd
    cases hd
  | ok p =>
    obtain ⟨l, r, rfl, hl, hr, -⟩ := sides_eq_ok.1 ⟨p, hsides⟩
    have hp : p = (trim l, trim r) := by
      rw [sides, splitAtEquals_append hl hr] at hsides
      dsimp only at hsides
      split at hsides
      · cases hsides
      · exact (Except.ok.inj hsides).symm
    subst hp
    rw [hsides] at hd
    cases hd
    have hleft : selectsNothing (trim l) := selectsNothing_trim (selectsNothing_of_append h rfl)
    have hright : selectsNothing (trim r) :=
      selectsNothing_trim (selectsNothing_of_suffix h ⟨l ++ ['='], by simp⟩)
    have hopen : selectsNothing ('(' :: trim l) :=
      selectsNothing_cons_of_ne (by decide) (by decide) hleft
    exact selectsNothing_append (selectsNothing_append (selectsNothing_append hopen (by decide))
      hright) (by decide)

/-! ### Aliases and power signs -/

/-- The digits of ASCII are digits. -/
lemma isDigit_of_isDigit (h : c.isDigit) : Text.isDigit c := by
  have hc : 48 ≤ c.toNat ∧ c.toNat < 58 := by
    simp only [Char.isDigit, Bool.and_eq_true, decide_eq_true_eq] at h
    exact ⟨h.1, Nat.lt_succ_of_le h.2⟩
  simp [Text.isDigit, digitValue?, digitZeros, hc]

/-- Words stay words under their aliases, and no digit begins one. -/
lemma selectsNothing_aliasPieces (blocked : Bool) (s : List Char) :
    ∀ a : Aliases, a.Numbered → selectsNothing s →
      selectsNothing (aliasPieces a (piecesFrom blocked s)).1 ∧
        (startsWithDigit s → startsWithDigit (aliasPieces a (piecesFrom blocked s)).1) := by
  fun_induction piecesFrom blocked s with
  | case1 blocked => exact fun _ _ _ => ⟨rfl, fun h => h⟩
  | case2 blocked c rest hc word afterWord primes ih =>
    intro a ha h
    have hrest : afterWord.dropWhile (· == '\'') <:+ c :: rest :=
      ((List.dropWhile_suffix _).trans (List.dropWhile_suffix _)).trans (List.suffix_cons _ _)
    have hnext := Aliases.numbered_aliasPieces ha [.symbol (c :: word ++ primes)]
    obtain ⟨hafter, -⟩ := ih _ hnext (selectsNothing_of_suffix h hrest)
    have hword : selectsNothing ((Piece.symbol (c :: word ++ primes)).aliased a).1 := by
      refine selectsNothing_of_word fun d hd => ?_
      have hd := (isWord_aliased ha _).2 d hd
      constructor <;> rintro rfl <;> cases hd
    refine ⟨selectsNothing_append hword hafter, fun hdigit => ?_⟩
    have hstart := isDigit_of_isDigit (c := c) (by simpa [startsWithDigit] using hdigit)
    simp [isWordStart, hstart] at hc
  | case3 blocked c rest hc ih =>
    intro a ha h
    obtain ⟨hbracket, hpoint, hs⟩ := selectsNothing_cons.1 h
    obtain ⟨hrest, hdigit⟩ := ih a ha hs
    exact ⟨selectsNothing_cons.2 ⟨hbracket, fun hc => hdigit (hpoint hc), hrest⟩, fun hc => hc⟩

/-- Power signs select nothing. -/
lemma selectsNothing_withPowerSigns (h : selectsNothing s) : selectsNothing (withPowerSigns s) := by
  induction s with
  | nil => rfl
  | cons c s ih =>
    obtain ⟨hbracket, hpoint, hs⟩ := selectsNothing_cons.1 h
    by_cases hc : c = '^'
    · subst hc
      exact selectsNothing_cons_of_ne (by decide) (by decide)
        (selectsNothing_cons_of_ne (by decide) (by decide) (ih hs))
    · have hsigns : withPowerSigns (c :: s) = c :: withPowerSigns s := by
        simp [withPowerSigns, hc]
      rw [hsigns]
      refine selectsNothing_cons.2 ⟨hbracket, fun hc => ?_, ih hs⟩
      have hdigit := hpoint hc
      cases s with
      | nil => cases hdigit
      | cons d s =>
        have hd : d ≠ '^' := by
          rintro rfl
          cases hdigit
        simpa [withPowerSigns, hd, startsWithDigit] using hdigit

/-- The expression that becomes of a formula which selects nothing does not either. -/
theorem selectsNothing_of_compile {d : List Char} {e : Expression} (h : selectsNothing s)
    (hd : residual (canonical s) = .ok d) (he : Expression.compile (aliased d).1 = .ok e) :
    e.SelectsNothing := by
  have hresidual : selectsNothing d := selectsNothing_residual (selectsNothing_canonical h) hd
  have haliased : selectsNothing (aliased d).1 :=
    (selectsNothing_aliasPieces false d [] rfl hresidual).1
  exact compile_selectsNothing (selectsNothing_withPowerSigns haliased) he

end Formulary.Formula
