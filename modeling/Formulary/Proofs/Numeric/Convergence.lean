import Formulary.Proofs.Number.Order
import Formulary.Proofs.Numeric.Outcome
import Formulary.Proofs.Numeric.Residual

/-!
# What a converged search has found

A search converges at a point where the function is finite, or else by the length of a last step: of
a descent, whose end is not looked at, or of halvings, whose middle may be where the function has no
value (`Converges`). So the function is finite at the answer if it is finite on the intervals that are
searched and does not end within the tolerance of a point where it is (`solve_converged`).
-/

namespace Formulary.Numeric

open Arithmetic Number

variable {ε : Type} {f : Float → Except ε Float} {s : Settings Float} {o : Outcome Float}
variable {a b l u fa x v : Float} {n steps : ℕ}

/-- Whether a function has a finite value at a point. -/
def DefinedAt (f : Float → Except ε Float) (x : Float) : Prop := ∃ y, f x = .ok y ∧ y.isFinite

/-- That an interval is left of another one after halvings, each of which keeps either half. -/
inductive Halvings (a b : Float) : ℕ → Float → Float → Prop
  | start : Halvings a b 0 a b
  | lower {n : ℕ} {l u : Float} (h : Halvings a b n l u) : Halvings a b (n + 1) l (middle l u)
  | upper {n : ℕ} {l u : Float} (h : Halvings a b n l u) : Halvings a b (n + 1) (middle l u) u

/-- The interval of the settings, and those with its lower or its upper end moved outwards. -/
def Settings.intervals (s : Settings Float) : List (Float × Float) :=
  [s.bracket, (s.bracket.1 - s.expansion, s.bracket.2), (s.bracket.1, s.bracket.2 + s.expansion)]

/-- The ways in which a search converges. -/
inductive Converges (s : Settings Float) (f : Float → Except ε Float) : Outcome Float → Prop
  /-- at a point where the function is finite -/
  | defined {o : Outcome Float} (h : DefinedAt f o.value) : Converges s f o
  /-- by a short step of a descent from a point where the function is finite -/
  | step {g x v : Float} (hx : DefinedAt f x) (hstep : (v - x).abs < s.tolerance) :
    Converges s f (.newton g v)
  /-- at the middle of an interval that is short or cannot be halved any more -/
  | middle {i : Float × Float} {n : ℕ} {l u y : Float} (hi : i ∈ s.intervals)
    (h : Halvings i.1 i.2 n l u) (hy : f u = .ok y) (hnumber : ¬ y.isNaN)
    (hend : u - l < s.tolerance ∨ n = s.bisectionCap.toNat) :
    Converges s f (.bisection (middle l u))

/-- A descent ends where the function is finite, or by a short step from there. -/
lemma descend_root (h : descend s f steps a = .ok (.root v)) :
    DefinedAt f v ∨ ∃ x, DefinedAt f x ∧ (v - x).abs < s.tolerance := by
  induction steps generalizing a with
  | zero => cases h
  | succ steps ih =>
    simp only [descend] at h
    obtain ⟨fx, hfx, h⟩ := bind_eq_ok.1 h
    split at h
    · cases h
    · rename_i hfinite
      have hfinite : isFinite fx = true := by simpa using hfinite
      have hdefined : DefinedAt f a := ⟨fx, hfx, hfinite⟩
      split at h
      · cases h
        exact .inl hdefined
      · obtain ⟨fxh, -, h⟩ := bind_eq_ok.1 h
        split at h
        · cases h
        · split at h
          · cases h
          · split at h
            · -- the step is short: its end is returned, and `f` is not evaluated there
              rename_i hstep
              cases h
              exact .inr ⟨a, hdefined, of_decide_eq_true hstep⟩
            · exact ih h

/-- Halving keeps an interval at whose upper end the function is a number. -/
lemma halve_converges {i : Float × Float} (hi : i ∈ s.intervals) (h : Halvings i.1 i.2 n a b)
    (hn : n + steps = s.bisectionCap.toNat) {fb : Float} (hb : f b = .ok fb) (hnumber : ¬ fb.isNaN)
    (ho : halve s f steps a b fa = .ok o) : Converges s f o := by
  -- The invariant: `[a, b]` is what `n` halvings leave of `i`, and `f` is a number at `b`.
  -- Nothing is kept of `f` at `a`, whose value may be nan.
  induction steps generalizing n a b fa fb with
  | zero =>
    cases ho
    exact .middle hi h hb hnumber (.inr hn)
  | succ steps ih =>
    simp only [halve] at ho
    obtain ⟨fc, hfc, ho⟩ := bind_eq_ok.1 ho
    split at ho
    · rename_i hend
      cases ho
      obtain hsmall | hshort := Bool.or_eq_true_iff.1 hend
      · exact .defined ⟨fc, hfc, isFinite_of_abs_lt (of_decide_eq_true hsmall)⟩
      · exact .middle hi h hb hnumber (.inl (of_decide_eq_true hshort))
    · split at ho
      · -- a negative product has no nan for a factor, so `f` is a number at the new upper end
        rename_i hsign
        have hfcnumber : ¬ fc.isNaN := not_isNaN_of_mul (not_isNaN_of_lt (of_decide_eq_true hsign))
        exact ih h.lower (by omega) hfc hfcnumber ho
      · -- any other product, a nan as well, moves the lower end
        exact ih h.upper (by omega) hb hnumber ho

/-- Where the signs of two values differ, the second one is a number. -/
lemma not_isNaN_of_sameSign {fb : Float} (h : ¬ sameSign fa fb) : ¬ fb.isNaN := by
  simp only [sameSign, Bool.not_eq_true, Bool.not_eq_false'] at h
  exact not_isNaN_of_mul (not_isNaN_of_le (of_decide_eq_true h))

/-- A value that is zero is finite. -/
lemma isFinite_of_eq_zero {y : Float} (h : eq y (zero : Float)) : y.isFinite := by
  obtain ⟨t, ht⟩ := unpack_of_beq_zero h
  show y.toModel.unpack.isFinite = true
  rw [ht]
  rfl

/-- A best effort has not converged. -/
lemma bestEnd_not_converged {i : Bracket Float} (h : bestEnd i = .ok o) : o.converged = false := by
  simp only [bestEnd] at h
  split at h
  · cases h
  · split at h <;> cases h <;> rfl

/-- Widening moves one end, and looks at the function there. -/
lemma widen_ok {i : Bracket Float} (hb : f b = .ok i.atUpper) (hi : (i.lower, i.upper) = s.bracket)
    (hu : i.upper = b) {j : Bracket Float} (h : widen s f i = .ok j) :
    (j.lower, j.upper) ∈ s.intervals ∧ f j.upper = .ok j.atUpper := by
  subst hu
  rw [Settings.intervals, ← hi]
  simp only [widen] at h
  split at h
  · obtain ⟨fa, -, h⟩ := bind_eq_ok.1 h
    cases h
    exact ⟨by simp [sub], hb⟩
  · obtain ⟨fb, hfb, h⟩ := bind_eq_ok.1 h
    cases h
    exact ⟨by simp [add], hfb⟩

/-- Bisection converges at an end or by halving. -/
lemma bisection_converges (h : bisection s f = .ok (.ok o)) (hc : o.converged) : Converges s f o := by
  simp only [bisection] at h
  obtain ⟨fa, hfa, h⟩ := bind_eq_ok.1 h
  obtain ⟨fb, hfb, h⟩ := bind_eq_ok.1 h
  have halvings {i : Float × Float} {fa fb : Float} (hi : i ∈ s.intervals) (hb : f i.2 = .ok fb)
      (hsign : ¬ sameSign fa fb)
      (h : (do return .ok (← halve s f s.bisectionCap.toNat i.1 i.2 fa) :
        Except ε (Except SearchFailure (Outcome Float))) = .ok (.ok o)) : Converges s f o := by
    obtain ⟨o', ho, h⟩ := bind_eq_ok.1 h
    cases h
    exact halve_converges hi .start (Nat.zero_add _) hb (not_isNaN_of_sameSign hsign) ho
  split at h
  · cases h
    exact .defined ⟨fa, hfa, isFinite_of_eq_zero ‹_›⟩
  · split at h
    · cases h
      exact .defined ⟨fb, hfb, isFinite_of_eq_zero ‹_›⟩
    · split at h
      · obtain ⟨i, hi, h⟩ := bind_eq_ok.1 h
        obtain ⟨hmem, hupper⟩ := widen_ok (i := ⟨s.bracket.1, s.bracket.2, fa, fb⟩) hfb rfl rfl hi
        split at h
        · rw [bestEnd_not_converged (Except.ok.inj h)] at hc
          cases hc
        · exact halvings hmem hupper ‹_› h
      · exact halvings (i := s.bracket) (by simp [Settings.intervals]) hfb ‹_› h

/-- Where a search converges, it does so at a finite point in one of three ways. -/
lemma searchFrom_converges {guesses : List Float} {r : Search Float}
    (h : searchFrom s f guesses = .ok r) (ho : r.result = .ok o) (hc : o.converged) :
    o.value.isFinite ∧ Converges s f o := by
  refine ⟨(searchFrom_ok h ho).1, ?_⟩
  induction guesses generalizing r with
  | nil =>
    simp only [searchFrom] at h
    obtain ⟨b, hb, h⟩ := bind_eq_ok.1 h
    cases b with
    | error e =>
      cases h
      cases ho
    | ok o' =>
      cases h
      dsimp only at ho
      split at ho
      · cases ho
        exact bisection_converges hb hc
      · cases ho
  | cons guess guesses ih =>
    simp only [searchFrom] at h
    obtain ⟨d, hd, h⟩ := bind_eq_ok.1 h
    have further (h : (searchFrom s f guesses >>= fun rest => return { rest with
        failedGuesses := guess :: rest.failedGuesses }) = .ok r) : Converges s f o := by
      obtain ⟨r', hr', h⟩ := bind_eq_ok.1 h
      cases h
      exact ih hr' ho
    cases d with
    | root v =>
      dsimp only at h
      split at h
      · cases h
        cases ho
        obtain hv | ⟨x, hx, hstep⟩ := descend_root hd
        · exact .defined hv
        · exact .step hx hstep
      · exact further h
    | failed => exact further h
    | zeroSlope =>
      cases h
      cases ho

/-! ### Where an answer lies -/

/-- The middle of an interval lies between doubles that its ends lie between. -/
lemma toReal_middle_mem (h : (middle l u).isFinite) {p q : ℝ} (hp : IsDouble p) (hq : IsDouble q)
    (hl : toReal l ∈ Set.uIcc p q) (hu : toReal u ∈ Set.uIcc p q) :
    toReal (middle l u) ∈ Set.uIcc p q := by
  have hmin : IsDouble (min p q) := by
    obtain h | h := min_choice p q <;> rwa [h]
  have hmax : IsDouble (max p q) := by
    obtain h | h := max_choice p q <;> rwa [h]
  exact ⟨(toReal_middle_ordered h hmin).1 hl.1 hu.1, (toReal_middle_ordered h hmax).2 hl.2 hu.2⟩

/-- A middle that is finite lies between finite ends. -/
lemma isFinite_of_middle (h : (middle l u).isFinite) : l.isFinite ∧ u.isFinite :=
  isFinite_of_add (isFinite_of_div h bounded_floatOfRat_two.1.isFinite)

/-- Halvings stay in the interval, if their last middle is finite. -/
lemma Halvings.mem (h : Halvings a b n l u) (hm : (middle l u).isFinite) :
    (a.isFinite ∧ b.isFinite) ∧
      toReal l ∈ Set.uIcc (toReal a) (toReal b) ∧ toReal u ∈ Set.uIcc (toReal a) (toReal b) := by
  induction h with
  | start => exact ⟨isFinite_of_middle hm, Set.left_mem_uIcc, Set.right_mem_uIcc⟩
  | lower _ ih =>
    have hm' := (isFinite_of_middle hm).2
    obtain ⟨⟨ha, hb⟩, hl, hu⟩ := ih hm'
    exact ⟨⟨ha, hb⟩, hl, toReal_middle_mem hm' (isDouble_toReal ha) (isDouble_toReal hb) hl hu⟩
  | upper _ ih =>
    have hm' := (isFinite_of_middle hm).1
    obtain ⟨⟨ha, hb⟩, hl, hu⟩ := ih hm'
    exact ⟨⟨ha, hb⟩, toReal_middle_mem hm' (isDouble_toReal ha) (isDouble_toReal hb) hl hu, hu⟩

/-- Whether a function is finite on all intervals that are searched. -/
def DefinedOnIntervals (s : Settings Float) (f : Float → Except ε Float) : Prop :=
  ∀ i ∈ s.intervals, ∀ x, x.isFinite → toReal x ∈ Set.uIcc (toReal i.1) (toReal i.2) → DefinedAt f x

/-- Whether a function that is finite at a point is finite within the tolerance of it. -/
def DefinedNearby (s : Settings Float) (f : Float → Except ε Float) : Prop :=
  ∀ x v, DefinedAt f x → v.isFinite → (v - x).abs < s.tolerance → DefinedAt f v

/--
The residual is defined where a search converges if it is defined at all points close to its own.
-/
lemma Converges.definedAt (h : Converges s f o) (ho : o.value.isFinite)
    (hnear : DefinedNearby s f) (hintervals : DefinedOnIntervals s f) : DefinedAt f o.value := by
  -- Only in the first case has the search looked at the answer itself.
  cases h with
  | defined h => exact h
  | step hx hstep => exact hnear _ _ hx ho hstep
  | middle hi h hy hnumber hend =>
    obtain ⟨⟨ha, hb⟩, hl, hu⟩ := h.mem ho
    exact hintervals _ hi _ ho (toReal_middle_mem ho (isDouble_toReal ha) (isDouble_toReal hb) hl hu)

/--
A converged search has found a point where the residual is finite, unless its last step was too short
to look; it has found one whenever the residual is finite on the intervals that are searched and does
not end within the tolerance of a point where it is.
-/
theorem solve_converged {formula : String} {bindings : List (String × Float)} {unknown : String}
    (h : (solve s formula bindings unknown).result = .ok o) (hc : o.converged) :
    ∃ r, Residual.build formula bindings unknown = .ok r ∧ Converges s r.valueAt o ∧
      (DefinedNearby s r.valueAt → DefinedOnIntervals s r.valueAt →
        DefinedAt r.valueAt o.value) := by
  obtain ⟨r, found, hb, hs, ho⟩ := solve_result_eq_ok.1 h
  obtain ⟨hfinite, hconverges⟩ := searchFrom_converges hs ho hc
  exact ⟨r, hb, hconverges, hconverges.definedAt hfinite⟩

/-- What a search that is finished answers. -/
def answer? (s : Settings Float) (r : Residual) : Option (Outcome Float) :=
  (search s r.valueAt).toOption.bind (·.result.toOption)

/-- A search that is finished is the numeric solution. -/
lemma solve_result_of_answer? {formula : String} {bindings : List (String × Float)}
    {unknown : String} {r : Residual} (hb : Residual.build formula bindings unknown = .ok r)
    (h : answer? s r = some o) : (solve s formula bindings unknown).result = .ok o := by
  obtain ⟨found, hs, ho⟩ := Option.bind_eq_some_iff.1 h
  exact solve_result_eq_ok.2 ⟨r, found, hb, toOption_eq_some.1 hs, toOption_eq_some.1 ho⟩

/-- The residual of `x/16 = 1`. -/
def sixteenth : Residual :=
  ⟨.binary .sub (.binary .div (.name "_s0") (.integer 16)) (.integer 1), "_s0", []⟩

/-- A sixteenth of a double is within range, and so is that but one. -/
lemma definedAt_sixteenth {v : Float} (hv : v.isFinite) : DefinedAt sixteenth.valueAt v := by
  have h16 : floatOfInt? 16 = some 16 := by decide +kernel
  have h1 : floatOfInt? 1 = some 1 := by decide +kernel
  have hne : ((16 : Float) == 0) = false := by decide +kernel
  have hvalue : sixteenth.valueAt v = .ok (v / 16 - 1) := by
    simp [sixteenth, Residual.valueAt, Expression.value, Expression.eval, Expression.lookup,
      Value.binary, Value.onScalars, Value.scalar?, Value.ofScalar, Value.toFloat, Scalar.div,
      Scalar.sub, Scalar.lift, Scalar.isComplex, Scalar.toFloat, h16, h1, hne, bind, Except.bind]
  obtain ⟨hsixteen, hsixteen'⟩ := bounded_of_exactValue? (x := 16) (q := 16) (k := 4)
    (by decide +kernel) (by decide +kernel) (by norm_num)
  obtain ⟨hone, -⟩ := bounded_of_exactValue? (x := 1) (q := 1) (k := 0) (by decide +kernel)
    (by decide +kernel) (by norm_num)
  have hne : toReal 16 ≠ 0 := by
    rw [hsixteen']
    norm_num
  have hquotient : Bounded (v / 16) 1021 := by
    refine .of_rounds (rounds_div hv hsixteen.isFinite hne) ?_ (by decide)
    have hpow : |((16 : ℚ) : ℝ)| = 2 ^ 4 := by norm_num
    rw [hsixteen', abs_div, hpow, div_le_iff₀ (by positivity), ← pow_add]
    exact (Bounded.of_isFinite hv).le
  exact ⟨_, hvalue, (hquotient.sub (hone.mono (by decide)) (by decide)).isFinite⟩

/-- From 1, a step of the descent goes to 16, where the residual of `x/16 = 1` is finite. -/
theorem solve_converged_sixteen :
    ∃ r, Residual.build "x/16 = 1" [] "x" = .ok r ∧ DefinedAt r.valueAt 16.0 := by
  have hb : Residual.build "x/16 = 1" [] "x" = .ok sixteenth := toOption_eq_some.1 (by decide +kernel)
  have h : (solve .standard "x/16 = 1" [] "x").result = .ok (.newton 1.0 16.0) :=
    solve_result_of_answer? hb (by decide +kernel)
  obtain ⟨r, hb', -, hdefined⟩ := solve_converged h rfl
  cases hb.symm.trans hb'
  exact ⟨_, hb, hdefined (fun _ _ _ hv _ => definedAt_sixteenth hv)
    fun _ _ _ hv _ => definedAt_sixteenth hv⟩

/-- The residual of `x + sqrt(x*x - 10000) = 0`, which has no value between -100 and 100. -/
def gapped : Residual :=
  ⟨.binary .sub (.binary .add (.name "_s0") (.call (.name "sqrt")
    [.binary .sub (.binary .mul (.name "_s0") (.name "_s0")) (.integer 10000)])) (.integer 0), "_s0", []⟩

/-- A search may converge where the residual has no value. -/
theorem solve_converged_undefined :
    (0.0 : Float) < (Settings.standard : Settings Float).tolerance ∧
    (0.0 : Float) < (Settings.standard : Settings Float).flatSlope ∧
    ∃ o r, (solve .standard "x + sqrt(x*x - 10000) = 0" [] "x").result = .ok o ∧ o.converged ∧
      Residual.build "x + sqrt(x*x - 10000) = 0" [] "x" = .ok r ∧ ¬ DefinedAt r.valueAt o.value := by
  have hb : Residual.build "x + sqrt(x*x - 10000) = 0" [] "x" = .ok gapped :=
    toOption_eq_some.1 (by decide +kernel)
  -- Every midpoint between -100 and 100 is undefined and moves the lower end, up to the last one.
  have hnan : (gapped.valueAt 99.99999990686774).toOption.map (·.isFinite) = some false := by
    decide +kernel
  refine ⟨by decide +kernel, by decide +kernel, .bisection 99.99999990686774, gapped,
    solve_result_of_answer? hb (by decide +kernel), rfl, hb, fun h => ?_⟩
  obtain ⟨y, hy, hfinite⟩ := h
  have hy : gapped.valueAt 99.99999990686774 = .ok y := hy
  rw [hy] at hnan
  simp [Except.toOption, hfinite] at hnan

end Formulary.Numeric
