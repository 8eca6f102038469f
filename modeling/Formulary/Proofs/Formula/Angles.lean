import Formulary.Proofs.Expression.Equality
import Formulary.Proofs.Expression.Rereading
import Formulary.Proofs.Formula.Multiplied

/-!
# Angles are read in degrees

A formula is read as the expression for the difference of its sides (`reading?`). In its canonical
form the argument of every trigonometric call is multiplied by `pi / 180` unless the call is missed
(`reading?_canonical_iff`).
-/

namespace Formulary.Formula

open Formulary.Text Formulary.Token

/-- The tokens of the difference of the sides of a formula, and the aliases in them. -/
def residualTokens? (s : List Char) : Option (List Token × Aliases) :=
  match residual s with
  | .ok d => (tokens? (withPowerSigns (aliased d).1)).map (·, (aliased d).2)
  | .error _ => none

/-- The expression that a formula spells, and the aliases in it. -/
def reading? (s : List Char) : Option (Expression × Aliases) := do
  let (ts, a) ← residualTokens? s
  let e ← Parser.ofTokens? ts
  some (e, a)

/-- A formula is read through the text of its residual. -/
lemma residualTokens?_of_residual {s d : List Char} (h : residual s = .ok d) : residualTokens? s =
    (tokens? (withPowerSigns (aliasPieces [] (piecesWithin d.length false d)).1)).map
      (·, (aliasPieces [] (piecesWithin d.length false d)).2) := by
  rw [residualTokens?, h, ← aliased_eq]

/-- What is read of the difference of the sides is the reading of the formula. -/
lemma reading?_of_residual {s d : List Char} {e : Expression} (h : residual s = .ok d)
    (he : ((tokens? (withPowerSigns (aliasPieces [] (piecesWithin d.length false d)).1)).bind
      Parser.ofTokens?) = some e) :
    reading? s = some (e, (aliasPieces [] (piecesWithin d.length false d)).2) := by
  obtain ⟨ts, hts, he⟩ := Option.bind_eq_some_iff.1 he
  rw [reading?, residualTokens?_of_residual h, hts]
  simp [he]

variable {w w' u v s : List Char} {a : Aliases} {ts : List Token} {e : Expression}

/-- A text without an equals sign is one part. -/
lemma splitAtEquals_of_notMem (hs : '=' ∉ s) : splitAtEquals s = [s] := by
  induction s with
  | nil => rfl
  | cons c s ih =>
    simp only [List.mem_cons, not_or] at hs
    have hc : c ≠ '=' := fun h => hs.1 h.symm
    simp [splitAtEquals, ih hs.2, hc]

/-- A text with one equals sign has two parts. -/
lemma splitAtEquals_append (hu : '=' ∉ u) (hv : '=' ∉ v) : splitAtEquals (u ++ '=' :: v) = [u, v] := by
  induction u with
  | nil => simp [splitAtEquals, splitAtEquals_of_notMem hv]
  | cons c u ih =>
    simp only [List.mem_cons, not_or] at hu
    have hc : c ≠ '=' := fun h => hu.1 h.symm
    simp [splitAtEquals, ih hu.2, hc]

namespace Layout

variable {l r t t' i : Layout} {A B : List Token}

/-- The text of a formula with two sides. -/
def equation (l r : Layout) : List Char := l.text ++ '=' :: r.text

/-- The tokens of the difference of two sides. -/
def differenceTokens (A B : List Token) : List Token :=
  .sign "(" :: (A ++ [.sign ")", .sign "-", .sign "("] ++ B ++ [.sign ")"])

/-- No equals sign stands in an enclosed layout. -/
lemma equals_notMem_text (h : t.All Enclosed) : '=' ∉ t.text := by
  induction t with
  | plain w => exact Enclosed.equals h
  | paren m w i r ihi ihr =>
    have hw := h.1.equals
    have hi := ihi h.2.1
    have hr := ihr h.2.2
    cases m <;> simp [text, wrap, hw, hi, hr]

/-- A text of blanks is trimmed to nothing, and no other. -/
lemma trim_eq_nil : trim w = [] ↔ ∀ c ∈ w, isBlank c := by
  rw [trim_eq]
  constructor
  · intro h
    obtain ⟨u, hu, hw⟩ := exists_dropWhile w
    obtain ⟨v, hv, hdrop, -⟩ := exists_trimEnd (w.dropWhile isBlank)
    rw [h, List.nil_append] at hdrop
    rw [hdrop] at hw
    rw [hw]
    exact fun c hc => (List.mem_append.1 hc).elim (hu c) (hv c)
  · intro h
    rw [List.dropWhile_eq_nil_iff.2 h]
    rfl

/-- A blank layout is trimmed to nothing, and no other. -/
lemma blank_iff_text : t.Blank ↔ t.trimmed.text = [] := by
  rw [← trim_text]
  cases t with
  | plain w => exact trim_eq_nil.symm
  | paren m w i r =>
    refine ⟨False.elim, fun h => ?_⟩
    have := trim_eq_nil.1 h '(' (by simp [text])
    cases this

/-- Preparing a layout does not change how deep it is nested. -/
lemma depth_prepared (t : Layout) (a : Aliases) : (t.prepared a).depth = t.depth := by
  induction t generalizing a with
  | plain w => rfl
  | paren m w i r ihi ihr => simp only [prepared_paren, depth, ihi, ihr]

/-- The residual of a formula is the difference of its trimmed sides. -/
lemma residual_equation (hl : l.All Enclosed) (hr : r.All Enclosed) (hlne : ¬ l.Blank)
    (hrne : ¬ r.Blank) : residual (equation l r) = .ok (difference l.trimmed r.trimmed) := by
  have hsplit := splitAtEquals_append (equals_notMem_text hl) (equals_notMem_text hr)
  rw [blank_iff_text] at hlne hrne
  have hsides : sides (equation l r) = .ok (l.trimmed.text, r.trimmed.text) := by
    simp [sides, equation, hsplit, trim_text, hlne, hrne]
  rw [residual, hsides]
  rfl

/-- A formula with a blank side has no residual. -/
lemma residual_equation_of_blank (hl : l.All Enclosed) (hr : r.All Enclosed)
    (h : l.Blank ∨ r.Blank) : residual (equation l r) = .error ⟨String.ofList (equation l r)⟩ := by
  have hsplit := splitAtEquals_append (equals_notMem_text hl) (equals_notMem_text hr)
  rw [blank_iff_text, blank_iff_text] at h
  have hsides : sides (equation l r) = .error ⟨String.ofList (equation l r)⟩ := by
    simp [sides, equation, hsplit, trim_text, h]
  rw [residual, hsides]
  rfl

/-- An enclosed layout is legible. -/
lemma all_legible (h : t.All Enclosed) : t.All Legible := h.imp fun _ hw => hw.legible

/-- The tokens of a formula are those of its sides. -/
theorem residualTokens?_equation (hl : l.All Enclosed) (hr : r.All Enclosed) :
    residualTokens? (equation l r) = some (ts, a) ↔ ¬ l.Blank ∧ ¬ r.Blank ∧
      (∃ A B, Lexes (l.prepared []).text A ∧ Lexes (r.prepared (l.renamed []).2).text B ∧
        l.depth < maxNesting ∧ r.depth < maxNesting ∧ ts = differenceTokens A B) ∧
      a = (r.renamed (l.renamed []).2).2 := by
  by_cases hblank : l.Blank ∨ r.Blank
  · rw [residualTokens?, residual_equation_of_blank hl hr hblank]
    constructor
    · intro h
      cases h
    · rintro ⟨hlne, hrne, -⟩
      exact absurd hblank (not_or.2 ⟨hlne, hrne⟩)
  · obtain ⟨hlne, hrne⟩ := not_or.1 hblank
    have hstart : Aliases.Numbered [] := rfl
    have hnext := numbered_renamed hstart l
    have hl' := respaced_trimmed hl
    have hr' := respaced_trimmed hr
    obtain ⟨htext, haliases⟩ := aliased_difference l.trimmed r.trimmed
    rw [hl'.aliases hstart] at htext haliases
    rw [hr'.aliases hnext] at haliases
    have htokens : tokens? (difference (l.trimmed.prepared [])
        (r.trimmed.prepared (l.renamed []).2)) = some ts ↔ _ :=
      tokens?_difference (((all_legible (hl'.enclosed hl)).inline hstart))
        (((all_legible (hr'.enclosed hr)).inline hnext))
    rw [residualTokens?, residual_equation hl hr hlne hrne]
    simp only [htext, haliases, Option.map_eq_some_iff, Prod.mk.injEq]
    simp only [← hl'.alike hstart _, ← hr'.alike hnext _, depth_prepared, hl'.depth, hr'.depth]
      at htokens
    constructor
    · rintro ⟨ts', hts, rfl, rfl⟩
      exact ⟨hlne, hrne, htokens.1 hts, rfl⟩
    · rintro ⟨-, -, hts, rfl⟩
      exact ⟨ts, htokens.2 hts, rfl, rfl⟩

/-- A formula is read as the difference of its sides is. -/
lemma reading?_equation (hl : l.All Enclosed) (hr : r.All Enclosed) (hlne : ¬ l.Blank)
    (hrne : ¬ r.Blank) (hA : Lexes (l.prepared []).text A)
    (hB : Lexes (r.prepared (l.renamed []).2).text B) :
    reading? (equation l r) = some (e, a) ↔ l.depth < maxNesting ∧ r.depth < maxNesting ∧
      Parser.ofTokens? (differenceTokens A B) = some e ∧ a = (r.renamed (l.renamed []).2).2 := by
  constructor
  · intro h
    obtain ⟨⟨ts, a'⟩, hts, h⟩ := Option.bind_eq_some_iff.1 h
    obtain ⟨e', he, h⟩ := Option.bind_eq_some_iff.1 h
    cases h
    obtain ⟨-, -, ⟨A', B', hA', hB', hdl, hdr, rfl⟩, rfl⟩ := (residualTokens?_equation hl hr).1 hts
    obtain rfl := hA.unique hA'
    obtain rfl := hB.unique hB'
    exact ⟨hdl, hdr, he, rfl⟩
  · rintro ⟨hdl, hdr, he, rfl⟩
    have hts := (residualTokens?_equation hl hr).2
      ⟨hlne, hrne, ⟨A, B, hA, hB, hdl, hdr, rfl⟩, rfl⟩
    rw [reading?, hts]
    simp [he]

/--
One side of a formula: parentheses match, and every call of a trigonometric function has one
argument in which they are not nested any deeper.
-/
structure IsSide (t : Layout) : Prop where
  unmarked : t.erase = t
  plain : t.All IsPlain
  filled : t.Filled
  shallow : t.Shallow

/-- A side of a formula in its canonical form, on the left or on the right. -/
def canonicalSide (left : Bool) (t : Layout) : Layout := (t.spaced left).radians

namespace IsSide

variable {left : Bool}

/-- A side is enclosed. -/
lemma enclosed (h : t.IsSide) : t.All Enclosed := h.plain.imp fun _ hw => hw.enclosed

/-- A side is spaced differently in its canonical form. -/
lemma spaced (h : t.IsSide) : Respaced t (t.spaced left) := respaced_spaced h.enclosed left

/-- Without its marks, a canonical side is the side spaced differently. -/
lemma erase_canonical (h : t.IsSide) : (t.canonicalSide left).erase = t.spaced left := by
  rw [canonicalSide, radians, erase_passes]
  exact h.spaced.erase_eq h.unmarked

/-- A canonical side is enclosed. -/
lemma enclosed_canonical (h : t.IsSide) : (t.canonicalSide left).All Enclosed :=
  (all_passes _).2 (h.spaced.enclosed h.enclosed)

/-- A canonical side is blank if the side is. -/
lemma blank_canonical (h : t.IsSide) : (t.canonicalSide left).Blank ↔ t.Blank := by
  rw [← blank_erase, h.erase_canonical, h.spaced.blank_iff]

/-- The arguments of calls in a canonical side are filled. -/
lemma filled_canonical (h : t.IsSide) : (t.canonicalSide left).Filled := by
  rw [← filled_erase, h.erase_canonical]
  exact h.spaced.filled h.filled

/-- The calls in a canonical side are sound. -/
lemma sound_canonical (h : t.IsSide) : (t.canonicalSide left).Sound :=
  (sound_of_erase (h.spaced.erase_eq h.unmarked)).passes (List.Subset.refl _)

/-- A canonical side has the same aliases as the side. -/
lemma renamed_canonical (h : t.IsSide) (ha : a.Numbered) :
    ((t.canonicalSide left).renamed a).2 = (t.renamed a).2 := by
  rw [← renamed_erase, h.erase_canonical, h.spaced.aliases ha]

/-- Every call on a side is converted or missed. -/
lemma converted_add_missed (h : t.IsSide) :
    (t.canonicalSide left).converted + (t.canonicalSide left).missed = t.callees.length := by
  rw [h.sound_canonical.converted_add_missed, ← callees_erase, h.erase_canonical, h.spaced.callees]

/-- No call is missed if all are direct and ordered. -/
lemma missed_canonical (h : t.IsSide) :
    (t.canonicalSide left).missed = 0 ↔ t.Direct ∧ t.Ordered := by
  rw [canonicalSide, missed_radians (h.spaced.erase_eq h.unmarked) (h.spaced.filled h.filled)
    (h.spaced.shallow h.shallow), h.spaced.direct_iff, h.spaced.ordered_iff]

/-- The canonical form of a formula is a formula with canonical sides. -/
lemma canonical_equation (hl : l.IsSide) (hr : r.IsSide) :
    canonical (equation l r) = equation (l.canonicalSide true) (r.canonicalSide false) := by
  rw [canonical, equation, normalizeSpacing_text]
  exact inRadians_text ((hl.spaced.enclosed hl.enclosed).imp fun _ hw => hw.bare)
    ((hr.spaced.enclosed hr.enclosed).imp fun _ hw => hw.bare)
    (hl.spaced.erase_eq hl.unmarked) (hr.spaced.erase_eq hr.unmarked)

/-- A canonical side has the tokens of the side with the arguments of its calls multiplied. -/
lemma converts (h : t.IsSide) (ha : a.Numbered) (hA : Lexes (t.prepared a).text A)
    (hA' : Lexes ((t.canonicalSide left).prepared a).text B) (hpoint : Token.sign "." ∉ A)
    {σ : List Bool} {c m : Nat} {k k' : List Token} (hk : Parser.Converts (false :: σ) c m k k') :
    Parser.Converts (false :: σ) (c + (t.canonicalSide left).converted)
      (m + (t.canonicalSide left).missed) (A ++ k) (B ++ k') := by
  refine converts_text (all_legible h.enclosed_canonical) h.filled_canonical h.sound_canonical ha ?_
    hA' hpoint (.inl rfl) hk
  rw [h.erase_canonical]
  exact (h.spaced.alike ha _).1 hA

/-- The canonical form of a formula has its tokens with the arguments of calls multiplied. -/
lemma converts_difference (hl : l.IsSide) (hr : r.IsSide) {A' B' : List Token}
    (hA : Lexes (l.prepared []).text A) (hA' : Lexes ((l.canonicalSide true).prepared []).text A')
    (hB : Lexes (r.prepared (l.renamed []).2).text B)
    (hB' : Lexes ((r.canonicalSide false).prepared (l.renamed []).2).text B')
    (hpoint : Token.sign "." ∉ differenceTokens A B) :
    Parser.Converts [] ((l.canonicalSide true).converted + (r.canonicalSide false).converted)
      ((l.canonicalSide true).missed + (r.canonicalSide false).missed) (differenceTokens A B)
      (differenceTokens A' B') := by
  have hstart : Aliases.Numbered [] := rfl
  have hnext := numbered_renamed hstart l
  simp only [differenceTokens, List.mem_cons, List.mem_append, not_or] at hpoint
  have hminus : Parser.Ordinary [] (.sign "-") :=
    ⟨by decide, by decide, fun h => absurd h (by decide)⟩
  have hright := Parser.Converts.group (hr.converts hnext hB hB' hpoint.2.1.2 (.close .nil))
  have hleft := Parser.Converts.group
    (hl.converts hstart hA hA' hpoint.2.1.1.1 (.close (.token hminus hright)))
  simpa [differenceTokens, Parser.closing, Nat.add_comm] using hleft

end IsSide

/-- The marks of a layout do not keep it from being read. -/
lemma exists_lexes (h : Lexes (t.erase.prepared a).text A) : ∃ B, Lexes (t.prepared a).text B := by
  induction t generalizing a A with
  | plain w => exact ⟨A, h⟩
  | paren m w i r ihi ihr =>
    rw [erase, prepared_paren, lexes_paren] at h
    obtain ⟨x, y, z, hx, hy, hz, rfl⟩ := h
    rw [renamed_erase] at hz
    obtain ⟨y', hy'⟩ := ihi hy
    obtain ⟨z', hz'⟩ := ihr hz
    exact ⟨_, lexes_paren.2 ⟨x, y', z', hx, hy', hz', rfl⟩⟩

/--
The canonical form of a formula is read with all angles in degrees if and only if no blanks stand
before the argument of a trigonometric call, no call stands in the argument of another one of the
same or of a later function, and the additional parentheses are not nested too deeply.
-/
theorem reading?_canonical_iff (hl : l.IsSide) (hr : r.IsSide)
    (htokens : residualTokens? (equation l r) = some (ts, a)) (hpoint : Token.sign "." ∉ ts)
    (hread : Parser.ofTokens? ts = some e)
    (hcalls : e.angles = l.callees.length + r.callees.length) :
    reading? (canonical (equation l r)) = some (e.inDegrees, a) ↔
      (l.Direct ∧ r.Direct) ∧ (l.Ordered ∧ r.Ordered) ∧
        (l.canonicalSide true).depth < maxNesting ∧ (r.canonicalSide false).depth < maxNesting := by
  rw [hl.canonical_equation hr]
  have hstart : Aliases.Numbered [] := rfl
  have hnext := numbered_renamed hstart l
  have haliases : ((l.canonicalSide true).renamed []).2 = (l.renamed []).2 :=
    hl.renamed_canonical hstart
  obtain ⟨hlne, hrne, ⟨A, B, hA, hB, -, -, rfl⟩, rfl⟩ :=
    (residualTokens?_equation hl.enclosed hr.enclosed).1 htokens
  obtain ⟨A', hA'⟩ : ∃ A', Lexes ((l.canonicalSide true).prepared []).text A' := by
    refine exists_lexes (A := A) ?_
    rw [hl.erase_canonical]
    exact (hl.spaced.alike hstart _).1 hA
  obtain ⟨B', hB'⟩ : ∃ B', Lexes ((r.canonicalSide false).prepared (l.renamed []).2).text B' := by
    refine exists_lexes (A := B) ?_
    rw [hr.erase_canonical]
    exact (hr.spaced.alike hnext _).1 hB
  -- Both forms are read; the canonical one as an expression with some of the angles multiplied. It
  -- has all of them multiplied just if no call is missed.
  obtain ⟨e', hread', hscaled⟩ := (hl.converts_difference hr hA hA' hB hB' hpoint).ofTokens? hread
  have hlcount : (l.canonicalSide true).converted + (l.canonicalSide true).missed =
      l.callees.length := hl.converted_add_missed
  have hrcount : (r.canonicalSide false).converted + (r.canonicalSide false).missed =
      r.callees.length := hr.converted_add_missed
  have hmissed := hscaled.eq_inDegrees_iff (by omega)
  have hcanonical := @reading?_equation ((r.renamed (l.renamed []).2).2) e.inDegrees _ _ A' B'
    hl.enclosed_canonical hr.enclosed_canonical (mt hl.blank_canonical.1 hlne)
    (mt hr.blank_canonical.1 hrne) hA' (by rwa [haliases])
  have hzero : (l.canonicalSide true).missed + (r.canonicalSide false).missed = 0 ↔
      (l.Direct ∧ r.Direct) ∧ l.Ordered ∧ r.Ordered := by
    rw [Nat.add_eq_zero_iff, hl.missed_canonical, hr.missed_canonical]
    exact and_and_and_comm
  rw [hcanonical, hread', Option.some.injEq, hmissed, hzero, haliases, hr.renamed_canonical hnext]
  constructor
  · rintro ⟨hdl, hdr, ⟨hdirect, hordered⟩, -⟩
    exact ⟨hdirect, hordered, hdl, hdr⟩
  · rintro ⟨hdirect, hordered, hdl, hdr⟩
    exact ⟨hdl, hdr, ⟨hdirect, hordered⟩, rfl⟩

/-- In `y = 2 * sin(30 + x)` the angle is read in degrees. -/
theorem reading?_canonical_sine :
    reading? (canonical "y = 2 * sin(30 + x)".toList) =
      some (.binary .sub (.name "_s0") (.binary .mul (.integer 2)
        (.call (.name "sin") [Expression.ofDegrees (.binary .add (.integer 30) (.name "_s1"))])),
        [("y", "_s0"), ("x", "_s1")]) := by
  let l := plain "y ".toList
  let r := paren false " 2 * sin".toList (plain "30 + x".toList) (plain [])
  have hplain : ∀ w ∈ ["y ".toList, " 2 * sin".toList, "30 + x".toList, []], IsPlain w := by
    have : ∀ w ∈ ["y ".toList, " 2 * sin".toList, "30 + x".toList, []], '\'' ∉ w ∧
        (piecesWithin w.length false w).all isPlainPiece := by decide +kernel
    exact fun w hw => .of_pieces (this w hw).1 (this w hw).2
  have hl : l.IsSide := ⟨rfl, hplain _ (by decide), trivial, trivial⟩
  have hr : r.IsSide :=
    ⟨rfl, ⟨hplain _ (by decide), hplain _ (by decide), hplain _ (by decide)⟩, by decide +kernel,
      by decide +kernel⟩
  have hresidual : residual (equation l r) = .ok "(y) - (2 * sin(30 + x))".toList := rfl
  have htokens : residualTokens? (equation l r) =
      some ([.sign "(", .name "_s0", .sign ")", .sign "-", .sign "(", .integer 2, .sign "*", .name "sin",
        .sign "(", .integer 30, .sign "+", .name "_s1", .sign ")", .sign ")"],
        [("y", "_s0"), ("x", "_s1")]) := by
    rw [residualTokens?_of_residual hresidual]
    decide +kernel
  exact (reading?_canonical_iff (e := .binary .sub (.name "_s0") (.binary .mul (.integer 2)
    (.call (.name "sin") [.binary .add (.integer 30) (.name "_s1")]))) hl hr htokens (by decide)
    (by decide +kernel) (by decide)).2 (by decide +kernel)

/-- In `y = cos(sin(x))` the outer angle is not read in degrees. -/
theorem reading?_canonical_nested : ∃ l r e a,
    equation l r = "y = cos(sin(x))".toList ∧ l.IsSide ∧ r.IsSide ∧
      reading? (equation l r) = some (e, a) ∧
      reading? (canonical (equation l r)) ≠ some (e.inDegrees, a) := by
  have hplain : ∀ w ∈ ["y ".toList, " cos".toList, "sin".toList, "x".toList, []], IsPlain w := by
    have : ∀ w ∈ ["y ".toList, " cos".toList, "sin".toList, "x".toList, []], '\'' ∉ w ∧
        (piecesWithin w.length false w).all isPlainPiece := by decide +kernel
    exact fun w hw => .of_pieces (this w hw).1 (this w hw).2
  have hcanonical : canonical "y = cos(sin(x))".toList =
      "y = cos(sin((x) * pi / 180))".toList := by decide +kernel
  refine ⟨plain "y ".toList, paren false " cos".toList
    (paren false "sin".toList (plain "x".toList) (plain [])) (plain []),
    .binary .sub (.name "_s0") (.call (.name "cos") [.call (.name "sin") [.name "_s1"]]),
    [("y", "_s0"), ("x", "_s1")], rfl, ?_, ?_, ?_, ?_⟩
  · exact ⟨rfl, hplain _ (by decide), trivial, trivial⟩
  · exact ⟨rfl, ⟨hplain _ (by decide), ⟨hplain _ (by decide), hplain _ (by decide),
      hplain _ (by decide)⟩, hplain _ (by decide)⟩, by decide +kernel, by decide +kernel⟩
  · exact reading?_of_residual (d := "(y) - (cos(sin(x)))".toList) rfl (by decide +kernel)
  · show reading? (canonical "y = cos(sin(x))".toList) ≠ _
    rw [hcanonical, reading?_of_residual (d := "(y) - (cos(sin((x) * pi / 180)))".toList)
      (e := .binary .sub (.name "_s0") (.call (.name "cos") [.call (.name "sin")
        [Expression.ofDegrees (.name "_s1")]])) rfl (by decide +kernel)]
    decide +kernel

end Layout
end Formulary.Formula
