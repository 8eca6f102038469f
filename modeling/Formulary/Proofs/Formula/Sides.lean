import Formulary.Proofs.Formula.Angles

/-!
# The sides of a canonical formula

A text with two sides (`HasSides`) is one with a single equals sign that stands between two visible
characters (`hasSides_iff`). Spacing is normalized without touching visible characters, and angles
are converted by inserting characters that are no equals signs. So a formula with two sides still has
two sides in its canonical form (`HasSides.canonical`), wherever its calls begin and end.
-/

namespace Formulary.Formula

open Formulary.Text

/-- Whether a text is an equation: one equals sign, and more than blanks on both sides of it. -/
def HasSides (s : List Char) : Prop :=
  ∃ l r, s = l ++ '=' :: r ∧ '=' ∉ l ∧ '=' ∉ r ∧
    (∃ a ∈ l, isBlank a = false) ∧ ∃ b ∈ r, isBlank b = false

/-- The characters of a text that are no blanks. -/
def visible (s : List Char) : List Char := s.filter fun c => !isBlank c

variable {s t u rest : List Char}

/-- A text has one part more than it has equals signs. -/
lemma length_splitAtEquals (s : List Char) : (splitAtEquals s).length = s.count '=' + 1 := by
  induction s with
  | nil => rfl
  | cons c s ih =>
    obtain ⟨part, parts, hparts⟩ := List.exists_cons_of_length_eq_add_one ih
    simp only [hparts, List.length_cons] at ih
    simp only [splitAtEquals, hparts, List.count_cons, beq_iff_eq]
    split <;> simp only [List.length_cons] <;> omega

/-- A text with one equals sign is two texts without any. -/
lemma exists_sides (h : s.count '=' = 1) : ∃ l r, s = l ++ '=' :: r ∧ '=' ∉ l ∧ '=' ∉ r := by
  obtain ⟨l, r, rfl, hl⟩ := List.eq_append_cons_of_mem (List.count_pos_iff.1 (h ▸ Nat.one_pos))
  refine ⟨l, r, rfl, hl, List.count_eq_zero.1 ?_⟩
  rw [List.count_append, List.count_cons_self] at h
  omega

/-- A text is trimmed to something if it is not blank. -/
lemma trim_ne_nil : trim s ≠ [] ↔ ∃ c ∈ s, isBlank c = false := by
  rw [Ne, Layout.trim_eq_nil]
  simp

/-- The sides of a text are found if and only if it has two. -/
theorem sides_eq_ok : (∃ p, sides s = .ok p) ↔ HasSides s := by
  constructor
  · rintro ⟨p, hp⟩
    have hcount : s.count '=' = 1 := by
      have hlength := length_splitAtEquals s
      unfold sides at hp
      split at hp
      · rename_i l r hsplit
        rw [hsplit] at hlength
        simpa using hlength.symm
      · cases hp
    obtain ⟨l, r, rfl, hl, hr⟩ := exists_sides hcount
    rw [sides, splitAtEquals_append hl hr] at hp
    dsimp only at hp
    split at hp
    · cases hp
    · rename_i hempty
      simp only [Bool.or_eq_true, List.isEmpty_iff, not_or] at hempty
      exact ⟨l, r, rfl, hl, hr, trim_ne_nil.1 hempty.1, trim_ne_nil.1 hempty.2⟩
  · rintro ⟨l, r, rfl, hl, hr, hleft, hright⟩
    have hempty : ((trim l).isEmpty || (trim r).isEmpty) = false := by
      simp [trim_ne_nil.2 hleft, trim_ne_nil.2 hright]
    refine ⟨(trim l, trim r), ?_⟩
    rw [sides, splitAtEquals_append hl hr]
    simp [hempty]

/-- The residual of a text is formed if and only if it has two sides. -/
theorem residual_eq_ok : (∃ d, residual s = .ok d) ↔ HasSides s := by
  rw [← sides_eq_ok, residual]
  cases sides s with
  | ok p => exact ⟨fun _ => ⟨p, rfl⟩, fun _ => ⟨_, rfl⟩⟩
  | error e =>
    constructor
    · rintro ⟨_, h⟩
      cases h
    · rintro ⟨_, h⟩
      cases h

/-- A text has two sides if its only equals sign stands between visible characters. -/
theorem hasSides_iff : HasSides s ↔ s.count '=' = 1 ∧
    ∃ a b, isBlank a = false ∧ isBlank b = false ∧ [a, '=', b].Sublist s := by
  constructor
  · rintro ⟨l, r, rfl, hl, hr, ⟨a, ha, hav⟩, b, hb, hbv⟩
    refine ⟨?_, a, b, hav, hbv, ?_⟩
    · rw [List.count_append, List.count_cons_self, List.count_eq_zero.2 hl, List.count_eq_zero.2 hr]
    · exact (List.singleton_sublist.2 ha).append ((List.singleton_sublist.2 hb).cons_cons '=')
  · rintro ⟨hcount, a, b, hav, hbv, hsub⟩
    obtain ⟨l, r, rfl, hl, hr⟩ := exists_sides hcount
    obtain ⟨x, y, hxy, hx, hy⟩ := List.sublist_append_iff.1 hsub
    refine ⟨l, r, rfl, hl, hr, ?_⟩
    -- the equals sign of the three characters is neither on the left nor on the right
    match x with
    | [] =>
      obtain rfl : y = [a, '=', b] := hxy.symm
      exact absurd (hy.tail.subset (by simp)) hr
    | [_] =>
      cases hxy
      exact ⟨⟨a, hx.subset (by simp), hav⟩, b, hy.tail.subset (by simp), hbv⟩
    | _ :: e :: x =>
      obtain rfl : '=' = e := (List.cons.inj (List.cons.inj hxy).2).1
      exact absurd (hx.subset (by simp)) hl

/-- Sides remain where characters are inserted, as long as these are no equals signs. -/
lemma HasSides.of_sublist (h : HasSides s) (hsub : s.Sublist t) (hcount : t.count '=' = s.count '=') :
    HasSides t := by
  obtain ⟨hs, a, b, ha, hb, hab⟩ := hasSides_iff.1 h
  exact hasSides_iff.2 ⟨hcount.trans hs, a, b, ha, hb, hab.trans hsub⟩

/-- Blanks have no part in whether a text has two sides. -/
lemma hasSides_visible : HasSides (visible s) ↔ HasSides s := by
  have hcount : (visible s).count '=' = s.count '=' := List.count_filter (by decide)
  refine ⟨fun h => h.of_sublist List.filter_sublist hcount.symm, fun h => ?_⟩
  obtain ⟨hs, a, b, ha, hb, hab⟩ := hasSides_iff.1 h
  refine hasSides_iff.2 ⟨hcount.trans hs, a, b, ha, hb, ?_⟩
  have heq : isBlank '=' = false := by decide
  simpa [visible, ha, hb, heq] using hab.filter fun c => !isBlank c

/-- The visible characters of two texts are those of one and of the other. -/
lemma visible_append (s t : List Char) : visible (s ++ t) = visible s ++ visible t :=
  List.filter_append _ _

/-- Blanks are not visible. -/
lemma visible_eq_nil (h : ∀ c ∈ s, isBlank c) : visible s = [] :=
  List.filter_eq_nil_iff.2 fun c hc => by simp [h c hc]

/-- Collapsing gaps leaves what is visible. -/
lemma visible_collapse (b : Bool) (s : List Char) : visible (collapse b s) = visible s := by
  have hspace : isBlank ' ' := by decide
  induction s generalizing b with
  | nil => rfl
  | cons c s ih =>
    simp only [visible] at ih ⊢
    unfold collapse
    split
    · rename_i hc
      split <;> simp [hc, hspace, ih]
    · rename_i hc
      simp [hc, ih]

/-- Trimming leaves what is visible. -/
lemma visible_trim (s : List Char) : visible (trim s) = visible s := by
  obtain ⟨u, hu, hs⟩ := exists_dropWhile s
  obtain ⟨v, hv, hdrop, -⟩ := exists_trimEnd (s.dropWhile isBlank)
  conv_rhs => rw [hs, hdrop]
  rw [visible_append, visible_append, visible_eq_nil hu, visible_eq_nil hv, List.nil_append,
    List.append_nil, trim_eq]

/-- Normal spacing keeps all that is visible. -/
lemma visible_normalizeSpacing (s : List Char) : visible (normalizeSpacing s) = visible s := by
  rw [normalizeSpacing, visible_trim, visible_collapse]

/-- Whether a rule only inserts characters that are no equals signs. -/
def Inserts (rule : Rule) : Prop :=
  ∀ ⦃before s replacement n⦄, rule before s = some (replacement, n) →
    (s.take n).Sublist replacement ∧ replacement.count '=' = (s.take n).count '='

/-- A rule that only inserts keeps the characters of a text, and adds no equals sign. -/
lemma Inserts.replaceFrom {rule : Rule} (h : Inserts rule) (skip : Nat) (before : Option Char)
    (s : List Char) : (s.drop skip).Sublist (replaceFrom rule skip before s) ∧
      (replaceFrom rule skip before s).count '=' = (s.drop skip).count '=' := by
  induction s generalizing skip before with
  | nil =>
    unfold Text.replaceFrom
    split
    · rename_i replacement n hrule
      simpa using h hrule
    · simp
  | cons c s ih =>
    cases skip with
    | succ skip => exact ih skip (some c)
    | zero =>
      rw [Text.replaceFrom]
      split
      · rename_i replacement hrule
        obtain ⟨hsub, hcount⟩ := ih 0 (some c)
        have := (h hrule).2
        simp only [List.take_zero, List.count_nil, List.drop_zero] at this hsub hcount ⊢
        exact ⟨.trans (hsub.cons_cons c) (List.sublist_append_right _ _),
          by simp [List.count_cons, this, hcount]⟩
      · rename_i replacement n hrule
        obtain ⟨hsub, hcount⟩ := ih n (some c)
        obtain ⟨hsub', hcount'⟩ := h hrule
        rw [List.drop_zero, ← List.take_append_drop (n + 1) (c :: s), List.count_append,
          List.count_append, hcount', List.drop_succ_cons, hcount]
        exact ⟨hsub'.append hsub, rfl⟩
      · obtain ⟨hsub, hcount⟩ := ih 0 (some c)
        rw [List.drop_zero] at hsub hcount ⊢
        exact ⟨hsub.cons_cons c, by rw [List.count_cons, List.count_cons, hcount]⟩

/-- An argument ends at its closing parenthesis. -/
lemma eq_append_of_takeArgument {nested : Bool} (h : takeArgument nested s = some (u, rest)) :
    s = u ++ ')' :: rest := by
  induction s generalizing nested u with
  | nil => cases h
  | cons c s ih =>
    have hcons : ∀ {nested} {f : List Char × List Char → List Char × List Char},
        (∀ p, f p = (c :: p.1, p.2)) → (takeArgument nested s).map f = some (u, rest) →
          c :: s = u ++ ')' :: rest := by
      intro nested f hf h
      obtain ⟨⟨v, rest'⟩, hv, heq⟩ := Option.map_eq_some_iff.1 h
      rw [hf] at heq
      cases heq
      rw [ih hv, List.cons_append]
    unfold takeArgument at h
    split at h
    · split at h
      · cases h
      · exact hcons (fun _ => rfl) h
    · rename_i hopen
      split at h
      · rename_i hclose
        split at h
        · exact hcons (fun _ => rfl) h
        · cases h
          rw [hclose, List.nil_append]
      · exact hcons (fun _ => rfl) h

/-- The conversion of a call finds the whole call, and keeps its head and its argument. -/
lemma eq_of_callInRadians {f : Function} {before : Option Char} {n : Nat}
    (h : callInRadians f before s = some (t, n)) :
    ∃ c u rest, s = f.name.toList ++ ['('] ++ (c :: u) ++ ')' :: rest ∧
      t = f.name.toList ++ ['('] ++ '(' :: (c :: u) ++ ") * pi / 180)".toList ∧
      n = (f.name.toList ++ ['('] ++ (c :: u) ++ [')']).length := by
  unfold callInRadians at h
  split at h
  · cases h
  · dsimp only at h
    split at h
    · rename_i c u rest hargument
      obtain ⟨s', hs', hargument⟩ := Option.bind_eq_some_iff.1 hargument
      rw [dropPrefix?_eq_some] at hs'
      cases h
      refine ⟨c, u, rest, ?_, rfl, ?_⟩
      · rw [hs', eq_append_of_takeArgument hargument, ← List.append_assoc]
      · simp only [List.length_append, List.length_cons, List.length_nil]
    · cases h

/-- The conversion of a call inserts a parenthesis and a factor. -/
lemma inserts_callInRadians (f : Function) : Inserts (callInRadians f) := by
  intro before s replacement n hrule
  obtain ⟨c, u, rest, rfl, rfl, rfl⟩ := eq_of_callInRadians hrule
  have hcall : f.name.toList ++ ['('] ++ (c :: u) ++ ')' :: rest =
      (f.name.toList ++ ['('] ++ (c :: u) ++ [')']) ++ rest := by
    simp only [List.append_assoc, List.cons_append, List.nil_append]
  have hfactor : (") * pi / 180)".toList).count '=' = 0 := by decide
  rw [hcall, List.take_left]
  constructor
  · have hclose : [')'].Sublist ") * pi / 180)".toList := List.singleton_sublist.2 (by decide)
    have hargument := ((List.Sublist.refl (c :: u)).append hclose).cons '('
    simpa only [List.append_assoc, List.cons_append] using hargument.append_left (f.name.toList ++ ['('])
  · simp only [List.count_append, hfactor, List.count_cons]
    simp

/-- Angles are converted by insertions. -/
lemma inRadians_inserts (s : List Char) :
    s.Sublist (inRadians s) ∧ (inRadians s).count '=' = s.count '=' := by
  refine List.foldlRecOn (motive := fun t => s.Sublist t ∧ t.count '=' = s.count '=') _ _
    ⟨.refl s, rfl⟩ fun t ⟨hsub, hcount⟩ f _ => ?_
  obtain ⟨hsub', hcount'⟩ := (inserts_callInRadians f).replaceFrom 0 none t
  exact ⟨hsub.trans hsub', hcount'.trans hcount⟩

/-- A formula with two sides has two sides in its canonical form. -/
theorem HasSides.canonical (h : HasSides s) : HasSides (canonical s) := by
  have hspaced : HasSides (normalizeSpacing s) := by
    rwa [← hasSides_visible, visible_normalizeSpacing, hasSides_visible]
  obtain ⟨hsub, hcount⟩ := inRadians_inserts (normalizeSpacing s)
  exact hspaced.of_sublist hsub hcount

end Formulary.Formula
