import Formulary.Formula.Sides
import Formulary.Proofs.Formula.Misses

/-!
# Respaced texts

A layout can be written with other blanks in its segments (`Respaced`). This changes neither its
tokens (`Respaced.alike`) nor its calls (`Respaced.direct_iff`, `Respaced.callees`). Normalizing the
spacing of a formula respaces both of its sides (`normalizeSpacing_text`), and so does trimming them
(`trim_text`).
-/

namespace Formulary.Formula

open Formulary.Text Formulary.Token

variable {w w' w'' u v s : List Char} {c : Char} {b : Bool}

/-- A segment with other blanks. -/
structure Respelled (w w' : List Char) : Prop extends ReadsAs w w' where
  gapped : Gapped w → Gapped w'
  called : called? w' = called? w
  mem : ∀ {c}, isBlank c = false → (c ∈ w' ↔ c ∈ w)

/-- A segment has the blanks that it has. -/
lemma Respelled.refl (w : List Char) : Respelled w w := ⟨.refl w, id, rfl, fun _ => .rfl⟩

/-- Blanks may be changed one time after the other. -/
lemma Respelled.trans (h : Respelled w w') (h' : Respelled w' w'') : Respelled w w'' :=
  ⟨h.toReadsAs.trans h'.toReadsAs, fun hw => h'.gapped (h.gapped hw), h'.called.trans h.called,
    fun hc => (h'.mem hc).trans (h.mem hc)⟩

/-- What has nothing but blanks still has nothing but blanks. -/
lemma Respelled.blank (h : Respelled w w') : (∀ c ∈ w', isBlank c) ↔ ∀ c ∈ w, isBlank c := by
  constructor
  · intro hw c hc
    by_contra hblank
    exact hblank (hw c ((h.mem (by simpa using hblank)).2 hc))
  · intro hw c hc
    by_contra hblank
    exact hblank (hw c ((h.mem (by simpa using hblank)).1 hc))

/-- A segment that is read inline, and whose tokens end with the name of the function it calls. -/
structure Legible (w : List Char) : Prop where
  inline : ∀ {a : Aliases}, a.Numbered → Layout.Inline (withPowerSigns (renamed a w).1)
  named : ∀ {a : Aliases} {f : Function} {ts : List Token}, a.Numbered → called? w = some f →
    Lexes (withPowerSigns (renamed a w).1) ts → ∃ ts₀, ts = ts₀ ++ [.name f.name]

/-- A plain segment is legible. -/
lemma IsPlain.legible (h : IsPlain w) : Legible w :=
  ⟨h.inline, fun _ hf hts => lexes_called h hf hts⟩

/-- A legible segment stays legible with other blanks. -/
lemma Respelled.legible (h : Respelled w w') (hw : Legible w) : Legible w' where
  inline ha := h.inline ha (hw.inline ha)
  named ha hf hts := hw.named ha (h.called.symm.trans hf) ((h.alike ha _).2 hts)

/-- A segment that neither ends a side nor nests anything, and whose blanks are gaps. -/
structure Enclosed (w : List Char) : Prop where
  legible : Legible w
  gapped : Gapped w
  bare : Bare w
  equals : '=' ∉ w

/-- A plain segment is enclosed. -/
lemma IsPlain.enclosed (h : IsPlain w) : Enclosed w where
  legible := h.legible
  gapped := h.gapped
  bare := by
    constructor <;> intro hc <;> obtain hc | hc | hc := h.char hc <;> exact absurd hc (by decide)
  equals := by
    intro hc
    obtain hc | hc | hc := h.char hc <;> exact absurd hc (by decide)

/-- An enclosed segment stays enclosed with other blanks. -/
lemma Respelled.enclosed (h : Respelled w w') (hw : Enclosed w) : Enclosed w' where
  legible := h.legible hw.legible
  gapped := h.gapped hw.gapped
  bare := ⟨mt (h.mem (by decide)).1 hw.bare.1, mt (h.mem (by decide)).1 hw.bare.2⟩
  equals := mt (h.mem (by decide)).1 hw.equals

/-- Collapsing gaps neither adds nor removes characters that are not blank. -/
lemma mem_collapse_iff (hc : isBlank c = false) : c ∈ collapse b s ↔ c ∈ s := by
  induction s generalizing b with
  | nil => rfl
  | cons d s ih =>
    have hspace : c ≠ ' ' := by
      rintro rfl
      cases hc
    cases hd : isBlank d with
    | true =>
      have hne : c ≠ d := by
        rintro rfl
        rw [hd] at hc
        cases hc
      cases b <;> simp [collapse, hd, ih, hne, hspace]
    | false => simp [collapse, hd, ih]

/-- Collapsing the gaps of a segment changes its blanks only. -/
lemma Gapped.respelled_collapse (hw : Gapped w) (b : Bool) : Respelled w (Text.collapse b w) :=
  ⟨hw.readsAs_collapse b, fun _ => hw.collapse b, called?_collapse b w, mem_collapse_iff⟩

/-- Dropping the blanks at the beginning of a segment changes its blanks only. -/
lemma Gapped.respelled_dropWhile (hw : Gapped w) : Respelled w (w.dropWhile isBlank) := by
  refine ⟨hw.readsAs_dropWhile, fun _ => hw.dropWhile, called?_dropWhile w, fun {c} hc => ?_⟩
  obtain ⟨v, hv, heq⟩ := exists_dropWhile w
  have hnot : c ∉ v := by
    intro hmem
    rw [hv c hmem] at hc
    cases hc
  conv_rhs => rw [heq]
  simp [hnot]

/-- Dropping the blanks at the end of a segment changes its blanks only. -/
lemma Gapped.respelled_trimEnd (hw : Gapped w) : Respelled w (trimEnd w) := by
  obtain ⟨v, hv, heq, hlast⟩ := exists_trimEnd w
  refine ⟨hw.readsAs_trimEnd, fun _ c hc => hw c (by rw [heq]; simp [hc]),
    by rw [called?, called?, trimEnd_of_getLast hlast], fun {c} hc => ?_⟩
  have hnot : c ∉ v := by
    intro hmem
    rw [hv c hmem] at hc
    cases hc
  conv_rhs => rw [heq]
  simp [hnot]

/-- Trimming drops the blanks at the beginning, and then those at the end. -/
lemma trim_eq (s : List Char) : trim s = trimEnd (s.dropWhile isBlank) := rfl

/-- Gaps are collapsed on both sides of a character that is not blank. -/
lemma collapse_cons (hc : isBlank c = false) :
    collapse b (u ++ c :: v) = collapse b u ++ c :: collapse false v := by
  induction u generalizing b with
  | nil => simp [collapse, hc]
  | cons d u ih =>
    cases hd : isBlank d with
    | true => cases b <;> simp [collapse, hd, ih]
    | false => simp [collapse, hd, ih]

/-- Gaps are collapsed behind a character that is not blank. -/
lemma collapse_cons_head (hc : isBlank c = false) :
    collapse b (c :: v) = c :: collapse false v := by
  simp [collapse, hc]

/-- The blanks at the beginning end before a character that is not blank. -/
lemma dropWhile_cons (hc : isBlank c = false) :
    (u ++ c :: v).dropWhile isBlank = u.dropWhile isBlank ++ c :: v := by
  induction u with
  | nil => simp [hc]
  | cons d u ih =>
    cases hd : isBlank d with
    | true => simp [hd, ih]
    | false => simp [hd]

/-- The blanks at the end begin behind a character that is not blank. -/
lemma trimEnd_cons (hc : isBlank c = false) : trimEnd (u ++ c :: v) = u ++ c :: trimEnd v := by
  rw [trimEnd, List.reverse_append, List.reverse_cons, List.append_assoc, List.singleton_append,
    dropWhile_cons hc]
  simp [trimEnd]

namespace Layout

variable {t t' t'' i r i' r' : Layout}

/-- A layout with other blanks in its segments, and with the same calls. -/
inductive Respaced : Layout → Layout → Prop where
  | plain {w w' : List Char} : Respelled w w' → Respaced (plain w) (plain w')
  | paren {m : Bool} {w w' : List Char} {i i' r r' : Layout} :
    Respelled w w' →
    callee? w' = callee? w →
    Respaced i i' →
    Respaced r r' →
    Respaced (paren m w i r) (paren m w' i' r')

/-- A layout has the blanks that it has. -/
lemma Respaced.refl (t : Layout) : Respaced t t := by
  induction t with
  | plain w => exact .plain (.refl w)
  | paren m w i r ihi ihr => exact .paren (.refl w) rfl ihi ihr

/-- The blanks of a layout may be changed one time after the other. -/
lemma Respaced.trans (h : Respaced t t') (h' : Respaced t' t'') : Respaced t t'' := by
  induction h generalizing t'' with
  | plain hw =>
    cases h' with
    | plain hw' => exact .plain (hw.trans hw')
  | paren hw hcallee _ _ ihi ihr =>
    cases h' with
    | paren hw' hcallee' hi hr =>
      exact .paren (hw.trans hw') (hcallee'.trans hcallee) (ihi hi) (ihr hr)

/-- The blanks at the beginning of a layout dropped. -/
def trimStart : Layout → Layout
  | plain w => plain (w.dropWhile isBlank)
  | paren m w i r => paren m (w.dropWhile isBlank) i r

/-- The blanks at the end of a layout dropped. -/
def trimEnd : Layout → Layout
  | plain w => plain (Formula.trimEnd w)
  | paren m w i r => paren m w i r.trimEnd

/-- The blanks at both ends of a layout dropped. -/
def trimmed (t : Layout) : Layout := t.trimStart.trimEnd

/-- The text of a layout without the blanks at its beginning. -/
lemma trimStart_text (t : Layout) : t.trimStart.text = t.text.dropWhile isBlank := by
  cases t with
  | plain w => rfl
  | paren m w i r => rw [trimStart, text, text, dropWhile_cons (by decide)]

/-- The text of a layout without the blanks at its end. -/
lemma trimEnd_text (t : Layout) : t.trimEnd.text = Formula.trimEnd t.text := by
  induction t with
  | plain w => rfl
  | paren m w i r ihi ihr =>
    rw [trimEnd, text, text, trimEnd_cons (by decide), trimEnd_cons (by decide), ihr]

/-- A trimmed text is the text of a trimmed layout. -/
theorem trim_text (t : Layout) : trim t.text = t.trimmed.text := by
  rw [trim_eq, trimmed, trimEnd_text, trimStart_text]

/-- The gaps of a layout are collapsed segment by segment. -/
lemma collapse_text (t : Layout) : collapse false t.text = (t.map (collapse false)).text := by
  have hconversion : collapse false " * pi / 180".toList = " * pi / 180".toList := by decide
  induction t with
  | plain w => rfl
  | paren m w i r ihi ihr =>
    cases m with
    | false =>
      simp only [text, wrap, map, Bool.false_eq_true, if_false]
      rw [collapse_cons (by decide), collapse_cons (by decide), ihi, ihr]
    | true =>
      simp only [text, wrap, map, if_true, List.cons_append, List.append_assoc]
      rw [collapse_cons (by decide), collapse_cons_head (by decide), collapse_cons (by decide),
        collapse_cons (by decide), hconversion, ihi, ihr]

/-- A side of a formula with its spacing normalized, on the left or on the right. -/
def spaced (left : Bool) (t : Layout) : Layout :=
  let t := t.map (collapse false)
  if left then t.trimStart else t.trimEnd

/-- Normalizing the spacing of a formula respaces its sides. -/
theorem normalizeSpacing_text (l r : Layout) :
    normalizeSpacing (l.text ++ '=' :: r.text) = (l.spaced true).text ++ '=' :: (r.spaced false).text := by
  rw [normalizeSpacing, collapse_cons (by decide), trim_eq, dropWhile_cons (by decide),
    trimEnd_cons (by decide), collapse_text, collapse_text, ← trimStart_text, ← trimEnd_text]
  rfl

/-- What holds of all segments may be weakened. -/
lemma All.imp {P Q : List Char → Prop} (hPQ : ∀ w, P w → Q w) (h : t.All P) : t.All Q := by
  induction t with
  | plain w => exact hPQ w h
  | paren m w i r ihi ihr => exact ⟨hPQ w h.1, ihi h.2.1, ihr h.2.2⟩

/-- Respacing keeps segments enclosed. -/
lemma Respaced.enclosed (h : Respaced t t') (ht : t.All Enclosed) : t'.All Enclosed := by
  induction h with
  | plain hw => exact hw.enclosed ht
  | paren hw _ _ _ ihi ihr => exact ⟨hw.enclosed ht.1, ihi ht.2.1, ihr ht.2.2⟩

/-- Collapsing the gaps of a layout changes its blanks only. -/
lemma respaced_map (h : t.All Enclosed) : Respaced t (t.map (collapse false)) := by
  induction t with
  | plain w => exact .plain (h.gapped.respelled_collapse false)
  | paren m w i r ihi ihr =>
    exact .paren (h.1.gapped.respelled_collapse false) (callee?_collapse false w) (ihi h.2.1) (ihr h.2.2)

/-- Dropping the blanks at the beginning of a layout changes its blanks only. -/
lemma respaced_trimStart (h : t.All Enclosed) : Respaced t t.trimStart := by
  cases t with
  | plain w => exact .plain (Enclosed.gapped h).respelled_dropWhile
  | paren m w i r =>
    exact .paren h.1.gapped.respelled_dropWhile (callee?_dropWhile w) (.refl i) (.refl r)

/-- Dropping the blanks at the end of a layout changes its blanks only. -/
lemma respaced_trimEnd (h : t.All Enclosed) : Respaced t t.trimEnd := by
  induction t with
  | plain w => exact .plain (Enclosed.gapped h).respelled_trimEnd
  | paren m w i r ihi ihr => exact .paren (.refl w) rfl (.refl i) (ihr h.2.2)

/-- Normalizing the spacing of a side changes its blanks only. -/
lemma respaced_spaced (h : t.All Enclosed) (left : Bool) : Respaced t (t.spaced left) := by
  have hmap := respaced_map h
  cases left with
  | true => exact hmap.trans (respaced_trimStart (hmap.enclosed h))
  | false => exact hmap.trans (respaced_trimEnd (hmap.enclosed h))

/-- Trimming a layout changes its blanks only. -/
lemma respaced_trimmed (h : t.All Enclosed) : Respaced t t.trimmed :=
  (respaced_trimStart h).trans (respaced_trimEnd ((respaced_trimStart h).enclosed h))

variable {a : Aliases}

/-- Renaming the symbols of a layout keeps the aliases numbered. -/
lemma numbered_renamed (ha : a.Numbered) (t : Layout) : (t.renamed a).2.Numbered := by
  induction t generalizing a with
  | plain w => exact Aliases.numbered_aliasPieces ha _
  | paren m w i r ihi ihr => exact ihr (ihi (Aliases.numbered_aliasPieces ha _))

/-- A pair of parentheses is prepared from left to right. -/
lemma prepared_paren {m : Bool} : (paren m w i r).prepared a =
    paren m (withPowerSigns (Formula.renamed a w).1) (i.prepared (Formula.renamed a w).2)
      (r.prepared (i.renamed (Formula.renamed a w).2).2) := rfl

/-- Respacing gives the same aliases. -/
lemma Respaced.aliases (h : Respaced t t') (ha : a.Numbered) : (t'.renamed a).2 = (t.renamed a).2 := by
  induction h generalizing a with
  | plain hw => exact hw.aliases ha
  | @paren _ w _ i _ _ _ hw _ _ _ ihi ihr =>
    have hnext : (Formula.renamed a w).2.Numbered := Aliases.numbered_aliasPieces ha _
    simp only [renamed, hw.aliases ha, ihi hnext]
    exact ihr (numbered_renamed hnext i)

/-- Respacing gives the same tokens. -/
theorem Respaced.alike (h : Respaced t t') (ha : a.Numbered) :
    Alike (t.prepared a).text (t'.prepared a).text := by
  induction h generalizing a with
  | plain hw => exact hw.alike ha
  | @paren _ w _ i _ _ _ hw _ hi _ ihi ihr =>
    have hnext : (Formula.renamed a w).2.Numbered := Aliases.numbered_aliasPieces ha _
    intro ts
    rw [prepared_paren, prepared_paren, lexes_paren, lexes_paren]
    simp only [hw.aliases ha, hi.aliases hnext, hw.alike ha _, ihi hnext _,
      ihr (numbered_renamed hnext i) _]

/-- Other blanks leave the parentheses nested as deeply. -/
lemma Respaced.depth (h : Respaced t t') : t'.depth = t.depth := by
  induction h with
  | plain => rfl
  | paren _ _ _ _ ihi ihr => simp only [Layout.depth, ihi, ihr]

/-- Other blanks leave the same calls. -/
lemma Respaced.callees (h : Respaced t t') : t'.callees = t.callees := by
  induction h with
  | plain => rfl
  | paren hw _ _ _ ihi ihr => simp only [Layout.callees, hw.called, ihi, ihr]

/-- Other blanks leave the arguments of calls where they are. -/
lemma Respaced.direct_iff (h : Respaced t t') : t'.Direct ↔ t.Direct := by
  induction h with
  | plain => rfl
  | paren hw hcallee _ _ ihi ihr => simp only [Direct, hcallee, hw.called, ihi, ihr]

/-- Other blanks leave the calls in order. -/
lemma Respaced.ordered_iff (h : Respaced t t') : t'.Ordered ↔ t.Ordered := by
  induction h with
  | plain => rfl
  | paren hw _ hi _ ihi ihr => simp only [Ordered, hw.called, hi.callees, ihi, ihr]

/-- Other blanks leave a layout blank. -/
lemma Respaced.blank_iff (h : Respaced t t') : t'.Blank ↔ t.Blank := by
  cases h with
  | plain hw => exact hw.blank
  | paren => rfl

/-- Other blanks make no commas. -/
lemma Respaced.single_iff (h : Respaced t t') : t'.Single ↔ t.Single := by
  induction h with
  | plain hw => exact not_congr (hw.mem (by decide))
  | paren hw _ _ _ _ ihr => exact and_congr (not_congr (hw.mem (by decide))) ihr

/-- Other blanks leave the arguments of calls filled. -/
lemma Respaced.filled (h : Respaced t t') (ht : t.Filled) : t'.Filled := by
  induction h with
  | plain => trivial
  | paren hw _ hi _ ihi ihr =>
    refine ⟨fun hcalled => ?_, ihi ht.2.1, ihr ht.2.2⟩
    rw [hi.blank_iff, hi.single_iff]
    exact ht.1 (by rwa [← hw.called])

/-- Other blanks leave the arguments of calls shallow. -/
lemma Respaced.shallow (h : Respaced t t') (ht : t.Shallow) : t'.Shallow := by
  induction h with
  | plain => trivial
  | paren hw _ hi _ ihi ihr =>
    refine ⟨fun hcalled => ?_, ihi ht.2.1, ihr ht.2.2⟩
    rw [hi.depth]
    exact ht.1 (by rwa [← hw.called])

/-- Other blanks make no marks. -/
lemma Respaced.erase_eq (h : Respaced t t') (ht : t.erase = t) : t'.erase = t' := by
  induction h with
  | plain => rfl
  | paren _ _ _ _ ihi ihr =>
    simp only [Layout.erase, Layout.paren.injEq, true_and] at ht ⊢
    exact ⟨ht.1, ihi ht.2.1, ihr ht.2.2⟩

end Layout
end Formulary.Formula
