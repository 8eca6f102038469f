import Formulary.Proofs.Expression.Converts
import Formulary.Proofs.Formula.Respacing

/-!
# Tokens of marked layouts

The tokens of a layout are those of the layout without marks, with the arguments of all marked calls
multiplied and those of all other calls left out (`converts_text`).
-/

namespace Formulary.Formula

open Formulary.Text Formulary.Token Formulary.Parser

variable {w s : List Char} {a : Aliases} {ts : List Token}

/-- What is read of an inline text are inline tokens. -/
lemma isInlineToken_of_lexes (h : Lexes s ts) (hs : Layout.Inline s) : ∀ t ∈ ts, isInlineToken t := by
  induction h with
  | nil => exact nofun
  | gap _ _ ih => exact ih fun c hc => hs c (by simp [hc])
  | @token c s t r ts hc hquote htake _ ih =>
    have hinline := hs c (by simp)
    have hsuffix := (take?_suffix hquote htake).subset
    intro u hu
    obtain rfl | hu := List.mem_cons.1 hu
    · exact isInlineToken_of_take? hinline htake
    · exact ih (fun d hd => hs d (List.mem_cons_of_mem c (hsuffix hd))) u hu

/-- Without a comma in an inline text, none is read. -/
lemma comma_notMem_of_lexes (h : Lexes s ts) (hs : Layout.Inline s) (hcomma : ',' ∉ s) :
    Token.sign "," ∉ ts := by
  induction h with
  | nil => exact nofun
  | gap _ _ ih =>
    exact ih (fun c hc => hs c (by simp [hc])) fun hc => hcomma (by simp [hc])
  | @token c s t r ts hc hquote htake _ ih =>
    have hsuffix := (take?_suffix hquote htake).subset
    intro hmem
    obtain rfl | hmem := List.mem_cons.1 hmem
    · exact hcomma (by rw [eq_comma_of_take? (hs c (by simp)) htake]; simp)
    · exact ih (fun d hd => hs d (List.mem_cons_of_mem c (hsuffix hd)))
        (fun hd => hcomma (List.mem_cons_of_mem c (hsuffix hd))) hmem

/-- A comma belongs to no symbol. -/
lemma comma_notMem_prepared (ha : a.Numbered) (h : ',' ∉ w) :
    ',' ∉ withPowerSigns (renamed a w).1 := by
  intro hmem
  obtain ⟨d, hd, hc⟩ := List.mem_flatMap.1 hmem
  split at hc
  · exact absurd hc (by decide)
  · obtain rfl : ',' = d := by simpa using hc
    obtain hd | hd := mem_aliasPieces ha hd
    · refine h ?_
      rw [← text_pieces w]
      exact List.mem_flatMap.2 ⟨_, hd, by simp [Piece.text]⟩
    · exact absurd hd (by decide)

/-- Every piece is written into the renamed text. -/
lemma exists_aliased (ha : a.Numbered) {p : Piece} {ps : List Piece} (h : p ∈ ps) :
    ∃ a' : Aliases, a'.Numbered ∧ ∀ c ∈ (p.aliased a').1, c ∈ (aliasPieces a ps).1 := by
  induction ps generalizing a with
  | nil => cases h
  | cons q ps ih =>
    obtain rfl | h := List.mem_cons.1 h
    · exact ⟨a, ha, fun c hc => List.mem_append_left _ hc⟩
    · obtain ⟨a', ha', hmem⟩ := ih (Aliases.numbered_aliasPieces ha [q]) h
      exact ⟨a', ha', fun c hc => List.mem_append_right _ (hmem c hc)⟩

/-- A text without tokens consists of gaps. -/
lemma isGap_of_lexes_nil (h : Lexes s []) : ∀ c ∈ s, Token.isGap c := by
  generalize hts : ([] : List Token) = ts at h
  induction h with
  | nil => exact nofun
  | gap hc _ ih =>
    intro d hd
    obtain rfl | hd := List.mem_cons.1 hd
    · exact hc
    · exact ih hts d hd
  | token => cases hts

/-- Only blanks are read as nothing. -/
lemma isBlank_of_lexes_nil (ha : a.Numbered) (h : Lexes (withPowerSigns (renamed a w).1) []) :
    ∀ c ∈ w, isBlank c := by
  have hgap : ∀ c ∈ (renamed a w).1, Token.isGap c := by
    intro c hc
    have hpower : (if c = '^' then '*' else c) ∈ withPowerSigns (renamed a w).1 := by
      refine List.mem_flatMap.2 ⟨c, hc, ?_⟩
      split <;> simp
    have := isGap_of_lexes_nil h _ hpower
    split at this
    · exact absurd this (by decide)
    · exact this
  intro c hc
  rw [← text_pieces w] at hc
  obtain ⟨p, hp, hc⟩ := List.mem_flatMap.1 hc
  obtain ⟨a', ha', hmem⟩ := exists_aliased ha hp
  cases p with
  | other d =>
    obtain rfl : c = d := by simpa [Piece.text] using hc
    exact isBlank_of_isGap (hgap c (hmem c (by simp [Piece.aliased])))
  | symbol n =>
    obtain ⟨hne, hword⟩ := isWord_aliased ha' n
    obtain ⟨d, hd⟩ := List.exists_mem_of_ne_nil _ hne
    have hdword := hword d hd
    rw [isWord_of_isBlank (isBlank_of_isGap (hgap d (hmem d hd)))] at hdword
    cases hdword

namespace Layout

variable {σ : List Bool} {c m : Nat} {t i r : Layout} {A A' k k' : List Token}

/-- How many calls are marked. -/
def converted : Layout → Nat
  | plain _ => 0
  | paren m _ i r => m.toNat + i.converted + r.converted

/-- Only calls are marked. -/
def Sound : Layout → Prop
  | plain _ => True
  | paren m w i r => (m → (called? w).isSome) ∧ i.Sound ∧ r.Sound

/-- In a layout without marks, only calls are marked. -/
lemma sound_of_erase (h : t.erase = t) : t.Sound := by
  induction t with
  | plain w => trivial
  | paren m w i r ihi ihr =>
    simp only [erase, paren.injEq, true_and] at h
    obtain ⟨rfl, hi, hr⟩ := h
    exact ⟨by simp, ihi hi, ihr hr⟩

/-- A pass marks calls only. -/
lemma Sound.pass {f : Function} (h : t.Sound) (hf : f ∈ Function.trigonometric) : (t.pass f).Sound := by
  induction t with
  | plain w => trivial
  | paren m w i r ihi ihr =>
    obtain ⟨hm, hi, hr⟩ := h
    simp only [Layout.pass]
    split
    · rename_i hcall
      refine ⟨fun _ => ?_, hi, ihr hr⟩
      rw [called?_of_callee? (callee?_eq_some.2 ⟨hf, hcall.2.1⟩)]
      rfl
    · exact ⟨hm, ihi hi, ihr hr⟩

/-- Passes mark calls only. -/
lemma Sound.passes {fs : List Function} (h : t.Sound) (hfs : fs ⊆ Function.trigonometric) :
    (t.passes fs).Sound := by
  induction fs generalizing t with
  | nil => exact h
  | cons f fs ih =>
    exact ih (h.pass (hfs (by simp))) fun g hg => hfs (by simp [hg])

/-- Every call is marked or missed. -/
lemma Sound.converted_add_missed (h : t.Sound) : t.converted + t.missed = t.callees.length := by
  induction t with
  | plain w => rfl
  | paren m w i r ihi ihr =>
    obtain ⟨hm, hi, hr⟩ := h
    have ihi := ihi hi
    have ihr := ihr hr
    simp only [converted, missed, callees, List.length_append]
    cases hcalled : called? w with
    | none =>
      cases m with
      | false => simp; omega
      | true =>
        have := hm rfl
        rw [hcalled] at this
        cases this
    | some f => cases m <;> simp <;> omega

/-- Without its marks a layout is blank if it is. -/
lemma blank_erase : t.erase.Blank ↔ t.Blank := by
  cases t <;> rfl

/-- Without its marks a layout has no commas if it has none. -/
lemma single_erase : t.erase.Single ↔ t.Single := by
  induction t with
  | plain w => rfl
  | paren m w i r _ ihr => exact and_congr .rfl ihr

/-- Without its marks a layout has filled calls if it has. -/
lemma filled_erase : t.erase.Filled ↔ t.Filled := by
  induction t with
  | plain w => rfl
  | paren m w i r ihi ihr =>
    simp only [erase, Filled, blank_erase, single_erase, ihi, ihr]

/-- Without its marks a layout has the same calls. -/
lemma callees_erase : t.erase.callees = t.callees := by
  induction t with
  | plain w => rfl
  | paren m w i r ihi ihr => simp only [erase, callees, ihi, ihr]

/-- Without its marks a layout has the same aliases. -/
lemma renamed_erase : (t.erase.renamed a).2 = (t.renamed a).2 := by
  induction t generalizing a with
  | plain w => rfl
  | paren m w i r ihi ihr => simp only [erase, renamed, ihi, ihr]

/-- Without its marks a layout has the same segments. -/
lemma All.erase {P : List Char → Prop} (h : t.All P) : t.erase.All P := by
  induction t with
  | plain w => exact h
  | paren m w i r ihi ihr => exact ⟨h.1, ihi h.2.1, ihr h.2.2⟩

/-- The segments of a legible layout are inline as they are read. -/
lemma All.inline (h : t.All Legible) (ha : a.Numbered) : (t.prepared a).All Inline := by
  induction t generalizing a with
  | plain w => exact Legible.inline h ha
  | paren m w i r ihi ihr =>
    have hnext : (Formula.renamed a w).2.Numbered := Aliases.numbered_aliasPieces ha _
    exact ⟨h.1.inline ha, ihi h.2.1 hnext, ihr h.2.2 (numbered_renamed hnext i)⟩

/-- What is not blank is not read as nothing. -/
lemma ne_nil_of_lexes (ha : a.Numbered) (h : Lexes (t.prepared a).text ts) (ht : ¬ t.Blank) :
    ts ≠ [] := by
  rintro rfl
  cases t with
  | plain w => exact ht (isBlank_of_lexes_nil ha h)
  | paren m w i r =>
    rw [prepared_paren, lexes_paren] at h
    obtain ⟨_, _, _, -, -, -, heq⟩ := h
    simp at heq

/-- The first token of a layout closes nothing. -/
lemma head?_of_lexes (h : Lexes t.text ts) (ht : t.All Inline) : ts.head? ≠ some (.sign ")") := by
  intro hhead
  obtain ⟨ts, rfl⟩ := List.head?_eq_some_iff.1 hhead
  cases t with
  | plain w => exact absurd (isInlineToken_of_lexes h ht (.sign ")") (by simp)) (by decide)
  | paren m w i r =>
    obtain ⟨x, y, z, hx, -, -, heq⟩ := lexes_paren.1 h
    cases x with
    | nil => simp at heq
    | cons t x =>
      cases heq
      exact absurd (isInlineToken_of_lexes hx ht.1 (.sign ")") (by simp)) (by decide)

/-- Tokens that are ordinary convert to themselves. -/
lemma converts_append (h : Converts σ c m k k') (hA : ∀ t ∈ A, Ordinary σ t) :
    Converts σ c m (A ++ k) (A ++ k') := by
  induction A with
  | nil => exact h
  | cons t A ih => exact .token (hA t (by simp)) (ih fun u hu => hA u (by simp [hu]))

/-- The tokens of a segment stay as they are. -/
lemma ordinary_of_lexes {x : List Token} (hw : Legible w) (ha : a.Numbered)
    (hx : Lexes (withPowerSigns (Formula.renamed a w).1) x) (hpoint : Token.sign "." ∉ x)
    (hσ : σ.head? = some false ∨ ',' ∉ w) : ∀ t ∈ x, Ordinary σ t := by
  intro t ht
  have hinline := hw.inline ha
  refine ⟨isInlineToken_of_lexes hx hinline t ht, ?_, ?_⟩
  · rintro rfl
    exact hpoint ht
  · rintro rfl
    refine hσ.resolve_right fun hcomma => ?_
    exact comma_notMem_of_lexes hx hinline (comma_notMem_prepared ha hcomma) ht

/-- The tokens of a layout, in place of those without its marks. -/
theorem converts_text (ht : t.All Legible) (hfilled : t.Filled) (hsound : t.Sound) (ha : a.Numbered)
    (hA : Lexes (t.erase.prepared a).text A) (hA' : Lexes (t.prepared a).text A')
    (hpoint : Token.sign "." ∉ A) (hσ : σ.head? = some false ∨ t.Single) (hk : Converts σ c m k k') :
    Converts σ (c + t.converted) (m + t.missed) (A ++ k) (A' ++ k') := by
  -- From the end: what stands behind a pair of parentheses is converted before what stands in it,
  -- since the closing parenthesis belongs to what follows.
  induction t generalizing a σ c m A A' k k' with
  | plain w =>
    obtain rfl := hA.unique hA'
    exact converts_append hk (ordinary_of_lexes ht ha hA hpoint hσ)
  | paren b w i r ihi ihr =>
    obtain ⟨hw, hi, hr⟩ := ht
    obtain ⟨hfw, hfi, hfr⟩ := hfilled
    obtain ⟨hsw, hsi, hsr⟩ := hsound
    have hnext : (Formula.renamed a w).2.Numbered := Aliases.numbered_aliasPieces ha _
    have hlast := numbered_renamed hnext i
    rw [erase, prepared_paren, lexes_paren] at hA
    rw [prepared_paren, lexes_paren] at hA'
    obtain ⟨x, y, z, hx, hy, hz, rfl⟩ := hA
    obtain ⟨x', y', z', hx', hy', hz', rfl⟩ := hA'
    obtain rfl := hx.unique hx'
    rw [renamed_erase] at hz
    simp only [wrapTokens, Bool.false_eq_true, if_false, List.mem_append, List.mem_cons, not_or]
      at hpoint
    have hsingle : σ.head? = some false ∨ ',' ∉ w := hσ.imp_right And.left
    have hordinary := ordinary_of_lexes hw ha hx hpoint.1 hsingle
    have hrest := ihr hr hfr hsr hlast hz hz' hpoint.2.2.2.2 (hσ.imp_right And.right) hk
    have hinner := fun hb => ihi hi hfi hsi hnext hy hy' hpoint.2.2.1 hb (.close (b := b) hrest)
    cases hcalled : called? w with
    | none =>
      obtain rfl : b = false := by
        by_contra hb
        have := hsw (by simpa using hb)
        rw [hcalled] at this
        cases this
      have := converts_append (.group (hinner (.inl rfl))) hordinary
      simpa [converted, missed, hcalled, wrapTokens, closing, Nat.add_assoc, Nat.add_comm,
        Nat.add_left_comm] using this
    | some f =>
      obtain ⟨hblank, hsinglei⟩ := hfw (by rw [hcalled]; rfl)
      obtain ⟨x, rfl⟩ := hw.named ha hcalled hx
      have hhead : (y ++ .sign ")" :: (z ++ k)).head? ≠ some (.sign ")") := by
        have hy_ne := ne_nil_of_lexes hnext hy (mt blank_erase.1 hblank)
        rw [List.head?_append_of_ne_nil _ hy_ne]
        exact head?_of_lexes hy (hi.erase.inline hnext)
      have hcall := Converts.call (called?_mem hcalled) hhead (hinner (.inr hsinglei))
      have := converts_append (A := x) hcall fun t ht => hordinary t (by simp [ht])
      cases b <;>
        simpa [converted, missed, hcalled, wrapTokens, opening, closing, Nat.add_assoc, Nat.add_comm,
          Nat.add_left_comm] using this

end Layout
end Formulary.Formula
