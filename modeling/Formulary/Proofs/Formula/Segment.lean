import Formulary.Formula.Degrees
import Formulary.Proofs.Formula.Renaming
import Formulary.Proofs.Formula.Substitution
import Formulary.Proofs.Text.Word

/-!
# Segments

What a formula consists of between its parentheses is plain text: words, numerals, signs and gaps
(`IsPlain`). A segment can end with the name of a trigonometric function, at once (`callee?`) or
with blanks after it (`called?`); then its last token is that name (`lexes_called`).
-/

namespace Formulary.Formula

open Formulary.Text Formulary.Token

/-- Whether a character can stand in a formula outside of symbols and parentheses. -/
def isPlainChar (c : Char) : Bool :=
  isInline c && (isWord c || c.toNat < 128) && c != '=' && (!isBlank c || isGap c)

/--
A segment of a formula: what is no part of a symbol is plain, and no word goes on after a prime.
-/
structure IsPlain (w : List Char) : Prop where
  others : ∀ c, .other c ∈ pieces w → isPlainChar c
  primes : ∀ u c v, w = u ++ '\'' :: c :: v → isWord c = false

variable {blocked : Bool} {w u v s : List Char} {c : Char}

/-- Whether a piece is a symbol or a plain character. -/
def isPlainPiece : Piece → Bool
  | .other c => isPlainChar c
  | .symbol _ => true

/-- A text without primes is plain if all characters outside of symbols are. -/
lemma IsPlain.of_pieces (hprime : '\'' ∉ w) (h : (piecesWithin w.length false w).all isPlainPiece) :
    IsPlain w where
  others c hc := by
    rw [pieces, ← piecesWithin_eq (Nat.le_refl _)] at hc
    exact List.all_eq_true.1 h _ hc
  primes u c v hw := by
    subst hw
    simp at hprime

/-- The characters of a symbol are word characters and primes. -/
lemma mem_symbol {n : List Char} (h : .symbol n ∈ piecesFrom blocked s) :
    ∀ c ∈ n, isWord c ∨ c = '\'' := by
  fun_induction piecesFrom blocked s with
  | case1 => cases h
  | case2 blocked d rest hd word afterWord primes ih =>
    obtain h | h := List.mem_cons.1 h
    · cases h
      intro c hc
      rw [List.cons_append, List.mem_cons, List.mem_append] at hc
      obtain rfl | hc | hc := hc
      · simp only [isWordStart, Bool.and_eq_true] at hd
        exact .inl hd.2.1
      · exact .inl (List.all_eq_true.1 List.all_takeWhile c hc)
      · exact .inr (by simpa using List.all_eq_true.1 List.all_takeWhile c hc)
    · exact ih h
  | case3 blocked d rest hd ih =>
    obtain h | h := List.mem_cons.1 h
    · cases h
    · exact ih h

/-- What stands in a segment: words, primes and plain characters. -/
lemma IsPlain.char (h : IsPlain w) (hc : c ∈ w) : isWord c ∨ c = '\'' ∨ isPlainChar c := by
  rw [← text_pieces w, List.mem_flatMap] at hc
  obtain ⟨p, hp, hc⟩ := hc
  cases p with
  | other d =>
    obtain rfl : c = d := by simpa [Piece.text] using hc
    exact .inr (.inr (h.others c hp))
  | symbol n =>
    obtain hc | hc := mem_symbol hp c hc
    · exact .inl hc
    · exact .inr (.inl hc)

/-- The characters of names and aliases are word characters. -/
lemma isWord_aliased {a : Aliases} (ha : a.Numbered) (n : List Char) :
    ((Piece.symbol n).aliased a).1 ≠ [] ∧ ∀ c ∈ ((Piece.symbol n).aliased a).1, isWord c := by
  have halias : ∀ i : Nat, ("_s" ++ toString i).toList ≠ [] ∧
      ∀ c ∈ ("_s" ++ toString i).toList, isWord c := by
    intro i
    rw [String.toList_append, Nat.toString_eq_repr, Nat.toList_repr]
    refine ⟨by simp, fun c hc => ?_⟩
    obtain hc | hc := List.mem_append.1 hc
    · have hall : ∀ c ∈ "_s".toList, isWord c := List.all_eq_true.1 (by decide)
      exact hall c hc
    · have := Nat.isDigit_of_mem_toDigits (by decide) (by decide) hc
      exact isWord_of_isAlphanum (.inl (by simp [Char.isAlphanum, this]))
  simp only [Piece.aliased]
  split
  · rename_i hr
    have hall : ∀ n ∈ reservedNames, n.toList ≠ [] ∧ n.toList.all Char.isAlphanum := by decide
    obtain ⟨hne, hc⟩ := hall _ (by simpa [isReserved] using hr)
    rw [String.toList_ofList] at hne hc
    rw [List.all_eq_true] at hc
    exact ⟨hne, fun c h => isWord_of_isAlphanum (.inl (hc c h))⟩
  · split
    · rename_i known hknown
      have hmem := List.mem_map_of_mem (f := (·.2)) (mem_of_lookup hknown)
      rw [ha] at hmem
      obtain ⟨i, -, rfl⟩ := List.mem_map.1 hmem
      exact halias i
    · exact halias a.length

/-- The characters of a renamed text are those outside of symbols, and word characters. -/
lemma mem_aliasPieces {a : Aliases} (ha : a.Numbered) {ps : List Piece}
    (h : c ∈ (aliasPieces a ps).1) : .other c ∈ ps ∨ isWord c := by
  induction ps generalizing a with
  | nil => cases h
  | cons p ps ih =>
    obtain h | h := List.mem_append.1 h
    · cases p with
      | other d =>
        obtain rfl : c = d := by simpa [Piece.aliased] using h
        exact .inl (by simp)
      | symbol n => exact .inr ((isWord_aliased ha n).2 c h)
    · exact (ih (Aliases.numbered_aliasPieces ha [p]) h).imp_left (List.mem_cons_of_mem p)

/-- Characters of words are inline. -/
lemma isInline_of_isWord (h : isWord c) : isInline c := by
  by_contra hc
  simp only [isInline, List.contains_eq_mem, List.mem_cons, List.not_mem_nil, or_false,
    Bool.not_eq_true', decide_eq_false_iff_not, not_not] at hc
  obtain rfl | rfl | rfl | rfl | rfl | rfl | rfl | rfl | rfl | rfl := hc <;>
    exact absurd h (by decide)

/-- Power signs open, close and hide nothing. -/
lemma inline_withPowerSigns (h : Layout.Inline s) : Layout.Inline (withPowerSigns s) := by
  intro c hc
  obtain ⟨d, hd, hc⟩ := List.mem_flatMap.1 hc
  split at hc
  · obtain rfl : c = '*' := by simpa using hc
    decide
  · obtain rfl : c = d := by simpa using hc
    exact h c hd

/-- A plain segment stays free of brackets when it is read. -/
theorem IsPlain.inline (h : IsPlain w) {a : Aliases} (ha : a.Numbered) :
    Layout.Inline (withPowerSigns (renamed a w).1) := by
  refine inline_withPowerSigns fun c hc => ?_
  obtain hc | hc := mem_aliasPieces ha hc
  · have hplain := h.others c hc
    simp only [isPlainChar, Bool.and_eq_true] at hplain
    exact hplain.1.1.1
  · exact isInline_of_isWord hc

/-- Whether a text ends with the name of a function. -/
def calls (f : Function) (w : List Char) : Bool :=
  match dropPrefix? f.name.toList.reverse w.reverse with
  | some before => !continuesWord before.head?
  | none => false

/-- The trigonometric function with whose name a text ends. -/
def callee? (w : List Char) : Option Function := Function.trigonometric.find? (calls · w)

/-- A text without the blanks at its end. -/
def trimEnd (w : List Char) : List Char := (w.reverse.dropWhile isBlank).reverse

/-- The trigonometric function with whose name a text ends, blanks left aside. -/
def called? (w : List Char) : Option Function := callee? (trimEnd w)

/-- A function is called where its name stands as a word of its own. -/
lemma calls_iff {f : Function} :
    calls f w ↔ ∃ u, w = u ++ f.name.toList ∧ continuesWord u.getLast? = false := by
  unfold calls
  constructor
  · intro h
    split at h
    · rename_i before hbefore
      rw [dropPrefix?_eq_some, List.reverse_eq_iff, List.reverse_append, List.reverse_reverse]
        at hbefore
      exact ⟨before.reverse, hbefore, by simpa using h⟩
    · cases h
  · rintro ⟨u, rfl, hu⟩
    rw [dropPrefix?_eq_some.2 List.reverse_append]
    simpa using hu

/-- The letters of function names are word characters. -/
lemma name_letters (f : Function) : ∀ c ∈ f.name.toList, isWord c := by
  have hall : ∀ f ∈ Function.all, f.name.toList.all Char.isAlphanum := by decide
  exact fun c hc => isWord_of_isAlphanum (.inl (List.all_eq_true.1 (hall f f.mem_all) c hc))

/-- Functions have names. -/
lemma name_ne_nil (f : Function) : f.name.toList ≠ [] := by
  cases f <;> decide

/-- A text ends with the name of one function at most. -/
lemma calls_unique {f g : Function} (hf : calls f w) (hg : calls g w) : f = g := by
  obtain ⟨u, rfl, hu⟩ := calls_iff.1 hf
  obtain ⟨v, hv, hlast⟩ := calls_iff.1 hg
  -- The longer name would end with the shorter one, but a letter before that goes on with a word.
  have hshort : ∀ {f g : Function} {u v x : List Char}, g.name.toList = x ++ f.name.toList →
      u = v ++ x → continuesWord u.getLast? = false → f = g := by
    intro f g u v x hname hx hu
    cases x using List.reverseRecOn with
    | nil => exact Function.name_injective (String.toList_inj.1 hname.symm)
    | append_singleton x c =>
      have hc : isWord c := name_letters g c (by rw [hname]; simp)
      subst hx
      simp [← List.append_assoc, continuesWord, hc] at hu
  obtain ⟨x, hx, hname⟩ | ⟨x, hx, hname⟩ := List.append_eq_append_iff.1 hv
  · exact (hshort hname hx hlast).symm
  · exact hshort hname hx hu

/-- The function that is called is the trigonometric one with whose name the text ends. -/
lemma callee?_eq_some {f : Function} :
    callee? w = some f ↔ f ∈ Function.trigonometric ∧ calls f w := by
  constructor
  · intro h
    exact ⟨List.mem_of_find?_eq_some h, List.find?_some (p := (calls · w)) h⟩
  · rintro ⟨hf, hcalls⟩
    cases h : callee? w with
    | none => exact absurd hcalls (List.find?_eq_none.1 h f hf)
    | some g => rw [calls_unique (List.find?_some (p := (calls · w)) h) hcalls]

/-- Nothing is dropped from a text that does not end with a blank. -/
lemma trimEnd_of_getLast (h : ∀ c ∈ w.getLast?, isBlank c = false) : trimEnd w = w := by
  unfold trimEnd
  cases hw : w.reverse with
  | nil => rw [List.reverse_eq_nil_iff.1 hw, List.dropWhile_nil, List.reverse_nil]
  | cons c s =>
    have hc : isBlank c = false := h c (by rw [← List.head?_reverse, hw]; rfl)
    rw [List.dropWhile_cons_of_neg (by simp [hc]), ← hw, List.reverse_reverse]

/-- The last character of two texts is that of the second one, if it has any. -/
lemma getLast?_append_of_ne_nil (h : v ≠ []) : (u ++ v).getLast? = v.getLast? := by
  rw [List.getLast?_append, List.getLast?_eq_some_getLast h, Option.some_or]

/-- A text that ends with the name of a function has no blanks at its end. -/
lemma trimEnd_of_calls {f : Function} (h : calls f w) : trimEnd w = w := by
  obtain ⟨u, rfl, -⟩ := calls_iff.1 h
  refine trimEnd_of_getLast fun c hc => ?_
  rw [getLast?_append_of_ne_nil (name_ne_nil f)] at hc
  by_contra hblank
  have hword := name_letters f c (List.mem_of_getLast? hc)
  rw [isWord_of_isBlank (by simpa using hblank)] at hword
  cases hword

/-- A function that is called at once is called. -/
lemma called?_of_callee? {f : Function} (h : callee? w = some f) : called? w = some f := by
  rw [called?, trimEnd_of_calls (callee?_eq_some.1 h).2, h]

/-- What stands before a name in a segment can come before a symbol. -/
lemma IsPlain.before {f : Function} (h : IsPlain (u ++ (f.name.toList ++ v)))
    (hu : continuesWord u.getLast? = false) :
    ∀ c ∈ u.getLast?, blocksSymbol c = false ∧ isPlainChar c := by
  intro c hc
  rw [hc] at hu
  simp only [continuesWord, Bool.or_eq_false_iff, beq_eq_false_iff_ne] at hu
  obtain ⟨hword, hpoint⟩ := hu
  have hprime : c ≠ '\'' := by
    rintro rfl
    obtain ⟨u, rfl⟩ : ∃ x, u = x ++ ['\''] := List.getLast?_eq_some_iff.1 hc
    cases hname : f.name.toList with
    | nil => exact name_ne_nil f hname
    | cons d l =>
      have hd := name_letters f d (by simp [hname])
      rw [h.primes u d (l ++ v) (by simp [hname])] at hd
      cases hd
  refine ⟨by simp [blocksSymbol, hword, hpoint, hprime], ?_⟩
  obtain hc | hc | hc := h.char (c := c) (by simp [List.mem_of_getLast? hc])
  · rw [hword] at hc
    cases hc
  · exact absurd hc hprime
  · exact hc

/-- Renaming passes over a text whose last character cannot come before a symbol. -/
lemma renamed_append {a : Aliases} (hu : ∀ c ∈ u.getLast?, blocksSymbol c = false) :
    renamed a (u ++ v) = ((renamed a u).1 ++ (renamed (renamed a u).2 v).1,
      (renamed (renamed a u).2 v).2) ∧ (renamed a u).1.getLast? = u.getLast? := by
  cases u using List.reverseRecOn with
  | nil => simp [renamed_nil]
  | append_singleton u c =>
    have hc := hu c (by simp)
    rw [List.append_assoc, List.singleton_append, renamed_cons hc, renamed_cons hc, renamed_nil]
    simp

/-- A function keeps its name when symbols are renamed. -/
lemma renamed_name (a : Aliases) (f : Function) : renamed a f.name.toList = (f.name.toList, a) := by
  have hpieces : ∀ f ∈ Function.all, piecesWithin f.name.toList.length false f.name.toList =
      [.symbol f.name.toList] := by
    decide
  have hreserved : isReserved f.name := by
    have hall : ∀ f ∈ Function.all, isReserved f.name := by decide
    exact hall f f.mem_all
  have hp : pieces f.name.toList = [.symbol f.name.toList] := by
    rw [pieces, ← piecesWithin_eq (Nat.le_refl _)]
    exact hpieces f f.mem_all
  simp [renamed, hp, aliasPieces, Piece.aliased, hreserved]

/-- A name lexes as itself. -/
lemma lexes_name (f : Function) : Lexes f.name.toList [.name f.name] := by
  have hall : ∀ f ∈ Function.all, take? f.name.toList = some (.name f.name, []) ∧
      f.name.toList.all fun c => !isGap c && !isQuote c := by
    decide +kernel
  obtain ⟨htake, hc⟩ := hall f f.mem_all
  simp only [List.all_eq_true, Bool.and_eq_true, Bool.not_eq_true'] at hc
  cases hname : f.name.toList with
  | nil => exact absurd hname (name_ne_nil f)
  | cons c s =>
    rw [hname] at htake hc
    obtain ⟨hgap, hquote⟩ := hc c (by simp)
    exact .token hgap hquote htake .nil

/-- Blanks do not block symbols. -/
lemma blocksSymbol_of_isBlank (h : isBlank c) : blocksSymbol c = false := by
  have hpoint : c ≠ '.' := by
    rintro rfl
    cases h
  have hprime : c ≠ '\'' := by
    rintro rfl
    cases h
  simp [blocksSymbol, isWord_of_isBlank h, hpoint, hprime]

/-- Blanks keep their place when symbols are renamed. -/
lemma renamed_blanks {a : Aliases} (hv : ∀ c ∈ v, isBlank c) : renamed a v = (v, a) := by
  induction v with
  | nil => rw [renamed_nil]
  | cons c v ih =>
    rw [renamed_cons_head (blocksSymbol_of_isBlank (hv c (by simp))),
      ih fun d hd => hv d (by simp [hd])]

/-- Blanks at the end of a text are left alone. -/
lemma renamed_append_blanks {a : Aliases} (hv : ∀ c ∈ v, isBlank c) :
    renamed a (u ++ v) = ((renamed a u).1 ++ v, (renamed a u).2) := by
  cases v with
  | nil => simp
  | cons c v =>
    have hrest : ∀ a, renamed a v = (v, a) := fun a => renamed_blanks fun d hd => hv d (by simp [hd])
    rw [renamed_cons (blocksSymbol_of_isBlank (hv c (by simp))), hrest]

/-- Power signs are replaced in one text and in the other. -/
lemma withPowerSigns_append : withPowerSigns (u ++ v) = withPowerSigns u ++ withPowerSigns v :=
  List.flatMap_append

/-- Without power signs nothing is replaced. -/
lemma withPowerSigns_of_notMem (h : '^' ∉ s) : withPowerSigns s = s := by
  induction s with
  | nil => rfl
  | cons c s ih =>
    simp only [List.mem_cons, not_or] at h
    have hc : c ≠ '^' := fun he => h.1 he.symm
    simp only [withPowerSigns, List.flatMap_cons, hc, if_false, List.singleton_append]
    exact congrArg (c :: ·) (ih h.2)

/-- A plain character that ends no word ends no token either. -/
lemma IsPlain.sign (hc : isPlainChar c) (hblocks : blocksSymbol c = false) :
    continuesName c = false ∧ c ≠ '.' := by
  simp only [blocksSymbol, Bool.or_eq_false_iff, beq_eq_false_iff_ne] at hblocks
  obtain ⟨⟨hword, hpoint⟩, -⟩ := hblocks
  simp only [isPlainChar, hword, Bool.false_or, Bool.and_eq_true, decide_eq_true_eq] at hc
  refine ⟨?_, hpoint⟩
  have halnum : c.isAlphanum = false ∧ c ≠ '_' := by
    rw [← Bool.not_eq_true, ← not_or]
    intro h
    rw [isWord_of_isAlphanum h] at hword
    cases hword
  simp [continuesName, halnum, hc.1.1.2]

/-- The last character of a text with the power signs of expressions. -/
lemma getLast?_withPowerSigns (hc : s.getLast? = some c) :
    (withPowerSigns s).getLast? = some (if c = '^' then '*' else c) := by
  obtain ⟨s, rfl⟩ := List.getLast?_eq_some_iff.1 hc
  rw [withPowerSigns_append]
  by_cases h : c = '^'
  · subst h
    simp [withPowerSigns]
  · simp [withPowerSigns, h]

/-- The blanks of a plain segment are gaps between tokens. -/
lemma IsPlain.isGap (h : IsPlain w) (hc : c ∈ w) (hblank : isBlank c) : isGap c := by
  obtain hc | rfl | hc := h.char hc
  · rw [isWord_of_isBlank hblank] at hc
    cases hc
  · cases hblank
  · simp only [isPlainChar, hblank, Bool.not_true, Bool.false_or, Bool.and_eq_true] at hc
    exact hc.2

/-- Gaps have no tokens. -/
lemma lexes_gaps {ts : List Token} (hs : ∀ c ∈ s, isGap c) : Lexes s ts ↔ ts = [] := by
  induction s with
  | nil =>
    refine ⟨fun h => ?_, fun h => h ▸ .nil⟩
    cases h
    rfl
  | cons c s ih => rw [lexes_gap (hs c (by simp)), ih fun d hd => hs d (by simp [hd])]

/-- A segment that calls a function lexes with its name at the end. -/
theorem lexes_called {f : Function} {a : Aliases} {ts : List Token} (hw : IsPlain w)
    (hf : called? w = some f) (h : Lexes (withPowerSigns (renamed a w).1) ts) :
    ∃ ts₀, ts = ts₀ ++ [.name f.name] := by
  obtain ⟨g, hg, hgw⟩ : ∃ g, (∀ c ∈ g, isBlank c) ∧ w = trimEnd w ++ g := by
    refine ⟨(w.reverse.takeWhile isBlank).reverse, fun c hc => ?_, ?_⟩
    · exact List.all_eq_true.1 List.all_takeWhile c (List.mem_reverse.1 hc)
    · rw [trimEnd, ← List.reverse_append, List.takeWhile_append_dropWhile, List.reverse_reverse]
  obtain ⟨u, hu, hbefore⟩ := calls_iff.1 (callee?_eq_some.1 hf).2
  rw [hu, List.append_assoc] at hgw
  subst hgw
  have hlast := hw.before hbefore
  obtain ⟨hrenamed, hlast'⟩ := renamed_append (a := a) (v := f.name.toList ++ g) fun c hc =>
    (hlast c hc).1
  have hpower : '^' ∉ f.name.toList ++ g := by
    intro hc
    obtain hc | hc := List.mem_append.1 hc
    · exact absurd (name_letters f _ hc) (by decide)
    · exact absurd (hg _ hc) (by decide)
  rw [hrenamed, renamed_append_blanks hg, renamed_name, withPowerSigns_append,
    withPowerSigns_of_notMem hpower] at h
  have hgaps : ∀ c ∈ g, Token.isGap c := fun c hc => hw.isGap (by simp [hc]) (hg c hc)
  have hcut : Cut (withPowerSigns (renamed a u).1) (f.name.toList ++ g) := by
    intro hne b hb
    rw [List.head?_append_of_ne_nil _ (name_ne_nil f)] at hb
    have halpha : ∀ f ∈ Function.all, f.name.toList.head?.all Char.isAlpha := by decide
    have hfirst := halpha f f.mem_all
    rw [Option.mem_def.1 hb] at hfirst
    refine .inr ⟨hfirst, ?_⟩
    cases hc : u.getLast? with
    | none =>
      rw [hc, List.getLast?_eq_none_iff] at hlast'
      rw [hlast'] at hne
      exact absurd rfl hne
    | some c =>
      obtain ⟨hblocks, hplain⟩ := hlast c hc
      refine ⟨_, getLast?_withPowerSigns (hlast'.trans hc), ?_⟩
      split
      · decide
      · exact IsPlain.sign hplain hblocks
  have hcut' : Cut f.name.toList g := by
    cases g with
    | nil => exact .of_nil
    | cons c g => exact .of_delimiter (isDelimiter_of_isGap (hgaps c (by simp)))
  obtain ⟨ts₀, _, -, hrest, rfl⟩ := (lexes_append hcut).1 h
  obtain ⟨_, _, hname, hend, rfl⟩ := (lexes_append hcut').1 hrest
  rw [hname.unique (lexes_name f), (lexes_gaps hgaps).1 hend]
  exact ⟨ts₀, by simp⟩

end Formulary.Formula
