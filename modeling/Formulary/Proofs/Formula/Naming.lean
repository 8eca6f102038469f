import Formulary.Proofs.Formula.Lexeme

/-!
# Aliases of lexemes

In a text that consists of fitting lexemes exactly the symbols are replaced by aliases
(`Written.renamed`): numerals and reserved names stay, and what a symbol is replaced by stays the
same to the end of the text.
-/

namespace Formulary.Formula

open Formulary.Text Formulary.Token

variable {a b : Aliases} {l : Lexeme} {ls : List Lexeme} {s u v : List Char} {c : Char}

/-- A symbol written as its alias. -/
def Aliases.text (a : Aliases) (s : Symbol) : List Char := ((a.lookup s.name).getD s.name).toList

/-- One table of aliases goes on with another one. -/
def Aliases.Extends (a b : Aliases) : Prop := ∀ x y, a.lookup x = some y → b.lookup x = some y

/-- Aliases go on with themselves. -/
lemma Aliases.Extends.refl (a : Aliases) : a.Extends a := fun _ _ h => h

/-- What goes on with aliases that go on with others goes on with those. -/
lemma Aliases.Extends.trans {c : Aliases} (hab : a.Extends b) (hbc : b.Extends c) : a.Extends c :=
  fun x y h => hbc x y (hab x y h)

/-- The symbol that comes next is appended. -/
lemma Aliases.lookup_concat (a : Aliases) (x y z : String) :
    (a ++ [(x, y)]).lookup z = (a.lookup z).or (if z = x then some y else none) := by
  induction a with
  | nil =>
    by_cases h : z = x
    · simp [h]
    · simp [List.lookup_cons, h, beq_eq_false_iff_ne.2 h]
  | cons e a ih =>
    rw [List.cons_append, List.lookup_cons, List.lookup_cons, ih]
    split <;> simp

/-- An alias in a numbered table. -/
lemma Aliases.Numbered.alias_of_mem {e : String × String} (ha : a.Numbered) (h : e ∈ a) :
    ∃ i : Nat, e.2 = "_s" ++ toString i := by
  have hmem := List.mem_map_of_mem (f := (·.2)) h
  rw [ha] at hmem
  obtain ⟨i, -, hi⟩ := List.mem_map.1 hmem
  exact ⟨i, hi.symm⟩

/-- What is found among numbered aliases is an alias. -/
lemma Aliases.Numbered.alias {x y : String} (ha : a.Numbered) (h : a.lookup x = some y) :
    ∃ i : Nat, y = "_s" ++ toString i :=
  ha.alias_of_mem (mem_of_lookup h)

/-- No alias is reserved. -/
lemma isReserved_alias (i : Nat) : isReserved ("_s" ++ toString i) = false := by
  have hplain : ∀ n ∈ reservedNames, '_' ∉ n.toList := by decide
  rw [isReserved, ← Bool.not_eq_true, List.contains_iff_mem]
  intro h
  exact hplain _ h (by simp)

/-- The characters of an alias. -/
lemma toList_alias (i : Nat) : ("_s" ++ toString i).toList = '_' :: 's' :: Nat.toDigits 10 i := by
  rw [String.toList_append, Nat.toString_eq_repr, Nat.toList_repr]
  rfl

/-- Behind its underscore an alias consists of letters and digits. -/
lemma isAlphanum_of_mem_alias {i : Nat} (h : c ∈ 's' :: Nat.toDigits 10 i) : c.isAlphanum := by
  obtain rfl | hc := List.mem_cons.1 h
  · decide
  · exact isAlphanum_of_isDigit (Nat.isDigit_of_mem_toDigits (by decide) (by decide) hc)

/-- Symbols written as numbered aliases adhere. -/
lemma Aliases.Numbered.adhering (ha : a.Numbered) : Adhering a.text := by
  intro s
  rw [Aliases.text]
  cases h : a.lookup s.name with
  | none => exact adhering_text s
  | some y =>
    obtain ⟨i, rfl⟩ := ha.alias h
    rw [Option.getD_some, toList_alias]
    refine ⟨by simp, fun c hc => ?_⟩
    obtain rfl | hc := List.mem_cons.1 hc
    · decide
    · simp [adheres, isWord_of_isAlphanum (.inl (isAlphanum_of_mem_alias hc))]

/-- Pieces end where a character follows that stands in no symbol. -/
lemma pieces_append (h : ∀ c ∈ v.head?, blocksSymbol c = false) :
    pieces (u ++ v) = pieces u ++ pieces v := by
  cases v with
  | nil => simp [pieces, piecesFrom]
  | cons c v =>
    have hc := h c rfl
    have hv : piecesFrom false (c :: v) = .other c :: piecesFrom false v := by
      simpa [piecesFrom] using @piecesFrom_cons false [] v c hc
    rw [pieces, pieces, pieces, piecesFrom_cons hc, hv]

/--
Texts are renamed one after the other if nothing at the beginning of the second one blocks a symbol.
-/
lemma renamed_append_of_head (h : ∀ c ∈ v.head?, blocksSymbol c = false) :
    renamed a (u ++ v) =
      ((renamed a u).1 ++ (renamed (renamed a u).2 v).1, (renamed (renamed a u).2 v).2) := by
  rw [renamed, pieces_append h, aliasPieces_append]
  rfl

/-- A symbol is one piece. -/
lemma pieces_symbol {n : List Char} (h : isSymbol n) : pieces n = [.symbol n] := by
  cases n with
  | nil => cases h
  | cons c rest =>
    simp only [isSymbol, Bool.and_eq_true] at h
    have hprimes : (rest.dropWhile isWord).takeWhile (· == '\'') = rest.dropWhile isWord :=
      List.takeWhile_eq_self_iff.2 (List.all_eq_true.1 h.2)
    have hrest : (rest.dropWhile isWord).dropWhile (· == '\'') = [] :=
      List.dropWhile_eq_nil_iff.2 (List.all_eq_true.1 h.2)
    rw [pieces, piecesFrom]
    simp [h.1, hprimes, hrest, piecesFrom]

/-- Where no character can begin a symbol, nothing is renamed. -/
lemma aliasPieces_of_blocked {blocked : Bool}
    (hhead : ∀ c ∈ s.head?, isWordStart c → blocked)
    (hchain : s.IsChain fun c d => isWordStart d → blocksSymbol c) :
    aliasPieces a (piecesFrom blocked s) = (s, a) := by
  induction s generalizing blocked with
  | nil => simp [piecesFrom, aliasPieces]
  | cons c s ih =>
    have hc : ¬ ((!blocked && isWordStart c) = true) := by
      intro h
      simp only [Bool.and_eq_true, Bool.not_eq_true'] at h
      rw [hhead c rfl h.2] at h
      cases h.1
    have hnext : ∀ d ∈ s.head?, isWordStart d → blocksSymbol c := by
      intro d hd
      cases s with
      | nil => cases hd
      | cons e s =>
        cases hd
        exact (List.isChain_cons_cons.1 hchain).1
    rw [piecesFrom, if_neg hc]
    simp [aliasPieces, Piece.aliased, ih hnext hchain.tail]

/-- No symbol begins in a numeral. -/
lemma numeral_blocks (n : Numeral) : (∀ c ∈ n.text.head?, isWordStart c = false) ∧
    n.text.IsChain fun c d => isWordStart d → blocksSymbol c := by
  obtain ⟨⟨hchars, hchain⟩, c, t, htext, hc⟩ := n.spelled
  refine ⟨fun d hd => ?_, ?_⟩
  · rw [htext] at hd
    cases hd
    obtain hc | ⟨rfl, -⟩ := hc
    · simp [isWordStart, (isDigit_of_char hc).1]
    · decide
  · refine hchain.imp fun c d hnext hstart => ?_
    simp only [isWordStart, Bool.and_eq_true, Bool.not_eq_true'] at hstart
    have hword : ∀ {c : Char}, c.isAlphanum ∨ c = '_' → blocksSymbol c := fun h => by
      simp [blocksSymbol, isWord_of_isAlphanum h]
    simp only [numeralNext, Bool.or_eq_true, Bool.and_eq_true, beq_iff_eq] at hnext
    obtain ((((hd | rfl) | rfl) | rfl) | ⟨-, hc⟩) | ⟨-, hc⟩ := hnext
    · rw [(isDigit_of_char hd).1] at hstart
      cases hstart.2
    · exact absurd hstart.1 (by decide)
    · exact absurd hstart.1 (by decide)
    · exact absurd hstart.1 (by decide)
    · exact hword (.inl hc)
    · obtain (hc | hc) | rfl := hc
      · exact hword (.inl hc)
      · exact hword (.inr hc)
      · decide

/-- In a numeral nothing is renamed. -/
lemma renamed_numeral (n : Numeral) : renamed a n.text = (n.text, a) := by
  refine aliasPieces_of_blocked (fun c hc hstart => ?_) (numeral_blocks n).2
  rw [(numeral_blocks n).1 c hc] at hstart
  cases hstart

/-- The aliases that renaming leaves, given the symbols that it has met. -/
structure Names (a : Aliases) (symbols : List Symbol) (b : Aliases) : Prop where
  numbered : b.Numbered
  kept : a.Extends b
  isSome_lookup : ∀ x, (b.lookup x).isSome ↔ (a.lookup x).isSome ∨ ∃ s ∈ symbols, s.name = x

/-- Without symbols the aliases stay the same. -/
lemma Names.refl (ha : a.Numbered) : Names a [] a := ⟨ha, .refl a, by simp⟩

/-- Symbols are given aliases one after the other. -/
lemma Names.trans {c : Aliases} {ss ts : List Symbol} (hab : Names a ss b) (hbc : Names b ts c) :
    Names a (ss ++ ts) c where
  numbered := hbc.numbered
  kept := hab.kept.trans hbc.kept
  isSome_lookup x := by
    rw [hbc.isSome_lookup, hab.isSome_lookup]
    simp only [List.mem_append, or_assoc, or_and_right, exists_or]

/-- What renaming makes of a lexeme: it is the same for all aliases that go on with those it leaves. -/
structure Named (a : Aliases) (l : Lexeme) (r : List Char × Aliases) : Prop where
  names : Names a (Lexeme.symbols [l]) r.2
  text : ∀ b, r.2.Extends b → r.1 = l.text b.text

/-- A lexeme that is no symbol stays. -/
lemma named_of_renamed (ha : a.Numbered) (hl : ∀ s, l ≠ .symbol s)
    (h : renamed a (l.text Symbol.text) = (l.text Symbol.text, a)) :
    Named a l (renamed a (l.text Symbol.text)) := by
  have hnone : Lexeme.symbols [l] = [] := by
    cases l with
    | symbol s => exact absurd rfl (hl s)
    | _ => rfl
  rw [h]
  refine ⟨hnone ▸ .refl ha, fun b _ => ?_⟩
  cases l with
  | symbol s => exact absurd rfl (hl s)
  | _ => rfl

/-- A reserved name stays. -/
lemma renamed_reserved {n : String} (hn : isSymbol n.toList) (hr : isReserved n) :
    renamed a n.toList = (n.toList, a) := by
  rw [renamed, pieces_symbol hn]
  simp [aliasPieces, Piece.aliased, hr]

/-- A symbol is replaced by its alias, which is a new one if it has none yet. -/
lemma named_symbol (ha : a.Numbered) (s : Symbol) : Named a (.symbol s) (renamed a s.text) := by
  have hsymbols : ∀ x, (∃ t ∈ Lexeme.symbols [.symbol s], t.name = x) ↔ s.name = x := by
    simp [Lexeme.symbols]
  have htext : ∀ {b : Aliases} {y}, b.lookup s.name = some y →
      (Lexeme.symbol s).text b.text = y.toList := by
    intro b y hy
    show b.text s = y.toList
    rw [Aliases.text, hy, Option.getD_some]
  have hpiece : renamed a s.text = (a.lookup s.name).elim
      (a.next.toList, a ++ [(s.name, a.next)]) fun known => (known.toList, a) := by
    have hs : renamed a s.text = aliasPieces a [.symbol s.text] :=
      congrArg (aliasPieces a) (pieces_symbol s.isSymbol)
    rw [hs]
    simp only [aliasPieces, Piece.aliased, Symbol.text, String.ofList_toList, s.unreserved,
      Bool.false_eq_true, if_false]
    cases a.lookup s.name <;> simp
  cases hknown : a.lookup s.name with
  | some y =>
    rw [hpiece, hknown, Option.elim_some]
    refine ⟨⟨ha, .refl a, fun x => ?_⟩, fun b hb => (htext (hb _ _ hknown)).symm⟩
    rw [hsymbols]
    refine ⟨.inl, fun h => h.elim id ?_⟩
    rintro rfl
    simp [hknown]
  | none =>
    rw [hpiece, hknown, Option.elim_none]
    refine ⟨⟨ha.concat s.name, fun x y hx => ?_, fun x => ?_⟩, fun b hb => (htext (hb _ _ ?_)).symm⟩
    · rw [Aliases.lookup_concat, hx, Option.some_or]
    · rw [Aliases.lookup_concat, hsymbols]
      by_cases hx : x = s.name
      · simp [hx, hknown]
      · simp [hx, Ne.symm hx]
    · rw [Aliases.lookup_concat, hknown]
      simp

/-- Of the lexemes only symbols are renamed. -/
lemma named_lexeme (ha : a.Numbered) (l : Lexeme) : Named a l (renamed a (l.text Symbol.text)) := by
  cases l with
  | numeral n => exact named_of_renamed ha nofun (renamed_numeral n)
  | symbol s => exact named_symbol ha s
  | function f =>
    exact named_of_renamed ha nofun (renamed_reserved (by cases f <;> decide) (by cases f <;> decide))
  | constant k =>
    exact named_of_renamed ha nofun (renamed_reserved (by cases k <;> decide) (by cases k <;> decide))
  | mark m =>
    refine named_of_renamed ha nofun ?_
    have hm := renamed_cons_head (a := a) (v := []) (blocksSymbol_of_isSeparator (isSeparator_mark m))
    rwa [renamed_nil] at hm

/-- Renaming a lexeme, and then what follows it. -/
lemma Written.renamed_cons (h : Written Symbol.text ls s) (hls : ∀ l' ∈ ls.head?, l.fits l') :
    renamed a (l.text Symbol.text ++ s) =
      ((renamed a (l.text Symbol.text)).1 ++ (renamed (renamed a (l.text Symbol.text)).2 s).1,
        (renamed (renamed a (l.text Symbol.text)).2 s).2) := by
  cases l with
  | mark m =>
    have hm := blocksSymbol_of_isSeparator (isSeparator_mark m)
    have hsingle : renamed a ((Lexeme.mark m).text Symbol.text) = ([m.char], a) := by
      rw [show (Lexeme.mark m).text Symbol.text = [m.char] from rfl, renamed_cons_head hm, renamed_nil]
    rw [hsingle]
    exact renamed_cons_head hm
  | _ =>
    exact renamed_append_of_head fun c hc =>
      blocksSymbol_of_isSeparator (h.isSeparator_head adhering_text hls rfl c hc)

/-- Exactly the symbols are renamed, each by its alias to the end of the text. -/
theorem Written.renamed (h : Written Symbol.text ls s) (hls : ls.IsChain fun l l' => l.fits l')
    (ha : a.Numbered) :
    Names a (Lexeme.symbols ls) (renamed a s).2 ∧
      ∀ b, (Formula.renamed a s).2.Extends b → Written b.text ls (Formula.renamed a s).1 := by
  induction h generalizing a with
  | nil =>
    rw [renamed_nil]
    exact ⟨.refl ha, fun _ _ => .nil⟩
  | gap hc _ ih =>
    obtain ⟨hnames, hwritten⟩ := ih hls ha
    rw [renamed_cons_head (blocksSymbol_of_isSeparator (isSeparator_of_isGap hc))]
    exact ⟨hnames, fun b hb => .gap hc (hwritten b hb)⟩
  | @lexeme l ls s h ih =>
    obtain ⟨hnames, htext⟩ := named_lexeme ha l
    obtain ⟨hnames', hwritten⟩ := ih hls.tail hnames.numbered
    rw [h.renamed_cons (fits_head hls)]
    refine ⟨?_, fun b hb => ?_⟩
    · have := hnames.trans hnames'
      rwa [← show Lexeme.symbols (l :: ls) = Lexeme.symbols [l] ++ Lexeme.symbols ls from
        List.filterMap_append (l := [l])] at this
    · rw [htext b (hnames'.kept.trans hb)]
      exact .lexeme (hwritten b hb)

end Formulary.Formula
