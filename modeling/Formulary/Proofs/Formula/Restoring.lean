import Formulary.Proofs.Formula.Places

/-!
# Aliases are taken back

Symbols get their aliases in the order in which they are first met (`keys_aliased`). Where no word
follows a prime, the text with aliases falls into the same pieces as the text itself
(`renamed_pieces`), so that each alias can be taken back for its symbol (`aliased_faithful`).
-/

namespace Formulary.Formula

open Formulary.Text

/-- A text in which no prime stands right before a word. -/
def PrimesEndWords (s : List Char) : Prop := s.IsChain fun c d => c = '\'' → isWord d = false

instance (s : List Char) : Decidable (PrimesEndWords s) :=
  inferInstanceAs (Decidable (s.IsChain _))

/-- The symbol of a piece if it is to be renamed. -/
def Piece.renamable? : Piece → Option String
  | .other _ => none
  | .symbol name =>
    if isReserved (String.ofList name) then none else some (String.ofList name)

/-- A piece and what stands for it in the text with aliases. -/
inductive Piece.Renamed (a : Aliases) : Piece → Piece → Prop where
  | other (c : Char) : Renamed a (.other c) (.other c)
  | reserved {name : List Char} (h : isReserved (String.ofList name)) :
    Renamed a (.symbol name) (.symbol name)
  | symbol {name : List Char} {y : String} (h : isReserved (String.ofList name) = false)
    (hy : a.lookup (String.ofList name) = some y) : Renamed a (.symbol name) (.symbol y.toList)

/-- A piece in which an alias is taken back. -/
def Piece.restored (a : Aliases) : Piece → List Char
  | .other c => [c]
  | .symbol name => ((a.symbolOf? (String.ofList name)).map String.toList).getD name

/-- A text in which the aliases are taken back. -/
def restored (a : Aliases) (s : List Char) : List Char := (pieces s).flatMap (Piece.restored a)

variable {a b : Aliases} {s t : List Char} {ps qs : List Piece}

/-- A symbol without an alias is not among the keys. -/
lemma lookup_eq_none_iff_keys {x : String} : a.lookup x = none ↔ x ∉ a.map (·.1) := by
  simp only [List.lookup_eq_none_iff, List.mem_map, not_exists, not_and, bne_iff_ne]
  exact forall₂_congr fun _ _ => ne_comm

/-- Aliases are given to the symbols that have none yet, in the order in which they are met. -/
lemma keys_aliasPieces (a : Aliases) (ps : List Piece) :
    (aliasPieces a ps).2.map (·.1) =
      a.map (·.1) ++ ((ps.filterMap Piece.renamable?).removeAll (a.map (·.1))).eraseDups := by
  induction ps generalizing a with
  | nil => simp [aliasPieces, List.removeAll]
  | cons p ps ih =>
    rw [show (aliasPieces a (p :: ps)).2 = (aliasPieces (p.aliased a).2 ps).2 from rfl, ih]
    cases p with
    | other c => rfl
    | symbol name =>
      by_cases hr : isReserved (String.ofList name)
      · simp [Piece.aliased, Piece.renamable?, hr]
      · cases hknown : a.lookup (String.ofList name) with
        | some y =>
          have hname : String.ofList name ∈ a.map (·.1) := by
            by_contra h
            simp [lookup_eq_none_iff_keys.2 h] at hknown
          simp only [Piece.aliased, Piece.renamable?, hr, hknown, List.filterMap_cons]
          simp [List.removeAll, hname]
        | none =>
          have hname := lookup_eq_none_iff_keys.1 hknown
          simp only [Piece.aliased, Piece.renamable?, hr, hknown, List.filterMap_cons]
          simp [List.removeAll, hname, List.eraseDups_cons, List.filter_filter]
          refine congrArg List.eraseDups (List.filter_congr fun x _ => ?_)
          rw [Bool.eq_iff_iff]
          simp [and_comm]

/-- An alias is a symbol. -/
lemma isSymbol_alias (i : Nat) : isSymbol ("_s" ++ toString i).toList := by
  have hword : ∀ c ∈ 's' :: Nat.toDigits 10 i, isWord c := fun c hc =>
    isWord_of_isAlphanum (.inl (isAlphanum_of_mem_alias hc))
  rw [toList_alias, isSymbol, List.dropWhile_eq_nil_iff.2 hword]
  decide

/-- What renaming makes of a symbol: a reserved name stays, any other gets an alias. -/
lemma renamed_symbol (ha : a.Numbered) {name : List Char} (hname : isSymbol name) :
    ∃ m b, (Piece.symbol name).aliased a = (m, b) ∧ isSymbol m ∧ b.Numbered ∧ a.Extends b ∧
      Piece.Renamed b (.symbol name) (.symbol m) := by
  by_cases hr : isReserved (String.ofList name)
  · exact ⟨name, a, by simp [Piece.aliased, hr], hname, ha, .refl a, .reserved hr⟩
  · cases hknown : a.lookup (String.ofList name) with
    | some y =>
      refine ⟨y.toList, a, by simp [Piece.aliased, hr, hknown], ?_, ha, .refl a,
        .symbol (by simpa using hr) hknown⟩
      obtain ⟨i, rfl⟩ := ha.alias hknown
      exact isSymbol_alias i
    | none =>
      refine ⟨a.next.toList, a ++ [(String.ofList name, a.next)],
        by simp [Piece.aliased, hr, hknown], isSymbol_alias _, ha.concat _, fun x y hx => ?_,
        .symbol (by simpa using hr) ?_⟩
      · rw [Aliases.lookup_concat, hx, Option.some_or]
      · simp [Aliases.lookup_concat, hknown]

/-- What a piece is renamed to stays the same as more aliases are given. -/
lemma Piece.Renamed.mono {p q : Piece} (hab : a.Extends b) (h : Piece.Renamed a p q) :
    Piece.Renamed b p q := by
  cases h with
  | other c => exact .other c
  | reserved h => exact .reserved h
  | symbol h hy => exact .symbol h (hab _ _ hy)

/-- An alias is given once and for all. -/
lemma extends_aliasPieces (ha : a.Numbered) (h : ∀ name, .symbol name ∈ ps → isSymbol name) :
    a.Extends (aliasPieces a ps).2 := by
  induction ps generalizing a with
  | nil => exact .refl a
  | cons p ps ih =>
    have hps : ∀ name, .symbol name ∈ ps → isSymbol name := fun name hn => h name (by simp [hn])
    cases p with
    | other c => exact ih ha hps
    | symbol name =>
      obtain ⟨m, b, hm, -, hb, hab, -⟩ := renamed_symbol ha (h name (by simp))
      simp only [aliasPieces, hm]
      exact hab.trans (ih hb hps)

/-- Behind a symbol stands neither a word nor a prime. -/
lemma head_of_symbol {blocked : Bool} {name : List Char} (hs : PrimesEndWords s)
    (h : piecesFrom blocked s = .symbol name :: piecesFrom true t) :
    PrimesEndWords t ∧ t.head?.any adheres = false := by
  have hpieces : piecesFrom blocked s = [] ++ .symbol name :: piecesFrom true t := h
  obtain ⟨-, -, hprime, hword⟩ := symbol_of_piecesFrom hpieces
  have htext : name ++ t = s := by
    rw [← text_piecesFrom blocked s, h]
    simp [Piece.text, text_piecesFrom]
  rw [text_piecesFrom] at hprime hword
  rw [PrimesEndWords, ← htext, List.isChain_append] at hs
  refine ⟨hs.2.1, ?_⟩
  cases t with
  | nil => rfl
  | cons d t =>
    have hd : isWord d = false := by
      by_cases hlast : name.getLast? = some '\''
      · exact hs.2.2 _ hlast d rfl rfl
      · exact hword hlast
    have hd' : d ≠ '\'' := by simpa using hprime
    simp [adheres, hd, hd']

/-- A text in which no symbol may begin starts as before when its symbols are renamed. -/
lemma head?_aliasPieces (a : Aliases) (t : List Char) :
    (aliasPieces a (piecesFrom true t)).1.head? = t.head? := by
  cases t with
  | nil => simp [piecesFrom, aliasPieces]
  | cons c t => simp [piecesFrom, aliasPieces, Piece.aliased]

/-- The text with aliases falls into the same pieces as the text itself. -/
lemma renamed_pieces {blocked : Bool} (ha : a.Numbered) (hs : PrimesEndWords s)
    (hb : (aliasPieces a (piecesFrom blocked s)).2.Extends b) :
    List.Forall₂ (Piece.Renamed b) (piecesFrom blocked s)
      (piecesFrom blocked (aliasPieces a (piecesFrom blocked s)).1) := by
  fun_induction piecesFrom blocked s generalizing a with
  | case1 => simp [aliasPieces, piecesFrom]
  | case2 blocked c rest hc word afterWord primes =>
    rename_i ih
    have hpieces : piecesFrom blocked (c :: rest) = .symbol (c :: word ++ primes) ::
        piecesFrom true (afterWord.dropWhile (· == '\'')) := by
      rw [piecesFrom, if_pos hc]
    obtain ⟨ht, hhead⟩ := head_of_symbol hs hpieces
    have hname : isSymbol (c :: word ++ primes) :=
      isSymbol_of_mem_pieces (hpieces ▸ List.mem_cons_self)
    obtain ⟨m, a', hm, hsymbol, ha', -, hrenamed⟩ := renamed_symbol ha hname
    simp only [aliasPieces, hm] at hb ⊢
    -- The alias ends where the symbol did, since what follows it starts as before.
    have hends : EndsSymbol m (aliasPieces a' (piecesFrom true (afterWord.dropWhile (· == '\'')))).1 :=
      .of_head (by rwa [head?_aliasPieces])
    have hblocked : blocked = false := by
      simp only [Bool.and_eq_true, Bool.not_eq_true'] at hc
      exact hc.1
    have hextends := extends_aliasPieces ha' fun name
        (hn : .symbol name ∈ piecesFrom true (afterWord.dropWhile (· == '\''))) =>
      isSymbol_of_mem_pieces hn
    rw [hblocked, ← pieces, pieces_symbol_append hsymbol hends]
    exact .cons (hrenamed.mono (hextends.trans hb)) (ih ha' ht hb)
  | case3 blocked c rest hc ih =>
    simp only [aliasPieces, Piece.aliased, List.singleton_append] at hb ⊢
    rw [piecesFrom, if_neg hc]
    exact .cons (.other c) (ih ha hs.tail hb)

/-- Each alias is taken back for the symbol that it was given to. -/
lemma flatMap_restored (ha : a.Numbered) (h : List.Forall₂ (Piece.Renamed a) ps qs) :
    qs.flatMap (Piece.restored a) = ps.flatMap Piece.text := by
  induction h with
  | nil => rfl
  | cons hpq _ ih =>
    rw [List.flatMap_cons, List.flatMap_cons, ih]
    congr 1
    cases hpq with
    | other c => rfl
    | @reserved name h =>
      -- No alias is spelled like a reserved name.
      have hnone : a.symbolOf? (String.ofList name) = none := by
        rw [Aliases.symbolOf?, Option.map_eq_none_iff, List.find?_eq_none]
        intro e he heq
        obtain ⟨i, hi⟩ := ha.alias_of_mem he
        rw [← beq_iff_eq.1 heq, hi, isReserved_alias] at h
        cases h
      simp [Piece.restored, hnone, Piece.text]
    | symbol h hy => simp [Piece.restored, ha.symbolOf?_of_lookup hy, Piece.text]

/--
The aliases of a text are numbered in the order in which its symbols first stand in it, and no two
symbols share one. Where no prime stands right before a word, the text with aliases has a piece for
each piece of the text, and taking the aliases back gives the text.
-/
theorem aliased_faithful (hs : PrimesEndWords s) :
    (∀ x y z, (aliased s).2.lookup x = some z → (aliased s).2.lookup y = some z → x = y) ∧
    (aliased s).2.map (·.1) = ((pieces s).filterMap Piece.renamable?).eraseDups ∧
    (aliased s).2.map (·.2) =
      (List.range (aliased s).2.length).map (fun i => "_s" ++ toString i) ∧
    List.Forall₂ (Piece.Renamed (aliased s).2) (pieces s) (pieces (aliased s).1) ∧
    restored (aliased s).2 (aliased s).1 = s := by
  have hnumbered := Aliases.numbered_aliased s
  have hpieces : List.Forall₂ (Piece.Renamed (aliased s).2) (pieces s) (pieces (aliased s).1) :=
    renamed_pieces (a := []) rfl hs (.refl _)
  refine ⟨fun _ _ _ => hnumbered.lookup_injective, ?_, hnumbered, hpieces, ?_⟩
  · rw [aliased, keys_aliasPieces]
    simp [List.removeAll]
  · rw [restored, flatMap_restored hnumbered hpieces, text_pieces]

/-- Symbols that are spelled like aliases, in another order than theirs. -/
theorem aliased_faithful_alias :
    PrimesEndWords "_s1*e + sin(_s0) - f'/_s1".toList ∧
    aliased "_s1*e + sin(_s0) - f'/_s1".toList =
      ("_s0*e + sin(_s1) - _s2/_s0".toList, [("_s1", "_s0"), ("_s0", "_s1"), ("f'", "_s2")]) ∧
    restored [("_s1", "_s0"), ("_s0", "_s1"), ("f'", "_s2")]
      "_s0*e + sin(_s1) - _s2/_s0".toList = "_s1*e + sin(_s0) - f'/_s1".toList := by
  have hs : PrimesEndWords "_s1*e + sin(_s0) - f'/_s1".toList := by decide
  have haliased : aliased "_s1*e + sin(_s0) - f'/_s1".toList =
      ("_s0*e + sin(_s1) - _s2/_s0".toList,
        [("_s1", "_s0"), ("_s0", "_s1"), ("f'", "_s2")]) := by
    rw [aliased_eq]
    decide +kernel
  have h := aliased_faithful hs
  rw [haliased] at h
  exact ⟨hs, haliased, h.2.2.2.2⟩

end Formulary.Formula
