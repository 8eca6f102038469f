import Formulary.Proofs.Formula.Naming
import Formulary.Proofs.Formula.Order

/-!
# The places of a symbol

Aliases are given to the symbols that `pieces` finds in a text, and values are written in place of
the runs that are the name (`substitute_eq`). Both depend only on the neighbours of an occurrence
(`mem_tokenPlaces`, `mem_replacedPlaces`), but not in the same way: behind a point no symbol begins,
and behind a prime a symbol ends whatever follows. Where neither matters, the two find a symbol at
the same places.
-/

namespace Formulary.Formula

open Formulary.Text Formulary.Token

/-- The places, counted from `i`, of those parts of a cut text that satisfy a condition. -/
def placesOf {α : Type} (text : α → List Char) (p : α → Bool) (i : Nat) : List α → List Nat
  | [] => []
  | a :: l =>
    let later := placesOf text p (i + (text a).length) l
    if p a then i :: later else later

/-- The places at which a symbol is found when aliases are given. -/
def tokenPlaces (n : String) (s : List Char) : List Nat :=
  placesOf Piece.text (· == .symbol n.toList) 0 (pieces s)

/-- The places at which a value is written in for a name. -/
def replacedPlaces (n : String) (s : List Char) : List Nat :=
  placesOf id (· == n.toList) 0 (runs s)

/-- A place is where a part begins that satisfies the condition. -/
lemma mem_placesOf {α : Type} {text : α → List Char} {p : α → Bool} {i k : Nat} {l : List α} :
    i ∈ placesOf text p k l ↔
      ∃ l₁ a l₂, l = l₁ ++ a :: l₂ ∧ p a ∧ k + (l₁.flatMap text).length = i := by
  induction l generalizing k with
  | nil => simp [placesOf]
  | cons b l ih =>
    have hcons : i ∈ placesOf text p k (b :: l) ↔
        (p b ∧ k = i) ∨ i ∈ placesOf text p (k + (text b).length) l := by
      rw [placesOf]
      split <;> rename_i hb <;> simp [hb, eq_comm]
    rw [hcons, ih]
    constructor
    · rintro (⟨hb, rfl⟩ | ⟨l₁, a, l₂, rfl, ha, rfl⟩)
      · exact ⟨[], b, l, rfl, hb, rfl⟩
      · exact ⟨b :: l₁, a, l₂, rfl, ha, by simp [Nat.add_assoc]⟩
    · rintro ⟨l₁, a, l₂, hl, ha, rfl⟩
      cases l₁ with
      | nil =>
        cases hl
        exact .inl ⟨ha, rfl⟩
      | cons b' l₁ =>
        cases hl
        exact .inr ⟨l₁, a, l₂, rfl, ha, by simp [Nat.add_assoc]⟩

/-- Places are counted upwards. -/
lemma pairwise_placesOf {α : Type} {text : α → List Char} {p : α → Bool} {k : Nat} {l : List α}
    (hl : ∀ a ∈ l, text a ≠ []) :
    (∀ i ∈ placesOf text p k l, k ≤ i) ∧ (placesOf text p k l).Pairwise (· < ·) := by
  induction l generalizing k with
  | nil => simp [placesOf]
  | cons a l ih =>
    obtain ⟨hle, hpairwise⟩ := ih (k := k + (text a).length) fun b hb => hl b (by simp [hb])
    have hpos := List.length_pos_iff.2 (hl a (by simp))
    rw [placesOf]
    split
    · refine ⟨List.forall_mem_cons.2 ⟨Nat.le_refl k, fun i hi => ?_⟩,
        List.pairwise_cons.2 ⟨fun i hi => ?_, hpairwise⟩⟩ <;>
      · have := hle i hi
        omega
    · exact ⟨fun i hi => Nat.le_of_add_right_le (hle i hi), hpairwise⟩

/-- A text with other characters written in place of `len` characters at each of the places. -/
def writtenAt (len : Nat) (lit : List Char) (k : Nat) : List Nat → List Char → List Char
  | [], s => s
  | i :: places, s =>
    s.take (i - k) ++ (lit ++ writtenAt len lit (i + len) places (s.drop (i - k + len)))

/-- Parts that are replaced are the places that are written at. -/
lemma flatMap_eq_writtenAt {α : Type} {text : α → List Char} {p : α → Bool} {len k : Nat}
    {lit : List Char} {l : List α} (hl : ∀ a ∈ l, text a ≠ [])
    (hlen : ∀ a ∈ l, p a → (text a).length = len) :
    (l.flatMap fun a => if p a then lit else text a) =
      writtenAt len lit k (placesOf text p k l) (l.flatMap text) := by
  induction l generalizing k with
  | nil => rfl
  | cons a l ih =>
    have hl' : ∀ b ∈ l, text b ≠ [] := fun b hb => hl b (by simp [hb])
    have hrest := ih (k := k + (text a).length) hl' fun b hb => hlen b (by simp [hb])
    rw [List.flatMap_cons, List.flatMap_cons, placesOf, hrest]
    by_cases ha : p a
    · simp [ha, writtenAt, ← hlen a (by simp) ha]
    · have hle := (pairwise_placesOf (p := p) (k := k + (text a).length) hl').1
      rw [if_neg ha, if_neg ha]
      cases hplaces : placesOf text p (k + (text a).length) l with
      | nil => rfl
      | cons i places =>
        obtain ⟨d, rfl⟩ := Nat.exists_eq_add_of_le (hle i (by simp [hplaces]))
        have hd : k + (text a).length + d - k = (text a).length + d := by omega
        simp only [writtenAt, hd, Nat.add_sub_cancel_left]
        rw [List.take_length_add_append, Nat.add_assoc (text a).length, List.drop_length_add_append,
          List.append_assoc]

variable {s u t : List Char} {n m : String} {i j : Nat}

/-- Whether a symbol that is read as far as possible ends before the given text. -/
def EndsSymbol (n t : List Char) : Prop :=
  t.head? ≠ some '\'' ∧ (n.getLast? ≠ some '\'' → t.head?.any isWord = false)

/-! ### The runs of a text -/

/-- Runs that stand apart from what follows do so together. -/
lemma Apart.flatten_left {l : List (List Char)} {r : List Char} (hne : [] ∉ l)
    (h : (l ++ [r]).IsChain Apart) : Apart l.flatten r := by
  cases l using List.reverseRecOn with
  | nil => exact .nil_left r
  | append_singleton l t =>
    have ht : t ≠ [] := fun ht => hne (by simp [ht])
    rw [List.flatten_append, List.flatten_singleton]
    intro x hx
    rw [List.getLast?_append_of_ne_nil _ ht] at hx
    exact (List.isChain_append.1 h).2.2 t (by simp) r rfl x hx

/-- A name is replaced where it stands free. -/
lemma mem_replacedPlaces (hn : IsName n.toList) : i ∈ replacedPlaces n s ↔
    ∃ u t, s = u ++ (n.toList ++ t) ∧ u.length = i ∧ u.getLast?.any adheres = false ∧
      t.head?.any adheres = false := by
  obtain ⟨c, name, hname⟩ := List.exists_cons_of_ne_nil hn.1
  have hc : adheres c := hn.2 c (by simp [hname])
  simp only [replacedPlaces, mem_placesOf, beq_iff_eq, Nat.zero_add]
  constructor
  · rintro ⟨l₁, r, l₂, hl, rfl, rfl⟩
    have hchain : (l₁ ++ n.toList :: l₂).IsChain Apart := hl ▸ isChain_runs s
    have hne : [] ∉ l₁ ++ n.toList :: l₂ := hl ▸ nil_notMem_runs s
    simp only [List.mem_append, List.mem_cons, not_or] at hne
    have hleft : Apart l₁.flatten n.toList := .flatten_left hne.1 (by
      rw [show l₁ ++ n.toList :: l₂ = (l₁ ++ [n.toList]) ++ l₂ by simp] at hchain
      exact hchain.left_of_append)
    have hright : Apart n.toList l₂.flatten := .flatten hne.2.2 hchain.right_of_append
    refine ⟨l₁.flatten, l₂.flatten, ?_, by simp, ?_, ?_⟩
    · rw [← flatten_runs s, hl]
      simp
    · cases hu : l₁.flatten.getLast? with
      | none => rfl
      | some x => simpa [glued, hc] using hleft x hu c (by simp [hname])
    · have hlast := List.getLast?_eq_some_getLast hn.1
      exact not_adheres_of_apart hright hlast (hn.2 _ (List.getLast_mem hn.1))
  · rintro ⟨u, t, rfl, rfl, hu, ht⟩
    have hhead : ∀ x ∈ t.head?, adheres x = false := by
      intro x hx
      simpa [Option.mem_def.1 hx] using ht
    have hleft : Apart u (n.toList ++ t) := by
      intro x hx y _
      have : adheres x = false := by simpa [Option.mem_def.1 hx] using hu
      simp [glued, this]
    refine ⟨runs u, n.toList, runs t, ?_, rfl, by simp⟩
    rw [runs_append hleft, runs_append (apart_of_head hhead), runs_name hn]
    rfl

/-! ### The pieces of a text -/

/-- What is left after dropping characters does not begin with one of them. -/
lemma head?_dropWhile {p : Char → Bool} {l : List Char} :
    (l.dropWhile p).head?.any p = false := by
  induction l with
  | nil => rfl
  | cons c l ih => by_cases hc : p c <;> simp [hc, ih]

/-- Nothing is dropped from a text that does not begin with such a character. -/
lemma dropWhile_of_head {p : Char → Bool} {l : List Char} (h : l.head?.any p = false) :
    l.dropWhile p = l := by
  cases l with
  | nil => rfl
  | cons c l => simpa using h

/-- The characters that are dropped from a text are those before the first other one. -/
lemma dropWhile_append_of_head {p : Char → Bool} {r : List Char} (hr : ∀ c ∈ r, p c)
    (ht : t.head?.any p = false) : (r ++ t).dropWhile p = t := by
  rw [List.dropWhile_append_of_pos hr, dropWhile_of_head ht]

/-- What is found as a symbol is one. -/
lemma isSymbol_of_mem_pieces {blocked : Bool} {name : List Char}
    (h : .symbol name ∈ piecesFrom blocked s) : isSymbol name := by
  fun_induction piecesFrom blocked s with
  | case1 => cases h
  | case2 blocked c rest hc word afterWord primes ih =>
    obtain h | h := List.mem_cons.1 h
    · cases h
      simp only [Bool.and_eq_true, Bool.not_eq_true'] at hc
      have hprimes : ∀ d ∈ primes, d == '\'' := fun _ => List.mem_takeWhile_imp
      have hhead : primes.head?.any isWord = false := by
        cases hp : primes with
        | nil => rfl
        | cons d q =>
          have hd : d = '\'' := by simpa [hp] using hprimes d
          simp [hd, show isWord '\'' = false by decide]
      simp only [List.cons_append, isSymbol, Bool.and_eq_true, List.all_eq_true]
      exact ⟨hc.2, by rwa [dropWhile_append_of_head (fun _ => List.mem_takeWhile_imp) hhead]⟩
    · exact ih h
  | case3 blocked c rest hc ih =>
    obtain h | h := List.mem_cons.1 h
    · cases h
    · exact ih h

/-- No piece of a text is empty. -/
lemma text_ne_nil_of_mem_pieces {blocked : Bool} {p : Piece} (h : p ∈ piecesFrom blocked s) :
    p.text ≠ [] := by
  cases p with
  | other c => exact List.cons_ne_nil c []
  | symbol name =>
    rintro rfl
    exact nomatch isSymbol_of_mem_pieces h

/-- What stands before and behind a symbol among the pieces of a text. -/
lemma symbol_of_piecesFrom {blocked : Bool} {name : List Char} {l₁ l₂ : List Piece}
    (h : piecesFrom blocked s = l₁ ++ .symbol name :: l₂) :
    (l₁.flatMap Piece.text = [] → blocked = false) ∧
      (l₁.flatMap Piece.text).getLast?.any blocksSymbol = false ∧
      EndsSymbol name (l₂.flatMap Piece.text) := by
  revert l₁ h
  fun_induction piecesFrom blocked s with
  | case1 => simp
  | case2 blocked c rest hc word afterWord primes =>
    rename_i ih
    intro l₁ h
    simp only [Bool.and_eq_true, Bool.not_eq_true'] at hc
    cases l₁ with
    | nil =>
      simp only [List.nil_append, List.cons.injEq, Piece.symbol.injEq] at h
      obtain ⟨rfl, rfl⟩ := h
      rw [text_piecesFrom]
      have hprime := head?_dropWhile (p := (· == '\'')) (l := afterWord)
      refine ⟨fun _ => hc.1, rfl, fun hhead => by simp [hhead] at hprime, fun hlast => ?_⟩
      -- Without primes at its end the symbol is a word, which ends before no word character.
      have hnone : afterWord.head?.any (· == '\'') = false := by
        cases hafter : afterWord with
        | nil => rfl
        | cons d rest' =>
          by_contra hd
          have hd : d = '\'' := by simpa using hd
          refine hlast ?_
          have hne : primes ≠ [] := by simp [primes, hafter, hd]
          rw [List.getLast?_append_of_ne_nil _ hne, List.getLast?_eq_some_getLast hne]
          simpa using List.mem_takeWhile_imp (List.getLast_mem hne)
      rw [dropWhile_of_head hnone]
      exact head?_dropWhile
    | cons p l₁ =>
      simp only [List.cons_append, List.cons.injEq] at h
      obtain ⟨rfl, h⟩ := h
      obtain ⟨hblocked, hlast, hends⟩ := ih h
      have hne : l₁.flatMap Piece.text ≠ [] := by
        intro hnil
        cases hblocked hnil
      refine ⟨by simp [Piece.text], ?_, hends⟩
      rwa [List.flatMap_cons, List.getLast?_append_of_ne_nil _ hne]
  | case3 blocked c rest hc ih =>
    intro l₁ h
    cases l₁ with
    | nil => simp at h
    | cons p l₁ =>
      simp only [List.cons_append, List.cons.injEq] at h
      obtain ⟨rfl, h⟩ := h
      obtain ⟨hblocked, hlast, hends⟩ := ih h
      refine ⟨by simp [Piece.text], ?_, hends⟩
      by_cases hnil : l₁.flatMap Piece.text = []
      · simpa [hnil, Piece.text] using hblocked hnil
      · rwa [List.flatMap_cons, List.getLast?_append_of_ne_nil _ hnil]

/-- Pieces begin anew behind a character that can stand before a symbol. -/
lemma pieces_append_of_getLast (hu : u.getLast?.any blocksSymbol = false) :
    pieces (u ++ t) = pieces u ++ pieces t := by
  cases u using List.reverseRecOn with
  | nil => simp [pieces, piecesFrom]
  | append_singleton u c =>
    have hc : blocksSymbol c = false := by simpa using hu
    rw [List.append_assoc, List.singleton_append, pieces, pieces, pieces, piecesFrom_cons hc,
      piecesFrom_cons hc]
    simp [piecesFrom]

/-- A symbol that ends is the first piece of a text. -/
lemma pieces_symbol_append {name : List Char} (hn : isSymbol name) (ht : EndsSymbol name t) :
    pieces (name ++ t) = .symbol name :: piecesFrom true t := by
  cases name with
  | nil => cases hn
  | cons c rest =>
    simp only [isSymbol, Bool.and_eq_true] at hn
    obtain ⟨hc, hprimes⟩ := hn
    have hprimes : ∀ d ∈ rest.dropWhile isWord, d == '\'' := List.all_eq_true.1 hprimes
    have ht' : t.head?.any (· == '\'') = false := by
      cases t with
      | nil => rfl
      | cons d t => simpa [EndsSymbol] using ht.1
    have hafter : (rest.dropWhile isWord ++ t).head?.any isWord = false := by
      cases hq : rest.dropWhile isWord with
      | nil =>
        refine ht.2 fun hlast => ?_
        have hword : ∀ d ∈ c :: rest, isWord d := by
          simp only [isWordStart, Bool.and_eq_true] at hc
          exact List.forall_mem_cons.2 ⟨hc.1, List.dropWhile_eq_nil_iff.1 hq⟩
        exact absurd (hword _ (List.mem_of_getLast? hlast)) (by decide)
      | cons d q =>
        have hd : d = '\'' := by simpa [hq] using hprimes d
        simp [hd, show isWord '\'' = false by decide]
    have hrest : rest ++ t = rest.takeWhile isWord ++ (rest.dropWhile isWord ++ t) := by
      rw [← List.append_assoc, List.takeWhile_append_dropWhile]
    have hword : ∀ d ∈ rest.takeWhile isWord, isWord d := fun _ => List.mem_takeWhile_imp
    rw [List.cons_append, pieces, piecesFrom, if_pos (by simpa using hc), hrest]
    simp only [takeWhile_append_of_head hword hafter, dropWhile_append_of_head hword hafter,
      takeWhile_append_of_head hprimes ht', dropWhile_append_of_head hprimes ht']
    rw [List.cons_append, List.takeWhile_append_dropWhile]

/-- A symbol is found where it stands at full length and where one can begin. -/
lemma mem_tokenPlaces (hn : isSymbol n.toList) : i ∈ tokenPlaces n s ↔
    ∃ u t, s = u ++ (n.toList ++ t) ∧ u.length = i ∧ u.getLast?.any blocksSymbol = false ∧
      EndsSymbol n.toList t := by
  simp only [tokenPlaces, mem_placesOf, beq_iff_eq, Nat.zero_add]
  constructor
  · rintro ⟨l₁, p, l₂, hl, rfl, rfl⟩
    obtain ⟨-, hlast, hends⟩ := symbol_of_piecesFrom hl
    refine ⟨_, _, ?_, rfl, hlast, hends⟩
    rw [← text_pieces s, hl]
    simp [Piece.text]
  · rintro ⟨u, t, rfl, rfl, hu, ht⟩
    refine ⟨pieces u, .symbol n.toList, piecesFrom true t, ?_, rfl, by rw [text_pieces]⟩
    rw [pieces_append_of_getLast hu, pieces_symbol_append hn ht]

/-- What is found at some place is a symbol. -/
lemma isSymbol_of_mem_tokenPlaces (h : i ∈ tokenPlaces n s) : isSymbol n.toList := by
  simp only [tokenPlaces, mem_placesOf, beq_iff_eq] at h
  obtain ⟨l₁, p, l₂, hl, rfl, -⟩ := h
  have hmem : .symbol n.toList ∈ pieces s := by
    rw [hl]
    simp
  exact isSymbol_of_mem_pieces hmem

/-! ### The same places -/

/-- Where a part of a text reaches over a place, it has characters on both sides of it. -/
lemma exists_overlap {x y : List Char} (h : u ++ (x ++ t) = s ++ y) (hlt : u.length < s.length)
    (hle : s.length ≤ u.length + x.length) :
    ∃ z w, z ≠ [] ∧ s = u ++ z ∧ x = z ++ w ∧ y = w ++ t := by
  obtain ⟨z, rfl, hz⟩ | ⟨z, rfl, -⟩ := List.append_eq_append_iff.1 h
  · simp only [List.length_append] at hlt hle
    have hne : z ≠ [] := fun hnil => by simp [hnil] at hlt
    obtain ⟨w, rfl, rfl⟩ | ⟨w, rfl, rfl⟩ := List.append_eq_append_iff.1 hz
    · obtain rfl : w = [] := List.length_eq_zero_iff.1 (by simp only [List.length_append] at hle; omega)
      exact ⟨x ++ [], [], hne, rfl, by simp, rfl⟩
    · exact ⟨z, w, hne, rfl, rfl, rfl⟩
  · simp only [List.length_append] at hlt
    omega

/-- The last character before a place to which a part of a text reaches is one of that part. -/
lemma getLast?_mem_of_overlap {x y : List Char} (h : u ++ (x ++ t) = s ++ y)
    (hlt : u.length < s.length) (hle : s.length ≤ u.length + x.length) :
    ∃ c ∈ x, s.getLast? = some c := by
  obtain ⟨z, w, hne, rfl, rfl, -⟩ := exists_overlap h hlt hle
  exact ⟨z.getLast hne, by simp, by
    rw [List.getLast?_append_of_ne_nil _ hne, List.getLast?_eq_some_getLast hne]⟩

/-- Symbols are blocked by characters that adhere, and by points. -/
lemma blocksSymbol_eq (c : Char) : blocksSymbol c = (adheres c || c == '.') := by
  simp [blocksSymbol, adheres, Bool.or_assoc, Bool.or_comm (c == '.')]

/-- A symbol ends where no character adheres. -/
lemma EndsSymbol.of_head {name : List Char} (ht : t.head?.any adheres = false) :
    EndsSymbol name t := by
  cases t with
  | nil => exact ⟨nofun, fun _ => rfl⟩
  | cons d t => simp_all [EndsSymbol, adheres]

/-- A name that stands free is found unless it stands behind a point. -/
lemma tokenPlaces_iff_of_replaced (hn : isSymbol n.toList) (hi : i ∈ replacedPlaces n s) :
    i ∈ tokenPlaces n s ↔ (s.take i).getLast? ≠ some '.' := by
  obtain ⟨u, t, rfl, rfl, hu, ht⟩ := (mem_replacedPlaces (isName_of_isSymbol hn)).1 hi
  rw [List.take_left, mem_tokenPlaces hn]
  constructor
  · rintro ⟨u', t', heq, hlen, hu', -⟩ hpoint
    obtain ⟨rfl, -⟩ := List.append_inj heq hlen.symm
    simp [hpoint, blocksSymbol_eq] at hu'
  · intro hpoint
    refine ⟨u, t, rfl, rfl, ?_, .of_head ht⟩
    cases hlast : u.getLast? with
    | none => rfl
    | some c =>
      have hc : c ≠ '.' := fun h => hpoint (by rw [hlast, h])
      simpa [hlast, blocksSymbol_eq, hc] using hu

/-- A symbol that is found is replaced unless a word follows it. -/
lemma replacedPlaces_iff_of_token (hn : isSymbol n.toList) (hi : i ∈ tokenPlaces n s) :
    i ∈ replacedPlaces n s ↔ (s.drop (i + n.length)).head?.any isWord = false := by
  obtain ⟨u, t, rfl, rfl, hu, ht⟩ := (mem_tokenPlaces hn).1 hi
  rw [← String.length_toList, ← List.append_assoc, ← List.length_append, List.drop_left,
    List.append_assoc, mem_replacedPlaces (isName_of_isSymbol hn)]
  have hadheres : t.head?.any adheres = t.head?.any isWord := by
    cases t with
    | nil => rfl
    | cons d t =>
      have hd : d ≠ '\'' := by simpa using ht.1
      simp [adheres, hd]
  constructor
  · rintro ⟨u', t', heq, hlen, -, ht'⟩
    obtain ⟨rfl, hrest⟩ := List.append_inj heq hlen.symm
    rwa [← hadheres, List.append_cancel_left hrest]
  · intro hword
    refine ⟨u, t, rfl, rfl, ?_, hadheres.trans hword⟩
    cases hlast : u.getLast? with
    | none => rfl
    | some c => simp_all [blocksSymbol_eq]

/-- The places at which a value is written in are in order. -/
lemma pairwise_replacedPlaces (n : String) (s : List Char) :
    (replacedPlaces n s).Pairwise (· < ·) :=
  (pairwise_placesOf fun r hr => fun h : r = [] => nil_notMem_runs s (h ▸ hr)).2

/-- The places at which a symbol is found are in order. -/
lemma pairwise_tokenPlaces (n : String) (s : List Char) : (tokenPlaces n s).Pairwise (· < ·) :=
  (pairwise_placesOf fun _ => text_ne_nil_of_mem_pieces).2

/-- A substitution writes the value at the places of the name. -/
lemma substitute_eq_writtenAt (hn : isSymbol n.toList) (v : Float) :
    substitute s n v = writtenAt n.length (literal v) 0 (replacedPlaces n s) s := by
  have hne : ∀ r ∈ runs s, id r ≠ [] := fun r hr h => nil_notMem_runs s (h ▸ hr)
  have hlen : ∀ r ∈ runs s, (r == n.toList) = true → (id r).length = n.length := by
    intro r _ hr
    rw [id, beq_iff_eq.1 hr, String.length_toList]
  have hwritten : _ = writtenAt n.length (literal v) 0 _ _ := flatMap_eq_writtenAt hne hlen
  rw [List.flatMap_id, flatten_runs] at hwritten
  rw [substitute_eq (isName_of_isSymbol hn), replacedPlaces, ← hwritten]
  simp

/-- No part of another symbol is replaced. -/
lemma replaced_apart_symbol (hn : isSymbol n.toList) (hi : i ∈ replacedPlaces n s) (hmn : m ≠ n)
    (hj : j ∈ tokenPlaces m s) : i + n.length ≤ j ∨ j + m.length ≤ i := by
  have hm := isSymbol_of_mem_tokenPlaces hj
  have hname := isName_of_isSymbol hn
  obtain ⟨u, t, rfl, rfl, hu, ht⟩ := (mem_replacedPlaces hname).1 hi
  obtain ⟨u', t', heq, rfl, hu', ht'⟩ := (mem_tokenPlaces hm).1 hj
  by_contra h
  simp only [not_or, Nat.not_le, ← String.length_toList] at h
  obtain hlt | hlen | hlt := Nat.lt_trichotomy u.length u'.length
  · obtain ⟨c, hc, hlast⟩ := getLast?_mem_of_overlap heq hlt (Nat.le_of_lt h.1)
    simp [hlast, blocksSymbol_eq, hname.2 c hc] at hu'
  · -- At one place only one symbol is read.
    obtain ⟨rfl, hrest⟩ := List.append_inj heq hlen
    have hread := pieces_symbol_append hn (.of_head ht)
    rw [hrest, pieces_symbol_append hm ht'] at hread
    simp only [List.cons.injEq, Piece.symbol.injEq] at hread
    exact hmn (String.toList_inj.1 hread.1)
  · obtain ⟨c, hc, hlast⟩ := getLast?_mem_of_overlap heq.symm hlt (Nat.le_of_lt h.2)
    simp [hlast, (isName_of_isSymbol hm).2 c hc] at hu

/-- No part of a numeral is replaced, unless a name stands free behind a point. -/
lemma replaced_apart_numeral (hn : isSymbol n.toList) (hi : i ∈ replacedPlaces n s)
    (hpoint : (s.take i).getLast? ≠ some '.') {m : Numeral} {a b : List Char}
    (hs : s = a ++ (m.text ++ b)) (ha : a.getLast?.any adheres = false) :
    i + n.length ≤ a.length ∨ a.length + m.text.length ≤ i := by
  have hname := isName_of_isSymbol hn
  obtain ⟨c, rest, hc⟩ := List.exists_cons_of_ne_nil hname.1
  have hstart : isWordStart c := by
    rw [hc] at hn
    simp only [isSymbol, Bool.and_eq_true] at hn
    exact hn.1
  obtain ⟨u, t, rfl, rfl, hu, ht⟩ := (mem_replacedPlaces hname).1 hi
  rw [List.take_left] at hpoint
  by_contra h
  simp only [not_or, Nat.not_le, ← String.length_toList] at h
  obtain hlt | hlen | hlt := Nat.lt_trichotomy u.length a.length
  · obtain ⟨d, hd, hlast⟩ := getLast?_mem_of_overlap hs hlt (Nat.le_of_lt h.1)
    simp [hlast, hname.2 d hd] at ha
  · -- The numeral would begin as the name does.
    obtain ⟨rfl, hrest⟩ := List.append_inj hs hlen
    have hhead : m.text.head? = some c := by
      cases hm : m.text with
      | nil => simp [hm] at h
      | cons d l =>
        rw [hm, hc] at hrest
        simpa using (List.cons.inj hrest).1.symm
    simp [(numeral_blocks m).1 c hhead] at hstart
  · -- The name would begin inside the numeral, where a character before it allows no symbol.
    obtain ⟨z, w, hne, rfl, hz, hw⟩ := exists_overlap hs.symm hlt (Nat.le_of_lt h.2)
    have hwne : w ≠ [] := by
      rintro rfl
      simp [hz] at h
    have hhead : w.head? = some c := by
      rw [← List.head?_append_of_ne_nil w hwne, ← hw, hc]
      rfl
    have hlast := List.getLast?_eq_some_getLast hne
    have hchain := (numeral_blocks m).2
    rw [hz, List.isChain_append] at hchain
    have hblocks : blocksSymbol (z.getLast hne) := hchain.2.2 _ hlast c hhead hstart
    rw [List.getLast?_append_of_ne_nil _ hne, hlast] at hu hpoint
    simp only [blocksSymbol_eq, Bool.or_eq_true, beq_iff_eq] at hblocks
    obtain hblocks | hblocks := hblocks
    · simp [hblocks] at hu
    · exact hpoint (by rw [hblocks])

/--
A value is written in at the very places at which a symbol is found if and only if the name stands
nowhere free behind a point, and no word follows the primes of the symbol. No part of another symbol
is ever replaced, and of a numeral at most what stands behind its point.
-/
theorem replacedPlaces_eq_iff (hn : isSymbol n.toList) (s : List Char) :
    (∀ v, substitute s n v = writtenAt n.length (literal v) 0 (replacedPlaces n s) s) ∧
    (replacedPlaces n s = tokenPlaces n s ↔
      (∀ i ∈ replacedPlaces n s, (s.take i).getLast? ≠ some '.') ∧
        ∀ i ∈ tokenPlaces n s, (s.drop (i + n.length)).head?.any isWord = false) ∧
    ∀ i ∈ replacedPlaces n s,
      (∀ m, m ≠ n → ∀ j ∈ tokenPlaces m s, i + n.length ≤ j ∨ j + m.length ≤ i) ∧
      ((s.take i).getLast? ≠ some '.' → ∀ (m : Numeral) (a b : List Char),
        s = a ++ (m.text ++ b) → a.getLast?.any adheres = false →
          i + n.length ≤ a.length ∨ a.length + m.text.length ≤ i) := by
  refine ⟨substitute_eq_writtenAt hn, ⟨fun h => ?_, fun ⟨hpoint, hword⟩ => ?_⟩, fun i hi =>
    ⟨fun m hmn j hj => replaced_apart_symbol hn hi hmn hj, fun hpoint m a b hs ha =>
      replaced_apart_numeral hn hi hpoint hs ha⟩⟩
  · exact ⟨fun i hi => (tokenPlaces_iff_of_replaced hn hi).1 (h ▸ hi),
      fun i hi => (replacedPlaces_iff_of_token hn hi).1 (h ▸ hi)⟩
  · refine (pairwise_replacedPlaces n s).eq_of_mem_iff (pairwise_tokenPlaces n s) fun i => ⟨?_, ?_⟩
    · exact fun hi => (tokenPlaces_iff_of_replaced hn hi).2 (hpoint i hi)
    · exact fun hi => (replacedPlaces_iff_of_token hn hi).2 (hword i hi)

/-- The traps stand away from the name: primes, words, a numeral with an exponent. -/
theorem replacedPlaces_eq_iff_exponent :
    isSymbol "e5".toList ∧ substitute "e5*1.5e5 - e5' + x_e5/e5".toList "e5" 2.0 =
      "(2.0)*1.5e5 - e5' + x_e5/(2.0)".toList ∧
    replacedPlaces "e5" "e5*1.5e5 - e5' + x_e5/e5".toList =
      tokenPlaces "e5" "e5*1.5e5 - e5' + x_e5/e5".toList := by
  have hn : isSymbol "e5".toList := by decide
  obtain ⟨hwritten, hiff, -⟩ := replacedPlaces_eq_iff hn "e5*1.5e5 - e5' + x_e5/e5".toList
  refine ⟨hn, (hwritten 2.0).trans (by decide +kernel), hiff.2 ⟨by decide +kernel, ?_⟩⟩
  rw [tokenPlaces, pieces, ← piecesWithin_eq (Nat.le_refl _)]
  decide +kernel

/-- The exponent of a numeral is replaced where a point stands before it. -/
theorem replacedPlaces_ne_tokenPlaces :
    isSymbol "E".toList ∧ isReserved "E" = false ∧
    tokenPlaces "E" "1.E-5*x".toList = [] ∧ replacedPlaces "E" "1.E-5*x".toList = [2] ∧
    substitute "1.E-5*x".toList "E" 2.0 = "1.(2.0)-5*x".toList := by
  refine ⟨by decide, by decide, ?_, by decide +kernel, by decide +kernel⟩
  rw [tokenPlaces, pieces, ← piecesWithin_eq (Nat.le_refl _)]
  decide +kernel

end Formulary.Formula
