import Formulary.Proofs.Formula.Segment

/-!
# Blanks in segments

Collapsing the gaps of a segment, or dropping those at one of its ends, changes neither how it is
read (`ReadsAs`) nor which function it calls.
-/

namespace Formulary.Formula

open Formulary.Text Formulary.Token

variable {blocked b : Bool} {w u v s : List Char} {c : Char}

/-- Collapsing stops where a span of characters that are no blanks ends. -/
lemma span_collapse {p : Char → Bool} (hp : ∀ c, p c → isBlank c = false) (s : List Char) :
    (collapse false s).takeWhile p = s.takeWhile p ∧
      (collapse false s).dropWhile p = collapse false (s.dropWhile p) := by
  induction s with
  | nil => exact ⟨rfl, rfl⟩
  | cons c s ih =>
    have hspace : p ' ' = false := by
      by_contra h
      have := hp ' ' (by simpa using h)
      cases this
    cases hc : isBlank c with
    | true =>
      have hpc : p c = false := by
        by_contra h
        rw [hp c (by simpa using h)] at hc
        cases hc
      simp [collapse, hc, hspace, hpc]
    | false =>
      cases hpc : p c with
      | true => simp [collapse, hc, hpc, ih]
      | false => simp [collapse, hc, hpc]

/-- A text without blanks is collapsed to itself, whatever follows. -/
lemma collapse_append (hu : u ≠ []) (hblank : ∀ c ∈ u, isBlank c = false) :
    collapse b (u ++ v) = u ++ collapse false v := by
  induction u generalizing b with
  | nil => exact absurd rfl hu
  | cons c u ih =>
    have hc := hblank c (by simp)
    simp only [List.cons_append, collapse, hc, Bool.false_eq_true, if_false]
    cases u with
    | nil => rfl
    | cons d u => rw [ih (List.cons_ne_nil d u) fun x hx => hblank x (by simp [hx])]

/-- Characters of words are not blank. -/
lemma isBlank_of_isWord (h : isWord c) : isBlank c = false := by
  by_contra hc
  rw [isWord_of_isBlank (by simpa using hc)] at h
  cases h

/-- A word and the primes behind it have no gaps, so collapsing leaves their piece whole. -/
lemma piecesFrom_collapse_word {rest afterWord : List Char} (hc : !blocked && isWordStart c)
    (hafter : rest.dropWhile isWord = afterWord) :
    piecesFrom blocked (collapse b (c :: rest)) =
      .symbol (c :: rest.takeWhile isWord ++ afterWord.takeWhile (· == '\'')) ::
        piecesFrom true (collapse false (afterWord.dropWhile (· == '\''))) := by
  have hword : isWord c := by
    simp only [isWordStart, Bool.and_eq_true] at hc
    exact hc.2.1
  have hblank := isBlank_of_isWord hword
  obtain ⟨htake, hdrop⟩ := span_collapse (fun c => isBlank_of_isWord) rest
  obtain ⟨htake', hdrop'⟩ := span_collapse (p := (· == '\'')) (fun c hc => by
    obtain rfl : c = '\'' := by simpa using hc
    decide) afterWord
  simp only [collapse, hblank, Bool.false_eq_true, if_false]
  rw [piecesFrom, if_pos hc]
  simp only [htake, hdrop, hafter]
  rw [htake', hdrop']

/-- Spacing is normalized before or after symbols are renamed. -/
lemma aliasPieces_collapse (blocked : Bool) (w : List Char) :
    ∀ (a : Aliases) (b : Bool), a.Numbered → (b → blocked = false) →
      aliasPieces a (piecesFrom blocked (collapse b w)) =
        (collapse b (aliasPieces a (piecesFrom blocked w)).1,
          (aliasPieces a (piecesFrom blocked w)).2) := by
  -- Along the cutting into pieces. A word has no gaps and stays whole; `b` says that a blank has
  -- just come, and a blank lets a symbol begin.
  fun_induction piecesFrom blocked w with
  | case1 blocked =>
    intro a b ha hb
    simp [collapse, piecesFrom, aliasPieces]
  | case2 blocked d rest hd word afterWord primes ih =>
    intro a b ha hb
    obtain ⟨hne, hchars⟩ := isWord_aliased ha (d :: word ++ primes)
    have hnext : ((Piece.symbol (d :: word ++ primes)).aliased a).2.Numbered :=
      Aliases.numbered_aliasPieces ha [.symbol (d :: word ++ primes)]
    rw [piecesFrom_collapse_word hd rfl, aliasPieces, aliasPieces]
    simp only
    rw [ih _ false hnext (by simp), collapse_append hne fun c hc => isBlank_of_isWord (hchars c hc)]
  | case3 blocked d rest hd ih =>
    intro a b ha hb
    cases hblank : isBlank d with
    | true =>
      have hblocks := blocksSymbol_of_isBlank hblank
      rw [hblocks] at ih
      cases b with
      | true =>
        rw [hb rfl]
        simp only [collapse, hblank, if_true, aliasPieces, Piece.aliased, hblocks]
        rw [ih a _ ha (by simp)]
        simp [collapse, hblank]
      | false =>
        have hspace : piecesFrom blocked (' ' :: collapse true rest) =
            .other ' ' :: piecesFrom false (collapse true rest) := by
          rw [piecesFrom, if_neg (by simp [isWordStart, isWord_of_isBlank (c := ' ') (by decide)])]
          rfl
        simp only [collapse, hblank, if_true, Bool.false_eq_true, if_false, hspace, aliasPieces,
          Piece.aliased, hblocks]
        rw [ih a _ ha (by simp)]
        simp [collapse, hblank]
    | false =>
      simp only [collapse, hblank, Bool.false_eq_true, if_false]
      rw [piecesFrom, if_neg hd]
      simp only [aliasPieces, Piece.aliased]
      rw [ih a _ ha (by simp)]
      simp [collapse, hblank]

/-- Symbols are renamed alike with the gaps collapsed. -/
lemma renamed_collapse {a : Aliases} (ha : a.Numbered) :
    renamed a (collapse b w) = (collapse b (renamed a w).1, (renamed a w).2) :=
  aliasPieces_collapse false w a b ha fun _ => rfl

/-- Power signs are replaced alike with the gaps collapsed. -/
lemma withPowerSigns_collapse : withPowerSigns (collapse b s) = collapse b (withPowerSigns s) := by
  induction s generalizing b with
  | nil => rfl
  | cons c s ih =>
    by_cases hc : c = '^'
    · subst hc
      have hstar : isBlank '*' = false := by decide
      have hpower : isBlank '^' = false := by decide
      simp only [withPowerSigns] at ih
      simp [collapse, withPowerSigns, hstar, hpower, ih]
    · cases hblank : isBlank c with
      | true =>
        simp only [withPowerSigns] at ih
        cases b <;> simp [collapse, withPowerSigns, hblank, hc, ih]
      | false =>
        simp only [withPowerSigns] at ih
        simp [collapse, withPowerSigns, hblank, hc, ih]

/-- Gaps between tokens are blank. -/
lemma isBlank_of_isGap (h : Token.isGap c) : isBlank c := by
  simp only [Token.isGap, List.contains_eq_mem, List.mem_cons, List.not_mem_nil, or_false,
    decide_eq_true_eq] at h
  obtain rfl | rfl | rfl | rfl | rfl := h <;> decide

/-- A text lexes alike before and after its gaps are collapsed. -/
lemma alike_collapse (hs : ∀ c ∈ s, isBlank c → Token.isGap c) : Alike s (collapse b s) := by
  induction hn : s.length using Nat.strong_induction_on generalizing s b with
  | _ n ih =>
    subst hn
    cases s with
    | nil => exact fun _ => .rfl
    | cons c s =>
      have hrest : ∀ d ∈ s, isBlank d → Token.isGap d := fun d hd => hs d (by simp [hd])
      cases hblank : isBlank c with
      | true =>
        have hgap := hs c (by simp) hblank
        intro ts
        have hs := ih s.length (Nat.lt_succ_self _) (b := true) hrest rfl ts
        cases b with
        | true => simpa [collapse, hblank, lexes_gap hgap] using hs
        | false =>
          have hspace : Token.isGap ' ' := by decide
          simpa [collapse, hblank, lexes_gap hgap, lexes_gap hspace] using hs
      | false =>
        -- Up to the next blank the text stays as it is, and the blank is a place to cut.
        let u := c :: s.takeWhile (!isBlank ·)
        let v := s.dropWhile (!isBlank ·)
        have huv : c :: s = u ++ v := by
          simp [u, v, List.takeWhile_append_dropWhile]
        have hu : ∀ d ∈ u, isBlank d = false := by
          intro d hd
          obtain rfl | hd := List.mem_cons.1 hd
          · exact hblank
          · simpa using List.all_eq_true.1 List.all_takeWhile d hd
        have hsuffix : v <:+ s := List.dropWhile_suffix _
        have hv : ∀ d ∈ v, isBlank d → Token.isGap d := fun d hd => hrest d (hsuffix.subset hd)
        have hhead : ∀ d ∈ v.head?, isBlank d := by
          have := List.head?_dropWhile_not (!isBlank ·) s
          intro d hd
          rw [show (s.dropWhile (!isBlank ·)).head? = some d from hd] at this
          simpa using this
        rw [huv, collapse_append (List.cons_ne_nil _ _) hu]
        refine .append (fun _ => .rfl)
          (ih v.length (Nat.lt_succ_of_le hsuffix.length_le) hv rfl) ?_ ?_
        · cases hvs : v with
          | nil => exact .of_nil
          | cons d v' =>
            have hd := hhead d (by simp [hvs])
            exact .of_delimiter (isDelimiter_of_isGap (hv d (by simp [hvs]) hd))
        · cases hvs : v with
          | nil => exact .of_nil
          | cons d v' =>
            have hd := hhead d (by simp [hvs])
            simp only [collapse, hd, if_true, Bool.false_eq_true, if_false]
            exact .of_delimiter (by decide)

/-- No text but the empty one is collapsed to nothing. -/
lemma collapse_eq_nil (h : collapse false s = []) : s = [] := by
  cases s with
  | nil => rfl
  | cons c s =>
    simp only [collapse, Bool.false_eq_true, if_false] at h
    split at h <;> cases h

/-- What ends a collapsed text ends the text. -/
lemma eq_append_of_collapse {x : List Char} (hv : v ≠ []) (hblank : ∀ c ∈ v, isBlank c = false)
    (h : collapse b w = x ++ v) : ∃ u, w = u ++ v ∧ collapse b u = x := by
  induction w generalizing b x v with
  | nil => exact absurd (List.append_eq_nil_iff.1 h.symm).2 hv
  | cons c w ih =>
    cases hc : isBlank c with
    | true =>
      cases b with
      | true =>
        simp only [collapse, hc, if_true] at h
        obtain ⟨u, rfl, rfl⟩ := ih hv hblank h
        exact ⟨c :: u, rfl, by simp [collapse, hc]⟩
      | false =>
        simp only [collapse, hc, if_true, Bool.false_eq_true, if_false] at h
        cases x with
        | nil =>
          rw [List.nil_append] at h
          have := hblank ' ' (by simp [← h])
          cases this
        | cons d x =>
          rw [List.cons_append, List.cons.injEq] at h
          obtain ⟨rfl, h⟩ := h
          obtain ⟨u, rfl, rfl⟩ := ih hv hblank h
          exact ⟨c :: u, rfl, by simp [collapse, hc]⟩
    | false =>
      simp only [collapse, hc, Bool.false_eq_true, if_false] at h
      cases x with
      | nil =>
        cases v with
        | nil => exact absurd rfl hv
        | cons d v =>
          rw [List.nil_append, List.cons.injEq] at h
          obtain ⟨rfl, h⟩ := h
          cases v with
          | nil =>
            exact ⟨[], by simp [collapse_eq_nil h], rfl⟩
          | cons d v =>
            obtain ⟨u, rfl, hu⟩ := @ih false (d :: v) [] (List.cons_ne_nil d v)
              (fun e he => hblank e (by simp [he])) h
            exact ⟨[], by simp [collapse_eq_nil hu], rfl⟩
      | cons d x =>
        rw [List.cons_append, List.cons.injEq] at h
        obtain ⟨rfl, h⟩ := h
        obtain ⟨u, rfl, rfl⟩ := ih hv hblank h
        exact ⟨c :: u, rfl, by simp [collapse, hc]⟩

/-- A text without blanks is collapsed to itself behind any text. -/
lemma collapse_append_right (hv : ∀ c ∈ v, isBlank c = false) :
    collapse b (u ++ v) = collapse b u ++ v := by
  induction u generalizing b with
  | nil =>
    cases v with
    | nil => rfl
    | cons c v =>
      have h := collapse_append (b := b) (v := []) (List.cons_ne_nil c v) hv
      simpa [collapse] using h
  | cons c u ih =>
    cases hc : isBlank c with
    | true => cases b <;> simp [collapse, hc, ih]
    | false => simp [collapse, hc, ih]

/-- Collapsing gaps adds nothing but single blanks. -/
lemma mem_collapse (h : c ∈ collapse b s) : c ∈ s ∨ c = ' ' := by
  induction s generalizing b with
  | nil => cases h
  | cons d s ih =>
    simp only [collapse] at h
    split at h
    · split at h
      · exact (ih h).imp_left (List.mem_cons_of_mem d)
      · obtain rfl | h := List.mem_cons.1 h
        · exact .inr rfl
        · exact (ih h).imp_left (List.mem_cons_of_mem d)
    · obtain rfl | h := List.mem_cons.1 h
      · exact .inl (by simp)
      · exact (ih h).imp_left (List.mem_cons_of_mem d)

/-- Blanks at the end of a text are blanks at the end of the collapsed text. -/
lemma collapse_append_blanks (hv : ∀ c ∈ v, isBlank c) :
    ∃ v', (∀ c ∈ v', isBlank c) ∧ collapse b (u ++ v) = collapse b u ++ v' := by
  induction u generalizing b with
  | nil =>
    refine ⟨collapse b v, fun c hc => ?_, rfl⟩
    obtain hc | rfl := mem_collapse hc
    · exact hv c hc
    · decide
  | cons c u ih =>
    cases hc : isBlank c with
    | true =>
      obtain ⟨v', hv', heq⟩ := @ih true
      refine ⟨v', hv', ?_⟩
      cases b <;> simp [collapse, hc, heq]
    | false =>
      obtain ⟨v', hv', heq⟩ := @ih false
      exact ⟨v', hv', by simp [collapse, hc, heq]⟩

/-- After a blank, a collapsed text ends with a blank as well. -/
lemma isBlank_of_getLast?_collapse (hc : isBlank c) :
    ∀ d ∈ (collapse b (u ++ [c])).getLast?, isBlank d := by
  induction u generalizing b with
  | nil =>
    have hspace : isBlank ' ' := by decide
    cases b <;> simp [collapse, hc, hspace]
  | cons e u ih =>
    have hcons : ∀ (x : Char) {y : List Char}, (y ≠ [] ∨ isBlank x) →
        (∀ d ∈ y.getLast?, isBlank d) → ∀ d ∈ (x :: y).getLast?, isBlank d := by
      intro x y hx hy d hd
      cases y with
      | nil =>
        obtain rfl : x = d := by simpa using hd
        exact hx.resolve_left fun h => h rfl
      | cons z y => exact hy d (by simpa [List.getLast?_cons_cons] using hd)
    cases he : isBlank e with
    | true =>
      cases b with
      | true => simpa [collapse, he] using ih (b := true)
      | false =>
        simp only [List.cons_append, collapse, he, if_true, Bool.false_eq_true, if_false]
        exact hcons _ (.inr (by decide)) (ih (b := true))
    | false =>
      simp only [List.cons_append, collapse, he, Bool.false_eq_true, if_false]
      refine hcons _ (.inl fun h => ?_) (ih (b := false))
      have := collapse_eq_nil h
      simp at this

/-- Blanks do not continue words. -/
lemma continuesWord_of_isBlank (h : isBlank c) : continuesWord (some c) = false := by
  have hpoint : c ≠ '.' := by
    rintro rfl
    cases h
  simp [continuesWord, isWord_of_isBlank h, hpoint]

/-- A name can begin at the end of a collapsed text where it can begin at the end of the text. -/
lemma continuesWord_collapse (b : Bool) (u : List Char) :
    continuesWord (collapse b u).getLast? = continuesWord u.getLast? := by
  cases u using List.reverseRecOn with
  | nil => rfl
  | append_singleton u c =>
    rw [List.getLast?_concat]
    cases hc : isBlank c with
    | true =>
      rw [continuesWord_of_isBlank hc]
      cases h : (collapse b (u ++ [c])).getLast? with
      | none => rfl
      | some d => exact continuesWord_of_isBlank (isBlank_of_getLast?_collapse hc d h)
    | false => rw [collapse_append_right (by simpa using hc), List.getLast?_concat]

/-- Collapsing gaps leaves the function that a text ends with. -/
lemma calls_collapse (f : Function) (b : Bool) (w : List Char) :
    calls f (collapse b w) = calls f w := by
  have hname : ∀ c ∈ f.name.toList, isBlank c = false := fun c hc =>
    isBlank_of_isWord (name_letters f c hc)
  rw [Bool.eq_iff_iff, calls_iff, calls_iff]
  constructor
  · rintro ⟨x, hx, hlast⟩
    obtain ⟨u, rfl, rfl⟩ := eq_append_of_collapse (name_ne_nil f) hname hx
    exact ⟨u, rfl, by rwa [continuesWord_collapse] at hlast⟩
  · rintro ⟨u, rfl, hlast⟩
    exact ⟨collapse b u, collapse_append_right hname, by rwa [continuesWord_collapse]⟩

/-- Collapsing gaps leaves the function that is called at once. -/
lemma callee?_collapse (b : Bool) (w : List Char) : callee? (collapse b w) = callee? w := by
  simp only [callee?, calls_collapse]

/-- Blanks at the end of a text are dropped. -/
lemma trimEnd_append_blanks (hv : ∀ c ∈ v, isBlank c) : trimEnd (u ++ v) = trimEnd u := by
  rw [trimEnd, List.reverse_append, List.dropWhile_append_of_pos fun c hc =>
    hv c (List.mem_reverse.1 hc), trimEnd]

/-- A text is what is left without the blanks at its end, and these blanks. -/
lemma exists_trimEnd (w : List Char) :
    ∃ v, (∀ c ∈ v, isBlank c) ∧ w = trimEnd w ++ v ∧ ∀ c ∈ (trimEnd w).getLast?, isBlank c = false := by
  refine ⟨(w.reverse.takeWhile isBlank).reverse, fun c hc => ?_, ?_, fun c hc => ?_⟩
  · exact List.all_eq_true.1 List.all_takeWhile c (List.mem_reverse.1 hc)
  · rw [trimEnd, ← List.reverse_append, List.takeWhile_append_dropWhile, List.reverse_reverse]
  · have := List.head?_dropWhile_not isBlank w.reverse
    rw [trimEnd, List.getLast?_reverse] at hc
    rw [hc] at this
    simpa using this

/-- The blanks at the end are dropped before gaps are collapsed, or afterwards. -/
lemma trimEnd_collapse (b : Bool) (w : List Char) :
    trimEnd (collapse b w) = collapse b (trimEnd w) := by
  obtain ⟨v, hv, hw, hlast⟩ := exists_trimEnd w
  obtain ⟨v', hv', hcollapse⟩ := collapse_append_blanks (b := b) (u := trimEnd w) hv
  rw [← hw] at hcollapse
  rw [hcollapse, trimEnd_append_blanks hv']
  cases hu : trimEnd w using List.reverseRecOn with
  | nil => rfl
  | append_singleton u c =>
    have hc := hlast c (by simp [hu])
    rw [collapse_append_right (by simpa using hc)]
    exact trimEnd_of_getLast fun d hd => by
      obtain rfl : c = d := by simpa using hd
      exact hc

/-- Collapsing gaps leaves the function that is called. -/
lemma called?_collapse (b : Bool) (w : List Char) : called? (collapse b w) = called? w := by
  rw [called?, trimEnd_collapse, callee?_collapse, called?]

/-- Blanks at the beginning of a text do not matter for the name at its end. -/
lemma calls_blanks_append (f : Function) (hv : ∀ c ∈ v, isBlank c) : calls f (v ++ w) = calls f w := by
  have hlast : ∀ u : List Char, continuesWord (v ++ u).getLast? = continuesWord u.getLast? := by
    intro u
    cases u using List.reverseRecOn with
    | nil =>
      rw [List.append_nil]
      cases h : v.getLast? with
      | none => rfl
      | some c => exact continuesWord_of_isBlank (hv c (List.mem_of_getLast? h))
    | append_singleton u c => rw [← List.append_assoc, List.getLast?_concat, List.getLast?_concat]
  rw [Bool.eq_iff_iff, calls_iff, calls_iff]
  constructor
  · rintro ⟨u, hu, hbefore⟩
    obtain ⟨x, rfl, hw⟩ | ⟨x, hx, hname⟩ := List.append_eq_append_iff.1 hu
    · exact ⟨x, hw, by rwa [hlast] at hbefore⟩
    · cases x with
      | nil =>
        rw [List.append_nil] at hx
        subst hx
        exact ⟨[], by simpa using hname.symm, rfl⟩
      | cons c x =>
        have hword := name_letters f c (by simp [hname])
        rw [isWord_of_isBlank (hv c (by simp [hx]))] at hword
        cases hword
  · rintro ⟨u, rfl, hbefore⟩
    exact ⟨v ++ u, by simp, by rwa [hlast]⟩

/-- A text is the blanks at its beginning, and what is left without them. -/
lemma exists_dropWhile (w : List Char) :
    ∃ v, (∀ c ∈ v, isBlank c) ∧ w = v ++ w.dropWhile isBlank :=
  ⟨w.takeWhile isBlank, fun c hc => List.all_eq_true.1 List.all_takeWhile c hc,
    List.takeWhile_append_dropWhile.symm⟩

/-- Dropping blanks at the beginning leaves the function that is called at once. -/
lemma callee?_dropWhile (w : List Char) : callee? (w.dropWhile isBlank) = callee? w := by
  obtain ⟨v, hv, hw⟩ := exists_dropWhile w
  conv_rhs => rw [hw]
  simp only [callee?, calls_blanks_append _ hv]

/-- Dropping blanks at the beginning leaves the function that is called. -/
lemma called?_dropWhile (w : List Char) : called? (w.dropWhile isBlank) = called? w := by
  obtain ⟨v, hv, hw⟩ := exists_dropWhile w
  generalize w.dropWhile isBlank = w' at hw ⊢
  subst hw
  obtain ⟨g, hg, hw', hlast⟩ := exists_trimEnd w'
  have htrim : trimEnd (v ++ w') = trimEnd (v ++ trimEnd w') := by
    conv_lhs => rw [hw', ← List.append_assoc, trimEnd_append_blanks hg]
  rw [called?, called?, htrim]
  cases h : trimEnd w' using List.reverseRecOn with
  | nil =>
    have hnil : trimEnd (v ++ []) = [] := by
      have := trimEnd_append_blanks (u := []) hv
      simpa [trimEnd] using this
    rw [hnil]
  | append_singleton u c =>
    have hc := hlast c (by simp [h])
    rw [trimEnd_of_getLast fun d hd => ?_]
    · simp only [callee?, calls_blanks_append _ hv]
    · rw [← List.append_assoc, List.getLast?_concat] at hd
      cases hd
      exact hc

/-- A segment can be read in place of another one. -/
structure ReadsAs (w w' : List Char) : Prop where
  aliases : ∀ {a : Aliases}, a.Numbered → (renamed a w').2 = (renamed a w).2
  alike : ∀ {a : Aliases}, a.Numbered →
    Alike (withPowerSigns (renamed a w).1) (withPowerSigns (renamed a w').1)
  inline : ∀ {a : Aliases}, a.Numbered → Layout.Inline (withPowerSigns (renamed a w).1) →
    Layout.Inline (withPowerSigns (renamed a w').1)

/-- A segment is read as itself. -/
lemma ReadsAs.refl (w : List Char) : ReadsAs w w where
  aliases _ := rfl
  alike _ _ := .rfl
  inline _ := id

/-- A segment is read as what is read as another one that is read as it. -/
lemma ReadsAs.trans {w w' w'' : List Char} (h : ReadsAs w w') (h' : ReadsAs w' w'') :
    ReadsAs w w'' where
  aliases ha := (h'.aliases ha).trans (h.aliases ha)
  alike ha ts := (h.alike ha ts).trans (h'.alike ha ts)
  inline ha hw := h'.inline ha (h.inline ha hw)

/-- All blanks of a text are gaps between tokens. -/
def Gapped (w : List Char) : Prop := ∀ c ∈ w, isBlank c → Token.isGap c

/-- The blanks of a plain segment are gaps. -/
lemma IsPlain.gapped (h : IsPlain w) : Gapped w := fun _ hc hblank => h.isGap hc hblank

/-- The blanks of a segment are gaps as it is read. -/
lemma Gapped.prepared (hw : Gapped w) {a : Aliases} (ha : a.Numbered) :
    Gapped (withPowerSigns (renamed a w).1) := by
  intro c hc hblank
  obtain ⟨d, hd, hc⟩ := List.mem_flatMap.1 hc
  split at hc
  · obtain rfl : c = '*' := by simpa using hc
    cases hblank
  · obtain rfl : c = d := by simpa using hc
    obtain hd | hd := mem_aliasPieces ha hd
    · refine hw c ?_ hblank
      rw [← text_pieces w]
      exact List.mem_flatMap.2 ⟨_, hd, by simp [Piece.text]⟩
    · rw [isWord_of_isBlank hblank] at hd
      cases hd

/-- The blanks of a segment are gaps when they are collapsed. -/
lemma Gapped.collapse (hw : Gapped w) (b : Bool) : Gapped (collapse b w) := by
  intro c hc hblank
  obtain hc | rfl := mem_collapse hc
  · exact hw c hc hblank
  · decide

/-- A segment is read as it is with its gaps collapsed. -/
lemma Gapped.readsAs_collapse (hw : Gapped w) (b : Bool) : ReadsAs w (Text.collapse b w) where
  aliases ha := by rw [renamed_collapse ha]
  alike ha := by
    rw [renamed_collapse ha, withPowerSigns_collapse]
    exact alike_collapse (hw.prepared ha)
  inline ha h := by
    rw [renamed_collapse ha, withPowerSigns_collapse]
    intro c hc
    obtain hc | rfl := mem_collapse hc
    · exact h c hc
    · decide

/-- There is no power sign among blanks. -/
lemma caret_notMem_blanks (hv : ∀ c ∈ v, isBlank c) : '^' ∉ v :=
  fun h => absurd (hv _ h) (by decide)

/-- Blanks at the beginning of a text are left alone. -/
lemma renamed_blanks_append {a : Aliases} (hv : ∀ c ∈ v, isBlank c) :
    renamed a (v ++ w) = (v ++ (renamed a w).1, (renamed a w).2) := by
  induction v with
  | nil => rfl
  | cons c v ih =>
    rw [List.cons_append, renamed_cons_head (blocksSymbol_of_isBlank (hv c (by simp))),
      ih fun d hd => hv d (by simp [hd])]
    rfl

/-- A segment is read as it is without the blanks at its beginning. -/
lemma Gapped.readsAs_dropWhile (hw : Gapped w) : ReadsAs w (w.dropWhile isBlank) := by
  obtain ⟨v, hv, heq⟩ := exists_dropWhile w
  generalize w.dropWhile isBlank = w' at heq ⊢
  subst heq
  have hgaps : ∀ c ∈ v, Token.isGap c := fun c hc => hw c (by simp [hc]) (hv c hc)
  have hprepared : ∀ a, withPowerSigns (renamed a (v ++ w')).1 =
      v ++ withPowerSigns (renamed a w').1 := fun a => by
    rw [renamed_blanks_append hv, withPowerSigns_append,
      withPowerSigns_of_notMem (caret_notMem_blanks hv)]
  refine ⟨fun _ => by rw [renamed_blanks_append hv], fun _ ts => ?_, fun _ h c hc => ?_⟩
  · rw [hprepared]
    clear hprepared hw hv
    induction v with
    | nil => rfl
    | cons c v ih =>
      rw [List.cons_append, lexes_gap (hgaps c (by simp))]
      exact ih fun d hd => hgaps d (by simp [hd])
  · exact h c (by rw [hprepared]; simp [hc])

/-- A segment is read as it is without the blanks at its end. -/
lemma Gapped.readsAs_trimEnd (hw : Gapped w) : ReadsAs w (trimEnd w) := by
  obtain ⟨v, hv, heq, -⟩ := exists_trimEnd w
  generalize trimEnd w = w' at heq ⊢
  subst heq
  have hgaps : ∀ c ∈ v, Token.isGap c := fun c hc => hw c (by simp [hc]) (hv c hc)
  have hprepared : ∀ a, withPowerSigns (renamed a (w' ++ v)).1 =
      withPowerSigns (renamed a w').1 ++ v := fun a => by
    rw [renamed_append_blanks hv, withPowerSigns_append,
      withPowerSigns_of_notMem (caret_notMem_blanks hv)]
  have hcut : ∀ x, Cut x v := by
    intro x
    cases v with
    | nil => exact .of_nil
    | cons c v => exact .of_delimiter (isDelimiter_of_isGap (hgaps c (by simp)))
  refine ⟨fun _ => by rw [renamed_append_blanks hv], fun _ ts => ?_, fun _ h c hc => ?_⟩
  · rw [hprepared, lexes_append (hcut _)]
    constructor
    · rintro ⟨ts₁, ts₂, h₁, h₂, rfl⟩
      rw [(lexes_gaps hgaps).1 h₂, List.append_nil]
      exact h₁
    · exact fun h => ⟨ts, [], h, (lexes_gaps hgaps).2 rfl, by simp⟩
  · exact h c (by rw [hprepared]; simp [hc])

/-- The blanks of a segment are gaps when those at its beginning are dropped. -/
lemma Gapped.dropWhile (hw : Gapped w) : Gapped (w.dropWhile isBlank) :=
  fun c hc => hw c ((List.dropWhile_suffix _).subset hc)

end Formulary.Formula
