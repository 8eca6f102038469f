import Formulary.Proofs.Formula.Within

/-!
# Closed texts

A text of one line is closed if it closes all quotes and brackets that it opens, and no others
(`IsClosed`). Every text that falls into tokens is (`closesFrom_of_tokensFrom?`). Before a closing
parenthesis a closed text falls into the like of the tokens into which it falls alone
(`tokensFrom?_within`).
-/

namespace Formulary.Token

open Formulary.Text Formulary.Number

/-- How many brackets are open after a character; `none` if it closes one too many. -/
def openAfter? (depth : Nat) (c : Char) : Option Nat :=
  if c = '(' ∨ c = '[' ∨ c = '\x7b' then some (depth + 1)
  else if c = ')' ∨ c = ']' ∨ c = '\x7d' then if depth = 0 then none else some (depth - 1)
  else some depth

/--
Whether a text of one line closes the brackets that are open before it and whatever it opens. Within
a quote brackets are characters, and so is what follows a backslash; a comment goes on to the end.
-/
def closesFrom : (quote : Option Char) → (depth : Nat) → List Char → Bool
  | none, depth, [] => depth == 0
  | some _, _, [] => false
  | none, depth, c :: rest =>
    if c = '#' then depth == 0
    else if isQuote c then closesFrom (some c) depth rest
    else match openAfter? depth c with
      | none => false
      | some depth => closesFrom none depth rest
  | some quote, depth, '\\' :: _ :: rest => closesFrom (some quote) depth rest
  | some quote, depth, c :: rest =>
    if c = quote then closesFrom none depth rest else closesFrom (some quote) depth rest

/-- Whether a text of one line closes the quotes and brackets that it opens, and no others. -/
def IsClosed (s : List Char) : Prop := closesFrom none 0 s

instance (s : List Char) : Decidable (IsClosed s) := inferInstanceAs (Decidable (_ = true))

variable {k u v w r s : List Char} {c q : Char} {t : Token} {ts : List Token} {d e n : Nat}
  {ls ind : Bool}

/-- Characters of segments leave as many brackets open. -/
lemma openAfter?_of_isInline (hc : isInline c) : openAfter? d c = some d := by
  simp only [isInline_iff] at hc
  simp [openAfter?, hc]

/-- A segment in front of a text opens and closes nothing. -/
lemma closesFrom_append (hw : ∀ c ∈ w, isInline c) :
    closesFrom none d (w ++ s) = closesFrom none d s := by
  induction w with
  | nil => rfl
  | cons c w ih =>
    have hc := hw c (by simp)
    obtain ⟨-, -, -, -, -, -, -, -, hcomment, -⟩ := isInline_iff.1 hc
    rw [List.cons_append, closesFrom, if_neg hcomment, isQuote_of_isInline hc,
      openAfter?_of_isInline hc]
    exact ih fun x hx => hw x (by simp [hx])

/-- Within a quote, all characters but the quote are passed over. -/
lemma closesFrom_quote (hjoin : c ≠ '\\') : closesFrom (some q) d (c :: s) =
    if c = q then closesFrom none d s else closesFrom (some q) d s := by
  rw [closesFrom]
  exact fun _ _ h => absurd h hjoin

/-! ### Quoted texts -/

/-- A quoted text is read up to the quote, on one line. -/
lemma takeQuoted?_cons (hjoin : c ≠ '\\') : takeQuoted? q (c :: s) =
    if c = q then some ([], s) else if c = '\n' ∨ c = '\r' then none
    else (takeQuoted? q s).map fun (x, r) => (c :: x, r) := by
  rw [takeQuoted?]
  exact fun _ _ h => absurd h hjoin

/-- Characters of names are different from all others. -/
lemma ne_of_continuesName {c d : Char} (hc : continuesName c) (hd : continuesName d = false) :
    c ≠ d := by
  rintro rfl
  rw [hc] at hd
  cases hd

/-- Quotes do not continue names. -/
lemma continuesName_of_isQuote (hq : isQuote q) : continuesName q = false := by
  obtain rfl | rfl : q = '\'' ∨ q = '"' := by simpa [isQuote] using hq
  · decide
  · decide

/-- Within a quote the characters of names are read as they are. -/
lemma takeQuoted?_append (hq : isQuote q) (hw : ∀ c ∈ w, continuesName c) :
    takeQuoted? q (w ++ s) = (takeQuoted? q s).map fun (x, r) => (w ++ x, r) := by
  induction w with
  | nil => cases hs : takeQuoted? q s <;> simp [hs]
  | cons c w ih =>
    have hc := hw c (by simp)
    have hne {e : Char} (he : continuesName e = false) : c ≠ e := ne_of_continuesName hc he
    have hline : ¬ (c = '\n' ∨ c = '\r') := not_or.2 ⟨hne (by decide), hne (by decide)⟩
    rw [List.cons_append, takeQuoted?_cons (hne (by decide)),
      if_neg (hne (continuesName_of_isQuote hq)), if_neg hline,
      ih fun x hx => hw x (by simp [hx]), Option.map_map]
    rfl

/-- Within a quote, characters of names are passed over. -/
lemma closesFrom_quote_append (hq : isQuote q) (hw : ∀ c ∈ w, continuesName c) :
    closesFrom (some q) d (w ++ s) = closesFrom (some q) d s := by
  induction w with
  | nil => rfl
  | cons c w ih =>
    have hc := hw c (by simp)
    rw [List.cons_append, closesFrom_quote (ne_of_continuesName hc (by decide)),
      if_neg (ne_of_continuesName hc (continuesName_of_isQuote hq))]
    exact ih fun x hx => hw x (by simp [hx])

/-- A quoted text is taken up to the quote that closes it. -/
lemma closesFrom_of_takeQuoted? {x : List Char} (hu : takeQuoted? q s = some (x, r)) :
    r <:+ s ∧ closesFrom (some q) d s = closesFrom none d r := by
  fun_induction takeQuoted? q s generalizing x with
  | case1 => cases hu
  | case2 c rest ih =>
    obtain ⟨⟨x, r⟩, hrest, heq⟩ := Option.map_eq_some_iff.1 hu
    cases heq
    obtain ⟨hsuffix, hcloses⟩ := ih hrest
    exact ⟨hsuffix.trans ((List.suffix_cons _ _).trans (List.suffix_cons _ _)), hcloses⟩
  | case3 rest hjoin =>
    cases hu
    refine ⟨List.suffix_cons _ _, ?_⟩
    rw [closesFrom, if_pos rfl]
    exact hjoin
  | case4 => cases hu
  | case5 c rest hjoin hq hline ih =>
    obtain ⟨⟨x, r⟩, hrest, heq⟩ := Option.map_eq_some_iff.1 hu
    cases heq
    obtain ⟨hsuffix, hcloses⟩ := ih hrest
    refine ⟨hsuffix.trans (List.suffix_cons _ _), ?_⟩
    rw [closesFrom, if_neg hq, hcloses]
    exact hjoin

/-- A quote begins a quoted text. -/
lemma take?_quote (hquote : isQuote c) : take? (c :: s) =
    (takeQuoted? c s).map fun (x, r) => (.text (String.ofList x), r) := by
  have hc : c = '\'' ∨ c = '"' := by simpa [isQuote] using hquote
  have hnumeral : (c.isDigit || (c == '.' && s.head?.any Char.isDigit)) = false := by
    obtain rfl | rfl := hc <;> rfl
  simp only [take?, hnumeral, hc, if_true, Bool.false_eq_true, if_false]

/-- A backslash takes a character away, within as alone, and of an alias the first one. -/
lemma takeQuoted?_backslash {x : List Char} (hq : isQuote q) (h : Within k u v)
    (hcloses : closesFrom (some q) d ('\\' :: v)) (hu : takeQuoted? q ('\\' :: u) = some (x, r)) :
    ∃ u' v' y z, Within k u' v' ∧ u'.length ≤ u.length ∧ takeQuoted? q u' = some (y, r) ∧
      closesFrom (some q) d v' ∧
        takeQuoted? q ('\\' :: v) = (takeQuoted? q v').map fun (x, r) => (z ++ x, r) := by
  cases h with
  | done =>
    have hquote : '\\' ≠ q := by
      rintro rfl
      cases hq
    rw [closesFrom, if_neg hquote] at hcloses
    · cases hcloses
    · intro _ _ _ h
      cases h
  | @char u v c h =>
    rw [closesFrom] at hcloses
    rw [takeQuoted?] at hu ⊢
    obtain ⟨⟨y, r⟩, hy, heq⟩ := Option.map_eq_some_iff.1 hu
    cases heq
    exact ⟨u, v, y, takeQuoted?.escaped c, h, by simp, hy, hcloses, rfl⟩
  | @named ds ds' u v hds hds' h =>
    have hname {ds : List Char} (hds : ∀ c ∈ ds, c.isDigit) : ∀ c ∈ 's' :: ds, continuesName c :=
      (List.forall_mem_cons.1 (continuesName_of_mem_alias hds)).2
    have hu : (takeQuoted? q ('s' :: ds ++ u)).map _ = some (x, r) := hu
    have hcloses : closesFrom (some q) d ('s' :: ds' ++ v) := hcloses
    rw [takeQuoted?_append hq (hname hds), Option.map_map] at hu
    rw [closesFrom_quote_append hq (hname hds')] at hcloses
    obtain ⟨⟨y, r⟩, hy, heq⟩ := Option.map_eq_some_iff.1 hu
    cases heq
    refine ⟨u, v, y, takeQuoted?.escaped '_' ++ ('s' :: ds'), h, by simp; omega, hy, hcloses, ?_⟩
    show (takeQuoted? q ('s' :: ds' ++ v)).map _ = _
    rw [takeQuoted?_append hq (hname hds'), Option.map_map]
    refine congrArg (Option.map · _) (funext ?_)
    rintro ⟨x, r⟩
    simp

/--
A quote ends, or it goes on with as much within as alone: a character, a backslash and what stands
behind it, or an alias.
-/
lemma takeQuoted?_step {x : List Char} (hq : isQuote q) (h : Within k u v)
    (hcloses : closesFrom (some q) d v) (hu : takeQuoted? q u = some (x, r)) :
    (u = q :: r ∧ ∃ r', v = q :: r' ∧ Within k r r') ∨
      ∃ u' v' y z, Within k u' v' ∧ u'.length < u.length ∧ takeQuoted? q u' = some (y, r) ∧
        closesFrom (some q) d v' ∧
          takeQuoted? q v = (takeQuoted? q v').map fun (x, r) => (z ++ x, r) := by
  cases h with
  | done => cases hcloses
  | @named ds ds' u v hds hds' h =>
    have hu : takeQuoted? q ('_' :: 's' :: ds ++ u) = some (x, r) := hu
    have hcloses : closesFrom (some q) d ('_' :: 's' :: ds' ++ v) := hcloses
    rw [takeQuoted?_append hq (continuesName_of_mem_alias hds)] at hu
    rw [closesFrom_quote_append hq (continuesName_of_mem_alias hds')] at hcloses
    obtain ⟨⟨y, r⟩, hy, heq⟩ := Option.map_eq_some_iff.1 hu
    cases heq
    exact .inr ⟨u, v, y, '_' :: 's' :: ds', h, by simp; omega, hy, hcloses,
      takeQuoted?_append hq (continuesName_of_mem_alias hds')⟩
  | @char u v c h =>
    by_cases hjoin : c = '\\'
    · subst hjoin
      obtain ⟨u', v', y, z, h', hlength, hy, hcloses', hv⟩ := takeQuoted?_backslash hq h hcloses hu
      exact .inr ⟨u', v', y, z, h', Nat.lt_succ_of_le hlength, hy, hcloses', hv⟩
    · rw [closesFrom_quote hjoin] at hcloses
      rw [takeQuoted?_cons hjoin] at hu
      split at hu
      · rename_i hc
        cases hu
        exact .inl ⟨by rw [hc], v, by rw [hc], h⟩
      · rename_i hc
        rw [if_neg hc] at hcloses
        split at hu
        · cases hu
        · rename_i hline
          obtain ⟨⟨y, r⟩, hy, heq⟩ := Option.map_eq_some_iff.1 hu
          cases heq
          refine .inr ⟨u, v, y, [c], h, by simp, hy, hcloses, ?_⟩
          rw [takeQuoted?_cons hjoin, if_neg hc, if_neg hline]
          rfl

/-- What follows a quote within is what follows it alone. -/
lemma takeQuoted?_within {x : List Char} (hq : isQuote q) (h : Within k u v)
    (hcloses : closesFrom (some q) d v) (hu : takeQuoted? q u = some (x, r)) :
    ∃ x' r', takeQuoted? q v = some (x', r') ∧ Within k r r' := by
  induction hn : u.length using Nat.strong_induction_on generalizing u v x with
  | _ n ih =>
    obtain ⟨rfl, r', rfl, hrest⟩ | ⟨u', v', y, z, h', hlength, hu', hcloses', hv⟩ :=
      takeQuoted?_step hq h hcloses hu
    · have hjoin : q ≠ '\\' := by
        rintro rfl
        cases hq
      exact ⟨[], r', by rw [takeQuoted?_cons hjoin, if_pos rfl], hrest⟩
    · obtain ⟨x', r', hx', hrest⟩ := ih u'.length (hn ▸ hlength) h' hcloses' hu' rfl
      exact ⟨z ++ x', r', by rw [hv, hx']; rfl, hrest⟩

/-! ### Tokens -/

/-- A property that no special character has makes a character inline. -/
lemma isInline_of {p : Char → Bool}
    (hp : ['(', ')', '[', ']', '\x7b', '\x7d', '\'', '"', '#', '\\'].all fun d => !p d) (hc : p c) :
    isInline c := by
  rw [isInline, Bool.not_eq_true', ← Bool.not_eq_true, List.contains_iff_mem]
  intro hmem
  have := List.all_eq_true.1 hp c hmem
  simp [hc] at this

/-- A numeral without a mark takes characters of numerals. -/
lemma plain_taken (h : takeNumeral?.plain s = some (t, r)) :
    ∃ w, s = w ++ r ∧ ∀ c ∈ w, isNumeralChar c := by
  unfold takeNumeral?.plain at h
  simp only [Option.bind_eq_bind, Option.bind_eq_some_iff] at h
  obtain ⟨⟨n, e, rest⟩, hd, h⟩ := h
  obtain ⟨w, rfl, hspelled, -⟩ := takeDecimal?_spelled hd
  cases rest with
  | nil => exact ⟨w, by rw [finish_eq h], hspelled.chars⟩
  | cons c rest =>
    dsimp only at h
    split at h
    · rename_i hc
      split at h
      · cases h
        refine ⟨w ++ [c], by simp, List.forall_mem_append.2 ⟨hspelled.chars, ?_⟩⟩
        obtain rfl | rfl := hc <;> simp [isNumeralChar]
      · cases h
    · exact ⟨w, by rw [finish_eq h], hspelled.chars⟩

/-- A numeral with a mark of a base takes characters of numerals. -/
lemma takeBased_taken {base : Nat} (h : takeBased base s = some (t, r)) :
    ∃ w, s = w ++ r ∧ ∀ c ∈ w, isNumeralChar c := by
  obtain ⟨w, hw, hspelled, -⟩ := takeBaseDigits_spelled base 0 false s
  unfold takeBased at h
  split at h
  · rename_i heq
    split at h
    · cases h
      rw [heq] at hw
      exact ⟨w, hw, hspelled.chars⟩
    · cases h
  · cases h

/-- A numeral takes only characters of numerals away. -/
lemma takeNumeral?_taken (h : takeNumeral? s = some (t, r)) :
    ∃ w, s = w ++ r ∧ ∀ c ∈ w, isNumeralChar c := by
  obtain h | ⟨base, c, rest, rfl, hc, h⟩ := takeNumeral?_cases h
  · exact plain_taken h
  · obtain ⟨w, rfl, hchars⟩ := takeBased_taken h
    refine ⟨'0' :: c :: w, rfl, List.forall_mem_cons.2 ⟨by decide, List.forall_mem_cons.2 ⟨?_, hchars⟩⟩⟩
    exact isNumeralChar_of_isAlphanum (by simp [Char.isAlphanum, hc])

/-- A token that begins with an inline character takes only such characters away. -/
lemma take?_inline (hc : isInline c) (h : take? (c :: s) = some (t, r)) :
    ∃ w, c :: s = w ++ r ∧ ∀ x ∈ w, isInline x := by
  have hquote : ¬ (c = '\'' ∨ c = '"') := by
    simpa [isQuote] using isQuote_of_isInline hc
  simp only [take?, hquote, if_false] at h
  split at h
  · obtain ⟨w, hw, hchars⟩ := takeNumeral?_taken h
    exact ⟨w, hw, fun x hx => isInline_of (by decide) (hchars x hx)⟩
  · split at h
    · split at h
      · cases h
      · cases h
        exact ⟨_, List.takeWhile_append_dropWhile.symm,
          fun x hx => isInline_of (by decide) (List.mem_takeWhile_imp hx)⟩
    · obtain ⟨⟨p, x⟩, hp, heq⟩ := Option.map_eq_some_iff.1 h
      cases heq
      unfold takePunctuation? at hp
      obtain ⟨q, hq, hp⟩ := List.exists_of_findSome?_eq_some hp
      split at hp
      · rename_i hprefix
        cases hp
        obtain ⟨l, hl⟩ := List.isPrefixOf_iff_prefix.1 hprefix
        refine ⟨p.toList, ?_, ?_⟩
        · rw [← hl, ← String.length_toList, List.drop_left]
        · have hsigns : ∀ p ∈ signs, p.toList.head?.all isInline → p.toList.all isInline := by decide
          refine List.all_eq_true.1 (hsigns p hq ?_)
          cases hp : p.toList with
          | nil => rfl
          | cons d q =>
            rw [hp] at hl
            cases hl
            exact hc
      · cases hp

/-- A token is a bracket, or it opens and closes nothing, and neither does what it takes away. -/
lemma closesFrom_of_take? (h : take? (c :: s) = some (t, r)) :
    r <:+ s ∧ ((∀ d, nestingAfter? d t = some d ∧ closesFrom none d (c :: s) = closesFrom none d r) ∨
      r = s ∧ isQuote c = false ∧ c ∈ ['(', ')', '[', ']', '\x7b', '\x7d'] ∧
        t = .sign (String.singleton c)) := by
  obtain ⟨hcomment, hjoin⟩ := visible_of_take? h
  cases hquote : isQuote c with
  | true =>
    rw [take?_quote hquote] at h
    obtain ⟨⟨x, y⟩, hx, heq⟩ := Option.map_eq_some_iff.1 h
    cases heq
    refine ⟨(closesFrom_of_takeQuoted? (d := 0) hx).1, .inl fun d => ⟨rfl, ?_⟩⟩
    rw [closesFrom, if_neg hcomment, if_pos hquote]
    exact (closesFrom_of_takeQuoted? hx).2
  | false =>
    refine ⟨take?_suffix hquote h, ?_⟩
    by_cases hinline : isInline c
    · obtain ⟨w, hw, hchars⟩ := take?_inline hinline h
      refine .inl fun d => ⟨nestingAfter?_of_isInlineToken (isInlineToken_of_take? hinline h), ?_⟩
      rw [hw, closesFrom_append hchars]
    · have hc : ¬ (c = '\'' ∨ c = '"') := by simpa [isQuote] using hquote
      have hbracket : c = '(' ∨ c = ')' ∨ c = '[' ∨ c = ']' ∨ c = '\x7b' ∨ c = '\x7d' := by
        simp only [isInline, Bool.not_eq_true', Bool.not_eq_false, List.contains_eq_mem, List.mem_cons,
          List.not_mem_nil, or_false, decide_eq_true_eq] at hinline
        tauto
      obtain rfl | rfl | rfl | rfl | rfl | rfl := hbracket <;> cases h <;>
        exact .inr ⟨rfl, rfl, by simp, rfl⟩

/-- What is open after a token that can be read. -/
lemma closesFrom_of_nestingAfter? (h : take? (c :: s) = some (t, r))
    (he : nestingAfter? d t = some e) : closesFrom none d (c :: s) = closesFrom none e r := by
  obtain ⟨-, hinert | ⟨rfl, hquote, hbracket, rfl⟩⟩ := closesFrom_of_take? h
  · obtain ⟨hnesting, hcloses⟩ := hinert d
    rw [he] at hnesting
    cases hnesting
    exact hcloses
  · have hopen : openAfter? d c = some e := by
      simp only [List.mem_cons, List.not_mem_nil, or_false] at hbracket
      obtain rfl | rfl | rfl | rfl | rfl | rfl := hbracket <;>
        simp [nestingAfter?, openAfter?] at he ⊢ <;> omega
    rw [closesFrom, if_neg (visible_of_take? h).1, if_neg (by simp [hquote]), hopen]

/-- A token that can be read within another bracket can be read in a closed text. -/
lemma exists_nestingAfter? (h : take? (c :: s) = some (t, r)) (hcloses : closesFrom none d (c :: s))
    (he : nestingAfter? (d + 1) t = some e) : ∃ e', e = e' + 1 ∧ nestingAfter? d t = some e' := by
  obtain ⟨-, hinert | ⟨rfl, hquote, hbracket, rfl⟩⟩ := closesFrom_of_take? h
  · rw [(hinert (d + 1)).1] at he
    cases he
    exact ⟨d, rfl, (hinert d).1⟩
  · have hopen : ∃ e', openAfter? d c = some e' := by
      rw [closesFrom, if_neg (visible_of_take? h).1, if_neg (by simp [hquote])] at hcloses
      cases hopen : openAfter? d c with
      | none =>
        rw [hopen] at hcloses
        cases hcloses
      | some e' => exact ⟨e', rfl⟩
    obtain ⟨e', hopen⟩ := hopen
    simp only [List.mem_cons, List.not_mem_nil, or_false] at hbracket
    obtain rfl | rfl | rfl | rfl | rfl | rfl := hbracket <;>
      simp [nestingAfter?, openAfter?] at he hopen ⊢ <;> omega

/-! ### Texts of one line -/

/-- Whether a text has no line ends. -/
def OneLine (s : List Char) : Prop := ∀ c ∈ s, c ≠ '\n' ∧ c ≠ '\r'

/-- The empty text is of one line. -/
lemma oneLine_nil : OneLine [] := by simp [OneLine]

/-- The end of a text of one line is of one line. -/
lemma OneLine.of_suffix (h : OneLine s) (hr : r <:+ s) : OneLine r := fun c hc => h c (hr.subset hc)

/-- What follows the first character of a text of one line is of one line. -/
lemma OneLine.tail (h : OneLine (c :: s)) : OneLine s := h.of_suffix (List.suffix_cons c s)

/-- A comment hides the rest of a line. -/
lemma OneLine.dropWhile (h : OneLine s) : s.dropWhile (fun c => c != '\n' && c != '\r') = [] :=
  List.dropWhile_eq_nil_iff.2 fun c hc => by simp [h c hc]

/-- Without line ends nothing joins lines, and a line begins only with the text. -/
lemma tokensFrom?_line (h : OneLine (c :: s)) : tokensFrom? ls ind d (n + 1) (c :: s) =
    if c = ' ' ∨ c = '\t' then tokensFrom? ls (ind || ls) d n s
    else if c = '\x0c' then tokensFrom? ls false d n s
    else if c = '#' then tokensFrom? ls ind d n (s.dropWhile fun c => c != '\n' && c != '\r')
    else if c = '\\' then none
    else if ls && ind then none
    else (take? (c :: s)).bind fun (t, r) => (nestingAfter? d t).bind fun e =>
      (tokensFrom? false false e n r).map (t :: ·) := by
  have hline : ¬ (c = '\n' ∨ c = '\r') := by simpa using h c (by simp)
  have hjoin : ∀ rest, s ≠ '\n' :: rest := by
    rintro rest rfl
    exact (h '\n' (by simp)).1 rfl
  rw [tokensFrom?, if_neg hline]
  · congr! 5
    cases take? (c :: s) with
    | none => rfl
    | some p =>
      rw [Option.bind_some]
      cases hp : nestingAfter? d p.1 <;> simp [hp]
  · exact fun rest hs => hjoin rest hs

/-- A text that falls into tokens closes what is open. -/
theorem closesFrom_of_tokensFrom? (hline : OneLine s) (h : tokensFrom? ls ind d n s = some ts) :
    closesFrom none d s := by
  induction n generalizing ls ind d s ts with
  | zero => cases h
  | succ n ih =>
    cases s with
    | nil =>
      rw [tokensFrom?] at h
      split at h
      · rename_i hd
        simp [closesFrom, hd]
      · cases h
    | cons c s =>
      have hinline {a b : Bool} (hc : isInline c) (h : tokensFrom? a b d n s = some ts) :
          closesFrom none d (c :: s) :=
        (closesFrom_append (w := [c]) (by simpa using hc)).trans (ih hline.tail h)
      rw [tokensFrom?_line hline] at h
      split at h
      · rename_i hc
        exact hinline (by obtain rfl | rfl := hc <;> decide) h
      split at h
      · rename_i hc
        exact hinline (by rw [hc]; decide) h
      split at h
      · rename_i hc
        rw [hline.tail.dropWhile] at h
        have hdepth := ih (s := []) oneLine_nil h
        rw [closesFrom, if_pos hc]
        exact hdepth
      split at h
      · cases h
      split at h
      · cases h
      · obtain ⟨⟨t, r⟩, htake, h⟩ := Option.bind_eq_some_iff.1 h
        obtain ⟨e, he, h⟩ := Option.bind_eq_some_iff.1 h
        obtain ⟨ts, hts, -⟩ := Option.map_eq_some_iff.1 h
        rw [closesFrom_of_nestingAfter? htake he]
        exact ih (hline.tail.of_suffix (closesFrom_of_take? htake).1) hts

/-- Like tokens nest brackets alike. -/
lemma like_nestingAfter? {t' : Token} (h : Like t t') : nestingAfter? d t' = nestingAfter? d t := by
  cases h <;> rfl

/-- No token of a text is a line end. -/
lemma ne_lineEnd_of_take? (h : take? (c :: s) = some (t, r)) : t ≠ .lineEnd := by
  rintro rfl
  cases hquote : isQuote c with
  | true =>
    rw [take?_quote hquote] at h
    obtain ⟨_, -, heq⟩ := Option.map_eq_some_iff.1 h
    cases heq
  | false =>
    obtain h | ⟨_, h⟩ | ⟨_, h⟩ | ⟨_, -, h, -⟩ := take?_kinds hquote h <;> cases h

/-- The token at the beginning of a closed text is the like of the token alone. -/
lemma take?_within_of_closes (h : Within k (c :: u) (c :: v)) (hcloses : closesFrom none d (c :: v))
    (hu : take? (c :: u) = some (t, r)) :
    ∃ t' r', take? (c :: v) = some (t', r') ∧ Like t t' ∧ Within k r r' := by
  cases hquote : isQuote c with
  | true =>
    have hc : c = '\'' ∨ c = '"' := by simpa [isQuote] using hquote
    obtain ⟨v', heq, htail⟩ : ∃ v', c :: v = c :: v' ∧ Within k u v' :=
      h.cons (by obtain rfl | rfl := hc <;> decide) (by obtain rfl | rfl := hc <;> decide)
    cases heq
    rw [closesFrom, if_neg (visible_of_take? hu).1, if_pos hquote] at hcloses
    rw [take?_quote hquote] at hu ⊢
    obtain ⟨⟨x, y⟩, hx, heq⟩ := Option.map_eq_some_iff.1 hu
    cases heq
    obtain ⟨x', r', hx', hrest⟩ := takeQuoted?_within hquote htail hcloses hx
    exact ⟨.text (String.ofList x'), r', by rw [hx']; rfl, .text _ _, hrest⟩
  | false =>
    by_cases hc : c = ')'
    · subst hc
      cases h with
      | char _ h =>
        cases hu
        exact ⟨.sign ")", v, rfl, .refl _, h⟩
    · exact take?_within h hc hquote hu

/-- A text of one line is of one line alone. -/
lemma Within.oneLine (h : Within k u v) (hu : OneLine u) : OneLine v := by
  induction h with
  | done => exact oneLine_nil
  | char c h ih => exact List.forall_mem_cons.2 ⟨hu c (by simp), ih hu.tail⟩
  | @named ds ds' u v hds hds' h ih =>
    have hv := ih (hu.of_suffix ((List.suffix_append ds u).trans
      ((List.suffix_cons _ _).trans (List.suffix_cons _ _))))
    rw [← List.cons_append, ← List.cons_append]
    refine List.forall_mem_append.2 ⟨fun c hc => ?_, hv⟩
    have hname := continuesName_of_mem_alias hds' c hc
    exact ⟨ne_of_continuesName hname (by decide), ne_of_continuesName hname (by decide)⟩

/-- On one line, gaps are passed over outside of brackets as well. -/
lemma tokensFrom?_gap_line (hline : OneLine (c :: s)) (hc : isGap c) :
    tokensFrom? false false d (n + 1) (c :: s) = tokensFrom? false false d n s := by
  have hc : c = ' ' ∨ c = '\t' ∨ c = '\x0c' := by
    have hc' : c = ' ' ∨ c = '\t' ∨ c = '\n' ∨ c = '\r' ∨ c = '\x0c' := by
      simpa [isGap] using hc
    have := hline c (by simp)
    tauto
  rw [tokensFrom?_line hline]
  obtain rfl | rfl | rfl := hc <;> rfl

/-- A comment hides the closing parenthesis, and nothing joins lines. -/
lemma visible_of_tokensFrom? (hline : OneLine (c :: s))
    (h : tokensFrom? false false (d + 1) n (c :: s) = some ts) : c ≠ '#' ∧ c ≠ '\\' := by
  cases n with
  | zero => cases h
  | succ n =>
    rw [tokensFrom?_line hline] at h
    constructor <;> rintro rfl
    · rw [if_neg (by decide), if_neg (by decide), if_pos rfl, hline.tail.dropWhile] at h
      cases n <;> cases h
    · cases h

/--
Before a closing parenthesis a closed text falls into the like of the tokens into which it falls
alone.
-/
theorem tokensFrom?_within (h : Within k u v) (hline : OneLine u) (hcloses : closesFrom none d v)
    (hu : tokensFrom? false false (d + 1) n u = some ts) :
    ∃ n' rest us, tokensFrom? false false 0 n' k = some rest ∧ Enclosed rest ts us ∧ Closes d us ∧
      .lineEnd ∉ us ∧ (us = [] → ∀ c ∈ v, isGap c) ∧
      ∀ m, v.length < m → tokensFrom? false false d m v = some us := by
  induction n generalizing u v d ts with
  | zero => cases hu
  | succ n ih =>
    cases v with
    | nil =>
      cases h
      obtain rfl : d = 0 := by simpa [closesFrom] using hcloses
      rw [tokensFrom?_close] at hu
      obtain ⟨rest, hrest, rfl⟩ := Option.map_eq_some_iff.1 hu
      refine ⟨n, rest, [], hrest, .done, closes_nil.2 rfl, List.not_mem_nil, fun _ => by simp,
        fun m hm => ?_⟩
      obtain ⟨m, rfl⟩ := Nat.exists_eq_add_one.2 hm
      rfl
    | cons c v =>
      obtain ⟨u, rfl⟩ := h.exists_cons
      have hline' := h.oneLine hline
      obtain ⟨hcomment, hjoin⟩ := visible_of_tokensFrom? hline hu
      cases hgap : isGap c with
      | true =>
        obtain ⟨v', heq, htail⟩ : ∃ v', c :: v = c :: v' ∧ Within k u v' :=
          h.cons (by rintro rfl; cases hgap) (by rintro rfl; cases hgap)
        cases heq
        rw [tokensFrom?_gap_line hline hgap] at hu
        have hcloses' : closesFrom none d v := by
          rwa [← List.singleton_append, closesFrom_append] at hcloses
          simpa using isInline_of (by decide) hgap
        obtain ⟨n', rest, us, hrest, henclosed, hus, hends, hnil, hread⟩ :=
          ih htail hline.tail hcloses' hu
        refine ⟨n', rest, us, hrest, henclosed, hus, hends,
          fun h => List.forall_mem_cons.2 ⟨hgap, hnil h⟩, fun m hm => ?_⟩
        obtain ⟨m, rfl⟩ := Nat.exists_eq_add_one.2 (Nat.zero_lt_of_lt hm)
        rw [tokensFrom?_gap_line hline' hgap]
        exact hread m (Nat.lt_of_succ_lt_succ hm)
      | false =>
        rw [tokensFrom?_token hgap hcomment hjoin] at hu
        obtain ⟨⟨t, r⟩, htake, hu⟩ := Option.bind_eq_some_iff.1 hu
        obtain ⟨e, he, hu⟩ := Option.bind_eq_some_iff.1 hu
        obtain ⟨ts, hts, rfl⟩ := Option.map_eq_some_iff.1 hu
        obtain ⟨t', r', htake', hlike, hrest⟩ := take?_within_of_closes h hcloses htake
        obtain ⟨e, rfl, he'⟩ :=
          exists_nestingAfter? htake' hcloses ((like_nestingAfter? hlike).trans he)
        rw [closesFrom_of_nestingAfter? htake' he'] at hcloses
        obtain ⟨n', rest, us, hk, henclosed, hus, hends, -, hread⟩ :=
          ih hrest (hline.tail.of_suffix (closesFrom_of_take? htake).1) hcloses hts
        refine ⟨n', rest, t' :: us, hk, .cons hlike henclosed, closes_cons.2 ⟨e, he', hus⟩,
          by simp [hends, (ne_lineEnd_of_take? htake').symm],
          fun h => absurd h (List.cons_ne_nil _ _), fun m hm => ?_⟩
        obtain ⟨m, rfl⟩ := Nat.exists_eq_add_one.2 (Nat.zero_lt_of_lt hm)
        have hlength := (closesFrom_of_take? htake').1.length_le
        rw [tokensFrom?_token hgap hcomment hjoin, htake', Option.bind_some, he', Option.bind_some,
          hread m (by simp only [List.length_cons] at hm; omega)]
        rfl

end Formulary.Token
