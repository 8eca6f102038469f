import Formulary.Proofs.Formula.Closed
import Formulary.Proofs.Formula.Reading
import Formulary.Proofs.Formula.Sides
import Formulary.Proofs.Numeric.Residual

/-!
# The sides of a residual

Only the difference of the sides is compiled when a residual is built, so that a side can have it
compiled without being an expression itself. In a formula of one line with simple sides this takes a
side that is not closed (`accepted_iff_isClosed`), as those of `x) - (y = 1` are. Formulas are solved in
a form of one line (`Formula.oneLine_canonical`).
-/

namespace Formulary

open Formulary.Text Formulary.Token

namespace Formula

variable {k l r s u v : List Char} {a b : Aliases} {c : Char} {d : Nat} {quote : Option Char}
  {ps : List Piece} {e : Expression}

/-! ### Texts within a difference -/

/-- Characters may stand in front of both texts. -/
lemma within_chars (h : Within k u v) (w : List Char) : Within k (w ++ u) (w ++ v) := by
  induction w with
  | nil => exact h
  | cons c w ih => exact .char c ih

/-- A symbol that is not reserved is written as an alias. -/
lemma exists_alias (ha : a.Numbered) {n : List Char} (hn : isReserved (String.ofList n) = false) :
    ∃ i : Nat, ((Piece.symbol n).aliased a).1 = '_' :: 's' :: Nat.toDigits 10 i := by
  simp only [Piece.aliased, hn, Bool.false_eq_true, if_false]
  cases hknown : a.lookup (String.ofList n) with
  | none => exact ⟨a.length, toList_alias a.length⟩
  | some y =>
    obtain ⟨i, rfl⟩ := ha.alias hknown
    exact ⟨i, toList_alias i⟩

/-- A text is renamed alike wherever it stands. -/
lemma within_aliasPieces (ha : a.Numbered) (hb : b.Numbered) :
    Within k ((aliasPieces a ps).1 ++ ')' :: k) (aliasPieces b ps).1 := by
  induction ps generalizing a b with
  | nil => exact .done
  | cons p ps ih =>
    have hrest := ih (Aliases.numbered_aliasPieces ha [p]) (Aliases.numbered_aliasPieces hb [p])
    simp only [aliasPieces, List.append_assoc]
    cases p with
    | other c => exact .char c hrest
    | symbol n =>
      cases hn : isReserved (String.ofList n) with
      | true =>
        have hname : ∀ a, ((Piece.symbol n).aliased a).1 = n := fun a => by simp [Piece.aliased, hn]
        rw [hname, hname]
        exact within_chars hrest n
      | false =>
        obtain ⟨i, hi⟩ := exists_alias ha hn
        obtain ⟨j, hj⟩ := exists_alias hb hn
        rw [hi, hj]
        exact .named (fun c => Nat.isDigit_of_mem_toDigits (by decide) (by decide))
          (fun c => Nat.isDigit_of_mem_toDigits (by decide) (by decide)) hrest

/-- The power signs of a text are replaced one by one. -/
lemma withPowerSigns_cons : withPowerSigns (c :: s) =
    (if c = '^' then ['*', '*'] else [c]) ++ withPowerSigns s := rfl

/-- Power signs are replaced alike in both texts. -/
lemma within_withPowerSigns (h : Within k u v) :
    Within (withPowerSigns k) (withPowerSigns u) (withPowerSigns v) := by
  have hdigits : ∀ {ds : List Char}, (∀ c ∈ ds, c.isDigit) → '^' ∉ '_' :: 's' :: ds := by
    intro ds hds hmem
    have hmem : '^' ∈ ds := by simpa using hmem
    exact absurd (hds _ hmem) (by decide)
  induction h with
  | done => exact .done
  | char c h ih =>
    rw [withPowerSigns_cons, withPowerSigns_cons]
    exact within_chars ih _
  | @named ds ds' u v hds hds' h ih =>
    have htext : ∀ {ds w : List Char}, (∀ c ∈ ds, c.isDigit) →
        withPowerSigns ('_' :: 's' :: (ds ++ w)) = '_' :: 's' :: (ds ++ withPowerSigns w) := by
      intro ds w hds
      have happend : '_' :: 's' :: (ds ++ w) = '_' :: 's' :: ds ++ w := rfl
      rw [happend, withPowerSigns_append, withPowerSigns_of_notMem (hdigits hds)]
      rfl
    rw [htext hds, htext hds']
    exact .named hds hds' ih

/-- Within a quote, a star is passed over. -/
lemma closesFrom_star {q : Char} (hq : isQuote q) :
    closesFrom (some q) d ('*' :: s) = closesFrom (some q) d s := by
  rw [closesFrom_quote (by decide), if_neg (by rintro rfl; cases hq)]

/-- The power sign of formulas and that of expressions open and close nothing. -/
lemma closesFrom_withPowerSigns (hquote : ∀ q ∈ quote, isQuote q) :
    closesFrom quote d (withPowerSigns s) = closesFrom quote d s := by
  fun_induction closesFrom quote d s with
  | case1 d => rfl
  | case2 q d => rfl
  | case3 d rest => rfl
  | case4 d c rest hcomment hc ih =>
    have hcaret : c ≠ '^' := by
      rintro rfl
      cases hc
    rw [withPowerSigns_cons, if_neg hcaret, List.singleton_append, closesFrom, if_neg hcomment,
      if_pos hc]
    exact ih (by simpa using hc)
  | case5 d c rest hcomment hc hopen =>
    have hcaret : c ≠ '^' := by
      rintro rfl
      cases hopen
    rw [withPowerSigns_cons, if_neg hcaret, List.singleton_append, closesFrom, if_neg hcomment,
      if_neg hc, hopen]
  | case6 d c rest hcomment hc e hopen ih =>
    by_cases hcaret : c = '^'
    · subst hcaret
      cases hopen
      rw [withPowerSigns_cons, if_pos rfl, closesFrom_append (by simp [isInline])]
      exact ih hquote
    · rw [withPowerSigns_cons, if_neg hcaret, List.singleton_append, closesFrom, if_neg hcomment,
        if_neg hc, hopen]
      exact ih hquote
  | case7 q d c rest ih =>
    have htext : withPowerSigns ('\\' :: c :: rest) =
        '\\' :: ((if c = '^' then ['*', '*'] else [c]) ++ withPowerSigns rest) := rfl
    rw [htext]
    split
    · exact (closesFrom_star (hquote q rfl)).trans (ih hquote)
    · exact ih hquote
  | case8 d c rest _ ih =>
    have hc := hquote c rfl
    have hne : c ≠ '^' ∧ c ≠ '\\' := by constructor <;> rintro rfl <;> cases hc
    rw [withPowerSigns_cons, if_neg hne.1, List.singleton_append, closesFrom_quote hne.2, if_pos rfl]
    exact ih (by simp)
  | case9 q d c rest hjoin hne ih =>
    have hq := hquote q rfl
    by_cases hcaret : c = '^'
    · rw [withPowerSigns_cons, if_pos hcaret]
      exact (closesFrom_star hq).trans ((closesFrom_star hq).trans (ih hquote))
    · rw [withPowerSigns_cons, if_neg hcaret, List.singleton_append]
      cases rest with
      | nil => simp [withPowerSigns, closesFrom, hne]
      | cons c' rest =>
        rw [closesFrom_quote fun hc => hjoin c' rest hc rfl, if_neg hne]
        exact ih hquote

/-- What a text does not hold its parts do not hold. -/
lemma holds_of_part {part : List Char} (hu : u <:+: v) (h : holds part v = false) :
    holds part u = false := by
  rw [← Bool.not_eq_true, holds_iff] at h ⊢
  exact fun hpart => h (hpart.trans hu)

/-- No two underscores stand in a row alone if none do in a difference. -/
lemma holds_within (h : Within k u v) (hu : holds ['_', '_'] u = false) :
    holds ['_', '_'] v = false := by
  have hnext : ∀ {u v}, Within k u v → ['_'].isPrefixOf v = ['_'].isPrefixOf u := by
    intro u v h
    cases h <;> simp [List.isPrefixOf]
  have hdigits : ∀ {ds s : List Char}, (∀ c ∈ ds, c.isDigit) →
      holds ['_', '_'] ('_' :: 's' :: (ds ++ s)) = holds ['_', '_'] s := by
    intro ds s hds
    have happend : holds ['_', '_'] (ds ++ s) = holds ['_', '_'] s := by
      induction ds with
      | nil => rfl
      | cons d ds ih =>
        have hd : ('_' == d) = false := by
          rw [beq_eq_false_iff_ne]
          rintro rfl
          exact absurd (hds '_' (by simp)) (by decide)
        simp only [List.cons_append, holds, List.isPrefixOf, hd, Bool.false_and, Bool.false_or]
        exact ih fun x hx => hds x (by simp [hx])
    simpa [holds, List.isPrefixOf] using happend
  induction h with
  | done => rfl
  | char c h ih =>
    simp only [holds, List.isPrefixOf, Bool.or_eq_false_iff] at hu ⊢
    rw [hnext h]
    exact ⟨hu.1, ih hu.2⟩
  | named hds hds' h ih =>
    rw [hdigits hds] at hu
    rw [hdigits hds']
    exact ih hu

/-- A text of one line stays so with aliases. -/
lemma oneLine_renamed (ha : a.Numbered) (h : OneLine s) : OneLine (renamed a s).1 := by
  intro c hc
  obtain hc | hc := mem_aliasPieces ha hc
  · refine h c ?_
    rw [← text_pieces s]
    exact List.mem_flatMap.2 ⟨_, hc, by simp [Piece.text]⟩
  · constructor <;> rintro rfl <;> exact absurd hc (by decide)

/-- A text of one line stays so with the power signs of expressions. -/
lemma oneLine_withPowerSigns (h : OneLine s) : OneLine (withPowerSigns s) := by
  intro c hc
  obtain ⟨d, hd, hc⟩ := List.mem_flatMap.1 hc
  split at hc
  · obtain rfl : c = '*' := by simpa using hc
    decide
  · obtain rfl : c = d := by simpa using hc
    exact h c hd

/-! ### Formulas of one line -/

/-- A trimmed text begins a text without the blanks at its beginning. -/
lemma trim_isPrefix_dropWhile (s : List Char) : trim s <+: s.dropWhile isBlank :=
  List.rdropWhile_prefix isBlank _

/-- What stands in a trimmed text stands in the text. -/
lemma mem_trim (hc : c ∈ trim s) : c ∈ s :=
  (List.dropWhile_suffix _).subset ((trim_isPrefix_dropWhile s).subset hc)

/-- With its gaps collapsed, every text is of one line. -/
lemma oneLine_collapse {b : Bool} (s : List Char) : OneLine (collapse b s) := by
  induction s generalizing b with
  | nil => exact oneLine_nil
  | cons c s ih =>
    unfold collapse
    split
    · split
      · exact ih
      · exact List.forall_mem_cons.2 ⟨by decide, ih⟩
    · rename_i hblank
      refine List.forall_mem_cons.2 ⟨?_, ih⟩
      constructor <;> rintro rfl <;> exact hblank (by decide)

/-- Replacing keeps a text in one line if what is put in is of one line. -/
lemma oneLine_replaceFrom {rule : Rule} {skip : Nat} {before : Option Char}
    (hrule : ∀ ⦃before s replacement n⦄, rule before s = some (replacement, n) → OneLine s →
      OneLine replacement) (h : OneLine s) : OneLine (replaceFrom rule skip before s) := by
  induction s generalizing skip before with
  | nil =>
    unfold replaceFrom
    split
    · exact hrule ‹_› h
    · exact oneLine_nil
  | cons c s ih =>
    have hc : OneLine [c] := fun d hd => h d (by simp_all)
    cases skip with
    | succ skip => exact ih h.tail
    | zero =>
      rw [replaceFrom]
      split
      · exact List.forall_mem_append.2 ⟨hrule ‹_› h, List.forall_mem_append.2 ⟨hc, ih h.tail⟩⟩
      · exact List.forall_mem_append.2 ⟨hrule ‹_› h, ih h.tail⟩
      · exact List.forall_mem_append.2 ⟨hc, ih h.tail⟩

/-- What replaces a call in a text of one line is of one line. -/
lemma oneLine_callInRadians {f : Function} {before : Option Char} {n : Nat}
    (hrule : callInRadians f before s = some (u, n)) (h : OneLine s) : OneLine u := by
  obtain ⟨c, v, rest, rfl, rfl, -⟩ := eq_of_callInRadians hrule
  obtain ⟨hhead, harg⟩ := List.forall_mem_append.1 (List.forall_mem_append.1 h).1
  have hfactor : OneLine ") * pi / 180)".toList := by simp [OneLine]
  exact List.forall_mem_append.2 ⟨List.forall_mem_append.2 ⟨hhead,
    List.forall_mem_cons.2 ⟨by decide, harg⟩⟩, hfactor⟩

/-- A text of one line stays so when its angles are converted. -/
lemma oneLine_inRadians (h : OneLine s) : OneLine (inRadians s) :=
  List.foldlRecOn _ _ h fun _ hs _ _ => oneLine_replaceFrom (fun _ _ _ _ => oneLine_callInRadians) hs

/-- Formulas are solved in a form of one line. -/
theorem oneLine_canonical (s : List Char) : OneLine (canonical s) :=
  oneLine_inRadians fun c hc => oneLine_collapse s c (mem_trim hc)

/-! ### Texts that are read -/

/-- A text that begins with no blank still does so when it is read. -/
lemma exists_head (ha : a.Numbered) (hc : isBlank c = false) :
    ∃ d s', withPowerSigns (renamed a (c :: s)).1 = d :: s' ∧ isGap d = false := by
  obtain ⟨d, hhead, hblank⟩ : ∃ d, (renamed a (c :: s)).1.head? = some d ∧ isBlank d = false := by
    unfold renamed pieces
    rw [piecesFrom]
    split
    · obtain ⟨hne, hword⟩ := isWord_aliased ha
        (c :: (s.takeWhile isWord ++ (s.dropWhile isWord).takeWhile (· == '\'')))
      obtain ⟨d, x, hx⟩ := List.exists_cons_of_ne_nil hne
      refine ⟨d, by simp only [aliasPieces, hx, List.cons_append, List.head?_cons], ?_⟩
      rw [← Bool.not_eq_true]
      intro hblank
      have hd := hword d (by rw [hx]; exact List.mem_cons_self)
      rw [isWord_of_isBlank hblank] at hd
      cases hd
    · exact ⟨c, rfl, hc⟩
  obtain ⟨s', hs'⟩ := List.head?_eq_some_iff.1 hhead
  rw [hs', withPowerSigns_cons]
  split
  · exact ⟨'*', _, rfl, rfl⟩
  · refine ⟨d, _, rfl, ?_⟩
    rw [← Bool.not_eq_true]
    intro hgap
    rw [isBlank_of_isGap hgap] at hblank
    cases hblank

/-! ### Sides -/

/--
Whether an element of a tuple or an argument begins with a star, where the flag says that an element
may begin: at the beginning of a text, after an opening parenthesis and after a comma.
-/
def starsElement : (start : Bool) → List Char → Bool
  | _, [] => false
  | start, c :: rest =>
    start && (c == '*' || c == '^') ||
      starsElement (c == '(' || c == ',' || start && isBlank c) rest

/--
That a text, with aliases for its symbols, has no brackets but round ones, no quotes, and no stars in
front of an element. With these the language has more forms than expressions are read with.
-/
structure IsSimple (s : List Char) : Prop where
  signs : (aliased s).1.any ['\'', '"', '[', ']', '\x7b', '\x7d'].contains = false
  unstarred : starsElement true (aliased s).1 = false

/-- That a formula is of one line and has two simple sides. -/
structure HasSimpleSides (s l r : List Char) : Prop where
  sides : sides s = .ok (l, r)
  oneLine : OneLine s
  left : IsSimple l
  right : IsSimple r

/-- A formula in the form in which it is solved is of one line. -/
lemma hasSimpleSides_canonical (hsides : sides (canonical s) = .ok (l, r)) (hl : IsSimple l)
    (hr : IsSimple r) : HasSimpleSides (canonical s) l r :=
  ⟨hsides, oneLine_canonical s, hl, hr⟩

/-- Whether a text is an expression, with aliases for its symbols. -/
def Accepted (s : List Char) : Prop := ∃ e, Expression.compile (aliased s).1 = .ok e

/--
A text is compiled if no two underscores stand in a row, and its tokens are read as an expression.
-/
lemma compile_eq_ok : Expression.compile s = .ok e ↔ holds ['_', '_'] s = false ∧
    ∃ ts, tokens? (withPowerSigns s) = some ts ∧ Parser.ofTokens? ts = some e := by
  unfold Expression.compile
  cases holds ['_', '_'] s with
  | true => simp
  | false =>
    have htext : Expression.ofText? (withPowerSigns s) =
        (tokens? (withPowerSigns s)).bind Parser.ofTokens? := rfl
    rw [if_neg (by simp), htext]
    simp only [← Option.bind_eq_some_iff]
    cases (tokens? (withPowerSigns s)).bind Parser.ofTokens? <;> simp

/-- The sides of a text are parts of it that begin with no blanks. -/
lemma sides_spec (h : sides s = .ok (l, r)) : ∀ t, t = l ∨ t = r →
    (∃ c t', t = c :: t' ∧ isBlank c = false) ∧ ∀ c ∈ t, c ∈ s := by
  have htrim : ∀ {u}, (trim u).isEmpty = false →
      (∃ c t', trim u = c :: t' ∧ isBlank c = false) ∧ ∀ c ∈ trim u, c ∈ u := by
    intro u hu
    obtain ⟨c, t', ht⟩ := List.exists_cons_of_ne_nil (by simpa using hu)
    refine ⟨⟨c, t', ht, ?_⟩, fun c => mem_trim⟩
    obtain ⟨v, hv⟩ := trim_isPrefix_dropWhile u
    have hhead := List.head?_dropWhile_not isBlank u
    rw [← hv, ht] at hhead
    simpa using hhead
  obtain ⟨u, v, rfl, hu, hv, -, -⟩ := sides_eq_ok.1 ⟨_, h⟩
  rw [sides, splitAtEquals_append hu hv] at h
  dsimp only at h
  split at h
  · cases h
  · rename_i hempty
    cases h
    simp only [Bool.or_eq_true, not_or, Bool.not_eq_true] at hempty
    rintro t (rfl | rfl)
    · obtain ⟨hhead, hmem⟩ := htrim hempty.1
      exact ⟨hhead, fun c hc => List.mem_append_left _ (hmem c hc)⟩
    · obtain ⟨hhead, hmem⟩ := htrim hempty.2
      exact ⟨hhead, fun c hc => List.mem_append_right _ (List.mem_cons_of_mem _ (hmem c hc))⟩

/-- The residual of a formula is the text of the difference of its sides. -/
lemma residual_eq_differenceText (h : sides s = .ok (l, r)) : residual s = .ok (differenceText l r) := by
  rw [residual, h]
  rfl

/-- An expression of one line is closed. -/
lemma Accepted.isClosed (h : Accepted s) (hline : OneLine s) : IsClosed (aliased s).1 := by
  obtain ⟨e, he⟩ := h
  obtain ⟨-, ts, hts, -⟩ := compile_eq_ok.1 he
  rw [Token.IsClosed, ← closesFrom_withPowerSigns (by simp)]
  exact closesFrom_of_tokensFrom? (oneLine_withPowerSigns (oneLine_renamed rfl hline)) hts

/-- A closed text of one line that begins with no blank. -/
structure IsClosedSide (s : List Char) : Prop where
  head : ∃ c s', s = c :: s' ∧ isBlank c = false
  oneLine : OneLine s
  isClosed : IsClosed (aliased s).1

/--
A side falls into the tokens `us` alone, and into the tokens `ts` before a closing parenthesis and
`rest`, which are alike.
-/
structure ReadAlike (s : List Char) (rest ts us : List Token) : Prop where
  alone : tokens? (withPowerSigns (aliased s).1) = some us
  enclosed : Token.Enclosed rest ts us
  closes : Closes 0 us
  ne_nil : us ≠ []
  lineEnd_notMem : .lineEnd ∉ us

/-- A closed side is read alone as it is read within a difference. -/
lemma exists_readAlike {n : Nat} {ts : List Token} (ha : a.Numbered) (hs : IsClosedSide s)
    (hk : OneLine k)
    (hts : tokensFrom? false false 1 n (withPowerSigns ((renamed a s).1 ++ ')' :: k)) = some ts) :
    ∃ n' rest us, tokensFrom? false false 0 n' (withPowerSigns k) = some rest ∧
      ReadAlike s rest ts us := by
  have hwithin : Within k ((renamed a s).1 ++ ')' :: k) (aliased s).1 := within_aliasPieces ha rfl
  have hwithin := within_withPowerSigns hwithin
  have hline : OneLine (withPowerSigns ((renamed a s).1 ++ ')' :: k)) :=
    oneLine_withPowerSigns (List.forall_mem_append.2
      ⟨oneLine_renamed ha hs.oneLine, List.forall_mem_cons.2 ⟨by decide, hk⟩⟩)
  have hclosed := hs.isClosed
  rw [Token.IsClosed, ← closesFrom_withPowerSigns (by simp)] at hclosed
  obtain ⟨n', rest, us, hrest, henclosed, hcloses, hends, hnil, hread⟩ :=
    tokensFrom?_within hwithin hline hclosed hts
  obtain ⟨c, s', rfl, hc⟩ := hs.head
  obtain ⟨d, t, ht, hgap⟩ := exists_head (a := []) (s := s') rfl hc
  have ht : withPowerSigns (aliased (c :: s')).1 = d :: t := ht
  rw [ht] at hnil hread hwithin
  have hne : us ≠ [] := by
    intro hus
    rw [hnil hus d List.mem_cons_self] at hgap
    cases hgap
  have hread := hread _ (Nat.lt_succ_self _)
  -- At the beginning of a line only blanks are read in another way.
  obtain ⟨u, hu⟩ := hwithin.exists_cons
  rw [hu] at hline hts
  obtain ⟨hcomment, hjoin⟩ := visible_of_tokensFrom? hline hts
  have halone : tokens? (withPowerSigns (aliased (c :: s')).1) = some us := by
    rw [ht, tokens?, tokensFrom?_token hgap hcomment hjoin]
    rwa [tokensFrom?_token hgap hcomment hjoin] at hread
  exact ⟨n', rest, us, hrest, halone, henclosed, hcloses, hne, hends⟩

/-- Between the parentheses of a difference its closed sides are read as they are alone. -/
lemma exists_readAlike_of_difference {ts : List Token} (hl : IsClosedSide l) (hr : IsClosedSide r)
    (hts : tokens? (withPowerSigns (aliased (differenceText l r)).1) = some ts) :
    ∃ ts₁ ts₂ us us', ts = .sign "(" :: ts₁ ∧
      ReadAlike l (.sign "-" :: .sign "(" :: ts₂) ts₁ us ∧ ReadAlike r [] ts₂ us' := by
  have ha : (renamed [] l).2.Numbered := Aliases.numbered_aliasPieces (a := []) rfl _
  have hright : OneLine (' ' :: '-' :: ' ' :: '(' :: ((renamed (renamed [] l).2 r).1 ++ [')'])) := by
    simp only [OneLine, List.forall_mem_cons, List.forall_mem_append]
    exact ⟨by decide, by decide, by decide, by decide, oneLine_renamed ha hr.oneLine, by simp⟩
  rw [aliased_differenceText, differenceText_eq, tokens?, withPowerSigns_cons, if_neg (by decide),
    List.singleton_append, List.length_cons, tokensFrom?_open (by decide)] at hts
  obtain ⟨ts₁, hts₁, rfl⟩ := Option.map_eq_some_iff.1 hts
  obtain ⟨n, rest, us, hrest, hleft⟩ := exists_readAlike (a := []) rfl hl hright hts₁
  obtain ⟨n, ts₂, hts₂, rfl⟩ : ∃ n ts₂,
      tokensFrom? false false 1 n (withPowerSigns ((renamed (renamed [] l).2 r).1 ++ [')'])) =
        some ts₂ ∧ rest = .sign "-" :: .sign "(" :: ts₂ := by
    obtain _ | _ | _ | _ | n := n
    case succ.succ.succ.succ =>
      rw [show withPowerSigns (' ' :: '-' :: ' ' :: '(' :: _) = ' ' :: '-' :: ' ' :: '(' :: _ from rfl,
        Layout.tokensFrom?_between] at hrest
      obtain ⟨ts₂, hts₂, rfl⟩ := Option.map_eq_some_iff.1 hrest
      exact ⟨n, ts₂, hts₂, rfl⟩
    all_goals cases hrest
  obtain ⟨n', rest, us', hrest, hright⟩ := exists_readAlike ha hr oneLine_nil hts₂
  obtain rfl : rest = [] := by
    cases n' with
    | zero => cases hrest
    | succ n' =>
      cases hrest
      rfl
  exact ⟨ts₁, ts₂, us, us', rfl, hleft, hright⟩

/-- The sides of a difference have no two underscores in a row if it has none. -/
lemma holds_of_differenceText (h : holds ['_', '_'] (aliased (differenceText l r)).1 = false) :
    holds ['_', '_'] (aliased l).1 = false ∧ holds ['_', '_'] (aliased r).1 = false := by
  rw [aliased_differenceText, differenceText_eq] at h
  have ha : (renamed [] l).2.Numbered := Aliases.numbered_aliasPieces (a := []) rfl _
  constructor
  · exact holds_within (within_aliasPieces (a := []) rfl rfl)
      (holds_of_part (List.suffix_cons _ _).isInfix h)
  · refine holds_within (within_aliasPieces (k := []) ha rfl) (holds_of_part ?_ h)
    exact ⟨'(' :: ((renamed [] l).1 ++ [')', ' ', '-', ' ', '(']), [], by simp [renamed, pieces]⟩

/-- A side is an expression if the tokens into which it falls alone are a whole sequence. -/
lemma ReadAlike.accepted {rest ts us : List Token} (h : ReadAlike s rest ts us)
    (hholds : holds ['_', '_'] (aliased s).1 = false)
    (hread : ∃ q, Parser.sequence (us.length + 1) us = some q) : Accepted s := by
  obtain ⟨q, hq⟩ := hread
  refine ⟨Parser.grouped q.1 q.2, compile_eq_ok.2 ⟨hholds, us, h.alone, ?_⟩⟩
  rw [Parser.ofTokens?_eq h.lineEnd_notMem, hq]
  rfl

/-- The sides of a difference that is an expression are expressions if they are closed. -/
theorem accepted_of_difference (hl : IsClosedSide l) (hr : IsClosedSide r)
    (h : Accepted (differenceText l r)) : Accepted l ∧ Accepted r := by
  obtain ⟨e, he⟩ := h
  obtain ⟨hholds, ts, hts, he⟩ := compile_eq_ok.1 he
  obtain ⟨ts₁, ts₂, us, us', rfl, hleft, hright⟩ :=
    exists_readAlike_of_difference hl hr hts
  have hends : .lineEnd ∉ Token.sign "(" :: ts₁ := by
    have hends' := hright.enclosed.lineEnd_notMem hright.lineEnd_notMem List.not_mem_nil
    simpa using hleft.enclosed.lineEnd_notMem hleft.lineEnd_notMem (by simpa using hends')
  rw [Parser.ofTokens?_eq hends] at he
  obtain ⟨p, hp, -⟩ := Option.bind_eq_some_iff.1 he
  obtain ⟨hq, hq'⟩ := Parser.sequences_of_difference hleft.enclosed hright.enclosed hleft.closes
    hright.closes hleft.ne_nil hright.ne_nil hp
  obtain ⟨hholdsL, hholdsR⟩ := holds_of_differenceText hholds
  exact ⟨hleft.accepted hholdsL hq, hright.accepted hholdsR hq'⟩

end Formula

namespace Numeric.Residual

open Formulary.Formula

variable {formula unknown : String} {bindings : List (String × Float)} {l r : List Char}

/-- The difference of the sides is an expression if a residual was built. -/
lemma accepted_of_build {f : Residual} (hsides : sides formula.toList = .ok (l, r))
    (h : build formula bindings unknown = .ok f) : Accepted (differenceText l r) := by
  obtain ⟨text, htext, -, hcompile, -⟩ := build_eq_ok.1 h
  rw [residual_eq_differenceText hsides] at htext
  cases htext
  exact ⟨f.expression, hcompile⟩

/-- Of a residual that was built from a formula of one line, closed sides are expressions. -/
lemma accepted_of_isClosed {f : Residual} (hsides : sides formula.toList = .ok (l, r))
    (hline : OneLine formula.toList) (hbuild : build formula bindings unknown = .ok f)
    (hl : IsClosed (aliased l).1) (hr : IsClosed (aliased r).1) : Accepted l ∧ Accepted r := by
  obtain ⟨hheadL, hmemL⟩ := sides_spec hsides l (.inl rfl)
  obtain ⟨hheadR, hmemR⟩ := sides_spec hsides r (.inr rfl)
  exact accepted_of_difference ⟨hheadL, fun c hc => hline c (hmemL c hc), hl⟩
    ⟨hheadR, fun c hc => hline c (hmemR c hc), hr⟩ (accepted_of_build hsides hbuild)

/--
Of a residual that was built from a formula of one line with simple sides, the sides are expressions if
and only if both are closed. So no residual is built from a closed side that is no expression.
-/
theorem accepted_iff_isClosed {f : Residual} (h : HasSimpleSides formula.toList l r)
    (hbuild : build formula bindings unknown = .ok f) :
    Accepted l ∧ Accepted r ↔ IsClosed (aliased l).1 ∧ IsClosed (aliased r).1 := by
  have hline {t : List Char} (ht : t = l ∨ t = r) : OneLine t :=
    fun c hc => h.oneLine c ((sides_spec h.sides t ht).2 c hc)
  constructor
  · rintro ⟨hleft, hright⟩
    exact ⟨hleft.isClosed (hline (.inl rfl)), hright.isClosed (hline (.inr rfl))⟩
  · rintro ⟨hleft, hright⟩
    exact accepted_of_isClosed h.sides h.oneLine hbuild hleft hright

/-- The sides of `x*(y + 1) = 3` are simple and closed, and they are expressions. -/
theorem accepted_iff_isClosed_product :
    HasSimpleSides "x*(y + 1) = 3".toList "x*(y + 1)".toList "3".toList ∧
    (∃ f, build "x*(y + 1) = 3" [("y", 2.0)] "x" = .ok f) ∧
    Accepted "x*(y + 1)".toList ∧ Accepted "3".toList := by
  have hleft : (aliased "x*(y + 1)".toList).1 = "_s0*(_s1 + 1)".toList := by
    rw [aliased_eq]
    decide +kernel
  have hright : (aliased "3".toList).1 = "3".toList := by
    rw [aliased_eq]
    decide +kernel
  have hsimple : IsSimple "x*(y + 1)".toList ∧ IsSimple "3".toList := by
    refine ⟨⟨?_, ?_⟩, ⟨?_, ?_⟩⟩
    · rw [hleft]
      rfl
    · rw [hleft]
      rfl
    · rw [hright]
      rfl
    · rw [hright]
      rfl
  have hcanonical : canonical "x*(y + 1) = 3".toList = "x*(y + 1) = 3".toList := by
    decide +kernel
  have hsides : HasSimpleSides "x*(y + 1) = 3".toList "x*(y + 1)".toList "3".toList :=
    hcanonical ▸ hasSimpleSides_canonical (by rw [hcanonical]; rfl) hsimple.1 hsimple.2
  have hbuild : build "x*(y + 1) = 3" [("y", 2.0)] "x" =
      .ok ⟨.binary .sub (.binary .mul (.name "_s0") (.binary .add (.name "_s1") (.integer 1)))
        (.integer 3), "_s0", [("_s1", 2.0)]⟩ := by
    refine build_eq_ok.2 ⟨"(x*(y + 1)) - (3)".toList, rfl, ?_⟩
    rw [aliased_eq]
    exact ⟨by decide +kernel, by decide +kernel, by rfl, by decide +kernel⟩
  refine ⟨hsides, ⟨_, hbuild⟩, (accepted_iff_isClosed hsides hbuild).2 ?_⟩
  rw [hleft, hright]
  decide

/-- The left side of this formula is no expression, but its two halves are, between parentheses. -/
theorem build_accepts_unclosed :
    sides "x) - (y = 1".toList = .ok ("x) - (y".toList, "1".toList) ∧
    ¬ Accepted "x) - (y".toList ∧
    ∃ f, build "x) - (y = 1" [("y", 2.0)] "x" = .ok f := by
  refine ⟨by rfl, ?_, ?_⟩
  · rintro ⟨e, he⟩
    have hleft : (aliased "x) - (y".toList).1 = "_s0) - (_s1".toList := by
      rw [aliased_eq]
      decide +kernel
    rw [hleft] at he
    have hcompile : Expression.compile "_s0) - (_s1".toList = .error .malformed := by rfl
    rw [hcompile] at he
    cases he
  · refine ⟨⟨.binary .sub (.binary .sub (.name "_s0") (.name "_s1")) (.integer 1), "_s0",
      [("_s1", 2.0)]⟩, build_eq_ok.2 ⟨"(x) - (y) - (1)".toList, rfl, ?_⟩⟩
    rw [Formula.aliased_eq]
    exact ⟨by decide +kernel, by decide +kernel, by rfl, by decide +kernel⟩

end Numeric.Residual

end Formulary
