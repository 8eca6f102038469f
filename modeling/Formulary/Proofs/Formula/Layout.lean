import Formulary.Proofs.Expression.Nesting

/-!
# The parentheses of a text

A `Layout` is a text whose parentheses match, cut at each of them. A pair can be marked as
converted; then its contents are written in a second pair and multiplied by `pi / 180`. Every text
with matching parentheses has a layout (`exists_text`). A layout
lexes segment by segment (`lexes_paren`), and it is read inside of brackets unless they are nested
too deeply (`tokensFrom?_text`, `lexes_of_tokensFrom?`).
-/

namespace Formulary.Formula

open Formulary.Token

/--
A text with matching parentheses: a segment without any, which is all, or after which a pair and
the rest follow.
-/
inductive Layout where
  | plain (w : List Char)
  | paren (converted : Bool) (w : List Char) (inner rest : Layout)
  deriving Repr, DecidableEq

/-- What stands in a pair of parentheses. -/
def wrap (converted : Bool) (s : List Char) : List Char :=
  if converted then '(' :: (s ++ ')' :: " * pi / 180".toList) else s

/-- The tokens in a pair of parentheses. -/
def wrapTokens (converted : Bool) (ts : List Token) : List Token :=
  if converted then
    .sign "(" :: (ts ++ [.sign ")", .sign "*", .name "pi", .sign "/", .integer 180])
  else ts

/-- Whether a text has no parentheses. -/
def Bare (w : List Char) : Prop := '(' ∉ w ∧ ')' ∉ w

/-- The beginning of a text without parentheses has none. -/
lemma Bare.append_left {u v : List Char} (h : Bare (u ++ v)) : Bare u :=
  ⟨fun hc => h.1 (by simp [hc]), fun hc => h.2 (by simp [hc])⟩

/-- The end of a text without parentheses has none. -/
lemma Bare.append_right {u v : List Char} (h : Bare (u ++ v)) : Bare v :=
  ⟨fun hc => h.1 (by simp [hc]), fun hc => h.2 (by simp [hc])⟩

/-- Texts without parentheses make up a text without parentheses. -/
lemma Bare.append {u v : List Char} (hu : Bare u) (hv : Bare v) : Bare (u ++ v) :=
  ⟨by simpa using ⟨hu.1, hv.1⟩, by simpa using ⟨hu.2, hv.2⟩⟩

namespace Layout

/-- The text of a layout. -/
def text : Layout → List Char
  | plain w => w
  | paren m w i r => w ++ '(' :: (wrap m i.text ++ ')' :: r.text)

/-- How deeply the parentheses of a text are nested. -/
def depth : Layout → Nat
  | plain _ => 0
  | paren m _ i r => max (i.depth + 1 + m.toNat) r.depth

/-- All segments of a layout have a property. -/
def All (P : List Char → Prop) : Layout → Prop
  | plain w => P w
  | paren _ w i r => P w ∧ i.All P ∧ r.All P

/-- A layout without its marks. -/
def erase : Layout → Layout
  | plain w => plain w
  | paren _ w i r => paren false w i.erase r.erase

/-- Whether the parentheses of a text match, when some are open before it. -/
def matched : Nat → List Char → Bool
  | n, [] => n == 0
  | n, c :: s =>
    if c = '(' then matched (n + 1) s
    else if c = ')' then n != 0 && matched (n - 1) s
    else matched n s

/-- A layout with one more character in front. -/
def push (c : Char) : Layout → Layout
  | plain w => plain (c :: w)
  | paren m w i r => paren m (c :: w) i r

/-- A character in front of a layout stands in front of its text. -/
lemma push_text (c : Char) (t : Layout) : (t.push c).text = c :: t.text := by
  cases t <;> rfl

/-- A text is cut into layouts at the parentheses that close nothing in it. -/
lemma exists_layouts {n : Nat} {s : List Char} (h : matched n s) :
    ∃ (t : Layout) (ts : List Layout), ts.length = n ∧ t.text ++ ts.flatMap (fun u => ')' :: u.text) = s ∧
      ∀ u ∈ t :: ts, u.erase = u ∧ u.All Bare := by
  -- A closing parenthesis ends the first of the layouts, and an opening one puts the first of them
  -- in front of the second.
  induction s generalizing n with
  | nil =>
    obtain rfl : n = 0 := by simpa [matched] using h
    exact ⟨plain [], [], rfl, rfl, by simp [erase, All, Bare]⟩
  | cons c s ih =>
    simp only [matched] at h
    split at h
    · rename_i hc
      obtain ⟨t, ts, hlength, htext, hall⟩ := ih h
      obtain ⟨u, ts, rfl⟩ := List.exists_cons_of_length_eq_add_one hlength
      refine ⟨paren false [] t u, ts, by simpa using hlength, ?_, fun v hv => ?_⟩
      · simp [text, wrap, hc, ← htext]
      · obtain rfl | hv := List.mem_cons.1 hv
        · obtain ⟨het, hbt⟩ := hall t (by simp)
          obtain ⟨heu, hbu⟩ := hall u (by simp)
          exact ⟨by rw [erase, het, heu], ⟨nofun, nofun⟩, hbt, hbu⟩
        · exact hall v (by simp [hv])
    · split at h
      · rename_i hc
        simp only [Bool.and_eq_true, bne_iff_ne] at h
        obtain ⟨n, rfl⟩ := Nat.exists_eq_succ_of_ne_zero h.1
        obtain ⟨t, ts, hlength, htext, hall⟩ := ih h.2
        refine ⟨plain [], t :: ts, by simpa using hlength, ?_, fun v hv => ?_⟩
        · simp [text, hc, ← htext]
        · obtain rfl | hv := List.mem_cons.1 hv
          · exact ⟨rfl, nofun, nofun⟩
          · exact hall v hv
      · rename_i hopen hclose
        obtain ⟨t, ts, hlength, htext, hall⟩ := ih h
        refine ⟨t.push c, ts, hlength, by rw [push_text, List.cons_append, htext], fun v hv => ?_⟩
        obtain rfl | hv := List.mem_cons.1 hv
        · have hpush : ∀ {w}, Bare w → Bare (c :: w) := fun hw =>
            ⟨by simp [hw.1, Ne.symm hopen], by simp [hw.2, Ne.symm hclose]⟩
          obtain ⟨het, hbt⟩ := hall t (by simp)
          cases t with
          | plain w => exact ⟨rfl, hpush hbt⟩
          | paren m w i r =>
            simp only [erase, paren.injEq, true_and] at het
            exact ⟨by simp only [push, erase, het], hpush hbt.1, hbt.2⟩
        · exact hall v (by simp [hv])

/-- Every text whose parentheses match has a layout. -/
theorem exists_text {s : List Char} (h : matched 0 s) :
    ∃ t : Layout, t.text = s ∧ t.erase = t ∧ t.All Bare := by
  obtain ⟨t, ts, hlength, htext, hall⟩ := exists_layouts h
  obtain rfl := List.eq_nil_of_length_eq_zero hlength
  exact ⟨t, by simpa using htext, hall t (by simp)⟩

/-- The text of a conversion is a sequence of tokens. -/
lemma lexes_conversion {ts : List Token} :
    Lexes " * pi / 180".toList ts ↔ ts = [.sign "*", .name "pi", .sign "/", .integer 180] := by
  have h : Lexes " * pi / 180".toList [.sign "*", .name "pi", .sign "/", .integer 180] := by
    refine .gap (by decide) (.token (r := " pi / 180".toList) (by decide) (by decide) (by decide)
      (.gap (by decide) (.token (r := " / 180".toList) (by decide) (by decide) (by decide +kernel)
        (.gap (by decide) (.token (r := " 180".toList) (by decide) (by decide) (by decide)
          (.gap (by decide) (.token (r := []) (by decide) (by decide) (by decide) .nil)))))))
  exact ⟨fun h' => h'.unique h, fun he => he ▸ h⟩

/-- The tokens in a pair of parentheses are those of what stands there, wrapped as it is. -/
lemma lexes_wrap {m : Bool} {s k : List Char} {ts : List Token} :
    Lexes (wrap m s ++ ')' :: k) ts ↔ ∃ a b, Lexes s a ∧ Lexes k b ∧
      ts = wrapTokens m a ++ .sign ")" :: b := by
  cases m with
  | false =>
    simp only [wrap, wrapTokens, Bool.false_eq_true, if_false]
    rw [lexes_append (.of_delimiter (by decide))]
    simp only [lexes_close]
    constructor
    · rintro ⟨a, _, ha, ⟨b, hb, rfl⟩, rfl⟩
      exact ⟨a, b, ha, hb, rfl⟩
    · rintro ⟨a, b, ha, hb, rfl⟩
      exact ⟨a, _, ha, ⟨b, hb, rfl⟩, rfl⟩
  | true =>
    simp only [wrap, wrapTokens, if_true, List.cons_append, List.append_assoc]
    rw [lexes_open]
    simp only [lexes_append (.of_delimiter (show isDelimiter ')' by decide)), lexes_close,
      lexes_conversion]
    constructor
    · rintro ⟨_, ⟨a, _, ha, ⟨_, ⟨_, _, rfl, ⟨b, hb, rfl⟩, rfl⟩, rfl⟩, rfl⟩, rfl⟩
      exact ⟨a, b, ha, hb, by simp⟩
    · rintro ⟨a, b, ha, hb, rfl⟩
      exact ⟨_, ⟨a, _, ha, ⟨_, ⟨_, _, rfl, ⟨b, hb, rfl⟩, rfl⟩, rfl⟩, rfl⟩, by simp⟩

/-- A pair of parentheses, what stands before it, in it and after it lex separately. -/
theorem lexes_paren {m : Bool} {w : List Char} {i r : Layout} {ts : List Token} :
    Lexes (paren m w i r).text ts ↔ ∃ a b c, Lexes w a ∧ Lexes i.text b ∧ Lexes r.text c ∧
      ts = a ++ .sign "(" :: (wrapTokens m b ++ .sign ")" :: c) := by
  rw [text, lexes_append (.of_delimiter (by decide))]
  simp only [lexes_open, lexes_wrap]
  constructor
  · rintro ⟨a, _, ha, ⟨_, ⟨b, c, hb, hc, rfl⟩, rfl⟩, rfl⟩
    exact ⟨a, b, c, ha, hb, hc, rfl⟩
  · rintro ⟨a, b, c, ha, hb, hc, rfl⟩
    exact ⟨a, _, ha, ⟨_, ⟨b, c, hb, hc, rfl⟩, rfl⟩, rfl⟩

variable {d n : Nat} {k : List Char} {ts : List Token}

/-- Whether nothing in a segment opens, closes or hides anything. -/
def Inline (w : List Char) : Prop := ∀ c ∈ w, isInline c

/-- The factor of a conversion opens and closes nothing. -/
lemma inline_conversion : Inline " * pi / 180".toList := List.all_eq_true.1 (by decide)

/-- The text in a pair of parentheses is read as it lexes. -/
lemma tokensFrom?_wrap {m : Bool} {i : Layout} {a b : List Token}
    (hdepth : d + 1 + i.depth + m.toNat ≤ maxNesting)
    (hi : ∀ {d k b}, d + 1 + i.depth ≤ maxNesting →
      (∀ n, k.length < n → tokensFrom? false false d n k = some b) →
      ∀ n, (i.text ++ ')' :: k).length < n →
        tokensFrom? false false (d + 1) n (i.text ++ ')' :: k) = some (a ++ .sign ")" :: b))
    (hk : ∀ n, k.length < n → tokensFrom? false false d n k = some b) :
    ∀ n, (wrap m i.text ++ ')' :: k).length < n →
      tokensFrom? false false (d + 1) n (wrap m i.text ++ ')' :: k) =
        some (wrapTokens m a ++ .sign ")" :: b) := by
  cases m with
  | false => exact hi hdepth hk
  | true =>
    intro n hn
    cases n with
    | zero => cases hn
    | succ n =>
      have hclose : ∀ n, (')' :: k).length < n →
          tokensFrom? false false (d + 1) n (')' :: k) = some (.sign ")" :: b) := by
        intro n hn
        cases n with
        | zero => cases hn
        | succ n =>
          rw [tokensFrom?_close, hk n (Nat.lt_of_succ_lt_succ hn)]
          rfl
      have hconversion := tokensFrom?_segment (Nat.le_add_left 1 d) inline_conversion
        (lexes_conversion.2 rfl) (.of_delimiter (by decide)) hclose
      have hinner := hi (d := d + 1) (by simp at hdepth; omega) hconversion n (by
        simp only [wrap, if_true, List.cons_append, List.length_cons, List.append_assoc] at hn
        exact Nat.lt_of_succ_lt_succ hn)
      simp only [wrap, wrapTokens, if_true, List.cons_append, List.append_assoc]
      rw [tokensFrom?_open (by simp at hdepth; omega), hinner]
      rfl

/-- Within brackets a layout is read as it lexes, unless it is nested too deeply. -/
theorem tokensFrom?_text {t : Layout} {a b : List Token} (ht : t.All Inline)
    (hdepth : d + 1 + t.depth ≤ maxNesting) (ha : Lexes t.text a)
    (hk : ∀ n, k.length < n → tokensFrom? false false d n k = some b) :
    ∀ n, (t.text ++ ')' :: k).length < n →
      tokensFrom? false false (d + 1) n (t.text ++ ')' :: k) = some (a ++ .sign ")" :: b) := by
  induction t generalizing d k a b with
  | plain w =>
    refine tokensFrom?_segment (Nat.le_add_left 1 d) ht ha (.of_delimiter (by decide)) ?_
    intro n hn
    cases n with
    | zero => cases hn
    | succ n =>
      rw [tokensFrom?_close, hk n (Nat.lt_of_succ_lt_succ hn)]
      rfl
  | paren m w i r ihi ihr =>
    obtain ⟨hw, hi, hr⟩ := ht
    obtain ⟨x, y, z, hx, hy, hz, rfl⟩ := lexes_paren.1 ha
    simp only [depth] at hdepth
    have hrest := ihr hr (by omega) hz hk
    have hwrap := tokensFrom?_wrap (m := m) (by omega) (fun hd hk => ihi hi hd hy hk) hrest
    have hopen : ∀ n, ('(' :: (wrap m i.text ++ ')' :: (r.text ++ ')' :: k))).length < n →
        tokensFrom? false false (d + 1) n ('(' :: (wrap m i.text ++ ')' :: (r.text ++ ')' :: k))) =
          some (.sign "(" :: (wrapTokens m y ++ .sign ")" :: (z ++ .sign ")" :: b))) := by
      intro n hn
      cases n with
      | zero => cases hn
      | succ n =>
        rw [tokensFrom?_open (by omega), hwrap n (Nat.lt_of_succ_lt_succ hn)]
        rfl
    have hsegment := tokensFrom?_segment (Nat.le_add_left 1 d) hw hx (.of_delimiter (by decide)) hopen
    simpa only [text, List.append_assoc, List.cons_append] using hsegment

/-- After a closing parenthesis the rest is read. -/
lemma tokensFrom?_close_eq_some (h : tokensFrom? false false (d + 1) n (')' :: k) = some ts) :
    ∃ n' b, tokensFrom? false false d n' k = some b ∧ ts = .sign ")" :: b := by
  cases n with
  | zero => cases h
  | succ n =>
    rw [tokensFrom?_close, Option.map_eq_some_iff] at h
    obtain ⟨b, hb, rfl⟩ := h
    exact ⟨n, b, hb, rfl⟩

/-- After an opening parenthesis the rest is read, one level deeper. -/
lemma tokensFrom?_open_eq_some {ls : Bool} (h : tokensFrom? ls false d n ('(' :: k) = some ts) :
    d < maxNesting ∧ ∃ n' b, tokensFrom? false false (d + 1) n' k = some b ∧
      ts = .sign "(" :: b := by
  cases n with
  | zero => cases h
  | succ n =>
    have hd := lt_of_tokensFrom?_open h
    rw [tokensFrom?_open hd, Option.map_eq_some_iff] at h
    obtain ⟨b, hb, rfl⟩ := h
    exact ⟨hd, n, b, hb, rfl⟩

/-- What is read of a layout within brackets are the tokens into which it falls. -/
theorem lexes_of_tokensFrom? {t : Layout} (ht : t.All Inline) (hd : d + 1 ≤ maxNesting)
    (h : tokensFrom? false false (d + 1) n (t.text ++ ')' :: k) = some ts) :
    d + 1 + t.depth ≤ maxNesting ∧ ∃ n' a b, Lexes t.text a ∧
      tokensFrom? false false d n' k = some b ∧ ts = a ++ .sign ")" :: b := by
  induction t generalizing d k n ts with
  | plain w =>
    obtain ⟨n, a, b, ha, hclose, rfl⟩ :=
      lexes_of_segment (Nat.le_add_left 1 d) ht (.of_delimiter (by decide)) h
    obtain ⟨n', b, hb, rfl⟩ := tokensFrom?_close_eq_some hclose
    exact ⟨hd, n', a, b, ha, hb, rfl⟩
  | paren m w i r ihi ihr =>
    obtain ⟨hw, hi, hr⟩ := ht
    simp only [text, List.append_assoc, List.cons_append] at h
    obtain ⟨n, x, _, hx, hopen, rfl⟩ :=
      lexes_of_segment (Nat.le_add_left 1 d) hw (.of_delimiter (by decide)) h
    obtain ⟨hd1, n, _, hwrap, rfl⟩ := tokensFrom?_open_eq_some hopen
    cases m with
    | false =>
      obtain ⟨hdi, n, y, _, hy, hrest, rfl⟩ := ihi hi hd1 hwrap
      obtain ⟨hdr, n, z, b, hz, hb, rfl⟩ := ihr hr hd hrest
      refine ⟨?_, n, x ++ .sign "(" :: (y ++ .sign ")" :: z), b,
        lexes_paren.2 ⟨x, y, z, hx, hy, hz, rfl⟩, hb, by simp⟩
      simp only [depth, Bool.toNat_false]
      omega
    | true =>
      -- a converted argument: a pair of its own, the conversion, and the end of the outer pair
      simp only [wrap, if_true, List.append_assoc, List.cons_append] at hwrap
      obtain ⟨hd2, n, _, hinner, rfl⟩ := tokensFrom?_open_eq_some hwrap
      obtain ⟨hdi, n, y, _, hy, hfactor, rfl⟩ := ihi hi hd2 hinner
      obtain ⟨n, c, _, hc, hclose, rfl⟩ := lexes_of_segment (Nat.le_add_left 1 (d + 1))
        inline_conversion (.of_delimiter (by decide)) hfactor
      obtain ⟨n, _, hrest, rfl⟩ := tokensFrom?_close_eq_some hclose
      obtain ⟨hdr, n, z, b, hz, hb, rfl⟩ := ihr hr hd hrest
      obtain rfl := lexes_conversion.1 hc
      refine ⟨?_, n, x ++ .sign "(" :: (wrapTokens true y ++ .sign ")" :: z), b,
        lexes_paren.2 ⟨x, y, z, hx, hy, hz, rfl⟩, hb, by simp [wrapTokens]⟩
      simp only [depth, Bool.toNat_true]
      omega

/-- The text of a difference of two sides. -/
def difference (l r : Layout) : List Char :=
  '(' :: l.text ++ ") - (".toList ++ r.text ++ [')']

/-- A minus between blanks is a token. -/
lemma tokensFrom?_minus {ls : Bool} {s : List Char} :
    tokensFrom? ls false d (n + 1) ('-' :: ' ' :: s) =
      (tokensFrom? false false d n (' ' :: s)).map (.sign "-" :: ·) := by
  rw [tokensFrom?_token (by decide) (by decide) (by decide),
    show take? ('-' :: ' ' :: s) = some (.sign "-", ' ' :: s) from rfl]
  rfl

/-- What stands between the sides of a difference is read as a minus sign. -/
lemma tokensFrom?_between {s : List Char} :
    tokensFrom? false false 0 (n + 4) (' ' :: '-' :: ' ' :: '(' :: s) =
      (tokensFrom? false false 1 n s).map fun ts => .sign "-" :: .sign "(" :: ts := by
  have hspace : ∀ {n s}, tokensFrom? false false 0 (n + 1) (' ' :: s) =
      tokensFrom? false false 0 n s := by
    intro n s
    simp [tokensFrom?]
  rw [hspace, tokensFrom?_minus, hspace, tokensFrom?_open (by decide), Option.map_map]
  rfl

/-- The text of a difference is read as its sides lex, unless they are nested too deeply. -/
theorem tokens?_difference {l r : Layout} (hl : l.All Inline) (hr : r.All Inline) :
    tokens? (difference l r) = some ts ↔ ∃ a b, Lexes l.text a ∧ Lexes r.text b ∧
      l.depth < maxNesting ∧ r.depth < maxNesting ∧
      ts = .sign "(" :: (a ++ [.sign ")", .sign "-", .sign "("] ++ b ++ [.sign ")"]) := by
  have htext : difference l r =
      '(' :: (l.text ++ ')' :: (' ' :: '-' :: ' ' :: '(' :: (r.text ++ [')']))) := by
    simp [difference]
  simp only [tokens?, htext]
  constructor
  · intro h
    obtain ⟨hd, n, _, hleft, rfl⟩ := tokensFrom?_open_eq_some h
    obtain ⟨hdl, n, a, _, ha, hbetween, rfl⟩ := lexes_of_tokensFrom? hl hd hleft
    match n with
    | 0 | 1 | 2 | 3 => cases hbetween
    | n + 4 =>
      rw [tokensFrom?_between, Option.map_eq_some_iff] at hbetween
      obtain ⟨_, hright, rfl⟩ := hbetween
      obtain ⟨hdr, n, b, c, hb, hend, rfl⟩ := lexes_of_tokensFrom? hr hd hright
      obtain rfl : c = [] := by
        cases n with
        | zero => cases hend
        | succ n =>
          cases hend
          rfl
      exact ⟨a, b, ha, hb, by omega, by omega, by simp⟩
  · rintro ⟨a, b, ha, hb, hdl, hdr, rfl⟩
    have hend : ∀ n, ([] : List Char).length < n → tokensFrom? false false 0 n [] = some [] := by
      intro n hn
      cases n with
      | zero => cases hn
      | succ n => rfl
    have hright := tokensFrom?_text (d := 0) hr (by omega) hb hend
    have hbetween : ∀ n, (' ' :: '-' :: ' ' :: '(' :: (r.text ++ [')'])).length < n →
        tokensFrom? false false 0 n (' ' :: '-' :: ' ' :: '(' :: (r.text ++ [')'])) =
          some (.sign "-" :: .sign "(" :: (b ++ [.sign ")"])) := by
      intro n hn
      obtain ⟨n, rfl⟩ : ∃ m, n = m + 4 := ⟨n - 4, by simp only [List.length_cons] at hn; omega⟩
      rw [tokensFrom?_between, hright n (by simp only [List.length_cons] at hn; omega)]
      rfl
    have hleft := tokensFrom?_text (d := 0) hl (by omega) ha hbetween
    rw [tokensFrom?_open (by decide), hleft _ (by simp)]
    simp

end Layout
end Formulary.Formula
