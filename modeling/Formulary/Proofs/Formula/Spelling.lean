import Formulary.Proofs.Formula.Naming

/-!
# Tokens of lexemes

Once the symbols are written as aliases and the power signs are those of expressions, every lexeme
is one token (`Written.lexes`). The parentheses of a text are nested as deeply as those of its
lexemes (`Nested`, `Written.exists_layout`).
-/

namespace Formulary.Formula

open Formulary.Text Formulary.Token

/-- The sign that a mark is read as. -/
def Mark.sign : Mark → String
  | .opening => "(" | .closing => ")" | .comma => ","
  | .plus => "+" | .minus => "-" | .times => "*" | .slash => "/" | .power => "**"

/-- The token of a lexeme whose symbols are written in a given way. -/
def Lexeme.token (σ : Symbol → List Char) : Lexeme → Token
  | .numeral n => n.literal.token
  | .symbol s => .name (String.ofList (σ s))
  | .function f => .name f.name
  | .constant k => .name k.name
  | .mark m => .sign m.sign

/-- Whether a symbol is written as an alias. -/
def IsAlias (n : List Char) : Prop := ∃ i : Nat, n = ("_s" ++ toString i).toList

variable {σ : Symbol → List Char} {l : Lexeme} {ls : List Lexeme} {s k n : List Char} {c : Char}
  {m : Mark}

/-- The identifiers of ASCII. -/
lemma isIdentifier_of_ascii (hc : c.isAlpha ∨ c = '_') (hs : ∀ d ∈ s, d.isAlphanum ∨ d = '_') :
    isIdentifier (c :: s) := by
  have hstart : ∀ n < 128, (65 ≤ n ∧ n ≤ 90 ∨ 97 ≤ n ∧ n ≤ 122 ∨ n = 95) →
      identifierStarts.mem n := by
    decide +kernel
  have hcontinue : ∀ n < 128, (48 ≤ n ∧ n ≤ 57 ∨ 65 ≤ n ∧ n ≤ 90 ∨ 97 ≤ n ∧ n ≤ 122 ∨ n = 95) →
      identifierContinues.mem n := by
    decide +kernel
  have halpha : ∀ {c : Char}, c.isAlpha ∨ c = '_' →
      65 ≤ c.toNat ∧ c.toNat ≤ 90 ∨ 97 ≤ c.toNat ∧ c.toNat ≤ 122 ∨ c.toNat = 95 := by
    rintro c (h | rfl)
    · have := toNat_of_isAlpha h
      omega
    · exact .inr (.inr rfl)
  have halphanum : ∀ {c : Char}, c.isAlphanum ∨ c = '_' → 48 ≤ c.toNat ∧ c.toNat ≤ 57 ∨
      65 ≤ c.toNat ∧ c.toNat ≤ 90 ∨ 97 ≤ c.toNat ∧ c.toNat ≤ 122 ∨ c.toNat = 95 := by
    intro c h
    simp only [Char.isAlphanum, Bool.or_eq_true] at h
    obtain (h | h) | h := h
    · exact .inr (halpha (.inl h))
    · simp only [Char.isDigit, Bool.and_eq_true, decide_eq_true_eq] at h
      exact .inl ⟨h.1, h.2⟩
    · exact .inr (halpha (.inr h))
  simp only [isIdentifier, Bool.and_eq_true, List.all_eq_true]
  refine ⟨hstart _ ?_ (halpha hc), fun d hd => hcontinue _ ?_ (halphanum (hs d hd))⟩
  · have := halpha hc
    omega
  · have := halphanum (hs d hd)
    omega

/-- A name of ASCII that is no word of the language is read as itself. -/
lemma take?_name {n : String} (hn : ∃ c t, n.toList = c :: t ∧ (c.isAlpha ∨ c = '_') ∧
      ∀ d ∈ t, d.isAlphanum ∨ d = '_') (hword : languageWords.contains n = false) (hk : Ends k) :
    take? (n.toList ++ k) = some (.name n, k) := by
  obtain ⟨c, t, htext, hc, ht⟩ := hn
  have hname : ∀ d ∈ c :: t, continuesName d := by
    intro d hd
    have hd : d.isAlphanum ∨ d = '_' := by
      obtain rfl | hd := List.mem_cons.1 hd
      · exact hc.imp_left fun hc => by simp [Char.isAlphanum, hc]
      · exact ht d hd
    obtain hd | rfl := hd
    · exact continuesName_of_isAlphanum hd
    · decide
  have htake : (c :: t ++ k).takeWhile continuesName = c :: t ∧
      (c :: t ++ k).dropWhile continuesName = k := by
    rw [List.takeWhile_append_of_pos hname, List.dropWhile_append_of_pos hname]
    cases k with
    | nil => simp
    | cons b k => simp [(hk b rfl).1]
  have hstart : (c.isDigit || c == '.' && (t ++ k).head?.any Char.isDigit) = false := by
    obtain hc | rfl := hc
    · have hpoint : c ≠ '.' := by
        rintro rfl
        cases hc
      have hdigit : c.isDigit = false := by
        have := toNat_of_isAlpha hc
        rw [← Bool.not_eq_true, Char.isDigit, Bool.and_eq_true, decide_eq_true_eq, decide_eq_true_eq]
        intro h
        have : 48 ≤ c.toNat ∧ c.toNat ≤ 57 := ⟨h.1, h.2⟩
        omega
      simp [hdigit, hpoint]
    · rfl
  have hquote : ¬ (c = '\'' ∨ c = '"') := by
    rintro (rfl | rfl) <;> obtain hc | hc := hc <;> cases hc
  rw [List.cons_append] at htake
  rw [htext, List.cons_append, take?]
  simp only [hstart, Bool.false_eq_true, if_false, hquote, hname c (by simp), if_true, htake,
    isIdentifier_of_ascii hc ht, Bool.not_true]
  rw [← htext, String.ofList_toList, hword]
  rfl

/-- Whether the characters after a lexeme leave it as it is. -/
def Lexeme.Meets (l : Lexeme) (k : List Char) : Prop :=
  ∀ c ∈ k.head?, (l.isWordy → isSeparator c) ∧ (l.fits (.mark .times) = false → c ≠ '*' ∧ c ≠ '/') ∧
    c ≠ '>'

/-- A mark is read as its sign. -/
lemma take?_mark (m : Mark) (hk : (Lexeme.mark m).Meets k) :
    take? (withPowerSigns [m.char] ++ k) = some (.sign m.sign, k) := by
  cases k with
  | nil => cases m <;> rfl
  | cons c k =>
    obtain ⟨-, hstick, harrow⟩ := hk c rfl
    -- Only these three begin a longer sign: an arrow, a power and a double slash.
    cases m with
    | opening | closing | comma | plus | power => rfl
    | minus =>
      show take? ('-' :: c :: k) = some (.sign "-", c :: k)
      simp [take?, takePunctuation?, signs, continuesName, harrow.symm]
      rfl
    | times =>
      obtain ⟨hstar, -⟩ := hstick rfl
      show take? ('*' :: c :: k) = some (.sign "*", c :: k)
      simp [take?, takePunctuation?, signs, continuesName, hstar.symm]
      rfl
    | slash =>
      obtain ⟨-, hslash⟩ := hstick rfl
      show take? ('/' :: c :: k) = some (.sign "/", c :: k)
      simp [take?, takePunctuation?, signs, continuesName, hslash.symm]
      rfl

/-- No word holds a power sign. -/
lemma Lexeme.withPowerSigns_text (hσ : Adhering σ) (hl : l.isWordy) :
    withPowerSigns (l.text σ) = l.text σ := by
  refine withPowerSigns_of_notMem fun hc => ?_
  obtain hc | ⟨m, rfl, -⟩ := chars hσ hc
  · exact absurd hc (by decide)
  · cases hl

/--
An alias begins with a letter or an underscore and goes on with letters, digits and underscores.
-/
lemma toList_of_isAlias (h : IsAlias n) : ∃ c t, n = c :: t ∧ (c.isAlpha ∨ c = '_') ∧
    ∀ d ∈ t, d.isAlphanum ∨ d = '_' := by
  obtain ⟨i, rfl⟩ := h
  exact ⟨'_', _, toList_alias i, .inr rfl, fun d hd => .inl (isAlphanum_of_mem_alias hd)⟩

/-- No word of the language is an alias. -/
lemma languageWords_of_isAlias (h : IsAlias n) : languageWords.contains (String.ofList n) = false := by
  have hall : ∀ w ∈ languageWords, w.toList.head? ≠ some '_' := by decide
  obtain ⟨i, rfl⟩ := h
  rw [← Bool.not_eq_true, List.contains_iff_mem]
  intro hmem
  have := hall _ hmem
  rw [String.toList_ofList, toList_alias] at this
  exact this rfl

/-- A lexeme is one token. -/
lemma Lexeme.take?_text (hσ : Adhering σ) (hl : ∀ s, l = .symbol s → IsAlias (σ s)) (hk : l.Meets k) :
    take? (withPowerSigns (l.text σ) ++ k) = some (l.token σ, k) := by
  have hends : l.isWordy → Ends k := fun hw c hc => (isSeparator_iff.1 ((hk c hc).1 hw)).2
  cases l with
  | mark m => exact take?_mark m hk
  | numeral n =>
    rw [withPowerSigns_text hσ rfl]
    exact n.take?_append (hends rfl)
  | symbol s =>
    have halias := hl s rfl
    have hname := take?_name (n := String.ofList (σ s)) (k := k)
      (by simpa using toList_of_isAlias halias) (languageWords_of_isAlias halias) (hends rfl)
    rw [String.toList_ofList] at hname
    rw [withPowerSigns_text hσ rfl]
    exact hname
  | function f =>
    rw [withPowerSigns_text hσ rfl]
    have hletters : ∀ f : Function, ∃ c t, f.name.toList = c :: t ∧ (c.isAlpha ∨ c = '_') ∧
        ∀ d ∈ t, d.isAlphanum ∨ d = '_' := by
      intro f
      cases f <;> exact ⟨_, _, rfl, by decide, List.all_iff_forall_prop.1 (by decide)⟩
    exact take?_name (hletters f) (by cases f <;> decide) (hends rfl)
  | constant c =>
    rw [withPowerSigns_text hσ rfl]
    have hletters : ∀ c : Constant, ∃ d t, c.name.toList = d :: t ∧ (d.isAlpha ∨ d = '_') ∧
        ∀ d ∈ t, d.isAlphanum ∨ d = '_' := by
      intro c
      cases c <;> exact ⟨_, _, rfl, by decide, List.all_iff_forall_prop.1 (by decide)⟩
    exact take?_name (hletters c) (by cases c <;> decide) (hends rfl)

/-- The first character of a text with the power signs of expressions. -/
lemma head?_withPowerSigns (hc : c ∈ (withPowerSigns s).head?) :
    ∃ d ∈ s.head?, c = if d = '^' then '*' else d := by
  cases s with
  | nil => cases hc
  | cons d s =>
    refine ⟨d, rfl, ?_⟩
    by_cases hd : d = '^'
    · simpa [withPowerSigns, hd, eq_comm] using hc
    · simpa [withPowerSigns, hd, eq_comm] using hc

/-- What follows a lexeme in a text leaves it as it is. -/
lemma Written.meets (h : Written σ ls s) (hσ : Adhering σ) (hls : ∀ l' ∈ ls.head?, l.fits l') :
    l.Meets (withPowerSigns s) := by
  intro c hc
  obtain ⟨d, hd, rfl⟩ := head?_withPowerSigns hc
  obtain hgap | ⟨l', hl', hd⟩ := h.head_cases hd hσ
  · have hpower : d ≠ '^' := by
      rintro rfl
      cases hgap
    rw [if_neg hpower]
    refine ⟨fun _ => isSeparator_of_isGap hgap, fun _ => ⟨?_, ?_⟩, ?_⟩
    all_goals
      rintro rfl
      cases hgap
  · have hfits := hls l' hl'
    by_cases hword : l'.isWordy
    · -- A word follows, so that this lexeme is a mark.
      obtain ⟨b, t, htext, hb⟩ := Lexeme.text_of_isWordy hσ hword
      obtain rfl : b = d := by simpa [htext] using hd
      have hne : ∀ x, isSeparator x → b ≠ x := by
        rintro _ hx rfl
        rw [hb] at hx
        cases hx
      rw [if_neg (hne _ (by decide))]
      refine ⟨fun hl => ?_, fun _ => ⟨hne _ (by decide), hne _ (by decide)⟩, hne _ (by decide)⟩
      cases l <;> cases l' <;> simp_all [Lexeme.fits, Lexeme.isWordy]
    · cases l' with
      | mark m =>
        obtain rfl : m.char = d := by simpa [Lexeme.text] using hd
        refine ⟨fun _ => by cases m <;> decide, fun hstick => ?_, by cases m <;> decide⟩
        cases l with
        | mark m' =>
          revert hstick hfits
          cases m' <;> cases m <;> decide
        | _ => simp [Lexeme.fits, Lexeme.isWordy] at hstick
      | _ => exact absurd rfl hword

/-- A lexeme begins neither as a gap nor as a quoted text. -/
lemma Lexeme.exists_first (hσ : Adhering σ) (hl : ∀ s, l = .symbol s → IsAlias (σ s)) :
    ∃ c t, withPowerSigns (l.text σ) = c :: t ∧ isGap c = false ∧ isQuote c = false := by
  have hplain : ∀ {c : Char}, c.isAlpha ∨ c = '_' ∨ c.isDigit ∨ c = '.' →
      isGap c = false ∧ isQuote c = false := by
    intro c hc
    refine ⟨?_, ?_⟩
    · rw [← Bool.not_eq_true]
      intro hgap
      simp only [isGap, List.contains_eq_mem, List.mem_cons, List.not_mem_nil, or_false,
        decide_eq_true_eq] at hgap
      obtain rfl | rfl | rfl | rfl | rfl := hgap <;> exact absurd hc (by decide)
    · rw [← Bool.not_eq_true]
      intro hquote
      simp only [isQuote, Bool.or_eq_true, beq_iff_eq] at hquote
      obtain rfl | rfl := hquote <;> exact absurd hc (by decide)
  cases l with
  | mark m => cases m <;> exact ⟨_, _, rfl, by decide, by decide⟩
  | numeral n =>
    rw [withPowerSigns_text hσ rfl]
    obtain ⟨c, t, htext, hc⟩ := n.spelled.2
    exact ⟨c, t, htext, hplain (.inr (.inr (hc.imp_right And.left)))⟩
  | symbol s =>
    rw [withPowerSigns_text hσ rfl]
    obtain ⟨c, t, htext, hc, -⟩ := toList_of_isAlias (hl s rfl)
    exact ⟨c, t, htext, hplain (hc.imp_right .inl)⟩
  | function f => cases f <;> exact ⟨_, _, rfl, by decide, by decide⟩
  | constant k => cases k <;> exact ⟨_, _, rfl, by decide, by decide⟩

/-- A text that consists of fitting lexemes falls into their tokens. -/
theorem Written.lexes (h : Written σ ls s) (hσ : Adhering σ) (hls : ls.IsChain fun l l' => l.fits l')
    (halias : ∀ s ∈ Lexeme.symbols ls, IsAlias (σ s)) :
    Lexes (withPowerSigns s) (ls.map (Lexeme.token σ)) := by
  induction h with
  | nil => exact .nil
  | @gap c ls s hc _ ih =>
    have hpower : c ≠ '^' := by
      rintro rfl
      cases hc
    have hs : withPowerSigns (c :: s) = c :: withPowerSigns s := by simp [withPowerSigns, hpower]
    rw [hs]
    exact .gap hc (ih hls halias)
  | @lexeme l ls s h ih =>
    have hrest := ih hls.tail fun s hs => halias s (Lexeme.mem_symbols.2
      (List.mem_cons_of_mem l (Lexeme.mem_symbols.1 hs)))
    have htake := Lexeme.take?_text hσ (fun s hs => halias s (Lexeme.mem_symbols.2 (by simp [hs])))
      (h.meets hσ (fits_head hls))
    obtain ⟨c, t, htext, hgap, hquote⟩ := Lexeme.exists_first (l := l) hσ fun s hs =>
      halias s (Lexeme.mem_symbols.2 (by simp [hs]))
    rw [withPowerSigns_append, htext]
    rw [htext] at htake
    exact .token hgap hquote htake hrest

/-- How deeply the parentheses among lexemes are nested. -/
inductive Nested : List Lexeme → Nat → Prop where
  | nil : Nested [] 0
  | cons {l : Lexeme} {ls : List Lexeme} {i : Nat} :
    l ≠ .mark .opening →
    l ≠ .mark .closing →
    Nested ls i →
    Nested (l :: ls) i
  | parens {ls ls' : List Lexeme} {i j : Nat} :
    Nested ls i →
    Nested ls' j →
    Nested (.mark .opening :: (ls ++ .mark .closing :: ls')) (max (i + 1) j)

/-- Lexemes are nested as deeply as their parts. -/
lemma Nested.append {ls' : List Lexeme} {i j : Nat} (h : Nested ls i) (h' : Nested ls' j) :
    Nested (ls ++ ls') (max i j) := by
  induction h with
  | nil => simpa using h'
  | cons hopen hclose _ ih => exact .cons hopen hclose ih
  | parens hi _ _ ih =>
    rw [List.cons_append, List.append_assoc, List.cons_append, Nat.max_assoc]
    exact .parens hi ih

/-- Parentheses nest lexemes one level deeper. -/
lemma Nested.enclosed {i : Nat} (h : Nested ls i) :
    Nested (.mark .opening :: (ls ++ [.mark .closing])) (i + 1) := by
  simpa using h.parens .nil

/-- A text falls apart at each of its lexemes. -/
lemma Written.split {ls' : List Lexeme} (h : Written σ (ls ++ l :: ls') s) :
    ∃ u v, s = u ++ (l.text σ ++ v) ∧ Written σ ls u ∧ Written σ ls' v := by
  generalize hls : ls ++ l :: ls' = ls₀ at h
  induction h generalizing ls with
  | nil => simp at hls
  | @gap c _ _ hc _ ih =>
    obtain ⟨u, v, rfl, hu, hv⟩ := ih hls
    exact ⟨c :: u, v, rfl, .gap hc hu, hv⟩
  | @lexeme l' _ s h ih =>
    cases ls with
    | nil =>
      cases hls
      exact ⟨[], s, rfl, .nil, h⟩
    | cons l'' ls =>
      obtain ⟨rfl, htail⟩ := List.cons.inj hls
      obtain ⟨u, v, rfl, hu, hv⟩ := ih htail
      exact ⟨l''.text σ ++ u, v, by rw [List.append_assoc], .lexeme hu, hv⟩

namespace Layout

/-- A layout with a text in front. -/
def behind (w : List Char) : Layout → Layout
  | plain v => plain (w ++ v)
  | paren m v i r => paren m (w ++ v) i r

/-- A text in front of a layout stands in front of its text. -/
@[simp]
lemma behind_text (w : List Char) (t : Layout) : (t.behind w).text = w ++ t.text := by
  cases t with
  | plain v => rfl
  | paren m v i r => exact List.append_assoc w v _

/-- A text in front of a layout leaves it nested as deeply. -/
@[simp]
lemma behind_depth (w : List Char) (t : Layout) : (t.behind w).depth = t.depth := by
  cases t <;> rfl

/-- An inline text in front of inline segments leaves them inline. -/
lemma all_behind {w : List Char} {t : Layout} (hw : Inline w) (ht : t.All Inline) :
    (t.behind w).All Inline := by
  have happend : ∀ {v}, Inline v → Inline (w ++ v) := fun hv c hc =>
    (List.mem_append.1 hc).elim (hw c) (hv c)
  cases t with
  | plain v => exact happend ht
  | paren m v i r => exact ⟨happend ht.1, ht.2⟩

end Layout

/-- Gaps are inline. -/
lemma isInline_of_isGap (h : isGap c) : isInline c := by
  simp only [isGap, List.contains_eq_mem, List.mem_cons, List.not_mem_nil, or_false,
    decide_eq_true_eq] at h
  obtain rfl | rfl | rfl | rfl | rfl := h <;> decide

/-- No lexeme but a parenthesis opens, closes or hides anything. -/
lemma Lexeme.inline_text (hl : ∀ s, l = .symbol s → IsAlias (σ s)) (hopen : l ≠ .mark .opening)
    (hclose : l ≠ .mark .closing) : Layout.Inline (l.text σ) := by
  have hword : ∀ {c : Char}, c.isAlphanum ∨ c = '_' → isInline c := fun h =>
    isInline_of_isWord (isWord_of_isAlphanum h)
  cases l with
  | numeral n =>
    intro c hc
    have hc := n.spelled.1.chars c hc
    simp only [isNumeralChar, Bool.or_eq_true, beq_iff_eq] at hc
    obtain (((hc | rfl) | rfl) | rfl) | rfl := hc
    · exact hword (.inl hc)
    all_goals decide
  | symbol s =>
    obtain ⟨i, hi⟩ := hl s rfl
    intro c hc
    rw [text, hi, toList_alias] at hc
    obtain rfl | hc := List.mem_cons.1 hc
    · decide
    · exact hword (.inl (isAlphanum_of_mem_alias hc))
  | function f =>
    have hf : ∀ c ∈ f.name.toList, isInline c := by cases f <;> exact List.all_eq_true.1 (by decide)
    exact hf
  | constant k =>
    have hk : ∀ c ∈ k.name.toList, isInline c := by cases k <;> exact List.all_eq_true.1 (by decide)
    exact hk
  | mark m =>
    have hm : isInline m.char := by
      cases m with
      | opening => exact absurd rfl hopen
      | closing => exact absurd rfl hclose
      | _ => decide
    intro c hc
    obtain rfl : c = m.char := by simpa [text] using hc
    exact hm

/-- A text without lexemes is inline. -/
lemma Written.inline_gaps (h : Written σ [] s) : Layout.Inline s := by
  generalize hls : ([] : List Lexeme) = ls at h
  induction h with
  | nil => exact nofun
  | gap hc _ ih =>
    intro d hd
    obtain rfl | hd := List.mem_cons.1 hd
    · exact isInline_of_isGap hc
    · exact ih hls d hd
  | lexeme => cases hls

/-- The parentheses of a text are those of its lexemes. -/
theorem Written.exists_layout {i : Nat} (hn : Nested ls i) (h : Written σ ls s)
    (halias : ∀ s ∈ Lexeme.symbols ls, IsAlias (σ s)) :
    ∃ t : Layout, t.text = withPowerSigns s ∧ t.depth = i ∧ t.All Layout.Inline := by
  induction hn generalizing s with
  | nil => exact ⟨.plain (withPowerSigns s), rfl, rfl, inline_withPowerSigns h.inline_gaps⟩
  | @cons l ls i hopen hclose _ ih =>
    obtain ⟨u, v, rfl, hu, hv⟩ := @Written.split σ l [] s ls h
    obtain ⟨t, htext, hdepth, hinline⟩ := ih hv fun s hs => halias s (Lexeme.mem_symbols.2
      (List.mem_cons_of_mem l (Lexeme.mem_symbols.1 hs)))
    have hsymbol : ∀ s, l = .symbol s → IsAlias (σ s) := fun s hs =>
      halias s (Lexeme.mem_symbols.2 (by simp [hs]))
    have hl := Lexeme.inline_text hsymbol hopen hclose
    have hfront : Layout.Inline (withPowerSigns (u ++ l.text σ)) :=
      inline_withPowerSigns fun c hc => (List.mem_append.1 hc).elim (hu.inline_gaps c) (hl c)
    refine ⟨t.behind (withPowerSigns (u ++ l.text σ)), ?_, by simpa using hdepth,
      Layout.all_behind hfront hinline⟩
    rw [Layout.behind_text, htext, ← withPowerSigns_append, List.append_assoc]
  | @parens ls ls' i j _ _ ihi ihr =>
    obtain ⟨u, v, rfl, hu, hv⟩ := @Written.split σ (.mark .opening) [] s (ls ++ .mark .closing :: ls') h
    obtain ⟨x, y, rfl, hx, hy⟩ := hv.split
    have hmem : ∀ {s}, s ∈ Lexeme.symbols ls ∨ s ∈ Lexeme.symbols ls' → IsAlias (σ s) := by
      intro s hs
      simp only [Lexeme.mem_symbols] at hs
      exact halias s (Lexeme.mem_symbols.2 (by simp [hs]))
    obtain ⟨t, htext, hdepth, hinline⟩ := ihi hx fun s hs => hmem (.inl hs)
    obtain ⟨t', htext', hdepth', hinline'⟩ := ihr hy fun s hs => hmem (.inr hs)
    refine ⟨.paren false (withPowerSigns u) t t', ?_, ?_,
      inline_withPowerSigns hu.inline_gaps, hinline, hinline'⟩
    · simp only [withPowerSigns_append, Layout.text, wrap, htext, htext']
      rfl
    · simp [Layout.depth, hdepth, hdepth']

end Formulary.Formula
