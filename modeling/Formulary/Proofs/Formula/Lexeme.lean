import Formulary.Proofs.Expression.Numeral
import Formulary.Proofs.Formula.Order
import Formulary.Proofs.Formula.Respacing

/-!
# Lexemes of formulas

A formula consists of numerals, symbols, names of functions and constants, and the marks between
them. `Written σ ls s` says that a text consists of some lexemes, its symbols written by `σ`, with
gaps wherever one likes. Where lexemes fit together, only a separator follows a word
(`Written.isSeparator_head`), so that no two words run into each other.
-/

namespace Formulary.Formula

open Formulary.Text Formulary.Token

/-- A name that a formula may give to a quantity. -/
structure Symbol where
  name : String
  isSymbol : isSymbol name.toList
  unreserved : isReserved name = false
  deriving DecidableEq

/-- The text of a symbol. -/
def Symbol.text (s : Symbol) : List Char := s.name.toList

/-- The built-in constants. -/
inductive Constant where
  | pi | e
  deriving Repr, DecidableEq

/-- The name of a constant. -/
def Constant.name : Constant → String
  | .pi => "pi"
  | .e => "e"

/-- The marks between words. -/
inductive Mark where
  | opening | closing | comma | plus | minus | times | slash | power
  deriving Repr, DecidableEq

/-- The character of a mark. -/
def Mark.char : Mark → Char
  | .opening => '(' | .closing => ')' | .comma => ','
  | .plus => '+' | .minus => '-' | .times => '*' | .slash => '/' | .power => '^'

/-- Whether two such marks in a row could be read as one sign. -/
def Mark.sticks : Mark → Bool
  | .times | .slash | .power => true
  | _ => false

/-- What a formula consists of. -/
inductive Lexeme where
  | numeral (n : Numeral)
  | symbol (s : Symbol)
  | function (f : Function)
  | constant (c : Constant)
  | mark (m : Mark)

namespace Lexeme

/-- Whether a lexeme is a word, which another word could run into. -/
def isWordy : Lexeme → Bool
  | .mark _ => false
  | _ => true

/-- Whether a lexeme may follow another one. -/
def fits : Lexeme → Lexeme → Bool
  | .mark m, .mark m' => !(m.sticks && m'.sticks)
  | l, l' => !(l.isWordy && l'.isWordy)

/-- The text of a lexeme whose symbols are written in a given way. -/
def text (σ : Symbol → List Char) : Lexeme → List Char
  | .numeral n => n.text
  | .symbol s => σ s
  | .function f => f.name.toList
  | .constant c => c.name.toList
  | .mark m => [m.char]

/-- The symbols among some lexemes. -/
def symbols (ls : List Lexeme) : List Symbol :=
  ls.filterMap fun
    | .symbol s => some s
    | _ => none

/-- The symbols among lexemes are those that stand there. -/
lemma mem_symbols {ls : List Lexeme} {s : Symbol} : s ∈ symbols ls ↔ .symbol s ∈ ls := by
  simp only [symbols, List.mem_filterMap]
  constructor
  · rintro ⟨l, hl, h⟩
    cases l <;> cases h
    exact hl
  · exact fun h => ⟨_, h, rfl⟩

end Lexeme

/-- The first lexeme fits the one that follows it. -/
lemma fits_head {l : Lexeme} {ls : List Lexeme} (hls : (l :: ls).IsChain fun l l' => l.fits l') :
    ∀ l' ∈ ls.head?, l.fits l' := by
  intro l' hl'
  cases ls with
  | nil => cases hl'
  | cons l'' ls =>
    cases hl'
    exact (List.isChain_cons_cons.1 hls).1

/-- A text that consists of lexemes, with gaps wherever one likes. -/
inductive Written (σ : Symbol → List Char) : List Lexeme → List Char → Prop where
  | nil : Written σ [] []
  | gap {c ls s} : isGap c → Written σ ls s → Written σ ls (c :: s)
  | lexeme {l ls s} : Written σ ls s → Written σ (l :: ls) (l.text σ ++ s)

/-- Whether a character ends every word that stands before it. -/
def isSeparator (c : Char) : Bool := !adheres c && !continuesName c && c != '.'

variable {σ : Symbol → List Char} {l : Lexeme} {ls : List Lexeme} {s : List Char} {c : Char} {m : Mark}

/-- Separators do not adhere, do not continue names and are no points. -/
lemma isSeparator_iff :
    isSeparator c ↔ adheres c = false ∧ continuesName c = false ∧ c ≠ '.' := by
  simp [isSeparator, and_assoc]

/-- Separators do not block symbols. -/
lemma blocksSymbol_of_isSeparator (h : isSeparator c) : blocksSymbol c = false := by
  obtain ⟨hadheres, -, hpoint⟩ := isSeparator_iff.1 h
  simp only [adheres, Bool.or_eq_false_iff] at hadheres
  simp [blocksSymbol, hadheres, hpoint]

/-- Gaps are separators. -/
lemma isSeparator_of_isGap (h : isGap c) : isSeparator c := by
  simp only [isGap, List.contains_eq_mem, List.mem_cons, List.not_mem_nil, or_false,
    decide_eq_true_eq] at h
  obtain rfl | rfl | rfl | rfl | rfl := h <;> decide

/-- The characters of marks are separators. -/
lemma isSeparator_mark (m : Mark) : isSeparator m.char := by
  cases m <;> decide

/-- Every character of a word adheres, or stands in a numeral. -/
def isWordChar (c : Char) : Bool := adheres c || c == '.' || c == '+' || c == '-'

/-- Characters of numerals stand in words. -/
lemma isWordChar_of_isNumeralChar (h : isNumeralChar c) : isWordChar c := by
  simp only [isNumeralChar, Bool.or_eq_true, beq_iff_eq] at h
  obtain (((h | rfl) | rfl) | rfl) | rfl := h
  · simp [isWordChar, adheres, isWord_of_isAlphanum (.inl h)]
  all_goals decide

/-- Symbols written as texts that consist of adhering characters. -/
def Adhering (σ : Symbol → List Char) : Prop := ∀ s, σ s ≠ [] ∧ ∀ c ∈ σ s, adheres c

/-- Symbols written by their names adhere. -/
lemma adhering_text : Adhering Symbol.text := fun s => isName_of_isSymbol s.isSymbol

/-- The names of functions adhere. -/
lemma adheres_function (f : Function) : f.name.toList ≠ [] ∧ ∀ c ∈ f.name.toList, adheres c := by
  rw [← List.all_eq_true]
  cases f <;> decide

/-- The names of constants adhere. -/
lemma adheres_constant (k : Constant) : k.name.toList ≠ [] ∧ ∀ c ∈ k.name.toList, adheres c := by
  rw [← List.all_eq_true]
  cases k <;> decide

/-- The characters of a lexeme. -/
lemma Lexeme.chars (hσ : Adhering σ) (hc : c ∈ l.text σ) :
    isWordChar c ∨ ∃ m : Mark, l = .mark m ∧ c = m.char := by
  have hname : adheres c → isWordChar c := fun h => by simp [isWordChar, h]
  cases l with
  | numeral n => exact .inl (isWordChar_of_isNumeralChar (n.spelled.1.chars c hc))
  | symbol s => exact .inl (hname ((hσ s).2 c hc))
  | function f => exact .inl (hname ((adheres_function f).2 c hc))
  | constant k => exact .inl (hname ((adheres_constant k).2 c hc))
  | mark m => exact .inr ⟨m, rfl, by simpa [text] using hc⟩

/-- A word does not begin with a separator. -/
lemma Lexeme.text_of_isWordy (hσ : Adhering σ) (hl : l.isWordy) :
    ∃ d t, l.text σ = d :: t ∧ isSeparator d = false := by
  have hname : ∀ {n : List Char}, (n ≠ [] ∧ ∀ c ∈ n, adheres c) →
      ∃ d t, n = d :: t ∧ isSeparator d = false := by
    rintro n ⟨hne, hn⟩
    cases n with
    | nil => exact absurd rfl hne
    | cons d t => exact ⟨d, t, rfl, by simp [isSeparator, hn d (by simp)]⟩
  cases l with
  | numeral n =>
    obtain ⟨d, t, htext, hd⟩ := n.spelled.2
    refine ⟨d, t, htext, ?_⟩
    obtain hd | ⟨rfl, -⟩ := hd
    · simp [isSeparator, (isDigit_of_char hd).2]
    · decide
  | symbol s => exact hname (hσ s)
  | function f => exact hname (adheres_function f)
  | constant k => exact hname (adheres_constant k)
  | mark m => cases hl

/-- No lexeme is written as nothing. -/
lemma Lexeme.text_ne_nil (hσ : Adhering σ) : l.text σ ≠ [] := by
  by_cases hl : l.isWordy
  · obtain ⟨d, t, htext, -⟩ := text_of_isWordy hσ hl
    simp [htext]
  · cases l with
    | mark m => simp [text]
    | _ => exact absurd rfl hl

/-- Characters of words are not blank. -/
lemma isBlank_of_isWordChar (h : isWordChar c) : isBlank c = false := by
  simp only [isWordChar, adheres, Bool.or_eq_true, beq_iff_eq] at h
  obtain (((h | rfl) | rfl) | rfl) | rfl := h
  · exact isBlank_of_isWord h
  all_goals decide

/-- No character of a lexeme is blank. -/
lemma Lexeme.isBlank_char (hσ : Adhering σ) (hc : c ∈ l.text σ) : isBlank c = false := by
  obtain hc | ⟨m, -, rfl⟩ := chars hσ hc
  · exact isBlank_of_isWordChar hc
  · cases m <;> decide

namespace Written

/-- Lexemes one after the other. -/
lemma of_lexemes (ls : List Lexeme) : Written σ ls (ls.flatMap (Lexeme.text σ)) := by
  induction ls with
  | nil => exact .nil
  | cons l ls ih => exact .lexeme ih

/-- What a text that consists of lexemes begins with. -/
lemma head_cases (h : Written σ ls s) (hc : c ∈ s.head?) (hσ : Adhering σ) :
    isGap c ∨ ∃ l ∈ ls.head?, c ∈ (l.text σ).head? := by
  cases h with
  | nil => cases hc
  | gap hgap _ =>
    cases hc
    exact .inl hgap
  | @lexeme l ls s _ =>
    refine .inr ⟨l, rfl, ?_⟩
    rwa [List.head?_append_of_ne_nil _ (Lexeme.text_ne_nil hσ)] at hc

/-- Behind a word stands a separator. -/
theorem isSeparator_head (h : Written σ ls s) (hσ : Adhering σ)
    (hls : ∀ l' ∈ ls.head?, l.fits l') (hl : l.isWordy) : ∀ c ∈ s.head?, isSeparator c := by
  intro c hc
  obtain hgap | ⟨l', hl', hc⟩ := h.head_cases hc hσ
  · exact isSeparator_of_isGap hgap
  · have hfits := hls l' hl'
    cases l' with
    | mark m =>
      cases hc
      exact isSeparator_mark m
    | _ => cases l <;> simp_all [Lexeme.fits, Lexeme.isWordy]

/-- Only nothing is written with no characters. -/
lemma eq_nil (h : Written σ ls []) (hσ : Adhering σ) : ls = [] := by
  generalize hs : ([] : List Char) = s at h
  cases h with
  | nil => rfl
  | gap => cases hs
  | lexeme => exact absurd (List.append_eq_nil_iff.1 hs.symm).1 (Lexeme.text_ne_nil hσ)

/-- The characters of lexemes that are no gaps. -/
lemma char_cases (h : Written σ ls s) (hσ : Adhering σ) (hc : c ∈ s) :
    isGap c ∨ isWordChar c ∨ ∃ m : Mark, .mark m ∈ ls ∧ c = m.char := by
  induction h with
  | nil => cases hc
  | gap hgap _ ih =>
    obtain rfl | hc := List.mem_cons.1 hc
    · exact .inl hgap
    · exact ih hc
  | lexeme _ ih =>
    obtain hc | hc := List.mem_append.1 hc
    · refine .inr ((Lexeme.chars hσ hc).imp_right ?_)
      rintro ⟨m, rfl, hchar⟩
      exact ⟨m, by simp, hchar⟩
    · refine (ih hc).imp_right fun hc => hc.imp_right ?_
      rintro ⟨m, hm, hc⟩
      exact ⟨m, by simp [hm], hc⟩

/-- No equals sign stands among lexemes. -/
lemma equals_notMem (h : Written σ ls s) (hσ : Adhering σ) : '=' ∉ s := by
  intro hc
  obtain hc | hc | ⟨m, -, hc⟩ := h.char_cases hσ hc
  · exact absurd hc (by decide)
  · exact absurd hc (by decide)
  · cases m <;> cases hc

/-- Without the blanks at its beginning a text is written with the same lexemes. -/
lemma trimStart (h : Written σ ls s) (hσ : Adhering σ) : Written σ ls (s.dropWhile isBlank) := by
  induction h with
  | nil => exact .nil
  | gap hc _ ih => rwa [List.dropWhile_cons_of_pos (isBlank_of_isGap hc)]
  | @lexeme l ls s h ih =>
    have hkeep : (l.text σ ++ s).dropWhile isBlank = l.text σ ++ s := by
      cases htext : l.text σ with
      | nil => exact absurd htext (Lexeme.text_ne_nil hσ)
      | cons d t =>
        have hd : isBlank d = false := Lexeme.isBlank_char hσ (htext ▸ List.mem_cons_self)
        rw [List.cons_append, List.dropWhile_cons_of_neg (by simp [hd])]
    rw [hkeep]
    exact .lexeme h

/-- Without the blanks at its end a text is written with the same lexemes. -/
lemma trimEnd (h : Written σ ls s) (hσ : Adhering σ) : Written σ ls (trimEnd s) := by
  induction h with
  | nil => exact .nil
  | @gap c ls s hc _ ih =>
    obtain ⟨v, hv, hs, hlast⟩ := exists_trimEnd s
    have htrim : Formula.trimEnd (c :: s) = Formula.trimEnd (c :: Formula.trimEnd s) := by
      conv_lhs => rw [hs, ← List.cons_append, trimEnd_append_blanks hv]
    rw [htrim]
    cases hrest : Formula.trimEnd s with
    | nil =>
      rw [hrest] at ih
      obtain rfl := ih.eq_nil hσ
      have hblank : Formula.trimEnd [c] = [] := by
        exact trimEnd_append_blanks (u := []) (v := [c]) (by simpa using isBlank_of_isGap hc)
      rw [hblank]
      exact .nil
    | cons d t =>
      rw [hrest] at ih hlast
      rw [trimEnd_of_getLast (by simpa using hlast)]
      exact .gap hc ih
  | @lexeme l ls s _ ih =>
    have hkeep : Formula.trimEnd (l.text σ ++ s) = l.text σ ++ Formula.trimEnd s := by
      cases htext : l.text σ using List.reverseRecOn with
      | nil => exact absurd htext (Lexeme.text_ne_nil hσ)
      | append_singleton t d =>
        have hmem : d ∈ l.text σ := by simp [htext]
        have hd := Lexeme.isBlank_char hσ hmem
        rw [List.append_assoc, List.singleton_append, trimEnd_cons hd, List.append_assoc,
          List.singleton_append]
    rw [hkeep]
    exact .lexeme ih

/-- The blanks around a text do not matter for its lexemes. -/
theorem trim (h : Written σ ls s) (hσ : Adhering σ) : Written σ ls (trim s) :=
  (h.trimStart hσ).trimEnd hσ

end Written
end Formulary.Formula
