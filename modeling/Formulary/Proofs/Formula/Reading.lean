import Formulary.Proofs.Formula.Angles
import Formulary.Proofs.Formula.Spelling

/-!
# Differences of lexemes

The difference of two texts that consist of lexemes is compiled from the tokens of these lexemes
(`compile_difference`). It is refused only if the parentheses are nested too deeply: aliases have no
two underscores in a row (`Written.singleUnderscores`).
-/

namespace Formulary.Formula

open Formulary.Text Formulary.Token

variable {σ : Symbol → List Char} {l : Lexeme} {ls rs : List Lexeme} {s u v : List Char} {c : Char}
  {i j : Nat}

/-- No two underscores stand in a row. -/
def SingleUnderscores (s : List Char) : Prop := s.IsChain fun c d => c = '_' → d ≠ '_'

/-- Where no two underscores stand in a row, none are found. -/
lemma SingleUnderscores.holds (h : SingleUnderscores s) : holds ['_', '_'] s = false := by
  rw [← Bool.not_eq_true, holds_iff]
  intro hholds
  have hchain := List.IsChain.infix h hholds
  exact (List.isChain_cons_cons.1 hchain).1 rfl rfl

/-- Texts with single underscores may follow each other if the second one begins with none. -/
lemma SingleUnderscores.append (hs : SingleUnderscores s) (hu : SingleUnderscores u)
    (h : ∀ c ∈ u.head?, c ≠ '_') : SingleUnderscores (s ++ u) :=
  List.isChain_append.2 ⟨hs, hu, fun _ _ d hd _ => h d hd⟩

/-- A character other than an underscore may stand in front. -/
lemma SingleUnderscores.cons (hc : c ≠ '_') (hs : SingleUnderscores s) : SingleUnderscores (c :: s) :=
  List.isChain_cons.2 ⟨fun _ _ h => absurd h hc, hs⟩

/-- A text without underscores has single ones. -/
lemma singleUnderscores_of_notMem (h : '_' ∉ s) : SingleUnderscores s := by
  induction s with
  | nil => exact .nil
  | cons c s ih =>
    simp only [List.mem_cons, not_or] at h
    exact .cons (Ne.symm h.1) (ih h.2)

/-- A lexeme has no two underscores in a row. -/
lemma Lexeme.singleUnderscores (hl : ∀ s, l = .symbol s → IsAlias (σ s)) :
    SingleUnderscores (l.text σ) := by
  cases l with
  | numeral n =>
    refine n.spelled.1.chain.imp fun c d hnext => ?_
    rintro rfl rfl
    exact absurd hnext (by decide)
  | symbol s =>
    obtain ⟨i, hi⟩ := hl s rfl
    have hrest : '_' ∉ 's' :: Nat.toDigits 10 i := fun h =>
      absurd (isAlphanum_of_mem_alias h) (by decide)
    rw [text, hi, toList_alias]
    refine List.isChain_cons.2 ⟨fun d hd _ => ?_, singleUnderscores_of_notMem hrest⟩
    rintro rfl
    exact hrest (List.mem_of_mem_head? hd)
  | function f =>
    have hf : '_' ∉ f.name.toList := by cases f <;> decide
    exact singleUnderscores_of_notMem hf
  | constant k =>
    have hk : '_' ∉ k.name.toList := by cases k <;> decide
    exact singleUnderscores_of_notMem hk
  | mark m => exact .singleton _

/-- Lexemes with aliases have no two underscores in a row. -/
theorem Written.singleUnderscores (h : Written σ ls s) (hσ : Adhering σ)
    (hls : ls.IsChain fun l l' => l.fits l') (halias : ∀ s ∈ Lexeme.symbols ls, IsAlias (σ s)) :
    SingleUnderscores s := by
  induction h with
  | nil => exact .nil
  | gap hc _ ih =>
    refine .cons ?_ (ih hls halias)
    rintro rfl
    cases hc
  | @lexeme l ls s h ih =>
    have hrest := ih hls.tail fun s hs => halias s (Lexeme.mem_symbols.2
      (List.mem_cons_of_mem l (Lexeme.mem_symbols.1 hs)))
    have hsymbol : ∀ s, l = .symbol s → IsAlias (σ s) := fun s hs =>
      halias s (Lexeme.mem_symbols.2 (by simp [hs]))
    have hl := Lexeme.singleUnderscores hsymbol
    by_cases hword : l.isWordy
    · refine hl.append hrest fun c hc => ?_
      have := h.isSeparator_head hσ (fits_head hls) hword c hc
      rintro rfl
      cases this
    · cases l with
      | mark m =>
        refine SingleUnderscores.cons ?_ hrest
        cases m <;> decide
      | _ => exact absurd rfl hword

/-- The text of the difference of two texts. -/
def differenceText (u v : List Char) : List Char := '(' :: u ++ ") - (".toList ++ v ++ [')']

/-- The symbols of lexemes are written as aliases where all of them have one. -/
lemma Names.isAlias {ss : List Symbol} {a : Aliases} (h : Names [] ss a) :
    ∀ s ∈ ss, IsAlias (a.text s) := by
  intro s hs
  have hsome := (h.isSome_lookup s.name).2 (.inr ⟨s, hs, rfl⟩)
  obtain ⟨y, hy⟩ := Option.isSome_iff_exists.1 hsome
  obtain ⟨i, rfl⟩ := h.numbered.alias hy
  exact ⟨i, by rw [Aliases.text, hy, Option.getD_some]⟩

/-- The text of a difference, character by character. -/
lemma differenceText_eq (u v : List Char) : differenceText u v =
    '(' :: (u ++ ')' :: (' ' :: '-' :: ' ' :: '(' :: (v ++ [')']))) := by
  simp [differenceText]

/-- What a difference adds to its sides has no underscores. -/
lemma SingleUnderscores.differenceText (hu : SingleUnderscores u) (hv : SingleUnderscores v) :
    SingleUnderscores (differenceText u v) := by
  have hright : SingleUnderscores (v ++ [')']) := hv.append (.singleton _) (by simp)
  have hmiddle : SingleUnderscores (")".toList ++ (" - (".toList ++ (v ++ [')']))) :=
    .cons (by decide) (.cons (by decide) (.cons (by decide) (.cons (by decide) (.cons (by decide)
      hright))))
  rw [differenceText_eq]
  exact .cons (by decide) (hu.append hmiddle (by simp))

/-- The power signs of a difference are those of its sides. -/
lemma withPowerSigns_differenceText (u v : List Char) :
    withPowerSigns (differenceText u v) = differenceText (withPowerSigns u) (withPowerSigns v) := by
  rw [differenceText, withPowerSigns_append, withPowerSigns_append, withPowerSigns_append]
  rfl

/-- Renaming a difference renames its sides one after the other. -/
lemma aliased_differenceText (u v : List Char) : aliased (differenceText u v) =
    (differenceText (renamed [] u).1 (renamed (renamed [] u).2 v).1,
      (renamed (renamed [] u).2 v).2) := by
  have hrenamed : aliased (differenceText u v) = renamed [] (differenceText u v) := rfl
  rw [hrenamed, differenceText_eq, differenceText_eq, renamed_cons_head (by decide),
    renamed_cons (by decide), renamed_cons_head (by decide), renamed_cons_head (by decide),
    renamed_cons_head (by decide), renamed_cons_head (by decide), renamed_cons (by decide),
    renamed_nil]

/-- The sides of a renamed difference consist of the same lexemes as before. -/
lemma renamed_difference {ls rs : List Lexeme} (hu : Written Symbol.text ls u)
    (hv : Written Symbol.text rs v) (hls : ls.IsChain fun l l' => l.fits l')
    (hrs : rs.IsChain fun l l' => l.fits l') :
    ∃ u' v' a, aliased (differenceText u v) = (differenceText u' v', a) ∧
      Names [] (Lexeme.symbols ls ++ Lexeme.symbols rs) a ∧ Written a.text ls u' ∧
      Written a.text rs v' := by
  obtain ⟨hnames, hu'⟩ := hu.renamed hls (a := []) rfl
  obtain ⟨hnames', hv'⟩ := hv.renamed hrs hnames.numbered
  exact ⟨(renamed [] u).1, (renamed (renamed [] u).2 v).1, (renamed (renamed [] u).2 v).2,
    aliased_differenceText u v, hnames.trans hnames', hu' _ hnames'.kept, hv' _ (.refl _)⟩

/-- What the tokens of a difference are compiled to. -/
def compileTokens (ts : List Token) : Except CompileError Expression :=
  match Parser.ofTokens? ts with
  | some e => .ok e
  | none => .error .malformed

/-- A difference is compiled from the tokens of its lexemes unless they are nested too deeply. -/
theorem compile_difference (hu : Written Symbol.text ls u) (hv : Written Symbol.text rs v)
    (hls : ls.IsChain fun l l' => l.fits l') (hrs : rs.IsChain fun l l' => l.fits l')
    (hi : Nested ls i) (hj : Nested rs j) :
    ∃ a, (aliased (differenceText u v)).2 = a ∧ Names [] (Lexeme.symbols ls ++ Lexeme.symbols rs) a ∧
      Expression.compile (aliased (differenceText u v)).1 =
        if i < maxNesting ∧ j < maxNesting then
          compileTokens (Layout.differenceTokens (ls.map (Lexeme.token a.text))
            (rs.map (Lexeme.token a.text)))
        else .error .malformed := by
  obtain ⟨u', v', a, haliased, hnames, hu', hv'⟩ := renamed_difference hu hv hls hrs
  refine ⟨a, by rw [haliased], hnames, ?_⟩
  have hσ := hnames.numbered.adhering
  have hl := fun s hs => hnames.isAlias s (List.mem_append_left _ hs)
  have hr := fun s hs => hnames.isAlias s (List.mem_append_right _ hs)
  obtain ⟨t, ht, htdepth, htinline⟩ := hu'.exists_layout hi hl
  obtain ⟨t', ht', htdepth', htinline'⟩ := hv'.exists_layout hj hr
  have hsingle : SingleUnderscores (differenceText u' v') :=
    .differenceText (hu'.singleUnderscores hσ hls hl) (hv'.singleUnderscores hσ hrs hr)
  have hpower : withPowerSigns (differenceText u' v') = Layout.difference t t' := by
    rw [withPowerSigns_differenceText, Layout.difference, ht, ht', differenceText]
  have hlexes := hu'.lexes hσ hls hl
  have hlexes' := hv'.lexes hσ hrs hr
  rw [← ht] at hlexes
  rw [← ht'] at hlexes'
  have htokens {ts : List Token} : tokens? (Layout.difference t t') = some ts ↔ _ :=
    Layout.tokens?_difference htinline htinline'
  have hread : Expression.compile (aliased (differenceText u v)).1 =
      match (tokens? (Layout.difference t t')).bind Parser.ofTokens? with
      | some e => .ok e
      | none => .error .malformed := by
    rw [haliased, Expression.compile, hsingle.holds, hpower]
    rfl
  rw [hread]
  by_cases hdepth : i < maxNesting ∧ j < maxNesting
  · have hsome := htokens.2
      ⟨_, _, hlexes, hlexes', htdepth ▸ hdepth.1, htdepth' ▸ hdepth.2, rfl⟩
    rw [if_pos hdepth, hsome]
    rfl
  · have hnone : tokens? (Layout.difference t t') = none := by
      cases hts : tokens? (Layout.difference t t') with
      | none => rfl
      | some ts =>
        obtain ⟨_, _, -, -, hdi, hdj, -⟩ := htokens.1 hts
        exact absurd ⟨htdepth ▸ hdi, htdepth' ▸ hdj⟩ hdepth
    rw [if_neg hdepth, hnone]
    rfl

end Formulary.Formula
