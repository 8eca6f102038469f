import Formulary.Proofs.Formula.Parsing
import Formulary.Proofs.Formula.Value

/-!
# Values written into terms

Writing a value into the text of a term writes a numeral in parentheses in place of a symbol of the
term (`Term.written_substitute`), unless a letter follows a point: `1.e3` is one numeral, but `e3`
is a word of its own to substitution. Where all symbols have values, the term with the values
written in has the value of the term (`Term.value_subst`), and its parentheses are nested one level
deeper around each symbol (`Term.nesting_subst`).
-/

namespace Formulary.Formula

open Formulary.Text Formulary.Number Formulary.Token

namespace Term

mutual

/-- A term with terms in parentheses in place of its symbols. -/
def subst (env : String → Option Term) : Term → Term
  | numeral n => numeral n
  | symbol s =>
    match env s.name with
    | some t => group t
    | none => symbol s
  | constant k => constant k
  | call f ts => call f (substAll env ts)
  | signed negative t => signed negative (t.subst env)
  | binary op a b => binary op (a.subst env) (b.subst env)
  | group t => group (t.subst env)

/-- Terms with terms in parentheses in place of their symbols. -/
def substAll (env : String → Option Term) : List Term → List Term
  | [] => []
  | t :: ts => t.subst env :: substAll env ts

end

end Term

/-- A lexeme with lexemes in parentheses in place of a symbol. -/
def Lexeme.filled (env : String → Option Term) : Lexeme → List Lexeme
  | .symbol s =>
    match env s.name with
    | some t => parenthesized (t.lexemes 0)
    | none => [.symbol s]
  | l => [l]

variable {env : String → Option Term} {l : Lexeme} {ls : List Lexeme} {s : List Char} {n : String}
  {v : Float} {t u : Term} {ts : List Term} {ρ ρ' : String → Float} {level : Nat}

/-- Lexemes that are no symbols stay as they are. -/
lemma Lexeme.filled_of_ne (hl : ∀ s, l ≠ .symbol s) : l.filled env = [l] := by
  cases l with
  | symbol s => exact absurd rfl (hl s)
  | _ => rfl

/-- Lexemes without symbols stay. -/
lemma filled_of_symbols (h : Lexeme.symbols ls = []) : ls.flatMap (Lexeme.filled env) = ls := by
  have hid : ∀ l ∈ ls, l.filled env = [l] := by
    intro l hl
    refine Lexeme.filled_of_ne ?_
    rintro s rfl
    rw [← Lexeme.mem_symbols, h] at hl
    cases hl
  rw [List.flatMap_congr hid]
  exact List.flatMap_singleton' ls

/-- Filling in goes on within parentheses. -/
lemma filled_parenthesized (ls : List Lexeme) :
    (parenthesized ls).flatMap (Lexeme.filled env) = parenthesized (ls.flatMap (Lexeme.filled env)) := by
  simp [parenthesized, Lexeme.filled]

/-- Filling in goes on within parentheses that may be left out. -/
lemma filled_parenthesizedIf (needed : Bool) (ls : List Lexeme) :
    (parenthesizedIf needed ls).flatMap (Lexeme.filled env) =
      parenthesizedIf needed (ls.flatMap (Lexeme.filled env)) := by
  cases needed
  · rfl
  · exact filled_parenthesized ls

namespace Term

/-- Terms are filled in one by one. -/
lemma substAll_eq_map : substAll env ts = ts.map (subst env) := by
  induction ts with
  | nil => rfl
  | cons t ts ih => rw [substAll, ih, List.map_cons]

/-- The lexemes of terms that are filled in are filled in themselves. -/
lemma lexemesOfAll_substAll
    (h : ∀ t ∈ ts, (t.subst env).lexemes 0 = (t.lexemes 0).flatMap (Lexeme.filled env)) :
    lexemesOfAll (substAll env ts) = (lexemesOfAll ts).flatMap (Lexeme.filled env) := by
  induction ts with
  | nil => rfl
  | cons t ts ih =>
    have ht := h t (by simp)
    have hts := ih fun u hu => h u (by simp [hu])
    by_cases hne : ts = []
    · subst hne
      exact ht
    · have hne' : substAll env ts ≠ [] := by simpa [substAll_eq_map] using hne
      rw [substAll, lexemesOfAll_cons _ hne', lexemesOfAll_cons t hne, ht, hts, List.flatMap_append]
      rfl

/-- The lexemes of a term with terms in place of its symbols. -/
theorem lexemes_subst (t : Term) (level : Nat) :
    (t.subst env).lexemes level = (t.lexemes level).flatMap (Lexeme.filled env) := by
  induction t generalizing level with
  | numeral n => rfl
  | symbol s =>
    simp only [subst, lexemes, List.flatMap_cons, List.flatMap_nil, List.append_nil, Lexeme.filled]
    cases env s.name <;> rfl
  | constant k => rfl
  | call f ts ih =>
    simp only [subst, lexemes, List.flatMap_cons, filled_parenthesized,
      lexemesOfAll_substAll fun t ht => ih t ht 0]
    rfl
  | signed negative t ih =>
    simp only [subst, lexemes, filled_parenthesizedIf, ih, List.flatMap_cons]
    rfl
  | binary op a b iha ihb =>
    simp only [subst, lexemes, filled_parenthesizedIf, iha, ihb, List.flatMap_append, List.flatMap_cons]
    rfl
  | group t ih =>
    simp only [subst, lexemes, filled_parenthesized, ih]

/-- The nesting of terms that are filled in is that of terms with symbols in parentheses. -/
lemma nestingOfAll_substAll (h : ∀ t ∈ ts, (t.subst env).nesting 0 0 = t.nesting 1 0) :
    nestingOfAll 0 (substAll env ts) = nestingOfAll 1 ts := by
  induction ts with
  | nil => rfl
  | cons t ts ih =>
    simp only [substAll, nestingOfAll, h t (by simp), ih fun u hu => h u (by simp [hu])]

/-- Terms in place of symbols count as nested one level deep if they have no parentheses. -/
theorem nesting_subst (h : ∀ s ∈ t.symbols, ∃ u, env s.name = some u ∧ u.nesting 0 0 = 0) (level : Nat) :
    (t.subst env).nesting 0 level = t.nesting 1 level := by
  induction t generalizing level with
  | numeral n => rfl
  | symbol s =>
    obtain ⟨u, hu, hnesting⟩ := h s (by simp [symbols])
    simp only [subst, hu, nesting, hnesting]
  | constant k => rfl
  | call f ts ih =>
    simp only [subst, nesting]
    rw [nestingOfAll_substAll fun t ht => ih t ht (fun s hs => h s (mem_symbolsOfAll.2 ⟨t, ht, hs⟩)) 0]
  | signed negative t ih => simp only [subst, nesting, ih h]
  | binary op a b iha ihb =>
    simp only [subst, nesting, iha fun s hs => h s (by simp [symbols, hs]),
      ihb fun s hs => h s (by simp [symbols, hs])]
  | group t ih => simp only [subst, nesting, ih h]

/-- Terms with symbols in parentheses are nested no less deeply. -/
lemma nestingOfAll_mono (h : ∀ t ∈ ts, t.nesting 0 0 ≤ t.nesting 1 0) :
    nestingOfAll 0 ts ≤ nestingOfAll 1 ts := by
  induction ts with
  | nil => exact Nat.le_refl _
  | cons t ts ih =>
    have ht := h t (by simp)
    have hts := ih fun u hu => h u (by simp [hu])
    simp only [nestingOfAll]
    omega

/-- Symbols that count as nested one level deep add at most to the nesting. -/
lemma nesting_mono (t : Term) (level : Nat) : t.nesting 0 level ≤ t.nesting 1 level := by
  induction t generalizing level with
  | numeral n => exact Nat.le_refl _
  | symbol s => exact Nat.zero_le _
  | constant k => exact Nat.le_refl _
  | call f ts ih => exact Nat.succ_le_succ (nestingOfAll_mono fun t ht => ih t ht 0)
  | signed negative t ih => exact Nat.add_le_add_right (ih 10) _
  | binary op a b iha ihb =>
    have ha := iha op.leftLevel
    have hb := ihb op.rightLevel
    simp only [nesting]
    omega
  | group t ih => exact Nat.succ_le_succ (ih 0)

/-- The values of terms that are filled in are those with the values of the symbols. -/
lemma values_substAll (h : ∀ t ∈ ts, (t.subst env).value ρ = t.value ρ') :
    values ρ (substAll env ts) = values ρ' ts := by
  induction ts with
  | nil => rfl
  | cons t ts ih =>
    simp only [substAll, values, h t (by simp), ih fun u hu => h u (by simp [hu])]

/-- A term with values in place of its symbols has the value of the term. -/
theorem value_subst (h : ∀ s ∈ t.symbols, ∃ u, env s.name = some u ∧ u.value ρ = .ok (.real (ρ' s.name))) :
    (t.subst env).value ρ = t.value ρ' := by
  induction t with
  | numeral n => rfl
  | symbol s =>
    obtain ⟨u, hu, hvalue⟩ := h s (by simp [symbols])
    simp only [subst, hu, value, hvalue]
  | constant k => rfl
  | call f ts ih =>
    simp only [subst, value]
    rw [values_substAll fun t ht => ih t ht fun s hs => h s (mem_symbolsOfAll.2 ⟨t, ht, hs⟩)]
  | signed negative t ih => simp only [subst, value, ih h]
  | binary op a b iha ihb =>
    simp only [subst, value, iha fun s hs => h s (by simp [symbols, hs]),
      ihb fun s hs => h s (by simp [symbols, hs])]
  | group t ih => simp only [subst, value, ih h]

/-- The double of a term with values in place of its symbols. -/
lemma outcome_subst (h : ∀ s ∈ t.symbols, ∃ u, env s.name = some u ∧ u.value ρ = .ok (.real (ρ' s.name))) :
    (t.subst env).outcome ρ = t.outcome ρ' := by
  rw [outcome, value_subst h, outcome]

/-- No symbols are left where terms without symbols stand in place of all of them. -/
lemma symbols_subst (h : ∀ s ∈ t.symbols, ∃ u, env s.name = some u ∧ u.symbols = []) :
    (t.subst env).symbols = [] := by
  rw [← symbols_lexemes _ 0, lexemes_subst, List.eq_nil_iff_forall_not_mem]
  intro s hs
  obtain ⟨l, hl, hfilled⟩ := List.mem_flatMap.1 (Lexeme.mem_symbols.1 hs)
  cases l with
  | symbol s' =>
    rw [← Lexeme.mem_symbols, symbols_lexemes] at hl
    obtain ⟨u, hu, hnil⟩ := h s' hl
    simp only [Lexeme.filled, hu] at hfilled
    rw [← Lexeme.mem_symbols, symbols_parenthesized, symbols_lexemes, hnil] at hfilled
    cases hfilled
  | _ => simp [Lexeme.filled] at hfilled

end Term

/-- That a term is a value as it is written into a formula. -/
structure Denotes (v : Float) (t : Term) : Prop where
  text : t.text = (shortestText v).toList
  value : ∀ ρ, t.value ρ = .ok (.real v)
  symbols : t.symbols = []
  nesting : t.nesting 0 0 = 0
  numeric : ∀ n, .numeral n ∈ t.lexemes 0 → isNumeric false n.text

/-- A negative number is the opposite of a number that is not. -/
lemma toFloat_negative (n : Nat) (e : Int) :
    Decimal.toFloat ⟨true, n, e⟩ = -Decimal.toFloat ⟨false, n, e⟩ := by
  simp only [Decimal.toFloat]
  split
  · rfl
  · split
    · rfl
    · split <;> rfl

/-- A finite value whose text reads back is written as a term. -/
theorem exists_denotes (hv : v.isFinite) (hread : readFloat? (shortestText v) = some v) :
    ∃ t, Denotes v t := by
  obtain ⟨negative, m, n, e, htext, hliteral, hnumeric, rfl⟩ := exists_numeral hv hread
  cases negative
  · refine ⟨.numeral m, ?_, fun ρ => ?_, rfl, rfl, fun m' hm' => ?_⟩
    · simp [Term.text, Term.lexemes, Lexeme.text, htext, withMinus]
    · simp only [Term.value, literalValue, hliteral]
    · obtain rfl : m' = m := by simpa [Term.lexemes] using hm'
      exact hnumeric
  · refine ⟨.signed true (.numeral m), ?_, fun ρ => ?_, rfl, rfl, fun m' hm' => ?_⟩
    · rw [htext]
      simp [Term.text, Term.lexemes, parenthesizedIf, Lexeme.text, withMinus, Mark.char]
    · simp only [Term.value, literalValue, hliteral, toFloat_negative]
      rfl
    · obtain rfl : m' = m := by simpa [Term.lexemes, parenthesizedIf] using hm'
      exact hnumeric

/-- No text is replaced across a place where nothing is glued together. -/
lemma substitute_append {s t : List Char} (hn : IsName n.toList) (h : Apart s t) :
    substitute (s ++ t) n v = substitute s n v ++ substitute t n v := by
  rw [substitute_eq hn, substitute_eq hn, substitute_eq hn, runs_append h, List.flatMap_append]

/-- The other names stay. -/
lemma substitute_name {m : List Char} (hn : IsName n.toList) (hm : IsName m) (hne : m ≠ n.toList) :
    substitute m n v = m := by
  refine substitute_of_not_mem hn ?_
  rw [runs_name hm, List.mem_singleton]
  exact Ne.symm hne

/-- A character that no name contains stays. -/
lemma substitute_single {c : Char} (hn : IsName n.toList) (hc : adheres c = false) :
    substitute [c] n v = [c] := by
  refine substitute_of_not_mem hn ?_
  show n.toList ∉ [[c]]
  rw [List.mem_singleton]
  intro h
  rw [hn.2 c (by simp [h])] at hc
  cases hc

/-- That no numeral among some lexemes has a letter behind a point. -/
def Numeric (ls : List Lexeme) : Prop := ∀ m, .numeral m ∈ ls → isNumeric false m.text

/-- That no letter stands right behind a point. -/
def NoLetterBehindPoint (s : List Char) : Prop := s.IsChain fun c d => c = '.' → d.isAlpha = false

/-- In a numeral a letter stands behind a digit or a letter unless it stands behind a point. -/
lemma isNumeric_of_isChain {c : Char} (hspelled : (c :: s).IsChain fun c d => numeralNext c d)
    (hpoint : NoLetterBehindPoint (c :: s)) : isNumeric (adheres c) s := by
  induction s generalizing c with
  | nil => rfl
  | cons d s ih =>
    obtain ⟨hnext, hspelled⟩ := List.isChain_cons_cons.1 hspelled
    obtain ⟨hletter, hpoint⟩ := List.isChain_cons_cons.1 hpoint
    have hword : ∀ {c : Char}, c.isAlphanum ∨ c = '_' → adheres c := fun h => by
      simp [adheres, isWord_of_isAlphanum h]
    have hplain : ∀ d ∈ ['.', '+', '-'], adheres d = false := List.all_iff_forall_prop.1 (by decide)
    rw [isNumeric, ih hspelled hpoint, Bool.and_true]
    simp only [numeralNext, Bool.or_eq_true, Bool.and_eq_true, beq_iff_eq] at hnext
    obtain ((((hd | rfl) | rfl) | rfl) | ⟨-, hc⟩) | ⟨hd, hc⟩ := hnext
    · simp [(isDigit_of_char hd).1]
    · simp [hplain]
    · simp [hplain]
    · simp [hplain]
    · simp [hword (.inl hc)]
    · obtain (hc | hc) | rfl := hc
      · simp [hword (.inl hc)]
      · simp [hword (.inr hc)]
      · rw [hletter rfl] at hd
        cases hd

/-- A numeral without a letter behind its point is numeric. -/
lemma isNumeric_numeral (m : Numeral) (h : NoLetterBehindPoint m.text) : isNumeric false m.text := by
  obtain ⟨⟨-, hchain⟩, c, t, htext, hc⟩ := m.spelled
  rw [htext] at hchain h ⊢
  rw [isNumeric, isNumeric_of_isChain hchain h, Bool.and_true]
  obtain hc | ⟨rfl, -⟩ := hc
  · simp [(isDigit_of_char hc).1]
  · decide

/-- The text of a lexeme stands in the text that is written with it. -/
lemma Written.text_within {σ : Symbol → List Char} (h : Written σ ls s) (hl : l ∈ ls) : l.text σ <:+: s := by
  induction h with
  | nil => cases hl
  | gap _ _ ih => exact (ih hl).trans (List.suffix_cons _ _).isInfix
  | @lexeme l' ls s _ ih =>
    obtain rfl | hl := List.mem_cons.1 hl
    · exact (List.prefix_append _ s).isInfix
    · exact (ih hl).trans (List.suffix_append _ s).isInfix

/-- In a text without letters behind points no numeral has one there. -/
lemma Written.numeric {σ : Symbol → List Char} (h : Written σ ls s) (hpoint : NoLetterBehindPoint s) :
    Numeric ls := by
  intro m hm
  have hchain := List.IsChain.infix hpoint (h.text_within hm)
  exact isNumeric_numeral m hchain

/-- Texts of lexemes are written one after the other. -/
lemma Written.append {σ : Symbol → List Char} {ls' : List Lexeme} {s s' : List Char}
    (h : Written σ ls s) (h' : Written σ ls' s') : Written σ (ls ++ ls') (s ++ s') := by
  induction h with
  | nil => exact h'
  | gap hc _ ih => exact .gap hc ih
  | lexeme _ ih =>
    rw [List.append_assoc]
    exact .lexeme ih

/-- A value that is written in place of one symbol. -/
def single (n : String) (t : Term) (x : String) : Option Term := if x = n then some t else none

/-- What substitution does to a lexeme. -/
lemma Written.substitute_lexeme (hn : isSymbol n.toList) (hr : isReserved n = false)
    (hl : ∀ m, l = .numeral m → isNumeric false m.text) (ht : Denotes v t) :
    Written Symbol.text (l.filled (single n t)) (substitute (l.text Symbol.text) n v) := by
  have hname := isName_of_isSymbol hn
  have hkeep : ∀ {l : Lexeme}, (∀ s, l ≠ .symbol s) →
      substitute (l.text Symbol.text) n v = l.text Symbol.text →
        Written Symbol.text (l.filled (single n t)) (substitute (l.text Symbol.text) n v) := by
    intro l hne h
    rw [Lexeme.filled_of_ne hne, h, ← List.append_nil (l.text Symbol.text)]
    exact .lexeme .nil
  have hreserved : ∀ {m : String}, isReserved m → m.toList ≠ n.toList := by
    intro m hm heq
    rw [String.toList_inj.1 heq, hr] at hm
    cases hm
  cases l with
  | numeral m => exact hkeep (by simp) (substitute_of_not_mem hname (symbol_notMem_runs (hl m rfl) hn))
  | symbol s =>
    have hs := isName_of_isSymbol s.isSymbol
    by_cases hsn : s.name = n
    · have hreplaced : substitute s.text n v = '(' :: ((shortestText v).toList ++ [')']) := by
        rw [substitute_eq hname, Symbol.text, runs_name hs, hsn]
        simp [literal]
      have hfilled : (Lexeme.symbol s).filled (single n t) = parenthesized (t.lexemes 0) := by
        simp [Lexeme.filled, single, hsn]
      have htext : '(' :: ((shortestText v).toList ++ [')']) =
          (parenthesized (t.lexemes 0)).flatMap (Lexeme.text Symbol.text) := by
        rw [← ht.text]
        simp [parenthesized, Term.text, Lexeme.text, Mark.char]
      show Written _ _ (substitute s.text n v)
      rw [hreplaced, hfilled, htext]
      exact .of_lexemes _
    · have hkept : substitute s.text n v = s.text ++ [] := by
        rw [List.append_nil]
        exact substitute_name hname hs fun h => hsn (String.toList_inj.1 h)
      have hfilled : (Lexeme.symbol s).filled (single n t) = [.symbol s] := by
        simp [Lexeme.filled, single, hsn]
      show Written _ _ (substitute s.text n v)
      rw [hkept, hfilled]
      exact .lexeme .nil
  | function f =>
    exact hkeep (by simp) (substitute_name hname (adheres_function f) (hreserved (by cases f <;> decide)))
  | constant k =>
    exact hkeep (by simp) (substitute_name hname (adheres_constant k) (hreserved (by cases k <;> decide)))
  | mark m =>
    exact hkeep (by simp) (substitute_single hname (isSeparator_iff.1 (isSeparator_mark m)).1)

/-- A value is written in place of a symbol, and nothing else changes. -/
theorem Written.substitute (h : Written Symbol.text ls s) (hls : ls.IsChain fun l l' => l.fits l')
    (hnumeric : Numeric ls) (hn : isSymbol n.toList) (hr : isReserved n = false) (ht : Denotes v t) :
    Written Symbol.text (ls.flatMap (Lexeme.filled (single n t))) (substitute s n v) := by
  have hname := isName_of_isSymbol hn
  induction h with
  | nil =>
    rw [substitute_of_not_mem hname (by simp [runs])]
    exact .nil
  | @gap c ls s hc _ ih =>
    have hadheres := (isSeparator_iff.1 (isSeparator_of_isGap hc)).1
    rw [← List.singleton_append, substitute_append hname (apart_single hadheres),
      substitute_single hname hadheres]
    exact .gap hc (ih hls hnumeric)
  | @lexeme l ls s h ih =>
    have hapart : Apart (l.text Symbol.text) s := by
      by_cases hl : l.isWordy
      · exact apart_of_head fun c hc =>
          (isSeparator_iff.1 (h.isSeparator_head adhering_text (fits_head hls) hl c hc)).1
      · cases l with
        | mark m => exact apart_single (isSeparator_iff.1 (isSeparator_mark m)).1
        | _ => exact absurd rfl hl
    rw [substitute_append hname hapart, List.flatMap_cons]
    refine .append (.substitute_lexeme hn hr ?_ ht) (ih hls.tail fun m hm => hnumeric m (by simp [hm]))
    rintro m rfl
    exact hnumeric m (by simp)

/-- The sides of a difference are substituted into one by one. -/
lemma substitute_difference {u v : List Char} {x : Float} (hn : IsName n.toList) :
    substitute (differenceText u v) n x = differenceText (substitute u n x) (substitute v n x) := by
  have htext : ∀ u v, differenceText u v =
      ['('] ++ (u ++ ([')'] ++ ([' '] ++ (['-'] ++ ([' '] ++ (['('] ++ (v ++ [')']))))))) := by
    simp [differenceText]
  have hmark : ∀ c ∈ ['(', ')', ' ', '-'], adheres c = false := List.all_iff_forall_prop.1 (by decide)
  have hstep : ∀ {c s}, c ∈ ['(', ')', ' ', '-'] →
      substitute ([c] ++ s) n x = [c] ++ substitute s n x := by
    intro c s hc
    rw [substitute_append hn (apart_single (hmark c hc)), substitute_single hn (hmark c hc)]
  have hside : ∀ {s t}, substitute (s ++ ([')'] ++ t)) n x = substitute s n x ++ substitute ([')'] ++ t) n x :=
    substitute_append hn (apart_of_head (by simp [hmark]))
  have hlast : ∀ {s}, substitute (s ++ [')']) n x = substitute s n x ++ [')'] := by
    intro s
    rw [substitute_append hn (apart_of_head (by simp [hmark])), substitute_single hn (hmark _ (by simp))]
  rw [htext, htext, hstep (by simp), hside, hstep (by simp), hstep (by simp), hstep (by simp),
    hstep (by simp), hstep (by simp), hlast]

/-- Values in place of names. -/
def valued (w : Float → Term) (bindings : List (String × Float)) (n : String) : Option Term :=
  (bindings.lookup n).map w

/-- One more value is filled in after the others. -/
lemma valued_concat (w : Float → Term) (bindings : List (String × Float)) (m : String) (x : Float) :
    valued w (bindings ++ [(m, x)]) = fun k => (valued w bindings k).or (single m (w x) k) := by
  funext k
  rw [valued, List.lookup_append, Option.map_or]
  refine congrArg (Option.or _) ?_
  by_cases hk : k = m
  · simp [single, hk]
  · simp [single, hk, List.lookup_cons, beq_eq_false_iff_ne.2 hk]

/-- Lexemes that are filled twice. -/
lemma filled_filled (henv : ∀ x u, env x = some u → u.symbols = []) (l : Lexeme) :
    (l.filled env).flatMap (Lexeme.filled (single n t)) =
      l.filled fun x => (env x).or (single n t x) := by
  cases l with
  | symbol s =>
    cases hs : env s.name with
    | none => simp [Lexeme.filled, hs]
    | some u =>
      have hnil : Lexeme.symbols (parenthesized (u.lexemes 0)) = [] := by
        rw [Term.symbols_parenthesized, Term.symbols_lexemes, henv _ _ hs]
      simp only [Lexeme.filled, hs, Option.some_or]
      exact filled_of_symbols hnil
  | _ => rfl

/-- One more value is written in place of one more symbol. -/
lemma Term.lexemes_subst_or (henv : ∀ x u, env x = some u → u.symbols = []) (t u : Term) :
    (t.subst fun x => (env x).or (single n u x)).lexemes 0 =
      ((t.subst env).lexemes 0).flatMap (Lexeme.filled (single n u)) := by
  rw [lexemes_subst, lexemes_subst, List.flatMap_assoc]
  exact List.flatMap_congr fun l _ => (filled_filled henv l).symm

/-- A term is numeric if it was, and what is filled in is numeric as well. -/
lemma Term.numeric_subst (henv : ∀ x u, env x = some u → Numeric (u.lexemes 0))
    (h : Numeric (t.lexemes 0)) : Numeric ((t.subst env).lexemes 0) := by
  intro m hm
  rw [lexemes_subst] at hm
  obtain ⟨l, hl, hm⟩ := List.mem_flatMap.1 hm
  cases l with
  | symbol s =>
    cases hs : env s.name with
    | none => simp [Lexeme.filled, hs] at hm
    | some u => exact henv _ _ hs m (by simpa [Lexeme.filled, hs, parenthesized] using hm)
  | numeral m' =>
    obtain rfl : m = m' := by simpa [Lexeme.filled] using hm
    exact h m hl
  | _ => simp [Lexeme.filled] at hm

/-- Without values nothing is filled in. -/
lemma Term.lexemes_subst_nil (w : Float → Term) (t : Term) (level : Nat) :
    (t.subst (valued w [])).lexemes level = t.lexemes level := by
  have hnone : ∀ l ∈ t.lexemes level, l.filled (valued w []) = [l] := by
    intro l _
    cases l <;> rfl
  rw [lexemes_subst, List.flatMap_congr hnone, List.flatMap_singleton']

/-- What is asked of bindings whose values are written into a formula. -/
structure Writable (w : Float → Term) (b : String × Float) : Prop where
  isSymbol : isSymbol b.1.toList
  unreserved : isReserved b.1 = false
  denotes : Denotes b.2 (w b.2)

/-- The values of several bindings are written in place of the symbols. -/
theorem Term.written_foldl {w : Float → Term} {bindings : List (String × Float)}
    (hw : ∀ b ∈ bindings, Writable w b) (h : Written Symbol.text (t.lexemes 0) s)
    (hnumeric : Numeric (t.lexemes 0)) :
    Written Symbol.text ((t.subst (valued w bindings)).lexemes 0)
      (bindings.foldl (fun s b => substitute s b.1 b.2) s) := by
  induction bindings using List.reverseRecOn with
  | nil =>
    rw [lexemes_subst_nil]
    exact h
  | append_singleton bindings b ih =>
    obtain ⟨m, x⟩ := b
    have hb := hw (m, x) (by simp)
    have hdenotes : ∀ k u, valued w bindings k = some u → ∃ y, Denotes y u := by
      intro k u hu
      obtain ⟨y, hy, rfl⟩ := Option.map_eq_some_iff.1 hu
      exact ⟨y, (hw (k, y) (by simp [mem_of_lookup hy])).denotes⟩
    have hsymbols : ∀ k u, valued w bindings k = some u → u.symbols = [] := fun k u hu =>
      (hdenotes k u hu).elim fun _ h => h.symbols
    have hnumeric' := numeric_subst (fun k u hu => (hdenotes k u hu).elim fun _ h => h.numeric) hnumeric
    rw [valued_concat, lexemes_subst_or hsymbols, List.foldl_append]
    exact (ih fun b hb => hw b (by simp [hb])).substitute ((t.subst _).formed 0).fits hnumeric' hb.isSymbol
      hb.unreserved hb.denotes

/-- The sides of a difference are substituted into one by one, for several values. -/
lemma foldl_difference {bindings : List (String × Float)} {u v : List Char}
    (h : ∀ b ∈ bindings, isSymbol b.1.toList) :
    bindings.foldl (fun s b => substitute s b.1 b.2) (differenceText u v) =
      differenceText (bindings.foldl (fun s b => substitute s b.1 b.2) u)
        (bindings.foldl (fun s b => substitute s b.1 b.2) v) := by
  induction bindings generalizing u v with
  | nil => rfl
  | cons b bindings ih =>
    rw [List.foldl_cons, substitute_difference (isName_of_isSymbol (h b (by simp))),
      ih fun c hc => h c (by simp [hc])]
    rfl

end Formulary.Formula
