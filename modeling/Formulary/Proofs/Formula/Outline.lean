import Formulary.Proofs.Formula.Misses

/-!
# Texts in which parentheses need not match

An `Outline` is any text, cut at its parentheses: layouts, and between them the parentheses that have
no partner. Every text has one (`text_ofText`). The conversion from degrees marks pairs of it behind
the name of a trigonometric function, and changes nothing else (`inRadians_marks_calls`).
-/

namespace Formulary.Formula

open Formulary.Text

/-- A layout, and what follows if it ends at a parenthesis without a partner. -/
inductive Outline where
  | matched (t : Layout)
  | closing (t : Layout) (rest : Outline)
  | opening (t : Layout) (rest : Outline)
  deriving Repr, DecidableEq

/-- What stands at the end of a text and belongs to one word, points included. -/
def lastWord (w : List Char) : List Char :=
  (w.reverse.takeWhile fun c => continuesWord (some c)).reverse

/-- A text ends with the name of a trigonometric function as a word of its own. -/
def IsCall (w : List Char) : Prop := ∃ f ∈ Function.trigonometric, lastWord w = f.name.toList

/-- A function is called where its name is the last word. -/
lemma calls_iff_lastWord {f : Function} {w : List Char} : calls f w ↔ lastWord w = f.name.toList := by
  have hname : ∀ c ∈ f.name.toList.reverse, continuesWord (some c) := fun c hc => by
    simp [continuesWord, name_letters f c (List.mem_reverse.1 hc)]
  rw [lastWord, List.reverse_eq_iff, calls_iff]
  constructor
  · rintro ⟨u, rfl, hu⟩
    rw [List.reverse_append]
    refine takeWhile_append_of_head hname ?_
    rw [List.head?_reverse]
    cases hlast : u.getLast? with
    | none => rfl
    | some c => rwa [hlast] at hu
  · intro h
    obtain ⟨u, hu⟩ : ∃ u, u = (w.reverse.dropWhile fun c => continuesWord (some c)).reverse := ⟨_, rfl⟩
    refine ⟨u, ?_, ?_⟩
    · rw [hu, ← List.reverse_reverse f.name.toList, ← h, ← List.reverse_append,
        List.takeWhile_append_dropWhile, List.reverse_reverse]
    · rw [hu, List.getLast?_reverse]
      have hhead := List.head?_dropWhile_not (fun c => continuesWord (some c)) w.reverse
      cases hd : (w.reverse.dropWhile fun c => continuesWord (some c)).head? with
      | none => rfl
      | some c => simpa [hd] using hhead

/-- A text ends with a call if a function is called there. -/
lemma isCall_iff {w : List Char} : IsCall w ↔ ∃ f, callee? w = some f := by
  simp only [IsCall, callee?_eq_some, calls_iff_lastWord]

variable {f : Function} {k w : List Char} {before : Option Char} {nested : Bool}

namespace Layout

variable {t : Layout} {fs : List Function}

/-- Only calls are converted. -/
def MarksCalls : Layout → Prop
  | plain _ => True
  | paren m w i r => (m → IsCall w) ∧ i.MarksCalls ∧ r.MarksCalls

/--
Outside of converted arguments, all those calls are converted in whose arguments there are no
parentheses.
-/
def MarksPlainCalls : Layout → Prop
  | plain _ => True
  | paren m w i r =>
    (IsCall w → ∀ v, i = plain v → v ≠ [] → m) ∧ (m = false → i.MarksPlainCalls) ∧ r.MarksPlainCalls

/-- In a layout without marks, only calls are converted. -/
lemma marksCalls_of_erase (h : t.erase = t) : t.MarksCalls := by
  induction t with
  | plain w => trivial
  | paren m w i r ihi ihr =>
    simp only [erase, paren.injEq, true_and] at h
    obtain ⟨rfl, hi, hr⟩ := h
    exact ⟨fun hm => absurd hm Bool.false_ne_true, ihi hi, ihr hr⟩

/-- A pass converts calls only. -/
lemma MarksCalls.pass (h : t.MarksCalls) (hf : f ∈ Function.trigonometric) :
    (t.pass f).MarksCalls := by
  induction t with
  | plain w => trivial
  | paren m w i r ihi ihr =>
    obtain ⟨hm, hi, hr⟩ := h
    simp only [Layout.pass]
    split
    · rename_i hcall
      exact ⟨fun _ => isCall_iff.2 ⟨f, callee?_eq_some.2 ⟨hf, hcall.2.1⟩⟩, hi, ihr hr⟩
    · exact ⟨hm, ihi hi, ihr hr⟩

/-- Passes convert calls only. -/
lemma MarksCalls.passes (h : t.MarksCalls) (hfs : fs ⊆ Function.trigonometric) :
    (t.passes fs).MarksCalls := by
  induction fs generalizing t with
  | nil => exact h
  | cons f fs ih => exact ih (h.pass (hfs (by simp))) fun g hg => hfs (by simp [hg])

/-- A call with an argument that has no parentheses is converted when its turn comes. -/
lemma marksPlainCalls_radians (h : t.erase = t) : t.radians.MarksPlainCalls := by
  induction t with
  | plain w =>
    rw [radians, passes_plain]
    trivial
  | paren m w i r ihi ihr =>
    simp only [erase, paren.injEq, true_and] at h
    obtain ⟨rfl, hi, hr⟩ := h
    have ihi := ihi hi
    have ihr := ihr hr
    cases i with
    | plain v =>
      rw [radians, passes_of_plain]
      refine ⟨fun hcall v' hv hne => ?_, fun _ => trivial, ihr⟩
      cases hv
      obtain ⟨g, hg⟩ := isCall_iff.1 hcall
      have hany : Function.trigonometric.any (calls · w) = true :=
        List.any_eq_true.2 ⟨g, (callee?_eq_some.1 hg).1, calls_of_callee? hg⟩
      simpa [hany] using hne
    | paren m' w' i' r' =>
      have hdeep : ∀ {fs v}, (paren m' w' i' r').passes fs ≠ plain v := by
        intro fs v heq
        have := congrArg erase heq
        rw [erase_passes, erase, erase] at this
        cases this
      cases hcallee : callee? w with
      | none =>
        rw [radians, passes_of_not_calls (not_calls_of_callee? hcallee)]
        exact ⟨fun _ v hv => absurd hv hdeep, fun _ => ihi, ihr⟩
      | some g =>
        obtain ⟨fs, gs, htrig, hfs, hgs, -⟩ := trigonometric_split (callee?_eq_some.1 hcallee).1
        have hpass := passes_of_calls (i := paren m' w' i' r') (r := r) (calls_of_callee? hcallee)
          hfs hgs
        rw [← htrig] at hpass
        rw [radians, hpass]
        split
        · exact ⟨fun _ _ _ _ => rfl, fun hm => absurd hm Bool.false_ne_true.symm, ihr⟩
        · exact ⟨fun _ v hv => absurd hv hdeep, fun _ => ihi, ihr⟩

/-- No argument ends in a text, whatever layout comes before it, if none does without the layout. -/
lemma takeArgument_eq_none (ht : t.All Bare) (hk : ∀ nested, takeArgument nested k = none) :
    takeArgument nested (t.text ++ k) = none := by
  induction t generalizing nested k with
  | plain w => rw [text, takeArgument_append ht, hk, Option.map_none]
  | paren m w i r ihi ihr =>
    obtain ⟨hw, hi, hr⟩ := ht
    have hrest : takeArgument true (wrap m i.text ++ ')' :: (r.text ++ k)) = none := by
      cases m with
      | false =>
        simp only [wrap, Bool.false_eq_true, if_false]
        rw [takeArgument_nested hi, ihr hr hk]
        simp
      | true => simp [wrap, takeArgument]
    rw [text, List.append_assoc, takeArgument_append hw]
    cases nested <;> simp [takeArgument, hrest]

end Layout

namespace Outline

variable {p : Outline} {g : Layout → Layout} {fs : List Function}

/-- The text of an outline. -/
def text : Outline → List Char
  | matched t => t.text
  | closing t rest => t.text ++ ')' :: rest.text
  | opening t rest => t.text ++ '(' :: rest.text

/-- The layouts of an outline. -/
def layouts : Outline → List Layout
  | matched t => [t]
  | closing t rest => t :: rest.layouts
  | opening t rest => t :: rest.layouts

/-- An outline in which all layouts are changed. -/
def map (g : Layout → Layout) : Outline → Outline
  | matched t => matched (g t)
  | closing t rest => closing (g t) (rest.map g)
  | opening t rest => opening (g t) (rest.map g)

/-- An outline in which the first layout is changed. -/
def mapFirst (g : Layout → Layout) : Outline → Outline
  | matched t => matched (g t)
  | closing t rest => closing (g t) rest
  | opening t rest => opening (g t) rest

/-- Nothing is closed between the layouts. -/
def Opens : Outline → Prop
  | matched _ => True
  | closing _ _ => False
  | opening _ rest => rest.Opens

/-- What is opened between the layouts is not closed there, so that it has no partner. -/
def Unpaired : Outline → Prop
  | matched _ => True
  | closing _ rest => rest.Unpaired
  | opening _ rest => rest.Opens

/-- An outline behind an opening parenthesis, which closes where the first layout does. -/
def enclose : Outline → Outline
  | closing t rest => rest.mapFirst (.paren false [] t)
  | p => opening (.plain []) p

/-- The outline of a text. -/
def ofText : List Char → Outline
  | [] => matched (.plain [])
  | c :: s =>
    if c = '(' then (ofText s).enclose
    else if c = ')' then closing (.plain []) (ofText s)
    else (ofText s).mapFirst (.push c)

/-- A text in front of the first layout stands in front of the outline. -/
lemma text_mapFirst {u : List Char} (h : ∀ t, (g t).text = u ++ t.text) (p : Outline) :
    (p.mapFirst g).text = u ++ p.text := by
  cases p <;> simp [mapFirst, text, h]

/-- Changing the first layout leaves the same parentheses without partners. -/
lemma unpaired_mapFirst : (p.mapFirst g).Unpaired ↔ p.Unpaired := by
  cases p <;> rfl

/-- Where nothing is closed between the layouts, nothing is paired there. -/
lemma Opens.unpaired (h : p.Opens) : p.Unpaired := by
  cases p with
  | matched t => trivial
  | closing t rest => cases h
  | opening t rest => exact h

/-- What holds of all layouts holds of them when the first one is changed accordingly. -/
lemma forall_layouts_mapFirst {P : Layout → Prop} (hg : ∀ t, P t → P (g t))
    (h : ∀ t ∈ p.layouts, P t) : ∀ t ∈ (p.mapFirst g).layouts, P t := by
  cases p <;> simp_all [mapFirst, layouts]

/-- The outline of a text spells the text. -/
theorem text_ofText (s : List Char) : (ofText s).text = s := by
  induction s with
  | nil => rfl
  | cons c s ih =>
    simp only [ofText]
    split
    · rename_i hc
      cases hs : ofText s with
      | closing t rest =>
        rw [enclose, text_mapFirst (u := '(' :: (t.text ++ [')'])) fun _ => by simp [Layout.text, wrap],
          ← ih, hs, text, hc]
        simp
      | _ =>
        rw [hs] at ih
        rw [← ih, hc]
        rfl
    · split
      · rename_i hc
        rw [text, ih, hc]
        rfl
      · rw [text_mapFirst (u := [c]) (Layout.push_text c), ih, List.singleton_append]

/-- The parentheses between the layouts of a text have no partner. -/
lemma unpaired_ofText (s : List Char) : (ofText s).Unpaired := by
  induction s with
  | nil => trivial
  | cons c s ih =>
    simp only [ofText]
    split
    · cases hs : ofText s with
      | matched t => trivial
      | closing t rest =>
        rw [hs] at ih
        exact unpaired_mapFirst.2 ih
      | opening t rest =>
        rw [hs] at ih
        exact ih
    · split
      · exact ih
      · exact unpaired_mapFirst.2 ih

/-- In the layouts of a text all parentheses are cut out, and nothing is converted. -/
lemma layouts_ofText (s : List Char) : ∀ t ∈ (ofText s).layouts, t.erase = t ∧ t.All Bare := by
  have hnil : (Layout.plain []).erase = .plain [] ∧ (Layout.plain []).All Bare := ⟨rfl, nofun, nofun⟩
  induction s with
  | nil => simpa [ofText, layouts] using hnil
  | cons c s ih =>
    simp only [ofText]
    split
    · cases hs : ofText s with
      | closing t rest =>
        rw [hs] at ih
        simp only [layouts, List.forall_mem_cons] at ih
        refine forall_layouts_mapFirst (fun u hu => ?_) ih.2
        exact ⟨by rw [Layout.erase, ih.1.1, hu.1], hnil.2, ih.1.2, hu.2⟩
      | _ =>
        rw [hs] at ih
        exact List.forall_mem_cons.2 ⟨hnil, ih⟩
    · split
      · exact List.forall_mem_cons.2 ⟨hnil, ih⟩
      · rename_i hopen hclose
        refine forall_layouts_mapFirst (fun t ht => ?_) ih
        have hpush : ∀ {w}, Bare w → Bare (c :: w) := fun hw =>
          ⟨by simp [hw.1, Ne.symm hopen], by simp [hw.2, Ne.symm hclose]⟩
        obtain ⟨het, hbt⟩ := ht
        cases t with
        | plain w => exact ⟨rfl, hpush hbt⟩
        | paren m w i r =>
          simp only [Layout.erase, Layout.paren.injEq, true_and] at het
          exact ⟨by simp only [Layout.push, Layout.erase, het], hpush hbt.1, hbt.2⟩

/-- Changing the layouts closes nothing between them. -/
lemma opens_map : (p.map g).Opens ↔ p.Opens := by
  induction p with
  | matched t => rfl
  | closing t rest ih => rfl
  | opening t rest ih => exact ih

/-- Changing the layouts leaves the same parentheses without partners. -/
lemma unpaired_map : (p.map g).Unpaired ↔ p.Unpaired := by
  induction p with
  | matched t => rfl
  | closing t rest ih => exact ih
  | opening t rest ih => exact opens_map

/-- The layouts of an outline are changed one by one. -/
lemma layouts_map : (p.map g).layouts = p.layouts.map g := by
  induction p with
  | matched t => rfl
  | closing t rest ih => simp [map, layouts, ih]
  | opening t rest ih => simp [map, layouts, ih]

/-- Layouts may be changed one time after the other. -/
lemma map_map {g' : Layout → Layout} : (p.map g).map g' = p.map fun t => g' (g t) := by
  induction p with
  | matched t => rfl
  | closing t rest ih => simp [map, ih]
  | opening t rest ih => simp [map, ih]

/-- Changes that leave every layout as it is leave the outline as it is. -/
lemma map_eq_self (h : ∀ t ∈ p.layouts, g t = t) : p.map g = p := by
  induction p with
  | matched t => simpa [map, layouts] using h
  | closing t rest ih => simp_all [map, layouts]
  | opening t rest ih => simp_all [map, layouts]

/-- What is opened and has no partner ends no argument. -/
lemma takeArgument_opens (hp : p.Opens) (hbare : ∀ t ∈ p.layouts, t.All Bare) (nested : Bool) :
    takeArgument nested p.text = none := by
  induction p generalizing nested with
  | matched t =>
    rw [text, ← List.append_nil t.text]
    exact Layout.takeArgument_eq_none (hbare t (by simp [layouts])) fun _ => rfl
  | closing t rest ih => cases hp
  | opening t rest ih =>
    simp only [layouts, List.forall_mem_cons] at hbare
    refine Layout.takeArgument_eq_none hbare.1 fun nested => ?_
    cases nested <;> simp [takeArgument, ih hp hbare.2]

/-- No call reaches past a parenthesis that does not close. -/
lemma uncalled_opening (h : takeArgument false k = none) : Layout.Uncalled f ('(' :: k) := by
  intro before u hu
  rw [Layout.callInRadians_open hu, h]
  simp

/-- A replacement does to the text of an outline what a pass does to its layouts. -/
theorem replaceFrom_outline (hp : p.Unpaired) (hbare : ∀ t ∈ p.layouts, t.All Bare)
    (hfree : ∀ t ∈ p.layouts, t.Unconverted f) (hbefore : continuesWord before = false) :
    replaceFrom (callInRadians f) 0 before p.text = (p.map (·.pass f)).text := by
  have hopen : continuesWord (some '(') = false := by decide
  have hclose : continuesWord (some ')') = false := by decide
  induction p generalizing before with
  | matched t =>
    have hend : Layout.Uncalled f [] := Layout.Closed.uncalled fun _ => nofun
    have hnone : callInRadians f none [] = none := hend none [] ⟨nofun, nofun⟩
    have ht := Layout.replaceFrom_text (hbare t (by simp [layouts])) (hfree t (by simp [layouts]))
      hbefore hend
    simpa [text, map, replaceFrom, hnone] using ht
  | closing t rest ih =>
    simp only [layouts, List.forall_mem_cons] at hbare hfree
    have hend : Layout.Uncalled f (')' :: rest.text) := by
      refine Layout.Closed.uncalled fun c hc => ?_
      cases hc
      exact .inl rfl
    rw [text, Layout.replaceFrom_text hbare.1 hfree.1 hbefore hend, Layout.replaceFrom_cons (by decide),
      ih hp hbare.2 hfree.2 hclose]
    rfl
  | opening t rest ih =>
    simp only [layouts, List.forall_mem_cons] at hbare hfree
    have hend : Layout.Uncalled f ('(' :: rest.text) :=
      uncalled_opening (takeArgument_opens hp hbare.2 false)
    rw [text, Layout.replaceFrom_text hbare.1 hfree.1 hbefore hend, Layout.replaceFrom_cons (by decide),
      ih hp.unpaired hbare.2 hfree.2 hopen]
    rfl

/-- The replacements for several functions do to a text what the passes do to its layouts. -/
lemma foldl_replaceBy (hfs : fs.Nodup) (hp : p.Unpaired) (hbare : ∀ t ∈ p.layouts, t.All Bare)
    (hfree : ∀ f ∈ fs, ∀ t ∈ p.layouts, t.Unconverted f) :
    fs.foldl (fun s f => replaceBy (callInRadians f) s) p.text = (p.map (·.passes fs)).text := by
  induction fs generalizing p with
  | nil => exact (congrArg text (map_eq_self fun _ _ => rfl)).symm
  | cons f fs ih =>
    obtain ⟨hf, hfs⟩ := List.nodup_cons.1 hfs
    have hpass : replaceBy (callInRadians f) p.text = (p.map (·.pass f)).text :=
      replaceFrom_outline hp hbare (hfree f (by simp)) rfl
    rw [List.foldl_cons, hpass, ih hfs (unpaired_map.2 hp), map_map]
    · rfl
    · rw [layouts_map, List.forall_mem_map]
      exact fun t ht => Layout.all_pass.2 (hbare t ht)
    · intro g hg
      rw [layouts_map, List.forall_mem_map]
      have hne : f ≠ g := by
        rintro rfl
        exact hf hg
      exact fun t ht => (hfree g (by simp [hg]) t ht).pass hne

/--
The conversion from degrees converts the contents of some pairs of matching parentheses, each of
them once, and each right behind the name of a trigonometric function that is a word of its own;
without the conversions the text is what it was. Outside of what is converted, every such pair with
contents that have no parentheses is.
-/
theorem inRadians_marks_calls (s : List Char) :
    ∃ p : Outline, p.text = inRadians s ∧ (p.map Layout.erase).text = s ∧ p.Unpaired ∧
      ∀ t ∈ p.layouts, t.All Bare ∧ t.MarksCalls ∧ t.MarksPlainCalls := by
  have hlayouts := layouts_ofText s
  refine ⟨(ofText s).map Layout.radians, ?_, ?_, unpaired_map.2 (unpaired_ofText s), ?_⟩
  · have hfree : ∀ f ∈ Function.trigonometric, ∀ t ∈ (ofText s).layouts, t.Unconverted f := by
      intro f _ t ht
      rw [← (hlayouts t ht).1]
      exact Layout.unconverted_erase f t
    have hfold := foldl_replaceBy (by decide) (unpaired_ofText s) (fun t ht => (hlayouts t ht).2) hfree
    rw [text_ofText] at hfold
    exact hfold.symm
  · rw [map_map, map_eq_self, text_ofText]
    intro t ht
    rw [Layout.radians, Layout.erase_passes, (hlayouts t ht).1]
  · rw [layouts_map, List.forall_mem_map]
    intro t ht
    obtain ⟨herase, hbare⟩ := hlayouts t ht
    exact ⟨(Layout.all_passes _).2 hbare,
      (Layout.marksCalls_of_erase herase).passes (List.Subset.refl _),
      Layout.marksPlainCalls_radians herase⟩

/-- Of nested calls one is converted; a call that is not closed, and `atan2`, are left as they are. -/
example : inRadians "tan(cos(x) - sin(y)) + sin(atan2(z, 1)".toList =
    "tan(cos((x) * pi / 180) - sin((y) * pi / 180)) + sin(atan2(z, 1)".toList := by
  decide +kernel

end Outline
end Formulary.Formula
