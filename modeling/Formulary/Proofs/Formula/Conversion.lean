import Formulary.Proofs.Formula.Spacing

/-!
# Conversion from degrees

One pass of the conversion marks the outermost calls of one function whose arguments are shallow
(`pass`), and does to the text of a layout what the replacement does (`replaceFrom_text`).
-/

namespace Formulary.Formula

open Formulary.Text

namespace Layout

/-- A layout after the conversion of the calls of one function. -/
def pass (f : Function) : Layout → Layout
  | plain w => plain w
  | paren m w i r =>
    if m = false ∧ calls f w ∧ i.text ≠ [] ∧ i.depth ≤ 1 then paren true w i (r.pass f)
    else paren m w (i.pass f) (r.pass f)

/-- No call of a function is converted. -/
def Unconverted (f : Function) : Layout → Prop
  | plain _ => True
  | paren m w i r => (m → calls f w = false) ∧ i.Unconverted f ∧ r.Unconverted f

variable {f g : Function} {t i r : Layout} {k u v w : List Char} {nested : Bool} {before : Option Char}

/-- A text without parentheses in front of an argument belongs to it. -/
lemma takeArgument_append (hw : Bare w) :
    takeArgument nested (w ++ k) = (takeArgument nested k).map fun (u, rest) => (w ++ u, rest) := by
  induction w with
  | nil => simp
  | cons c w ih =>
    simp only [Bare, List.mem_cons, not_or] at hw
    obtain ⟨⟨ho, hw1⟩, hc, hw2⟩ := hw
    rw [List.cons_append, takeArgument, if_neg (Ne.symm ho), if_neg (Ne.symm hc),
      ih ⟨hw1, hw2⟩, Option.map_map]
    rfl

/-- In nested parentheses, an argument goes on if nothing is nested any deeper. -/
lemma takeArgument_nested (ht : t.All Bare) :
    takeArgument true (t.text ++ ')' :: k) =
      if t.depth = 0 then (takeArgument false k).map fun (u, rest) => (t.text ++ ')' :: u, rest)
      else none := by
  cases t with
  | plain w =>
    rw [text, takeArgument_append ht, takeArgument]
    simp [depth, Function.comp_def]
  | paren m w i r =>
    have hdepth : (paren m w i r).depth ≠ 0 := by
      simp only [depth]
      omega
    rw [if_neg hdepth, text, List.append_assoc, takeArgument_append ht.1, List.cons_append,
      takeArgument]
    simp

/-- The argument of a call is what stands in its parentheses, unless they are nested too deeply. -/
lemma takeArgument_text (ht : t.All Bare) :
    takeArgument false (t.text ++ ')' :: k) = if t.depth ≤ 1 then some (t.text, k) else none := by
  induction t generalizing k with
  | plain w =>
    rw [text, takeArgument_append ht, takeArgument]
    simp [depth]
  | paren m w i r ihi ihr =>
    obtain ⟨hw, hi, hr⟩ := ht
    rw [text, List.append_assoc, takeArgument_append hw, List.cons_append, takeArgument]
    simp only [if_true, Bool.false_eq_true, if_false]
    cases m with
    | false =>
      simp only [wrap, Bool.false_eq_true, if_false, List.append_assoc, List.cons_append]
      rw [takeArgument_nested hi, ihr hr]
      by_cases h0 : i.depth = 0
      · by_cases h1 : r.depth ≤ 1
        · have : (paren false w i r).depth ≤ 1 := by simp [depth, h0, h1]
          simp [h0, h1, this]
        · have : ¬ (paren false w i r).depth ≤ 1 := by
            simp only [depth, Bool.toNat_false]
            omega
          simp [h0, h1, this]
      · have : ¬ (paren false w i r).depth ≤ 1 := by
          simp only [depth, Bool.toNat_false]
          omega
        simp [h0, this]
    | true =>
      -- a converted argument has a pair of its own, one level too deep for what is around it
      have : ¬ (paren true w i r).depth ≤ 1 := by
        simp only [depth, Bool.toNat_true]
        omega
      simp [wrap, takeArgument, this]

/-- Texts without parentheses before the first parenthesis of equal texts are equal. -/
lemma append_open_inj (hu : Bare u) (hv : Bare v) {x y : List Char}
    (h : u ++ '(' :: x = v ++ '(' :: y) : u = v ∧ x = y := by
  induction u generalizing v with
  | nil =>
    cases v with
    | nil => exact ⟨rfl, by simpa using h⟩
    | cons c v =>
      rw [List.nil_append, List.cons_append, List.cons.injEq] at h
      exact absurd (by simp [← h.1]) hv.1
  | cons c u ih =>
    cases v with
    | nil =>
      rw [List.nil_append, List.cons_append, List.cons.injEq] at h
      exact absurd (by simp [h.1]) hu.1
    | cons d v =>
      rw [List.cons_append, List.cons_append, List.cons.injEq] at h
      obtain ⟨rfl, h⟩ := h
      simp only [Bare, List.mem_cons, not_or] at hu hv
      obtain ⟨rfl, rfl⟩ := ih ⟨hu.1.2, hu.2.2⟩ ⟨hv.1.2, hv.2.2⟩ h
      exact ⟨rfl, rfl⟩

/-- The name of a function has no parentheses. -/
lemma bare_name (f : Function) : Bare f.name.toList :=
  ⟨fun h => absurd (name_letters f _ h) (by decide), fun h => absurd (name_letters f _ h) (by decide)⟩

/-- The conversion at a place that a parenthesis follows. -/
lemma callInRadians_open (hu : Bare u) :
    callInRadians f before (u ++ '(' :: k) =
      if continuesWord before = false ∧ u = f.name.toList then
        match takeArgument false k with
        | some (a@(_ :: _), _) =>
          some (f.name.toList ++ '(' :: '(' :: a ++ ") * pi / 180)".toList,
            f.name.toList.length + 1 + a.length + 1)
        | _ => none
      else none := by
  unfold callInRadians
  by_cases hbefore : continuesWord before
  · simp [hbefore]
  · by_cases hname : u = f.name.toList
    · subst hname
      have hdrop : dropPrefix? (f.name.toList ++ ['(']) (f.name.toList ++ '(' :: k) = some k :=
        dropPrefix?_eq_some.2 (by simp)
      simp only [hbefore, hdrop, Option.bind_some, Bool.false_eq_true, if_false, and_self,
        if_true]
      obtain _ | ⟨_ | ⟨d, a⟩, rest⟩ := takeArgument false k
      · rfl
      · rfl
      · simp
    · have hdrop : dropPrefix? (f.name.toList ++ ['(']) (u ++ '(' :: k) = none := by
        cases h : dropPrefix? (f.name.toList ++ ['(']) (u ++ '(' :: k) with
        | none => rfl
        | some rest =>
          rw [dropPrefix?_eq_some, List.append_assoc] at h
          exact absurd (append_open_inj hu (bare_name f) h).1 hname
      simp [hbefore, hdrop, hname]

/-- A text begins where no call can go on. -/
def Closed (k : List Char) : Prop := ∀ c ∈ k.head?, c = ')' ∨ c = '='

/-- There is no conversion where no parenthesis follows. -/
lemma callInRadians_closed (hu : Bare u) (hk : Closed k) :
    callInRadians f before (u ++ k) = none := by
  unfold callInRadians
  split
  · rfl
  · have hdrop : dropPrefix? (f.name.toList ++ ['(']) (u ++ k) = none := by
      cases h : dropPrefix? (f.name.toList ++ ['(']) (u ++ k) with
      | none => rfl
      | some rest =>
        have hopen : k.head? ≠ some '(' := fun h => by
          obtain h | h := hk _ h <;> cases h
        rw [dropPrefix?_eq_some, List.append_assoc, List.singleton_append] at h
        obtain ⟨x, hx, hrest⟩ | ⟨x, hx, hrest⟩ := List.append_eq_append_iff.1 h
        · cases x with
          | nil => exact absurd (by simp [hrest]) hopen
          | cons c x =>
            have hc := hk c (by simp [hrest])
            have hword := name_letters f c (by simp [hx])
            obtain rfl | rfl := hc <;> exact absurd hword (by decide)
        · cases x with
          | nil => exact absurd (by rw [List.nil_append] at hrest; simp [← hrest]) hopen
          | cons c x =>
            rw [List.cons_append, List.cons.injEq] at hrest
            exact absurd (by simp [hx, ← hrest.1]) hu.1
    simp [hdrop]

/-- A replacement passes over a text at no place of which it applies. -/
lemma replaceFrom_pass {rule : Rule}
    (h : ∀ v u, w = v ++ u → u ≠ [] → rule (v.getLast?.or before) (u ++ k) = none) :
    replaceFrom rule 0 before (w ++ k) = w ++ replaceFrom rule 0 (w.getLast?.or before) k := by
  induction w generalizing before with
  | nil => rfl
  | cons c w ih =>
    have hlast : ∀ v : List Char, v.getLast?.or (some c) = (c :: v).getLast?.or before := by
      intro v
      cases v <;> simp [List.getLast?_cons]
    have hc : rule before (c :: (w ++ k)) = none := h [] (c :: w) rfl (List.cons_ne_nil c w)
    rw [List.cons_append, replaceFrom, hc]
    simp only
    rw [ih fun v u hw hu => ?_, hlast, List.cons_append]
    rw [hlast]
    exact h (c :: v) u (by rw [hw, List.cons_append]) hu

/-- Nothing is converted at a character that begins no name. -/
lemma replaceFrom_cons {c : Char} (hc : isWord c = false) :
    replaceFrom (callInRadians f) 0 before (c :: k) =
      c :: replaceFrom (callInRadians f) 0 (some c) k := by
  have hnone : callInRadians f before (c :: k) = none := by
    unfold callInRadians
    split
    · rfl
    · cases hname : f.name.toList with
      | nil => exact absurd hname (name_ne_nil f)
      | cons d l =>
        have hd : d ≠ c := by
          rintro rfl
          rw [name_letters f d (by simp [hname])] at hc
          cases hc
        simp [dropPrefix?, hd]
  rw [replaceFrom, hnone]

/-- What continues a word is the last character before it. -/
lemma continuesWord_or (hbefore : continuesWord before = false) :
    continuesWord (u.getLast?.or before) = continuesWord u.getLast? := by
  cases u.getLast? with
  | none => exact hbefore
  | some c => rfl

/-- Without a call before it, a parenthesis is passed over. -/
lemma replaceFrom_open_of_not_calls (hw : Bare w) (hbefore : continuesWord before = false)
    (h : calls f w → takeArgument false k = none ∨ ∃ r, takeArgument false k = some ([], r)) :
    replaceFrom (callInRadians f) 0 before (w ++ '(' :: k) =
      w ++ '(' :: replaceFrom (callInRadians f) 0 (some '(') k := by
  rw [replaceFrom_pass, replaceFrom_cons (by decide)]
  rintro v u rfl hu
  rw [callInRadians_open hw.append_right, continuesWord_or hbefore]
  split
  · rename_i hcall
    obtain hnone | ⟨r, hempty⟩ := h (calls_iff.2 ⟨v, by rw [hcall.2], hcall.1⟩)
    · rw [hnone]
    · rw [hempty]
  · rfl

/-- A call with a shallow argument is converted. -/
lemma replaceFrom_open_of_calls (hw : Bare w) (hbefore : continuesWord before = false)
    (hcalls : calls f w) {a : List Char} (ha : a ≠ [])
    (hargument : takeArgument false (a ++ ')' :: k) = some (a, k)) :
    replaceFrom (callInRadians f) 0 before (w ++ '(' :: (a ++ ')' :: k)) =
      w ++ '(' :: (wrap true a ++ ')' :: replaceFrom (callInRadians f) 0 (some ')') k) := by
  obtain ⟨u, rfl, hu⟩ := calls_iff.1 hcalls
  rw [List.append_assoc, replaceFrom_pass]
  · -- The rule applies at the name of the function, and what it has replaced is skipped.
    have hrule : callInRadians f (u.getLast?.or before) (f.name.toList ++ '(' :: (a ++ ')' :: k)) =
        some (f.name.toList ++ '(' :: '(' :: a ++ ") * pi / 180)".toList,
          f.name.toList.length + 1 + a.length + 1) := by
      rw [callInRadians_open (bare_name f), continuesWord_or hbefore, if_pos ⟨hu, rfl⟩, hargument]
      cases a with
      | nil => exact absurd rfl ha
      | cons d a => rfl
    cases hname : f.name.toList with
    | nil => exact absurd hname (name_ne_nil f)
    | cons c l =>
      rw [hname] at hrule
      have hskip : replaceFrom (callInRadians f) (l ++ '(' :: (a ++ [')'])).length (some c)
          (l ++ '(' :: (a ++ [')']) ++ k) = replaceFrom (callInRadians f) 0
            ((l ++ '(' :: (a ++ [')'])).getLast?.or (some c)) k := replaceFrom_skip
      have hlength : (c :: l).length + 1 + a.length + 1 = (l ++ '(' :: (a ++ [')'])).length + 1 := by
        simp only [List.length_append, List.length_cons, List.length_nil]
        omega
      have hlast : (l ++ '(' :: (a ++ [')'])).getLast?.or (some c) = some ')' := by
        rw [show l ++ '(' :: (a ++ [')']) = (l ++ '(' :: a) ++ [')'] by simp, List.getLast?_concat]
        rfl
      rw [hlast] at hskip
      rw [hlength] at hrule
      simp only [List.cons_append] at hrule ⊢
      rw [replaceFrom, hrule]
      simp only [List.append_assoc, List.cons_append, List.nil_append] at hskip ⊢
      rw [hskip]
      simp [wrap]
  · rintro v x rfl hx
    rw [← List.append_assoc, callInRadians_open (hw.append_left.append_right.append (bare_name f)),
      if_neg]
    rintro ⟨-, hxname⟩
    exact hx (by simpa using hxname)

/-- No call of a function reaches from a text without parentheses into a text that follows it. -/
def Uncalled (f : Function) (k : List Char) : Prop :=
  ∀ before u, Bare u → callInRadians f before (u ++ k) = none

/-- No call goes on where a text is closed. -/
lemma Closed.uncalled (hk : Closed k) : Uncalled f k := fun _ _ hu => callInRadians_closed hu hk

/-- A text without parentheses is copied where no call goes on behind it. -/
lemma replaceFrom_uncalled (hw : Bare w) (hk : Uncalled f k) :
    replaceFrom (callInRadians f) 0 before (w ++ k) =
      w ++ replaceFrom (callInRadians f) 0 none k := by
  have hnone : ∀ b, callInRadians f b k = none := fun b => hk b [] ⟨nofun, nofun⟩
  have hstart : ∀ b b', replaceFrom (callInRadians f) 0 b k =
      replaceFrom (callInRadians f) 0 b' k := by
    intro b b'
    cases k <;> simp [replaceFrom, hnone]
  rw [replaceFrom_pass, hstart]
  rintro v u rfl -
  exact hk _ _ hw.append_right

/-- The factor of a conversion has no parentheses. -/
lemma bare_conversion : Bare " * pi / 180".toList := by
  unfold Bare
  decide

/-- A replacement does to the text of a layout what a pass does to the layout. -/
theorem replaceFrom_text (ht : t.All Bare) (hfree : t.Unconverted f)
    (hbefore : continuesWord before = false) (hk : Uncalled f k) :
    replaceFrom (callInRadians f) 0 before (t.text ++ k) =
      (t.pass f).text ++ replaceFrom (callInRadians f) 0 none k := by
  induction t generalizing before k with
  | plain w => exact replaceFrom_uncalled ht hk
  | paren m w i r ihi ihr =>
    obtain ⟨hw, hi, hr⟩ := ht
    obtain ⟨hm, hfi, hfr⟩ := hfree
    have hopen : continuesWord (some '(') = false := by decide
    have hclose : continuesWord (some ')') = false := by decide
    have hclosed : ∀ s, Uncalled f (')' :: s) := by
      intro s
      refine Closed.uncalled fun c hc => ?_
      cases hc
      exact .inl rfl
    -- After the contents of the pair, its end and the rest are replaced in the same way.
    have hrest : replaceFrom (callInRadians f) 0 none (')' :: (r.text ++ k)) =
        ')' :: ((r.pass f).text ++ replaceFrom (callInRadians f) 0 none k) := by
      rw [replaceFrom_cons (by decide), ihr hr hfr hclose hk]
    cases m with
    | false =>
      have htext : ∀ w (i r : Layout), (paren false w i r).text ++ k =
          w ++ '(' :: (i.text ++ ')' :: (r.text ++ k)) := fun w i r => by simp [text, wrap]
      by_cases hcall : calls f w ∧ i.text ≠ [] ∧ i.depth ≤ 1
      · obtain ⟨hcalls, hne, hdepth⟩ := hcall
        have hargument : takeArgument false (i.text ++ ')' :: (r.text ++ k)) =
            some (i.text, r.text ++ k) := by
          rw [takeArgument_text hi, if_pos hdepth]
        rw [htext, replaceFrom_open_of_calls hw hbefore hcalls hne hargument, ihr hr hfr hclose hk,
          pass, if_pos ⟨rfl, hcalls, hne, hdepth⟩]
        simp [text]
      · rw [htext, replaceFrom_open_of_not_calls hw hbefore fun hcalls => ?_,
          ihi hi hfi hopen (hclosed _), hrest, pass, if_neg fun h => hcall h.2]
        · simp [text, wrap]
        · rw [takeArgument_text hi]
          split
          · rename_i hdepth
            have hempty : i.text = [] := by
              by_contra hne
              exact hcall ⟨hcalls, hne, hdepth⟩
            exact .inr ⟨_, by rw [hempty]⟩
          · exact .inl rfl
    | true =>
      have htext : ∀ w (i r : Layout), (paren true w i r).text ++ k = w ++ '(' :: ('(' :: (i.text ++
          ')' :: (" * pi / 180".toList ++ ')' :: (r.text ++ k)))) := fun w i r => by
        simp [text, wrap]
      rw [htext, replaceFrom_open_of_not_calls hw hbefore fun hcalls => ?_,
        replaceFrom_cons (by decide), ihi hi hfi hopen (hclosed _), replaceFrom_cons (by decide),
        replaceFrom_uncalled bare_conversion (hclosed _), hrest, pass, if_neg (by simp)]
      · simp [text, wrap]
      · rw [hm rfl] at hcalls
        cases hcalls

/-- A layout after the conversion of the calls of several functions, one after the other. -/
def passes (fs : List Function) (t : Layout) : Layout := fs.foldl (fun t f => t.pass f) t

/-- A layout after the conversion of all calls. -/
def radians (t : Layout) : Layout := t.passes Function.trigonometric

/-- A pass over a layout keeps the properties of its segments. -/
lemma all_pass {P : List Char → Prop} : (t.pass f).All P ↔ t.All P := by
  induction t with
  | plain w => rfl
  | paren m w i r ihi ihr =>
    simp only [pass]
    split
    · simp only [All, ihr]
    · simp only [All, ihi, ihr]

/-- A pass over a layout changes its marks only. -/
lemma erase_pass : (t.pass f).erase = t.erase := by
  induction t with
  | plain w => rfl
  | paren m w i r ihi ihr =>
    simp only [pass]
    split
    · simp only [erase, ihr]
    · simp only [erase, ihi, ihr]

/-- A layout without marks has nothing converted. -/
lemma unconverted_erase (f : Function) (t : Layout) : t.erase.Unconverted f := by
  induction t with
  | plain w => trivial
  | paren m w i r ihi ihr => exact ⟨nofun, ihi, ihr⟩

/-- A pass for one function converts no calls of another one. -/
lemma Unconverted.pass (h : t.Unconverted g) (hfg : f ≠ g) : (t.pass f).Unconverted g := by
  induction t with
  | plain w => trivial
  | paren m w i r ihi ihr =>
    obtain ⟨hm, hi, hr⟩ := h
    simp only [Layout.pass]
    split
    · rename_i hcall
      refine ⟨fun _ => ?_, hi, ihr hr⟩
      by_contra hg
      exact hfg (calls_unique hcall.2.1 (by simpa using hg))
    · exact ⟨hm, ihi hi, ihr hr⟩

/-- The passes for some functions begin with that for the first one. -/
lemma passes_cons (f : Function) (fs : List Function) (t : Layout) :
    t.passes (f :: fs) = (t.pass f).passes fs := rfl

/-- The passes for some functions are made one after the other. -/
lemma passes_append (fs gs : List Function) (t : Layout) :
    t.passes (fs ++ gs) = (t.passes fs).passes gs := List.foldl_append

/-- Passes over a layout change its marks only. -/
lemma erase_passes (fs : List Function) (t : Layout) : (t.passes fs).erase = t.erase := by
  induction fs generalizing t with
  | nil => rfl
  | cons f fs ih => rw [passes_cons, ih, erase_pass]

/-- Passes over a layout keep the properties of its segments. -/
lemma all_passes {P : List Char → Prop} (fs : List Function) : (t.passes fs).All P ↔ t.All P := by
  induction fs generalizing t with
  | nil => rfl
  | cons f fs ih => rw [passes_cons, ih, all_pass]

/-- The replacements for several functions do to two sides what the passes do. -/
lemma foldl_replaceBy {l r : Layout} {fs : List Function} (hfs : fs.Nodup) (hl : l.All Bare)
    (hr : r.All Bare) (hlfree : ∀ f ∈ fs, l.Unconverted f) (hrfree : ∀ f ∈ fs, r.Unconverted f) :
    fs.foldl (fun s f => replaceBy (callInRadians f) s) (l.text ++ '=' :: r.text) =
      (l.passes fs).text ++ '=' :: (r.passes fs).text := by
  induction fs generalizing l r with
  | nil => rfl
  | cons f fs ih =>
    obtain ⟨hf, hfs⟩ := List.nodup_cons.1 hfs
    have hequals : Closed ('=' :: r.text) := by
      intro c hc
      cases hc
      exact .inr rfl
    have hright : replaceFrom (callInRadians f) 0 (some '=') (r.text ++ []) =
        (r.pass f).text ++ replaceFrom (callInRadians f) 0 none [] :=
      replaceFrom_text hr (hrfree f (by simp)) (by decide) (Closed.uncalled fun _ => nofun)
    rw [List.append_nil] at hright
    have hend : replaceFrom (callInRadians f) 0 none [] = [] := by
      have hnone : callInRadians f none [] = none :=
        @callInRadians_closed f [] [] none ⟨nofun, nofun⟩ (fun _ => nofun)
      simp [replaceFrom, hnone]
    have hpass : replaceBy (callInRadians f) (l.text ++ '=' :: r.text) =
        (l.pass f).text ++ '=' :: (r.pass f).text := by
      rw [replaceBy, replaceFrom_text hl (hlfree f (by simp)) rfl hequals.uncalled,
        replaceFrom_cons (by decide), hright, hend, List.append_nil]
    have hne : ∀ g ∈ fs, f ≠ g := by
      rintro g hg rfl
      exact hf hg
    rw [List.foldl_cons, hpass, passes_cons, passes_cons]
    exact ih hfs (all_pass.2 hl) (all_pass.2 hr)
      (fun g hg => (hlfree g (by simp [hg])).pass (hne g hg))
      (fun g hg => (hrfree g (by simp [hg])).pass (hne g hg))

/-- The conversion marks calls on both sides of an equals sign. -/
theorem inRadians_text {l r : Layout} (hl : l.All Bare) (hr : r.All Bare) (hle : l.erase = l)
    (hre : r.erase = r) :
    inRadians (l.text ++ '=' :: r.text) = l.radians.text ++ '=' :: r.radians.text := by
  refine foldl_replaceBy (by decide) hl hr (fun f _ => ?_) (fun f _ => ?_)
  · rw [← hle]
    exact unconverted_erase f l
  · rw [← hre]
    exact unconverted_erase f r

end Layout
end Formulary.Formula
