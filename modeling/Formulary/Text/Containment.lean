/-!
# Texts inside texts

Whether one text stands somewhere in another, in one piece (`holds_iff`).
-/

namespace Formulary.Text

/-- Whether a text holds another one in one piece. -/
def holds (part : List Char) : List Char → Bool
  | [] => part.isEmpty
  | c :: s => part.isPrefixOf (c :: s) || holds part s

/-- A text holds the texts that it has as infixes. -/
theorem holds_iff {part s : List Char} : holds part s = true ↔ part <:+: s := by
  induction s with
  | nil => simp [holds]
  | cons c s ih => simp [holds, ih, List.infix_cons_iff]

end Formulary.Text
