import RequestLocale.Template.Error

/-! A message text as a row of pieces: single characters that are copied, and slots that may be
filled. A scan goes from left to right and takes a slot wherever one begins, so slots never
overlap; what is put into a slot is never scanned. -/
namespace RequestLocale.Template

inductive Piece (α : Type) where
  | plain (c : Char)
  | slot (label : α) (source : List Char)
  deriving DecidableEq, Repr

/-- What a piece looks like in the text. -/
def Piece.source {α : Type} : Piece α → List Char
  | .plain c => [c]
  | .slot _ source => source

/-- `slotAt` looks at a text from some place on and gives the label of a slot that begins there
with the number of characters that follow its first one. -/
def pieces {α : Type} (slotAt : List Char → Option (α × Nat)) : List Char → List (Piece α)
  | [] => []
  | c :: cs =>
    match slotAt (c :: cs) with
    | none => .plain c :: pieces slotAt cs
    | some (label, more) => .slot label (c :: cs.take more) :: pieces slotAt (cs.drop more)
  termination_by cs => cs.length
  decreasing_by all_goals simp only [List.length_cons, List.length_drop]; omega

/-- Fills each slot on its own; a slot that gets no text is copied. -/
def fill {α : Type} (textOf : α → Except FormatError (Option (List Char))) :
    List (Piece α) → Except FormatError (List Char)
  | [] => .ok []
  | .plain c :: ps => (fill textOf ps).map (c :: ·)
  | .slot label source :: ps => do
    let text ← textOf label
    let rest ← fill textOf ps
    return text.getD source ++ rest

end RequestLocale.Template
