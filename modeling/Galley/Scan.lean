/-!
# Leftmost readings

Tokens of a text, places in a log and blocks of a document are all found in the same way: walk
over a list from left to right, take the first thing that can be read, and go on behind it.
-/

namespace Galley

/-- Looks at the front of a list. A value that is read there comes with the number of elements
that it covers, which is at least one. -/
abbrev Reader (α β : Type) := List α → Option (β × Nat)

/-- A value and the elements of the list that it was read from. -/
structure Occurrence (β : Type) where
  position : Nat
  length : Nat
  value : β
  deriving DecidableEq, Repr

variable {α β : Type}

/-- The occurrences in the rest of a list that begins at `position`, where the first `covered`
elements belong to the occurrence before. -/
def occurrencesFrom (read : Reader α β) : Nat → Nat → List α → List (Occurrence β)
  | _, _, [] => []
  | position, covered + 1, _ :: rest => occurrencesFrom read (position + 1) covered rest
  | position, 0, a :: rest =>
    match read (a :: rest) with
    | none => occurrencesFrom read (position + 1) 0 rest
    | some (value, length) =>
      ⟨position, length, value⟩ :: occurrencesFrom read (position + 1) (length - 1) rest

/-- The leftmost occurrences that do not overlap. -/
def occurrences (read : Reader α β) (list : List α) : List (Occurrence β) :=
  occurrencesFrom read 0 0 list

/-- The values of the leftmost occurrences that do not overlap. -/
def readings (read : Reader α β) (list : List α) : List β :=
  (occurrences read list).map (·.value)

/-- Cuts a list at the first place where `mark` stands: what is before it, and what is after. -/
def splitAtFirst? [BEq α] (mark : List α) : List α → Option (List α × List α)
  | [] => if mark.isEmpty then some ([], []) else none
  | a :: rest =>
    match mark.isPrefixOf? (a :: rest) with
    | some after => some ([], after)
    | none => (splitAtFirst? mark rest).map fun (before, after) => (a :: before, after)

end Galley
