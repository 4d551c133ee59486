import Galley.Markup.Event

/-! # Figures of a document -/

namespace Galley

open Galley.Markup

/-- How much of the page's width a figure takes. A mode that the length guide does not know keeps
its label. -/
inductive ColumnMode where
  | single
  | double
  | other (label : String)
  deriving DecidableEq, Repr

/-- The opening of a figure, numbered from 0 in document order. -/
structure Figure where
  index : Nat
  columnMode : ColumnMode
  position : Nat
  deriving DecidableEq, Repr

/-- The starred environment spans both columns. -/
def ColumnMode.ofMark? : Mark → Option ColumnMode
  | .beginEnv "figure" => some .single
  | .beginEnv "figure*" => some .double
  | _ => none

def Figure.ofEvents (events : List Event) : List Figure :=
  let openings := events.filterMap fun event =>
    (ColumnMode.ofMark? event.mark).map fun mode => (mode, event.position)
  openings.zipIdx.map fun ((mode, position), index) => ⟨index, mode, position⟩

/-- Every figure that a document opens, closed or not. -/
def Figure.list (source : String) : List Figure :=
  Figure.ofEvents (events source)

end Galley
