import Galley.Markup.Region

/-!
# Display mathematics

Displayed formulas are counted in typeset lines. An environment has one line more than it has
line breaks; a formula in double dollars or brackets is one line.
-/

namespace Galley.Display

open Galley.Markup

inductive Shape where
  | environment (name : String) (lineBreaks : Nat)
  | doubleDollar
  | bracket
  deriving DecidableEq, Repr

/-- A displayed formula, and the positions of the events that open and close it. -/
structure Block where
  shape : Shape
  start : Nat
  stop : Nat
  deriving DecidableEq, Repr

def Shape.lineBreaks : Shape → Nat
  | .environment _ lineBreaks => lineBreaks
  | .doubleDollar | .bracket => 0

def Block.lineCount (block : Block) : Nat :=
  match block.shape with
  | .environment _ lineBreaks => lineBreaks + 1
  | .doubleDollar | .bracket => 1

/-- The environments whose rows count as displayed lines. -/
def defaultEnvironments : List String := ["equation", "align", "align*", "eqnarray"]

/-- The formula that a region of the document makes. -/
def Block.ofRegion {κ : Type} (shape : Shape) (region : Region κ) : Block :=
  ⟨shape, region.opening.position, region.closing.position⟩

def Block.ofEnvironment (region : Region String) : Block :=
  let lineBreaks := region.inside.countP (·.mark == .lineBreak)
  ofRegion (.environment region.label lineBreaks) region

def environmentBlocks (names : List String) (events : List Event) : List Block :=
  (regions (environments names) events).map Block.ofEnvironment

/-- The formulas of one shape between two given marks. -/
def formulaBlocks (delimiter : Delimiter Unit) (shape : Shape) (events : List Event) : List Block :=
  (regions delimiter events).map (Block.ofRegion shape)

def dollarBlocks : List Event → List Block := formulaBlocks dollars .doubleDollar

def bracketBlocks : List Event → List Block := formulaBlocks brackets .bracket

/-- Three independent searches over the same events: environments, double dollars, brackets. -/
def blocks (names : List String) (events : List Event) : List Block :=
  environmentBlocks names events ++ dollarBlocks events ++ bracketBlocks events

/-- The number of displayed lines in a document without comments. -/
def countLines (names : List String) (source : String) : Nat :=
  (blocks names (events source)).foldr (fun block n => block.lineCount + n) 0

end Galley.Display
