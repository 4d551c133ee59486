import Galley.Figure
import Galley.Markup.Event

/-! # Written documents

A document is put together from items and printed without anything between them.
-/

namespace Galley

/-- Running text. A comment reaches up to its line feed. -/
inductive Piece where
  | plain (text : List Char) (h : ∀ c ∈ text, c ≠ '\\' ∧ c ≠ '$' ∧ c ≠ '%')
  | percent
  | dollar
  | comment (body : List Char) (h : ∀ c ∈ body, c ≠ '\r' ∧ c ≠ '\n')

def Piece.print : Piece → List Char
  | .plain text _ => text
  | .percent => ['\\', '%']
  | .dollar => ['\\', '$']
  | .comment body _ => '%' :: (body ++ ['\n'])

/-- What is left of a piece without its comment. -/
def Piece.printStripped : Piece → List Char
  | .comment _ _ => ['\n']
  | piece => piece.print

inductive DisplayEnvironment where
  | equation
  | align
  | alignStarred
  | eqnarray

def DisplayEnvironment.name : DisplayEnvironment → String
  | .equation => "equation"
  | .align => "align"
  | .alignStarred => "align*"
  | .eqnarray => "eqnarray"

inductive Item where
  | piece (content : Piece)
  | display (environment : DisplayEnvironment) (rows : List (List Piece)) (h : rows ≠ [])
  | dollars (pieces : List Piece)
  | brackets (pieces : List Piece)
  | figure (starred : Bool) (pieces : List Piece)

def figureName (starred : Bool) : String :=
  if starred then "figure*" else "figure"

/-- A command with a name in braces. -/
def printCommand (command name : String) : List Char :=
  '\\' :: (command.toList ++ '{' :: (name.toList ++ ['}']))

/-- The text of an item whose pieces are printed by `print`. -/
def Item.printWith (print : Piece → List Char) : Item → List Char
  | .piece content => print content
  | .display environment rows _ =>
    printCommand "begin" environment.name ++
      List.intercalate ['\\', '\\'] (rows.map fun row => row.flatMap print) ++
      printCommand "end" environment.name
  | .dollars pieces => ['$', '$'] ++ pieces.flatMap print ++ ['$', '$']
  | .brackets pieces => ['\\', '['] ++ pieces.flatMap print ++ ['\\', ']']
  | .figure starred pieces =>
    printCommand "begin" (figureName starred) ++ pieces.flatMap print ++
      printCommand "end" (figureName starred)

/-- A name that stands for itself between braces. -/
def PlainName (name : String) : Prop :=
  ∀ c ∈ name.toList, c ≠ '\\' ∧ c ≠ '%' ∧ c ≠ '{' ∧ c ≠ '}' ∧ Text.isBlank c = false

theorem DisplayEnvironment.plainName (environment : DisplayEnvironment) :
    PlainName environment.name := by
  cases environment <;> simp [PlainName, name, Text.isBlank]

theorem plainName_figureName (starred : Bool) : PlainName (figureName starred) := by
  cases starred <;> simp [PlainName, figureName, Text.isBlank]

abbrev Document := List Item

def Document.print (document : Document) : String :=
  String.ofList (document.flatMap (Item.printWith Piece.print))

/-! ## What was written -/

def Item.rowCount : Item → Nat
  | .display _ rows _ => rows.length
  | _ => 0

def Item.isDollars : Item → Bool
  | .dollars _ => true
  | _ => false

def Item.isBrackets : Item → Bool
  | .brackets _ => true
  | _ => false

def Item.columnMode? : Item → Option ColumnMode
  | .figure starred _ => some (if starred then .double else .single)
  | _ => none

end Galley
