/-!
# Paths

A path is a sequence of names between slashes. Empty names and single dots say nothing and are
dropped; two dots stay. A path with exactly two slashes in front keeps both.
-/

namespace Galley

/-- What a path starts from. -/
inductive Path.Anchor where
  | relative
  | root
  | doubleRoot
  deriving DecidableEq, Repr

structure Path where
  anchor : Path.Anchor
  names : List (List Char)
  deriving DecidableEq, Repr

namespace Path

def Anchor.ofSlashes : Nat → Anchor
  | 0 => .relative
  | 2 => .doubleRoot
  | _ => .root

def Anchor.chars : Anchor → List Char
  | .relative => []
  | .root => ['/']
  | .doubleRoot => ['/', '/']

def ofChars (cs : List Char) : Path :=
  ⟨.ofSlashes (cs.takeWhile (· == '/')).length,
    (cs.splitOn '/').filter fun name => !name.isEmpty && name != ['.']⟩

def ofString (text : String) : Path :=
  ofChars text.toList

/-- The path that leads nowhere is written as a dot. -/
def chars (p : Path) : List Char :=
  if p.anchor = .relative ∧ p.names = [] then ['.']
  else p.anchor.chars ++ ['/'].intercalate p.names

def text (p : Path) : String :=
  String.ofList p.chars

/-- The path without its last name. -/
def parent (p : Path) : Path :=
  { p with names := p.names.dropLast }

/-- The name up to its last dot, if that dot is neither its first nor its last character. -/
def stem? (name : List Char) : Option (List Char) :=
  let extension := (name.reverse.takeWhile (· != '.')).length
  let stem := name.take (name.length - extension - 1)
  if name.contains '.' && extension != 0 && !stem.isEmpty then some stem else none

/-- The path without the extension of its last name. -/
def withoutExtension (p : Path) : Path :=
  match p.names.getLast?.bind stem? with
  | some stem => { p with names := p.names.dropLast ++ [stem] }
  | none => p

/-- The path with an extension added to its last name, if it has one. -/
def addExtension? (p : Path) (extension : String) : Option Path :=
  p.names.getLast?.map fun name =>
    { p with names := p.names.dropLast ++ [name ++ extension.toList] }

end Path

end Galley
