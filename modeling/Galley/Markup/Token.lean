import Galley.Scan
import Galley.Text.Blank

/-!
# Markup tokens

The few tokens of a document that bear on its length. An escaped sign is a token as well, so that
its second character cannot take part in another one.
-/

namespace Galley.Markup

inductive Mark where
  | beginEnv (name : String)
  | endEnv (name : String)
  | lineBreak
  | doubleDollar
  | bracketOpen
  | bracketClose
  deriving DecidableEq, Repr

inductive Token where
  | mark (mark : Mark)
  | escaped
  deriving DecidableEq, Repr

def isNameChar (c : Char) : Bool :=
  c != '{' && c != '}'

/-- A name in braces after any amount of white space, and the number of characters read. The
name may hold anything but braces and is taken without the white space at its borders. -/
def bracedName? (cs : List Char) : Option (String × Nat) :=
  let blanks := cs.takeWhile Text.isBlank
  match cs.dropWhile Text.isBlank with
  | '{' :: rest =>
    let name := rest.takeWhile isNameChar
    match rest.dropWhile isNameChar with
    | '}' :: _ => some (String.ofList (Text.trim name), blanks.length + name.length + 2)
    | _ => none
  | _ => none

/-- The token at the front of a text, and its length. -/
def Token.read : Reader Char Token
  | '\\' :: '\\' :: _ => some (.mark .lineBreak, 2)
  | '\\' :: '$' :: _ => some (.escaped, 2)
  | '\\' :: '%' :: _ => some (.escaped, 2)
  | '\\' :: '[' :: _ => some (.mark .bracketOpen, 2)
  | '\\' :: ']' :: _ => some (.mark .bracketClose, 2)
  | '\\' :: 'b' :: 'e' :: 'g' :: 'i' :: 'n' :: cs =>
    (bracedName? cs).map fun (name, length) => (.mark (.beginEnv name), length + 6)
  | '\\' :: 'e' :: 'n' :: 'd' :: cs =>
    (bracedName? cs).map fun (name, length) => (.mark (.endEnv name), length + 4)
  | '$' :: '$' :: _ => some (.mark .doubleDollar, 2)
  | _ => none

/-- The tokens of a text, each with its position and length. -/
def tokens (text : String) : List (Occurrence Token) :=
  occurrences Token.read text.toList

end Galley.Markup
