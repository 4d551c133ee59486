/-!
# Comments

A percent sign opens a comment unless an odd number of backslashes stands right before it. The
comment ends before the next line end.
-/

namespace Galley.Comment

def isLineEnd (c : Char) : Bool :=
  c == '\n' || c == '\r'

/-- Where the next character stands: in text with an even or an odd number of backslashes right
before it, or in a comment. -/
inductive Place where
  | even
  | odd
  | comment
  deriving DecidableEq, Repr

def stripFrom : Place → List Char → List Char
  | _, [] => []
  | .comment, c :: cs => if isLineEnd c then c :: stripFrom .even cs else stripFrom .comment cs
  | .odd, c :: cs => c :: stripFrom .even cs
  | .even, c :: cs =>
    if c == '%' then stripFrom .comment cs
    else c :: stripFrom (if c == '\\' then .odd else .even) cs

/-- The text without its comments. Line ends stay. -/
def strip (text : String) : String :=
  String.ofList (stripFrom .even text.toList)

end Galley.Comment
