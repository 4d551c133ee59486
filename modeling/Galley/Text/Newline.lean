/-! # Line ends -/

namespace Galley.Text

/-- Replaces a carriage return, and the line feed after it if there is one, by a line feed. -/
def unifyNewlines : List Char → List Char
  | [] => []
  | '\r' :: '\n' :: cs => '\n' :: unifyNewlines cs
  | c :: cs => (if c == '\r' then '\n' else c) :: unifyNewlines cs

end Galley.Text
