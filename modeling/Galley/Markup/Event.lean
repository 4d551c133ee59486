import Galley.Markup.Token

/-! # Markup events -/

namespace Galley.Markup

/-- A mark at the position of its first character. -/
structure Event where
  mark : Mark
  position : Nat
  deriving DecidableEq, Repr

/-- An escaped sign is no event. -/
def Event.ofToken? (token : Occurrence Token) : Option Event :=
  match token.value with
  | .mark mark => some ⟨mark, token.position⟩
  | .escaped => none

/-- The events of a text in order. -/
def events (text : String) : List Event :=
  (tokens text).filterMap Event.ofToken?

end Galley.Markup
