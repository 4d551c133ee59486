import Galley.Markup.Event

/-!
# Regions of a document

A region runs from an opening event to the first event after it that closes it. Regions of one
kind are looked for from left to right; an opening that nothing closes is passed over.
-/

namespace Galley.Markup

/-- A label, the event that opens the region, those strictly inside, and the one that closes
it. -/
structure Region (κ : Type) where
  label : κ
  opening : Event
  inside : List Event
  closing : Event
  deriving DecidableEq, Repr

/-- What a kind of region opens with: the label that an opening mark gives, and the mark that has
to close it. -/
abbrev Delimiter (κ : Type) := Mark → Option (κ × Mark)

variable {κ : Type}

/-- The region that begins with the first event. -/
def Region.read (delimiter : Delimiter κ) : Reader Event (Region κ)
  | [] => none
  | opening :: rest => do
    let (label, closer) ← delimiter opening.mark
    let inside := rest.takeWhile (·.mark != closer)
    let closing ← rest[inside.length]?
    return (⟨label, opening, inside, closing⟩, inside.length + 2)

/-- The regions of one kind, from left to right. -/
def regions (delimiter : Delimiter κ) (events : List Event) : List (Region κ) :=
  readings (Region.read delimiter) events

/-- An environment with one of the given names, closed by the next end of the same name. -/
def environments (names : List String) : Delimiter String
  | .beginEnv name => if names.contains name then some (name, .endEnv name) else none
  | _ => none

/-- What stands between two given marks. -/
def between (opener closer : Mark) : Delimiter Unit := fun mark =>
  if mark = opener then some ((), closer) else none

def dollars : Delimiter Unit := between .doubleDollar .doubleDollar

def brackets : Delimiter Unit := between .bracketOpen .bracketClose

end Galley.Markup
