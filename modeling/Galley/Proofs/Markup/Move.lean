import Galley.Markup.Region
import Galley.Proofs.Leftmost

/-! # Events at other positions -/

namespace Galley

namespace Markup

def Event.move (place : Nat → Nat) (event : Event) : Event :=
  { event with position := place event.position }

variable {κ : Type}

def Region.move (place : Nat → Nat) (region : Region κ) : Region κ :=
  ⟨region.label, region.opening.move place, region.inside.map (Event.move place),
    region.closing.move place⟩

theorem Region.read_map_move (delimiter : Delimiter κ) (place : Nat → Nat) (events : List Event) :
    Region.read delimiter (events.map (Event.move place)) =
      (Region.read delimiter events).map fun (region, length) => (region.move place, length) := by
  cases events with
  | nil => rfl
  | cons opening rest =>
      have hopens : delimiter (opening.move place).mark = delimiter opening.mark := rfl
      cases hdelimiter : delimiter opening.mark with
      | none => simp [Region.read, hopens, hdelimiter]
      | some found =>
          obtain ⟨label, closer⟩ := found
          have hinside : (rest.map (Event.move place)).takeWhile (·.mark != closer) =
              (rest.takeWhile (·.mark != closer)).map (Event.move place) := by
            rw [List.takeWhile_map]
            rfl
          simp [Region.read, hopens, hdelimiter, hinside]
          cases rest[(rest.takeWhile (·.mark != closer)).length]? <;> rfl

/-- Regions go by the marks of the events and not by their positions. -/
theorem regions_map_move (delimiter : Delimiter κ) (place : Nat → Nat) (events : List Event) :
    regions delimiter (events.map (Event.move place)) =
      (regions delimiter events).map (Region.move place) :=
  readings_map (Region.read_map_move delimiter place) events

end Markup

end Galley
