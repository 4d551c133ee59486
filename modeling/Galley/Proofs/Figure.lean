import Galley.Figure
import Galley.Proofs.Markup.Move

/-! # Figures in the order of their openings -/

namespace Galley

open Markup

/-- The modes and positions of the figures that some events open. -/
def figureOpenings (events : List Event) : List (ColumnMode × Nat) :=
  events.filterMap fun event =>
    (ColumnMode.ofMark? event.mark).map fun mode => (mode, event.position)

theorem map_columnMode_ofEvents (events : List Event) :
    (Figure.ofEvents events).map (·.columnMode) =
      (events.map (·.mark)).filterMap ColumnMode.ofMark? := by
  calc
    (Figure.ofEvents events).map (·.columnMode) =
        ((figureOpenings events).zipIdx.map Prod.fst).map Prod.fst := by
      rw [Figure.ofEvents, List.map_map, List.map_map]
      rfl
    _ = (figureOpenings events).map Prod.fst := by rw [List.zipIdx_map_fst]
    _ = (events.map (·.mark)).filterMap ColumnMode.ofMark? := by
      rw [figureOpenings, List.map_filterMap, List.filterMap_map]
      congr 1
      funext event
      rw [Option.map_map]
      exact Option.map_id' ..

theorem map_index_ofEvents (events : List Event) :
    (Figure.ofEvents events).map (·.index) = List.range (Figure.ofEvents events).length := by
  have hlength : (Figure.ofEvents events).length = (figureOpenings events).length := by
    rw [Figure.ofEvents, List.length_map, List.length_zipIdx]
    rfl
  calc
    (Figure.ofEvents events).map (·.index) = (figureOpenings events).zipIdx.map Prod.snd := by
      rw [Figure.ofEvents, List.map_map]
      rfl
    _ = List.range (Figure.ofEvents events).length := by
      rw [List.zipIdx_map_snd, hlength, List.range_eq_range']

/-- Where the events stand has no influence on the figures but for their positions. -/
theorem Figure.ofEvents_map_move (place : Nat → Nat) (events : List Event) :
    Figure.ofEvents (events.map (Event.move place)) =
      (Figure.ofEvents events).map fun figure =>
        { figure with position := place figure.position } := by
  have hfigures : ∀ events, Figure.ofEvents events = (figureOpenings events).zipIdx.map
      fun opening => ⟨opening.2, opening.1.1, opening.1.2⟩ := fun _ => rfl
  have hopenings : figureOpenings (events.map (Event.move place)) =
      (figureOpenings events).map (Prod.map id place) := by
    rw [figureOpenings, List.filterMap_map, figureOpenings, List.map_filterMap]
    congr 1
    funext event
    rw [Option.map_map]
    rfl
  rw [hfigures, hfigures, hopenings, List.zipIdx_map, List.map_map, List.map_map]
  rfl

/-- The events that begin a figure, of one column or of two. -/
def figureEvents (source : String) : List Event :=
  (events source).filter fun event =>
    event.mark = .beginEnv "figure" ∨ event.mark = .beginEnv "figure*"

/-- Of the marks that begin a figure, the starred one begins it across both columns. -/
def ColumnMode.ofStar (mark : Mark) : ColumnMode :=
  if mark = .beginEnv "figure*" then .double else .single

theorem ColumnMode.ofMark?_eq (mark : Mark) :
    ofMark? mark =
      if mark = .beginEnv "figure" ∨ mark = .beginEnv "figure*" then some (ofStar mark)
      else none := by
  unfold ofMark? ofStar
  split
  · rfl
  · rfl
  next hsingle hdouble => rw [if_neg (not_or.mpr ⟨hsingle, hdouble⟩)]

theorem Figure.map_columnMode_list (source : String) :
    (Figure.list source).map (·.columnMode) =
      (figureEvents source).map (ColumnMode.ofStar ·.mark) := by
  rw [Figure.list, map_columnMode_ofEvents, figureEvents]
  induction events source with
  | nil => rfl
  | cons event rest ih =>
      rw [List.map_cons, List.filterMap_cons, ColumnMode.ofMark?_eq, List.filter_cons]
      by_cases hfigure : event.mark = .beginEnv "figure" ∨ event.mark = .beginEnv "figure*"
      · simp [hfigure, ih]
      · simp [hfigure, ih]

theorem Figure.length_list (source : String) :
    (Figure.list source).length = (figureEvents source).length := by
  simpa using congrArg List.length (map_columnMode_list source)

end Galley
