import Galley.Proofs.Display.Lines
import Galley.Proofs.Figure
import Galley.Proofs.Markup.Blank

/-! # White space put into a text -/

namespace Galley

open Markup

/-- Where an event stands after `length` characters have been put in at `cut`. -/
def placeAfterInsert (cut length position : Nat) : Nat :=
  if cut ≤ position then position + length else position

/-- White space at a clean cut makes no event and takes none away. -/
theorem events_insert {front back blanks : String}
    (hcut : CleanCut Token.read Token.Written front.toList back.toList)
    (hblanks : ∀ c ∈ blanks.toList, Text.isBlank c = true) :
    events (front ++ blanks ++ back) =
      (events (front ++ back)).map
        (Event.move (placeAfterInsert front.length blanks.length)) := by
  have hnone : events blanks = [] := by
    rw [events, tokens, occurrences_blanks hblanks]
    rfl
  have hbehind : events (blanks ++ back) = (events back).map (Event.move (blanks.length + ·)) := by
    rw [events_append (cleanCut_blanks hblanks back.toList), hnone, List.nil_append]
  have hfront : (events front).map (Event.move (placeAfterInsert front.length blanks.length)) =
      events front := by
    refine (List.map_congr_left ?_).trans (List.map_id _)
    intro event hevent
    have hlt := position_lt_of_mem_events hevent
    simp [Event.move, placeAfterInsert, Nat.not_le_of_lt hlt]
  have hwhole : CleanCut Token.read Token.Written front.toList (blanks ++ back).toList := by
    rw [String.toList_append]
    exact cleanCut_insert_blanks hcut hblanks
  rw [String.append_assoc, events_append hwhole, hbehind, events_append hcut, List.map_append,
    hfront, List.map_map, List.map_map]
  congr 2
  funext event
  simp [Event.move, placeAfterInsert]
  omega

/-- White space between the tokens of a text, even where a begin or an end could not be read,
changes nothing but the positions behind it: not the events, and so neither the displayed lines
nor the figures. -/
theorem counts_insert_blanks {front back blanks : String}
    (hcut : ∀ token ∈ tokens (front ++ back),
      ¬ (token.position < front.length ∧ front.length < token.stop))
    (hblanks : ∀ c ∈ blanks.toList, Text.isBlank c = true) :
    events (front ++ blanks ++ back) =
        (events (front ++ back)).map
          (Event.move (placeAfterInsert front.length blanks.length)) ∧
      (∀ names, Display.countLines names (front ++ blanks ++ back) =
        Display.countLines names (front ++ back)) ∧
      (Figure.list (front ++ blanks ++ back)).map
          (fun figure => (figure.index, figure.columnMode)) =
        (Figure.list (front ++ back)).map fun figure => (figure.index, figure.columnMode) := by
  have hclean : CleanCut Token.read Token.Written front.toList back.toList := by
    apply cleanCut_of_occurrences Token.read_decides
    rw [← String.toList_append, String.length_toList]
    exact hcut
  have hevents := events_insert hclean hblanks
  refine ⟨hevents, ?_, ?_⟩
  · intro names
    rw [Display.countLines_eq_linesOf, hevents, Display.linesOf_map_move,
      Display.countLines_eq_linesOf]
  · rw [Figure.list, hevents, Figure.ofEvents_map_move, List.map_map, Figure.list]
    rfl

/-- A row that ends right before a bracket, behind a beginning that is not closed. -/
def unwrapped : String × String :=
  ("\\begin" ++ Text.braced "figure*" ++ "\\begin \\begin" ++ Text.braced "align" ++ "a\\\\",
    "[2pt]" ++ Text.braced "b" ++ "\\end" ++ Text.braced "align")

theorem counts_wrapped :
    Display.countLines Display.defaultEnvironments (unwrapped.1 ++ " \n" ++ unwrapped.2) = 2 ∧
      (Figure.list (unwrapped.1 ++ " \n" ++ unwrapped.2)).map
        (fun figure => (figure.index, figure.columnMode)) = [(0, .double)] := by
  obtain ⟨-, hlines, hfigures⟩ :=
    @counts_insert_blanks unwrapped.1 unwrapped.2 " \n" (by decide +kernel)
      (List.all_eq_true.mp (by decide))
  exact ⟨(hlines _).trans (by decide +kernel), hfigures.trans (by decide +kernel)⟩

end Galley
