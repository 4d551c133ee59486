import Galley.Proofs.Document.Basic
import Galley.Proofs.Document.Chunk
import Galley.Proofs.Markup.Grammar

/-! # Scanning a written document -/

namespace Galley

open Markup

/-- The marks of a text, without their positions. -/
def marks (cs : List Char) : List Mark :=
  (readings Token.read cs).filterMap fun
    | .mark mark => some mark
    | .escaped => none

theorem map_mark_events (text : String) : (events text).map (·.mark) = marks text.toList := by
  simp only [events, tokens, marks, readings, List.map_filterMap, List.filterMap_map]
  congr 1
  funext token
  obtain ⟨position, length, value⟩ := token
  cases value <;> rfl

/-- A text is scanned to some marks, and none of its characters takes part in a later token. -/
abbrev ScansTo : List Char → List Mark → Prop :=
  WorksOff marks

namespace ScansTo

theorem plain {text : List Char} (h : ∀ c ∈ text, c ≠ '\\' ∧ c ≠ '$') : ScansTo text [] := by
  have hchars : ∀ c ∈ text, ScansTo [c] [] := by
    intro c hc rest
    have hnone := Token.read_eq_none (h c hc) rest
    simp [marks, readings_cons_of_none hnone]
  simpa using WorksOff.of_forall_nil hchars

theorem written {text : List Char} {token : Token} (h : Token.Written text token)
    (rest : List Char) : readings Token.read (text ++ rest) = token :: readings Token.read rest :=
  readings_append_of_some (Token.read_decides.ne_nil h) (h.read rest)

theorem mark {text : List Char} {found : Mark} (h : Token.Written text (.mark found)) :
    ScansTo text [found] := by
  intro rest
  simp [marks, written h rest]

theorem escaped {text : List Char} (h : Token.Written text .escaped) : ScansTo text [] := by
  intro rest
  simp [marks, written h rest]

end ScansTo

/-! ## The marks of a document -/

def Item.marks : Item → List Mark
  | .piece _ => []
  | .display environment rows _ =>
    .beginEnv environment.name ::
      (List.replicate (rows.length - 1) .lineBreak ++ [.endEnv environment.name])
  | .dollars _ => [.doubleDollar, .doubleDollar]
  | .brackets _ => [.bracketOpen, .bracketClose]
  | .figure starred _ => [.beginEnv (figureName starred), .endEnv (figureName starred)]

theorem Piece.scansTo (piece : Piece) : ScansTo piece.printStripped [] := by
  cases piece with
  | plain text h => exact ScansTo.plain fun c hc => ⟨(h c hc).1, (h c hc).2.1⟩
  | percent => exact ScansTo.escaped (.escaped (.inr rfl))
  | dollar => exact ScansTo.escaped (.escaped (.inl rfl))
  | comment body h =>
      have hfeed : ScansTo ['\n'] [] := ScansTo.plain (by simp)
      exact hfeed

theorem bracedName_of_plainName {name : String} (h : PlainName name) :
    BracedName ('{' :: (name.toList ++ ['}'])) name := by
  have hblank : ∀ c ∈ name.toList, Text.isBlank c = false :=
    fun c hc => (h c hc).2.2.2.2
  refine ⟨[], [], [], by simp, by simp, by simp, by simp, ?_, ?_, ?_⟩
  · intro c hc
    exact ⟨(h c hc).2.2.1, (h c hc).2.2.2.1⟩
  · intro c hc
    exact hblank c (List.mem_of_head? hc)
  · intro c hc
    exact hblank c (List.mem_of_getLast? hc)

theorem printBegin_scansTo {name : String} (h : PlainName name) :
    ScansTo (printCommand "begin" name) [.beginEnv name] :=
  ScansTo.mark (.beginEnv (bracedName_of_plainName h))

theorem printEnd_scansTo {name : String} (h : PlainName name) :
    ScansTo (printCommand "end" name) [.endEnv name] :=
  ScansTo.mark (.endEnv (bracedName_of_plainName h))

theorem flatMap_printStripped_scansTo (pieces : List Piece) :
    ScansTo (pieces.flatMap Piece.printStripped) [] :=
  WorksOff.of_forall_nil fun piece _ => piece.scansTo

/-- Rows have no marks but the line breaks between them. -/
theorem intercalate_map_nil {α β : Type} (mark : α) (rows : List β) :
    [mark].intercalate (rows.map fun _ => []) = List.replicate (rows.length - 1) mark := by
  induction rows with
  | nil => rfl
  | cons row rows ih =>
      cases rows with
      | nil => rfl
      | cons next rows =>
          rw [List.map_cons] at ih
          rw [List.map_cons, List.map_cons, List.intercalate_cons_cons, ih]
          rfl

theorem rows_scansTo (rows : List (List Piece)) :
    ScansTo (List.intercalate ['\\', '\\'] (rows.map (·.flatMap Piece.printStripped)))
      (List.replicate (rows.length - 1) .lineBreak) := by
  rw [← intercalate_map_nil]
  exact WorksOff.intercalate (ScansTo.mark .lineBreak) flatMap_printStripped_scansTo rows

theorem Item.scansTo (item : Item) : ScansTo (item.printWith Piece.printStripped) item.marks := by
  cases item with
  | piece content => exact content.scansTo
  | display environment rows _ =>
      exact ((printBegin_scansTo environment.plainName).append (rows_scansTo rows)).append
        (printEnd_scansTo environment.plainName)
  | dollars pieces =>
      have hsign : ScansTo ['$', '$'] [.doubleDollar] := ScansTo.mark .doubleDollar
      exact (hsign.append (flatMap_printStripped_scansTo pieces)).append hsign
  | brackets pieces =>
      have hopen : ScansTo ['\\', '['] [.bracketOpen] := ScansTo.mark .bracketOpen
      have hclose : ScansTo ['\\', ']'] [.bracketClose] := ScansTo.mark .bracketClose
      exact (hopen.append (flatMap_printStripped_scansTo pieces)).append hclose
  | figure starred pieces =>
      have hname := plainName_figureName starred
      exact ((printBegin_scansTo hname).append (flatMap_printStripped_scansTo pieces)).append
        (printEnd_scansTo hname)

theorem marks_flatMap_printStripped (document : Document) :
    marks (document.flatMap (Item.printWith Piece.printStripped)) =
      document.flatMap Item.marks := by
  have h : ScansTo (document.flatMap (Item.printWith Piece.printStripped))
      (document.flatMap Item.marks) :=
    WorksOff.flatMap fun item _ => item.scansTo
  exact h.eq rfl

end Galley
