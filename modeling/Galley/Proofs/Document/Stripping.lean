import Galley.Proofs.Comment.Lines
import Galley.Proofs.Document.Basic
import Galley.Proofs.Document.Chunk

/-! # Stripping a written document -/

namespace Galley

open Comment

/-- Outside of comments a text is stripped to another one, and no backslash at its end escapes a
percent sign behind it. -/
abbrev StripsTo : List Char → List Char → Prop :=
  WorksOff (stripFrom .even)

namespace StripsTo

theorem plain {text : List Char} (h : ∀ c ∈ text, c ≠ '\\' ∧ c ≠ '%') : StripsTo text text := by
  have hchars : ∀ c ∈ text, StripsTo [c] [c] := by
    intro c hc rest
    obtain ⟨hbackslash, hpercent⟩ := h c hc
    simp [stripFrom, hbackslash, hpercent]
  simpa using WorksOff.flatMap hchars

/-- A backslash escapes the character behind it, whatever it is. -/
theorem backslash (c : Char) : StripsTo ['\\', c] ['\\', c] := by
  intro rest
  simp [stripFrom]

theorem comment {body : List Char} (h : ∀ c ∈ body, c ≠ '\r' ∧ c ≠ '\n') :
    StripsTo ('%' :: (body ++ ['\n'])) ['\n'] := by
  intro rest
  have hbody : ∀ c ∈ body, isLineEnd c = false := by
    intro c hc
    simp [isLineEnd, h c hc]
  have hfeed := stripFrom_append_lineEnd .comment rest hbody (show isLineEnd '\n' = true from rfl)
  rw [stripFrom_comment hbody] at hfeed
  simpa [stripFrom] using hfeed

end StripsTo

theorem Piece.stripsTo (piece : Piece) : StripsTo piece.print piece.printStripped := by
  cases piece with
  | plain text h => exact StripsTo.plain fun c hc => ⟨(h c hc).1, (h c hc).2.2⟩
  | percent => exact StripsTo.backslash '%'
  | dollar => exact StripsTo.backslash '$'
  | comment body h => exact StripsTo.comment h

theorem printCommand_stripsTo {command name : String}
    (hcommand : ∀ c ∈ command.toList, c ≠ '\\' ∧ c ≠ '%') (hname : PlainName name) :
    StripsTo (printCommand command name) (printCommand command name) := by
  have hplain : ∀ c ∈ command.toList ++ '{' :: (name.toList ++ ['}']), c ≠ '\\' ∧ c ≠ '%' := by
    intro c hc
    simp only [List.mem_append, List.mem_cons, List.not_mem_nil, or_false] at hc
    rcases hc with hc | rfl | hc | rfl
    · exact hcommand c hc
    · simp
    · exact ⟨(hname c hc).1, (hname c hc).2.1⟩
    · simp
  unfold printCommand
  cases hbody : command.toList ++ '{' :: (name.toList ++ ['}']) with
  | nil => simp at hbody
  | cons c body =>
      rw [hbody] at hplain
      have hrest : StripsTo body body :=
        StripsTo.plain fun d hd => hplain d (List.mem_cons_of_mem c hd)
      exact (StripsTo.backslash c).append hrest

theorem printBegin_stripsTo {name : String} (h : PlainName name) :
    StripsTo (printCommand "begin" name) (printCommand "begin" name) :=
  printCommand_stripsTo (by simp) h

theorem printEnd_stripsTo {name : String} (h : PlainName name) :
    StripsTo (printCommand "end" name) (printCommand "end" name) :=
  printCommand_stripsTo (by simp) h

theorem flatMap_print_stripsTo (pieces : List Piece) :
    StripsTo (pieces.flatMap Piece.print) (pieces.flatMap Piece.printStripped) :=
  WorksOff.flatMap fun piece _ => piece.stripsTo

theorem Item.stripsTo (item : Item) :
    StripsTo (item.printWith Piece.print) (item.printWith Piece.printStripped) := by
  cases item with
  | piece content => exact content.stripsTo
  | display environment rows _ =>
      have hrows := WorksOff.intercalate (StripsTo.backslash '\\') flatMap_print_stripsTo rows
      exact ((printBegin_stripsTo environment.plainName).append hrows).append
        (printEnd_stripsTo environment.plainName)
  | dollars pieces =>
      have hsign : StripsTo ['$', '$'] ['$', '$'] := StripsTo.plain (by simp)
      exact (hsign.append (flatMap_print_stripsTo pieces)).append hsign
  | brackets pieces =>
      exact ((StripsTo.backslash '[').append (flatMap_print_stripsTo pieces)).append
        (StripsTo.backslash ']')
  | figure starred pieces =>
      have hname := plainName_figureName starred
      exact ((printBegin_stripsTo hname).append (flatMap_print_stripsTo pieces)).append
        (printEnd_stripsTo hname)

/-- Stripping a printed document leaves every item as it is, but for the comments. -/
theorem Document.toList_strip_print (document : Document) :
    (strip document.print).toList = document.flatMap (Item.printWith Piece.printStripped) := by
  have h : StripsTo (document.flatMap (Item.printWith Piece.print))
      (document.flatMap (Item.printWith Piece.printStripped)) :=
    WorksOff.flatMap fun item _ => item.stripsTo
  rw [toList_strip, Document.print, String.toList_ofList]
  exact h.eq rfl

end Galley
