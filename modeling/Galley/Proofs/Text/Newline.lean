import Mathlib
import Galley.Text.Newline

/-! # Line ends of any style are read as line feeds -/

namespace Galley.Text

/-- How a file ends its lines. -/
inductive LineEnding where
  | lf
  | crlf
  | cr

namespace LineEnding

def chars : LineEnding → List Char
  | .lf => ['\n']
  | .crlf => ['\r', '\n']
  | .cr => ['\r']

/-- A text with its line feeds written in a style. -/
def write (style : LineEnding) (text : List Char) : List Char :=
  text.flatMap fun c => if c = '\n' then style.chars else [c]

theorem write_cons (style : LineEnding) (c : Char) (text : List Char) :
    style.write (c :: text) = (if c = '\n' then style.chars else [c]) ++ style.write text :=
  rfl

theorem head?_write_cr (text : List Char) : (LineEnding.cr.write text).head? ≠ some '\n' := by
  cases text with
  | nil => simp [write]
  | cons c text =>
      by_cases h : c = '\n'
      · simp [write_cons, h, chars]
      · simp [write_cons, h]

end LineEnding

theorem unifyNewlines_cons_of_ne {c : Char} (h : c ≠ '\r') (text : List Char) :
    unifyNewlines (c :: text) = c :: unifyNewlines text := by
  simp [unifyNewlines, h]

theorem unifyNewlines_cr_cons {text : List Char} (h : text.head? ≠ some '\n') :
    unifyNewlines ('\r' :: text) = '\n' :: unifyNewlines text := by
  cases text with
  | nil => rfl
  | cons c text =>
      have hc : c ≠ '\n' := by simpa using h
      simp [unifyNewlines, hc]

theorem unifyNewlines_write (style : LineEnding) {text : List Char} (h : '\r' ∉ text) :
    unifyNewlines (style.write text) = text := by
  induction text with
  | nil => rfl
  | cons c text ih =>
      have hc : c ≠ '\r' := fun heq => h (heq ▸ List.mem_cons_self)
      have hrest : '\r' ∉ text := fun hmem => h (List.mem_cons_of_mem c hmem)
      by_cases hfeed : c = '\n'
      · subst hfeed
        rw [LineEnding.write_cons, if_pos rfl]
        cases style with
        | lf =>
            change unifyNewlines ('\n' :: LineEnding.lf.write text) = _
            rw [unifyNewlines_cons_of_ne (by decide), ih hrest]
        | crlf =>
            change '\n' :: unifyNewlines (LineEnding.crlf.write text) = _
            rw [ih hrest]
        | cr =>
            change unifyNewlines ('\r' :: LineEnding.cr.write text) = _
            rw [unifyNewlines_cr_cons (LineEnding.head?_write_cr text), ih hrest]
      · rw [LineEnding.write_cons, if_neg hfeed, List.singleton_append,
          unifyNewlines_cons_of_ne hc, ih hrest]

end Galley.Text
