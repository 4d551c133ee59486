import Galley.Proofs.Cut
import Galley.Proofs.Markup.Grammar
import Galley.Proofs.Markup.Move

/-! # Scanning a text in two parts -/

namespace Galley.Markup

/-! ## Behind a closing brace -/

/-- A closing brace is the last character of a token, if it has one at all. -/
theorem Token.Written.exists_concat {written : List Char} {token : Token}
    (h : Written written token) : ∃ front last, written = front ++ [last] ∧ '}' ∉ front := by
  have hname : ∀ {command written : List Char} {name : String}, '}' ∉ command →
      BracedName written name →
      ∃ front last, command ++ written = front ++ [last] ∧ '}' ∉ front := by
    rintro command written name hcommand
      ⟨blanks, left, right, rfl, hblanks, hleft, hright, hname, -⟩
    refine ⟨command ++ blanks ++ '{' :: (left ++ name.toList ++ right), '}', by simp, ?_⟩
    have hblank : ∀ {cs : List Char}, (∀ c ∈ cs, Text.isBlank c = true) → '}' ∉ cs :=
      fun hcs hmem => absurd (hcs '}' hmem) (by decide)
    have hinside : '}' ∉ name.toList := fun hmem => (hname '}' hmem).2 rfl
    simp [hcommand, hblank hblanks, hblank hleft, hblank hright, hinside]
  cases h with
  | lineBreak => exact ⟨['\\'], '\\', rfl, by simp⟩
  | escaped _ => exact ⟨['\\'], _, rfl, by simp⟩
  | bracketOpen => exact ⟨['\\'], '[', rfl, by simp⟩
  | bracketClose => exact ⟨['\\'], ']', rfl, by simp⟩
  | doubleDollar => exact ⟨['$'], '$', rfl, by simp⟩
  | beginEnv h => exact hname (by decide) h
  | endEnv h => exact hname (by decide) h

/-- Nothing reaches over a closing brace. -/
theorem cleanCut_of_getLast? {front : List Char} (h : front.getLast? = some '}')
    (back : List Char) : CleanCut Token.read Token.Written front back := by
  intro position hlt length token hstands
  have hleft := leftmost_occurrences Token.read_decides front
  have hends : position + length ≤ front.length := by
    obtain ⟨body, rfl⟩ := List.getLast?_eq_some_iff.mp h
    obtain ⟨written, hwritten, rfl, hpre⟩ := hstands
    obtain ⟨before, last, rfl, hbrace⟩ := hwritten.exists_concat
    rw [List.length_append, List.length_singleton] at hlt ⊢
    rw [List.append_assoc, List.drop_append_of_le_length (by omega)] at hpre
    have hbefore := prefix_of_prefix_append_cons hbrace ((List.prefix_append ..).trans hpre)
    have hle := hbefore.length_le
    simp only [List.length_drop, List.length_append, List.length_singleton] at hle ⊢
    omega
  exact hleft.exists_covers (Nat.zero_le _) (hstands.of_append hends)

/-! ## The events of the parts -/

theorem Event.ofToken?_shift (offset : Nat) (token : Occurrence Token) :
    Event.ofToken? (token.shift offset) =
      (Event.ofToken? token).map (Event.move (offset + ·)) := by
  obtain ⟨position, length, value⟩ := token
  cases value <;> rfl

/-- At a clean cut the events of the second part follow those of the first, with their positions
counted on. -/
theorem events_append {front back : String}
    (h : CleanCut Token.read Token.Written front.toList back.toList) :
    events (front ++ back) = events front ++ (events back).map (Event.move (front.length + ·)) := by
  simp only [events, tokens, String.toList_append]
  rw [occurrences_append Token.read_decides h, List.filterMap_append, List.filterMap_map,
    List.map_filterMap]
  simp only [Function.comp_def, Event.ofToken?_shift, String.length_toList]

theorem position_lt_of_mem_events {text : String} {event : Event} (h : event ∈ events text) :
    event.position < text.length := by
  obtain ⟨token, htoken, hevent⟩ := List.mem_filterMap.mp h
  have hleft := leftmost_occurrences Token.read_decides text.toList
  have hlt := hleft.position_lt_stop Token.read_decides.ne_nil htoken
  have hle := stop_le_of_mem_occurrences Token.read_decides htoken
  rw [Event.position_of_ofToken? hevent]
  rw [String.length_toList] at hle
  exact Nat.lt_of_lt_of_le hlt hle

end Galley.Markup
