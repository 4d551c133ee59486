import Mathlib
import Galley.Binary64.Text
import Galley.Proofs.Text.Integer

/-! # Numbers are written in one word -/

namespace Galley.Binary64

open Text (IsWord isBlank)

theorem mem_positional {digits : List Char} {exponent : Int} {c : Char}
    (h : c ∈ positional digits exponent) : c ∈ digits ∨ c = '.' ∨ c = '0' := by
  unfold positional at h
  split at h
  · simp only [List.mem_append, List.mem_replicate, List.mem_cons, List.not_mem_nil, or_false] at h
    rcases h with (h | ⟨-, rfl⟩) | rfl | rfl
    · exact .inl h
    · exact .inr (.inr rfl)
    · exact .inr (.inl rfl)
    · exact .inr (.inr rfl)
  · simp only at h
    split at h
    · rcases List.mem_append.mp h with h | h
      · exact .inl (List.mem_of_mem_take h)
      · rcases List.mem_cons.mp h with rfl | h
        · exact .inr (.inl rfl)
        · exact .inl (List.mem_of_mem_drop h)
    · simp only [List.mem_append, List.mem_replicate, List.mem_cons] at h
      rcases h with (rfl | rfl | ⟨-, rfl⟩) | h
      · exact .inr (.inr rfl)
      · exact .inr (.inl rfl)
      · exact .inr (.inr rfl)
      · exact .inl h

theorem dot_mem_positional (digits : List Char) (exponent : Int) :
    '.' ∈ positional digits exponent := by
  unfold positional
  split
  · simp
  · simp only
    split <;> simp

theorem mem_exponential {digits : List Char} {order : Int} {c : Char}
    (h : c ∈ exponential digits order) :
    c ∈ digits ∨ c ∈ ['.', 'e', '-', '+', '0'] ∨ c ∈ Text.natChars order.natAbs := by
  rw [exponential, List.mem_append, List.mem_append, List.mem_cons, List.mem_cons,
    List.mem_append] at h
  rcases h with (h | h) | rfl | rfl | h | h
  · exact .inl (List.mem_of_mem_take h)
  · split at h
    · exact absurd h List.not_mem_nil
    · rcases List.mem_cons.mp h with rfl | h
      · exact .inr (.inl (by decide))
      · exact .inl (List.mem_of_mem_drop h)
  · exact .inr (.inl (by decide))
  · right
    left
    split <;> decide
  · rw [List.eq_of_mem_replicate h]
    exact .inr (.inl (by decide))
  · exact .inr (.inr h)

theorem e_mem_exponential (digits : List Char) (order : Int) : 'e' ∈ exponential digits order := by
  simp [exponential]

theorem isWord_decimalChars (d : Decimal) : IsWord (decimalChars d) := by
  have hdigits : ∀ c ∈ d.digits, isBlank c = false := fun c hc => Text.isBlank_of_mem_natChars hc
  refine ⟨?_, ?_⟩
  · rw [decimalChars]
    refine List.append_ne_nil_of_right_ne_nil _ ?_
    split
    · exact List.ne_nil_of_mem (dot_mem_positional _ _)
    · exact List.ne_nil_of_mem (e_mem_exponential _ _)
  · intro c hc
    rw [decimalChars, List.mem_append] at hc
    rcases hc with hc | hc
    · split at hc
      · rw [List.mem_singleton.mp hc]
        rfl
      · exact absurd hc List.not_mem_nil
    · split at hc
      · rcases mem_positional hc with hc | rfl | rfl
        · exact hdigits c hc
        · rfl
        · rfl
      · have hmarks : ∀ c ∈ ['.', 'e', '-', '+', '0'], isBlank c = false := by
          simp [isBlank]
        rcases mem_exponential hc with hc | hc | hc
        · exact hdigits c hc
        · exact hmarks c hc
        · exact Text.isBlank_of_mem_natChars hc

theorem isWord_toText (x : Binary64) : IsWord x.toText.toList := by
  cases x with
  | nan => decide
  | infinity negative =>
      revert negative
      decide
  | finite x =>
      rw [toText, String.toList_ofList]
      exact isWord_decimalChars (shortestDecimal x)

end Galley.Binary64
