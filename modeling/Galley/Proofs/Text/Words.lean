import Mathlib
import Galley.Proofs.Text.Blank

/-! # Words and lines of a text -/

namespace Galley.Text

/-- The longest runs of characters that are not white space. -/
def words (cs : List Char) : List (List Char) :=
  (cs.splitOnP isBlank).filter fun word => !word.isEmpty

/-- The lines of a text whose last line ends in a line feed as well. -/
def lines (cs : List Char) : List (List Char) :=
  (cs.splitOn '\n').dropLast

structure IsWord (cs : List Char) : Prop where
  ne_nil : cs ≠ []
  not_blank : ∀ c ∈ cs, isBlank c = false

theorem isWord_iff {cs : List Char} :
    IsWord cs ↔ cs.isEmpty = false ∧ (cs.all fun c => !isBlank c) = true := by
  rw [List.isEmpty_eq_false_iff, List.all_eq_true]
  simp only [Bool.not_eq_true']
  exact ⟨fun h => ⟨h.ne_nil, h.not_blank⟩, fun h => ⟨h.1, h.2⟩⟩

instance (cs : List Char) : Decidable (IsWord cs) :=
  decidable_of_iff _ isWord_iff.symm

/-! ## Words -/

theorem words_append_cons {b : Char} (hb : isBlank b = true) (cs rest : List Char) :
    words (cs ++ b :: rest) = words cs ++ words rest := by
  rw [words, List.splitOnP_append_cons cs rest hb, List.filter_append]
  rfl

theorem words_nil : words [] = [] :=
  rfl

theorem IsWord.words_eq {word : List Char} (h : IsWord word) : words word = [word] := by
  simp [words, List.splitOnP_eq_singleton h.not_blank, h.ne_nil]

theorem words_spaces (n : Nat) (rest : List Char) :
    words (List.replicate n ' ' ++ rest) = words rest := by
  induction n with
  | zero => rfl
  | succ n ih =>
      have hcons := words_append_cons (b := ' ') rfl [] (List.replicate n ' ' ++ rest)
      rwa [List.nil_append, words_nil, List.nil_append, ih] at hcons

theorem IsWord.words_append {word : List Char} (h : IsWord word) (n : Nat) (rest : List Char) :
    words (word ++ List.replicate (n + 1) ' ' ++ rest) = word :: words rest := by
  rw [List.append_assoc, List.replicate_succ, List.cons_append, words_append_cons rfl, h.words_eq,
    words_spaces, List.singleton_append]

theorem IsWord.not_mem {word : List Char} (h : IsWord word) {b : Char} (hb : isBlank b = true) :
    b ∉ word := by
  intro hmem
  rw [h.not_blank b hmem] at hb
  cases hb

/-! ## Lines -/

theorem lines_append_cons (line rest : List Char) :
    lines (line ++ '\n' :: rest) = line.splitOn '\n' ++ lines rest := by
  rw [lines, List.splitOn_eq_splitOnP, List.splitOnP_append_cons line rest rfl,
    List.dropLast_append_of_ne_nil (List.splitOnP_ne_nil _ rest)]
  rfl

/-- Pieces of text with a line feed behind each have the lines of the pieces. -/
theorem lines_flatMap (pieces : List (List Char)) :
    lines (pieces.flatMap (· ++ ['\n'])) = pieces.flatMap (·.splitOn '\n') := by
  induction pieces with
  | nil => rfl
  | cons piece pieces ih =>
      rw [List.flatMap_cons, List.append_assoc, List.singleton_append, lines_append_cons, ih,
        List.flatMap_cons]

theorem flatMap_splitOn_eq_self {pieces : List (List Char)} (h : ∀ piece ∈ pieces, '\n' ∉ piece) :
    pieces.flatMap (·.splitOn '\n') = pieces := by
  induction pieces with
  | nil => rfl
  | cons piece pieces ih =>
      rw [List.forall_mem_cons] at h
      rw [List.flatMap_cons, List.splitOn_eq_singleton h.1, ih h.2, List.singleton_append]

theorem intercalate_append_newline {pieces : List (List Char)} (h : pieces ≠ []) :
    ['\n'].intercalate pieces ++ ['\n'] = pieces.flatMap (· ++ ['\n']) := by
  induction pieces with
  | nil => exact absurd rfl h
  | cons piece pieces ih =>
      cases pieces with
      | nil => simp
      | cons next pieces =>
          rw [List.intercalate_cons_of_ne_nil (List.cons_ne_nil next pieces), List.append_assoc,
            ih (List.cons_ne_nil next pieces)]
          rfl

end Galley.Text
