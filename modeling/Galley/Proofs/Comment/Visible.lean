import Mathlib
import Galley.Proofs.Comment.Lines

/-! # Texts that differ in their comments only -/

namespace Galley.Comment

/-- What stands before the comment of a line. -/
def visible (line : List Char) : List Char :=
  line.take (commentStart line)

/-- Two texts with the same number of lines, each pair of which is the same before its comment. -/
def SameButComments (text other : List Char) : Prop :=
  List.Forall₂ (fun line otherLine => visible line = visible otherLine) (text.splitOn '\n')
    (other.splitOn '\n')

instance (text other : List Char) : Decidable (SameButComments text other) :=
  inferInstanceAs (Decidable (List.Forall₂ _ _ _))

/-- The parts of a text that is cut at each `stop` hold its other characters. -/
theorem mem_of_mem_splitOnP {text line : List Char} {stop : Char → Bool}
    (h : line ∈ text.splitOnP stop) : ∀ c ∈ line, c ∈ text ∧ stop c = false := by
  induction text generalizing line with
  | nil =>
      rw [List.splitOnP_nil, List.mem_singleton] at h
      simp [h]
  | cons a text ih =>
      have hrest : ∀ {part}, part ∈ text.splitOnP stop →
          ∀ c ∈ part, c ∈ a :: text ∧ stop c = false :=
        fun hpart c hc => ⟨List.mem_cons_of_mem a (ih hpart c hc).1, (ih hpart c hc).2⟩
      rw [List.splitOnP_cons_eq_if_modifyHead] at h
      by_cases hstop : stop a = true
      · rw [if_pos hstop] at h
        rcases List.mem_cons.mp h with rfl | h
        · simp
        · exact hrest h
      · obtain ⟨first, parts, hparts⟩ := List.exists_cons_of_ne_nil (List.splitOnP_ne_nil stop text)
        rw [if_neg hstop, hparts, List.modifyHead_cons] at h
        rcases List.mem_cons.mp h with rfl | h
        · intro c hc
          rcases List.mem_cons.mp hc with rfl | hc
          · exact ⟨List.mem_cons_self, by simpa using hstop⟩
          · exact hrest (hparts ▸ List.mem_cons_self) c hc
        · exact hrest (hparts ▸ List.mem_cons_of_mem first h)

theorem stripFrom_even_intercalate {lines : List (List Char)}
    (h : ∀ line ∈ lines, ∀ c ∈ line, isLineEnd c = false) :
    stripFrom .even (['\n'].intercalate lines) = ['\n'].intercalate (lines.map visible) := by
  induction lines with
  | nil => rfl
  | cons line lines ih =>
      have hline : stripFrom .even line = visible line :=
        Line.stripFrom_even ⟨line, h line (by simp)⟩
      cases lines with
      | nil => simpa using hline
      | cons next lines =>
          have hrest := ih fun other hother => h other (List.mem_cons_of_mem line hother)
          rw [List.intercalate_cons_cons, List.map_cons, List.map_cons,
            List.intercalate_cons_cons, List.append_assoc, List.singleton_append,
            stripFrom_append_lineEnd .even _ (h line (by simp)) rfl, hline, hrest]
          simp

/-- A text without carriage returns is stripped by cutting each of its lines. -/
theorem stripFrom_even_eq_intercalate {text : List Char} (h : '\r' ∉ text) :
    stripFrom .even text = ['\n'].intercalate ((text.splitOn '\n').map visible) := by
  have hlines : ∀ line ∈ text.splitOn '\n', ∀ c ∈ line, isLineEnd c = false := by
    intro line hline c hc
    rw [List.splitOn_eq_splitOnP] at hline
    obtain ⟨hmem, hfeed⟩ := mem_of_mem_splitOnP hline c hc
    have hreturn : c ≠ '\r' := fun heq => h (heq ▸ hmem)
    simpa [isLineEnd, hreturn] using hfeed
  rw [← stripFrom_even_intercalate hlines, List.intercalate_splitOn]

/-- Stripping leaves nothing of the comments, and what it leaves does not depend on them. -/
theorem SameButComments.strip_eq {text other : List Char} (h : SameButComments text other)
    (htext : '\r' ∉ text) (hother : '\r' ∉ other) :
    strip (String.ofList text) = strip (String.ofList other) := by
  have hvisible : (text.splitOn '\n').map visible = (other.splitOn '\n').map visible := by
    rw [← List.forall₂_eq_eq_eq, List.forall₂_map_left_iff, List.forall₂_map_right_iff]
    exact h
  apply String.toList_injective
  rw [toList_strip, toList_strip, String.toList_ofList, String.toList_ofList,
    stripFrom_even_eq_intercalate htext, stripFrom_even_eq_intercalate hother, hvisible]

end Galley.Comment
