import Mathlib
import Galley.Abstract
import Galley.Proofs.Comment.Percent

/-!
# Abstracts

An abstract is the text between the first opening mark and the first closing mark behind it.
-/

namespace Galley

/-! ## The first place of a mark -/

variable {α : Type}

/-- The first position from `start` on at which a mark stands. -/
structure FirstFrom (mark list : List α) (start position : Nat) : Prop where
  start_le : start ≤ position
  stands : mark <+: list.drop position
  first : ∀ earlier, start ≤ earlier → mark <+: list.drop earlier → position ≤ earlier

namespace FirstFrom

variable {mark list : List α} {start position : Nat}

theorem zero_of_stands (h : mark <+: list) : FirstFrom mark list 0 0 :=
  ⟨le_rfl, h, fun earlier _ _ => Nat.zero_le earlier⟩

/-- A position where the mark does not stand is passed over. -/
theorem cons_succ_iff {a : α} :
    FirstFrom mark (a :: list) 0 (position + 1) ↔
      ¬ mark <+: a :: list ∧ FirstFrom mark list 0 position := by
  constructor
  · intro h
    refine ⟨fun hstands => ?_, Nat.zero_le _, h.stands, fun earlier _ hstands => ?_⟩
    · have hle := h.first 0 le_rfl hstands
      omega
    · exact Nat.le_of_succ_le_succ (h.first (earlier + 1) (Nat.zero_le _) hstands)
  · rintro ⟨hnot, h⟩
    refine ⟨Nat.zero_le _, h.stands, fun earlier _ hstands => ?_⟩
    cases earlier with
    | zero => exact absurd hstands hnot
    | succ earlier => exact Nat.succ_le_succ (h.first earlier (Nat.zero_le _) hstands)

theorem drop_iff :
    FirstFrom mark (list.drop start) 0 position ↔ FirstFrom mark list start (start + position) := by
  constructor
  · intro h
    refine ⟨Nat.le_add_right .., by simpa using h.stands, fun earlier hle hstands => ?_⟩
    obtain ⟨offset, rfl⟩ := Nat.exists_eq_add_of_le hle
    have hoffset := h.first offset (Nat.zero_le _) (by simpa using hstands)
    omega
  · intro h
    refine ⟨Nat.zero_le _, by simpa using h.stands, fun earlier _ hstands => ?_⟩
    have hle := h.first (start + earlier) (Nat.le_add_right ..) (by simpa using hstands)
    omega

end FirstFrom

theorem exists_firstFrom_iff {mark list : List α} {start : Nat} :
    (∃ position, FirstFrom mark list start position) ↔ mark <:+: list.drop start := by
  constructor
  · rintro ⟨position, h⟩
    obtain ⟨offset, rfl⟩ := Nat.exists_eq_add_of_le h.start_le
    have hstands := h.stands
    rw [← List.drop_drop] at hstands
    exact hstands.isInfix.trans (List.drop_suffix ..).isInfix
  · intro h
    obtain ⟨rest, hstands, hrest⟩ := List.infix_iff_prefix_suffix.mp h
    have hexists : ∃ position, start ≤ position ∧ mark <+: list.drop position := by
      refine ⟨start + ((list.drop start).length - rest.length), Nat.le_add_right .., ?_⟩
      rw [← List.drop_drop, ← List.suffix_iff_eq_drop.mp hrest]
      exact hstands
    classical
    exact ⟨Nat.find hexists, (Nat.find_spec hexists).1, (Nat.find_spec hexists).2,
      fun earlier hle hstands => Nat.find_min' hexists ⟨hle, hstands⟩⟩

/-- Cutting at a mark leaves what is before its first place and what is behind it. -/
theorem splitAtFirst?_eq_some_iff [BEq α] [LawfulBEq α] {mark list before after : List α} :
    splitAtFirst? mark list = some (before, after) ↔
      ∃ position, FirstFrom mark list 0 position ∧ before = list.take position ∧
        after = list.drop (position + mark.length) := by
  induction list generalizing before after with
  | nil =>
      rw [splitAtFirst?]
      constructor
      · intro h
        split at h
        next hmark =>
          obtain ⟨rfl, rfl⟩ := Prod.mk.inj (Option.some.inj h)
          refine ⟨0, .zero_of_stands ?_, by simp⟩
          rw [List.isEmpty_iff.mp hmark]
        next => cases h
      · rintro ⟨position, h, rfl, rfl⟩
        have hmark : mark = [] := by simpa using h.stands
        simp [hmark]
  | cons a list ih =>
      rw [splitAtFirst?]
      cases hprefix : mark.isPrefixOf? (a :: list) with
      | some rest =>
          have happend := List.isPrefixOf?_eq_some_iff_append_eq.mp hprefix
          have hdrop : (a :: list).drop mark.length = rest := by
            rw [← happend, List.drop_left]
          have hfirst : FirstFrom mark (a :: list) 0 0 := .zero_of_stands ⟨rest, happend⟩
          simp only [Option.some.injEq, Prod.mk.injEq]
          constructor
          · rintro ⟨rfl, rfl⟩
            exact ⟨0, hfirst, by simp, by simpa using hdrop.symm⟩
          · rintro ⟨position, h, rfl, rfl⟩
            obtain rfl := Nat.le_zero.mp (h.first 0 le_rfl hfirst.stands)
            exact ⟨by simp, by simpa using hdrop.symm⟩
      | none =>
          have hnot : ¬ mark <+: a :: list := by
            rintro ⟨rest, happend⟩
            rw [List.isPrefixOf?_eq_some_iff_append_eq.mpr happend] at hprefix
            cases hprefix
          simp only [Option.map_eq_some_iff, Prod.exists, Prod.mk.injEq]
          constructor
          · rintro ⟨front, back, hrest, rfl, rfl⟩
            obtain ⟨position, h, rfl, rfl⟩ := ih.mp hrest
            refine ⟨position + 1, FirstFrom.cons_succ_iff.mpr ⟨hnot, h⟩, rfl, ?_⟩
            rw [Nat.add_right_comm, List.drop_succ_cons]
          · rintro ⟨position, h, rfl, rfl⟩
            cases position with
            | zero => exact absurd h.stands hnot
            | succ position =>
                refine ⟨list.take position, list.drop (position + mark.length), ?_, rfl, ?_⟩
                · exact ih.mpr ⟨position, (FirstFrom.cons_succ_iff.mp h).2, rfl, rfl⟩
                · rw [Nat.add_right_comm, List.drop_succ_cons]

namespace Abstract

/-! ## The text between the marks -/

/-- An abstract lies between the first opening mark and the first closing mark behind it. -/
theorem find?_eq_some_iff {text body : String} :
    find? text = some body ↔ ∃ first last,
      FirstFrom opening.toList text.toList 0 first ∧
        FirstFrom closing.toList text.toList (first + opening.length) last ∧
        body.toList = (text.toList.take last).drop (first + opening.length) := by
  have hfind : find? text = some body ↔ ∃ front rest back,
      splitAtFirst? opening.toList text.toList = some (front, rest) ∧
        splitAtFirst? closing.toList rest = some (body.toList, back) := by
    simp only [find?, Option.bind_eq_bind, Option.bind_eq_some_iff, Option.pure_def,
      Option.some.injEq, Prod.exists]
    constructor
    · rintro ⟨front, rest, hopening, inside, back, hclosing, rfl⟩
      exact ⟨front, rest, back, hopening, by simpa using hclosing⟩
    · rintro ⟨front, rest, back, hopening, hclosing⟩
      exact ⟨front, rest, hopening, body.toList, back, hclosing, String.ofList_toList⟩
  rw [hfind]
  constructor
  · rintro ⟨front, rest, back, hopening, hclosing⟩
    obtain ⟨first, hfirst, -, rfl⟩ := splitAtFirst?_eq_some_iff.mp hopening
    obtain ⟨offset, hlast, hbody, -⟩ := splitAtFirst?_eq_some_iff.mp hclosing
    rw [String.length_toList] at hlast hbody
    refine ⟨first, first + opening.length + offset, hfirst, FirstFrom.drop_iff.mp hlast, ?_⟩
    rw [hbody, List.take_drop]
  · rintro ⟨first, last, hfirst, hlast, hbody⟩
    obtain ⟨offset, rfl⟩ := Nat.exists_eq_add_of_le hlast.start_le
    refine ⟨_, _, _, splitAtFirst?_eq_some_iff.mpr ⟨first, hfirst, rfl, rfl⟩,
      splitAtFirst?_eq_some_iff.mpr ⟨offset, ?_, ?_, rfl⟩⟩
    · rw [String.length_toList]
      exact FirstFrom.drop_iff.mpr hlast
    · rw [hbody, String.length_toList, List.take_drop]

/-- Behind the opening mark a stripped text goes on as if it began there, so that no comment comes
up in its abstract. -/
theorem strip_of_find?_strip {text body : String} (h : find? (Comment.strip text) = some body) :
    Comment.strip body = body := by
  obtain ⟨first, last, hfirst, hlast, hbody⟩ := find?_eq_some_iff.mp h
  let stripped := (Comment.strip text).toList
  let inside := first + opening.length
  have hfront : stripped.take inside = stripped.take first ++ opening.toList := by
    have hopening := List.prefix_iff_eq_take.mp hfirst.stands
    rw [String.length_toList] at hopening
    rw [List.take_add, ← hopening]
  have hcut : stripped = stripped.take inside ++ body.toList ++ stripped.drop last := by
    have htake : (stripped.take last).take inside = stripped.take inside := by
      rw [List.take_take, Nat.min_eq_left hlast.start_le]
    rw [hbody, ← htake, List.take_append_drop, List.take_append_drop]
  refine Comment.strip_of_cut hcut ?_
  have hlastChar : opening.toList.getLast? = some '}' := by decide
  rw [hfront, List.getLast?_append, hlastChar]
  simp

/-- A text has an abstract when the opening mark stands in it and the closing mark stands behind
the first opening mark. The abstract is what is between this mark and the first closing mark behind
it, and in a stripped text there is nothing to strip from it. -/
theorem abstract_between_first_marks (text : String) :
    ((find? text).isSome = true ↔ ∃ first, FirstFrom opening.toList text.toList 0 first ∧
        closing.toList <:+: text.toList.drop (first + opening.length)) ∧
      (∀ body, find? text = some body ↔ ∃ first last,
        FirstFrom opening.toList text.toList 0 first ∧
        FirstFrom closing.toList text.toList (first + opening.length) last ∧
        body.toList = (text.toList.take last).drop (first + opening.length)) ∧
      ∀ body, find? (Comment.strip text) = some body → Comment.strip body = body := by
  refine ⟨?_, fun body => find?_eq_some_iff, fun body => strip_of_find?_strip⟩
  rw [Option.isSome_iff_exists]
  constructor
  · rintro ⟨body, hbody⟩
    obtain ⟨first, last, hfirst, hlast, -⟩ := find?_eq_some_iff.mp hbody
    exact ⟨first, hfirst, exists_firstFrom_iff.mp ⟨last, hlast⟩⟩
  · rintro ⟨first, hfirst, hclosing⟩
    obtain ⟨last, hlast⟩ := exists_firstFrom_iff.mpr hclosing
    exact ⟨_, find?_eq_some_iff.mpr ⟨first, last, hfirst, hlast, String.toList_ofList⟩⟩

-- A closing mark in front does not count, nor does a second opening mark.
example :
    find? (closing ++ opening ++ "a" ++ opening ++ "\nb" ++ closing) =
      some ("a" ++ opening ++ "\nb") := by
  decide

end Abstract

end Galley
