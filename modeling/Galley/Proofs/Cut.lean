import Galley.Proofs.Leftmost

/-! # Reading a list in two parts -/

namespace Galley

variable {α β : Type}

/-- The occurrence in a list that has `offset` more elements in front. -/
def Occurrence.shift (offset : Nat) (occurrence : Occurrence β) : Occurrence β :=
  { occurrence with position := offset + occurrence.position }

@[simp] theorem Occurrence.stop_shift (offset : Nat) (occurrence : Occurrence β) :
    (occurrence.shift offset).stop = offset + occurrence.stop :=
  Nat.add_assoc ..

/-! ## Runs -/

/-- What comes behind a run does not go on with it. -/
theorem eq_false_of_mem_head?_dropWhile (p : α → Bool) (list : List α) :
    ∀ a ∈ (list.dropWhile p).head?, p a = false := by
  intro a ha
  have hnot := List.head?_dropWhile_not p list
  rw [Option.mem_def.mp ha] at hnot
  simpa using hnot

section Run

variable {p : α → Bool} {run rest : List α} (hrun : ∀ a ∈ run, p a = true)
  (hrest : ∀ a ∈ rest.head?, p a = false)
include hrun hrest

/-- A run ends where something else comes. -/
theorem takeWhile_append_of_head? : (run ++ rest).takeWhile p = run := by
  rw [List.takeWhile_append_of_pos hrun]
  cases rest with
  | nil => simp
  | cons a rest => simp [hrest a rfl]

theorem dropWhile_append_of_head? : (run ++ rest).dropWhile p = rest := by
  rw [List.dropWhile_append_of_pos hrun]
  cases rest with
  | nil => rfl
  | cons a rest => simp [hrest a rfl]

end Run

/-! ## Where written forms stand in the parts -/

theorem prefix_of_prefix_append_cons {mark text rest : List α} {stop : α} (hstop : stop ∉ mark)
    (h : mark <+: text ++ stop :: rest) : mark <+: text := by
  have htext : text ++ [stop] <+: text ++ stop :: rest := ⟨rest, by simp⟩
  rcases List.prefix_or_prefix_of_prefix h htext with hmark | hmark
  · rcases List.prefix_concat_iff.mp hmark with heq | hbefore
    · rw [heq] at hstop
      simp at hstop
    · exact hbefore
  · exact absurd (hmark.subset (by simp)) hstop

namespace Grammar.StandsAt

variable {grammar : Grammar α β} {list front back : List α} {position length : Nat} {value : β}

/-- What stands in a list ends in it, and is not empty. -/
theorem within (h : grammar.StandsAt list position length value)
    (ne_nil : ∀ {written value}, grammar written value → written ≠ []) :
    0 < length ∧ position + length ≤ list.length := by
  obtain ⟨written, hwritten, rfl, hpre⟩ := h
  have hpos := List.length_pos_iff.mpr (ne_nil hwritten)
  have hle := hpre.length_le
  rw [List.length_drop] at hle
  omega

theorem append (h : grammar.StandsAt front position length value) (back : List α) :
    grammar.StandsAt (front ++ back) position length value := by
  obtain ⟨written, hwritten, hlength, hpre⟩ := h
  refine ⟨written, hwritten, hlength, ?_⟩
  rw [List.drop_append]
  exact hpre.trans (List.prefix_append ..)

/-- What ends before the cut stands in the first part. -/
theorem of_append (h : grammar.StandsAt (front ++ back) position length value)
    (hle : position + length ≤ front.length) : grammar.StandsAt front position length value := by
  obtain ⟨written, hwritten, rfl, hpre⟩ := h
  refine ⟨written, hwritten, rfl, ?_⟩
  rw [List.drop_append_of_le_length (by omega)] at hpre
  exact List.prefix_of_prefix_length_le hpre (List.prefix_append ..) (by simp; omega)

end Grammar.StandsAt

theorem Grammar.standsAt_append_right {grammar : Grammar α β} {front back : List α}
    {position length : Nat} {value : β} :
    grammar.StandsAt (front ++ back) (front.length + position) length value ↔
      grammar.StandsAt back position length value := by
  have hnil : front.drop (front.length + position) = [] := by simp
  simp [StandsAt, List.drop_append, hnil]

/-! ## Clean cuts -/

/-- Whatever stands in the whole list and begins before the cut, even if it goes beyond, begins
inside an occurrence of the first part. -/
def CleanCut (read : Reader α β) (grammar : Grammar α β) (front back : List α) : Prop :=
  ∀ position < front.length, ∀ length value,
    grammar.StandsAt (front ++ back) position length value →
      ∃ occurrence ∈ occurrences read front, occurrence.Covers position

variable {read : Reader α β} {grammar : Grammar α β} {front back : List α}

theorem stop_le_of_mem_occurrences (decides : read.Decides grammar) {list : List α}
    {occurrence : Occurrence β} (h : occurrence ∈ occurrences read list) :
    occurrence.stop ≤ list.length := by
  have hleft := leftmost_occurrences decides list
  exact ((hleft.stands occurrence h).within decides.ne_nil).2

theorem occurrences_eq_nil (decides : read.Decides grammar) {list : List α}
    (h : ∀ position length value, ¬ grammar.StandsAt list position length value) :
    occurrences read list = [] := by
  have hnil : Leftmost grammar list 0 [] :=
    ⟨by simp, by simp, by simp, fun position _ _ => h position⟩
  exact ((leftmost_iff decides list []).mp hnil).symm

/-- At a clean cut the parts are read one by one. -/
theorem occurrences_append (decides : read.Decides grammar)
    (h : CleanCut read grammar front back) :
    occurrences read (front ++ back) =
      occurrences read front ++ (occurrences read back).map (·.shift front.length) := by
  have hfront := leftmost_occurrences decides front
  have hback := leftmost_occurrences decides back
  symm
  rw [← leftmost_iff decides]
  refine ⟨by simp, ?_, ?_, ?_⟩
  · refine List.pairwise_append.mpr ⟨hfront.apart, List.pairwise_map.mpr ?_, ?_⟩
    · apply hback.apart.imp
      intro a b hab
      rw [Occurrence.stop_shift]
      exact Nat.add_le_add_left hab front.length
    · intro a ha b hb
      obtain ⟨b, -, rfl⟩ := List.mem_map.mp hb
      exact Nat.le_add_right_of_le (stop_le_of_mem_occurrences decides ha)
  · intro occurrence hmem
    rcases List.mem_append.mp hmem with hmem | hmem
    · exact (hfront.stands occurrence hmem).append back
    · obtain ⟨moved, hmoved, rfl⟩ := List.mem_map.mp hmem
      exact Grammar.standsAt_append_right.mpr (hback.stands moved hmoved)
  · intro position _ huncovered length value hstands
    rcases Nat.lt_or_ge position front.length with hlt | hge
    · obtain ⟨occurrence, hmem, hcovers⟩ := h position hlt length value hstands
      exact huncovered occurrence (List.mem_append_left _ hmem) hcovers
    · obtain ⟨offset, rfl⟩ := Nat.exists_eq_add_of_le hge
      obtain ⟨occurrence, hmem, hle, hlt⟩ :=
        hback.exists_covers (Nat.zero_le _) (Grammar.standsAt_append_right.mp hstands)
      refine huncovered (occurrence.shift front.length)
        (List.mem_append_right _ (List.mem_map_of_mem hmem)) ⟨?_, ?_⟩
      · exact Nat.add_le_add_left hle front.length
      · rw [Occurrence.stop_shift]
        exact Nat.add_lt_add_left hlt front.length

/-- A cut is clean when no occurrence of the whole list reaches across it. -/
theorem cleanCut_of_occurrences (decides : read.Decides grammar)
    (h : ∀ occurrence ∈ occurrences read (front ++ back),
      ¬ (occurrence.position < front.length ∧ front.length < occurrence.stop)) :
    CleanCut read grammar front back := by
  have hwhole := leftmost_occurrences decides (front ++ back)
  let before := (occurrences read (front ++ back)).filter (·.position < front.length)
  have hbefore : ∀ position < front.length, ∀ length value,
      grammar.StandsAt (front ++ back) position length value →
        ∃ occurrence ∈ before, occurrence.Covers position := by
    intro position hlt length value hstands
    obtain ⟨occurrence, hmem, hle, hstop⟩ := hwhole.exists_covers (Nat.zero_le _) hstands
    exact ⟨occurrence, List.mem_filter.mpr ⟨hmem, by simp; omega⟩, hle, hstop⟩
  have hleft : Leftmost grammar front 0 before := by
    refine ⟨by simp, hwhole.apart.filter _, ?_, ?_⟩
    · intro occurrence hmem
      obtain ⟨hmem, hlt⟩ := List.mem_filter.mp hmem
      have hacross := h occurrence hmem
      apply (hwhole.stands occurrence hmem).of_append
      simp only [decide_eq_true_eq, Occurrence.stop] at hlt hacross
      omega
    · intro position _ huncovered length value hstands
      obtain ⟨hpos, hle⟩ := hstands.within decides.ne_nil
      obtain ⟨occurrence, hmem, hcovers⟩ :=
        hbefore position (by omega) length value (hstands.append back)
      exact huncovered occurrence hmem hcovers
  rw [leftmost_iff decides] at hleft
  rw [hleft] at hbefore
  exact hbefore

end Galley
