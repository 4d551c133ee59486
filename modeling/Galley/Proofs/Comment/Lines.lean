import Mathlib.Data.List.TakeWhile
import Galley.Comment

/-! # Comments line by line -/

namespace Galley.Comment

/-! ## Lines -/

@[ext] structure Line where
  chars : List Char
  no_lineEnd : ∀ c ∈ chars, isLineEnd c = false

/-- A text cut at each of its line ends. The last line has none behind it. -/
structure Lines where
  ended : List (Line × { c : Char // isLineEnd c = true })
  last : Line

def Line.cons (c : Char) (h : isLineEnd c = false) (line : Line) : Line :=
  ⟨c :: line.chars, by simpa [h] using line.no_lineEnd⟩

namespace Lines

/-- The lines and the line ends in their order. -/
def chars (lines : Lines) : List Char :=
  lines.ended.flatMap (fun (line, lineEnd) => line.chars ++ [lineEnd.val]) ++ lines.last.chars

def map (f : Line → Line) (lines : Lines) : Lines :=
  ⟨lines.ended.map fun (line, lineEnd) => (f line, lineEnd), f lines.last⟩

def cons (c : Char) (h : isLineEnd c = false) : Lines → Lines
  | ⟨[], last⟩ => ⟨[], last.cons c h⟩
  | ⟨(line, lineEnd) :: ended, last⟩ => ⟨(line.cons c h, lineEnd) :: ended, last⟩

/-- Cuts a text at each single line end. -/
def cut : List Char → Lines
  | [] => ⟨[], ⟨[], by simp⟩⟩
  | c :: cs =>
    if h : isLineEnd c = true then ⟨(⟨[], by simp⟩, ⟨c, h⟩) :: (cut cs).ended, (cut cs).last⟩
    else (cut cs).cons c (by simpa using h)

theorem chars_cons (c : Char) (h : isLineEnd c = false) (lines : Lines) :
    (lines.cons c h).chars = c :: lines.chars := by
  obtain ⟨ended, last⟩ := lines
  cases ended <;> rfl

theorem chars_cut (cs : List Char) : (cut cs).chars = cs := by
  induction cs with
  | nil => rfl
  | cons c cs ih =>
      by_cases h : isLineEnd c = true
      · simp only [chars] at ih
        simp [cut, h, chars, ih]
      · simp [cut, h, chars_cons, ih]

end Lines

/-! ## The comment of a line -/

/-- The number of backslashes at the end of a text. -/
def backslashesAtEnd (cs : List Char) : Nat :=
  (cs.reverse.takeWhile (· == '\\')).length

/-- A percent sign with an even number of backslashes right before it. -/
def OpensComment (cs : List Char) (position : Nat) : Prop :=
  cs[position]? = some '%' ∧ backslashesAtEnd (cs.take position) % 2 = 0

instance (cs : List Char) (position : Nat) : Decidable (OpensComment cs position) :=
  inferInstanceAs (Decidable (_ ∧ _))

/-- Where the comment of a line begins, or the length of the line if it has none. -/
def commentStart (cs : List Char) : Nat :=
  ((List.range cs.length).find? fun position => OpensComment cs position).getD cs.length

def Line.withoutComment (line : Line) : Line :=
  ⟨line.chars.take (commentStart line.chars), by
    intro c hc
    exact line.no_lineEnd c (List.mem_of_mem_take hc)⟩

theorem not_opensComment_of_lt {cs : List Char} {position : Nat}
    (h : position < commentStart cs) : ¬ OpensComment cs position := by
  intro hopens
  have hlt : position < cs.length := by
    obtain ⟨hlt, -⟩ := List.getElem?_eq_some_iff.mp hopens.1
    exact hlt
  unfold commentStart at h
  cases hfind : (List.range cs.length).find? fun p => OpensComment cs p with
  | none =>
      have hnone := List.find?_eq_none.mp hfind position (List.mem_range.mpr hlt)
      simp [hopens] at hnone
  | some start =>
      rw [hfind] at h
      obtain ⟨-, -, hfirst⟩ := List.find?_range_eq_some.mp hfind
      simpa [hopens] using hfirst position h

theorem commentStart_le (cs : List Char) : commentStart cs ≤ cs.length := by
  unfold commentStart
  cases hfind : (List.range cs.length).find? fun p => OpensComment cs p with
  | none => simp
  | some start =>
      have hmem := List.mem_of_find?_eq_some hfind
      simp only [Option.getD_some]
      exact Nat.le_of_lt (List.mem_range.mp hmem)

theorem opensComment_commentStart {cs : List Char} (h : commentStart cs < cs.length) :
    OpensComment cs (commentStart cs) := by
  unfold commentStart at h ⊢
  cases hfind : (List.range cs.length).find? fun p => OpensComment cs p with
  | none => simp [hfind] at h
  | some start => simpa using List.find?_some hfind

theorem commentStart_eq_length {cs : List Char}
    (h : ∀ position, ¬ OpensComment cs position) : commentStart cs = cs.length := by
  apply Nat.le_antisymm (commentStart_le cs)
  apply Nat.le_of_not_lt
  intro hlt
  exact h _ (opensComment_commentStart hlt)

/-- What stands before the comment of a line opens no comment of its own. -/
theorem commentStart_take_commentStart (cs : List Char) :
    commentStart (cs.take (commentStart cs)) = (cs.take (commentStart cs)).length := by
  apply commentStart_eq_length
  intro position hopens
  obtain ⟨hlt, -⟩ := List.getElem?_eq_some_iff.mp hopens.1
  have hbefore : position < commentStart cs := by
    rw [List.length_take] at hlt
    omega
  apply not_opensComment_of_lt hbefore
  obtain ⟨hpercent, heven⟩ := hopens
  rw [List.getElem?_take_of_lt hbefore] at hpercent
  rw [List.take_take, Nat.min_eq_left (Nat.le_of_lt hbefore)] at heven
  exact ⟨hpercent, heven⟩

theorem Line.withoutComment_withoutComment (line : Line) :
    line.withoutComment.withoutComment = line.withoutComment := by
  simp only [withoutComment, commentStart_take_commentStart, List.take_length]

theorem exists_append_backslashes (cs : List Char) :
    ∃ kept, cs = kept ++ List.replicate (backslashesAtEnd cs) '\\' ∧
      kept.getLast? ≠ some '\\' := by
  refine ⟨(cs.reverse.dropWhile (· == '\\')).reverse, ?_, ?_⟩
  · have hbackslashes : cs.reverse.takeWhile (· == '\\') =
        List.replicate (backslashesAtEnd cs) '\\' := by
      apply List.eq_replicate_iff.mpr
      refine ⟨rfl, ?_⟩
      intro c hc
      simpa using List.mem_takeWhile_imp hc
    have hsplit := List.takeWhile_append_dropWhile (p := (· == '\\')) (l := cs.reverse)
    have hreverse := congrArg List.reverse hsplit
    rw [hbackslashes, List.reverse_append, List.reverse_replicate, List.reverse_reverse]
      at hreverse
    exact hreverse.symm
  · intro hlast
    have hnot := List.head?_dropWhile_not (· == '\\') cs.reverse
    rw [List.getLast?_reverse] at hlast
    rw [hlast] at hnot
    simp at hnot

/-- A line stays whole, or it is cut before a percent sign and keeps the pairs of backslashes
right before it. -/
theorem Line.withoutComment_cases (line : Line) :
    line.withoutComment = line ∨ ∃ kept pairs removed, kept.getLast? ≠ some '\\' ∧
      line.chars = kept ++ List.replicate (2 * pairs) '\\' ++ '%' :: removed ∧
      line.withoutComment.chars = kept ++ List.replicate (2 * pairs) '\\' := by
  by_cases hlt : commentStart line.chars < line.chars.length
  · right
    obtain ⟨hpercent, heven⟩ := opensComment_commentStart hlt
    obtain ⟨kept, hkept, hlast⟩ := exists_append_backslashes line.withoutComment.chars
    have hpairs : backslashesAtEnd line.withoutComment.chars =
        2 * (backslashesAtEnd line.withoutComment.chars / 2) := by
      change backslashesAtEnd line.withoutComment.chars % 2 = 0 at heven
      omega
    rw [hpairs] at hkept
    refine ⟨kept, _, line.chars.drop (commentStart line.chars + 1), hlast, ?_, hkept⟩
    rw [List.getElem?_eq_getElem hlt] at hpercent
    rw [← hkept, ← Option.some.inj hpercent, ← List.drop_eq_getElem_cons hlt]
    exact (List.take_append_drop _ line.chars).symm
  · left
    apply Line.ext
    exact List.take_of_length_le (Nat.le_of_not_lt hlt)

/-! ## Stripping one line -/

/-- The place behind a text that is not in a comment. -/
def placeAfter (before : List Char) : Place :=
  if backslashesAtEnd before % 2 = 0 then .even else .odd

theorem backslashesAtEnd_append (before : List Char) (c : Char) :
    backslashesAtEnd (before ++ [c]) = if c = '\\' then backslashesAtEnd before + 1 else 0 := by
  by_cases h : c = '\\' <;> simp [backslashesAtEnd, h]

/-- One step outside of comments keeps the character and goes on to the place behind it. -/
theorem stripFrom_placeAfter_cons {before : List Char} {c : Char} (cs : List Char)
    (h : ¬ (c = '%' ∧ backslashesAtEnd before % 2 = 0)) :
    stripFrom (placeAfter before) (c :: cs) = c :: stripFrom (placeAfter (before ++ [c])) cs := by
  by_cases heven : backslashesAtEnd before % 2 = 0
  · have hpercent : c ≠ '%' := fun hc => h ⟨hc, heven⟩
    by_cases hbackslash : c = '\\'
    · have hodd : ¬ (backslashesAtEnd before + 1) % 2 = 0 := by omega
      simp [placeAfter, backslashesAtEnd_append, stripFrom, heven, hbackslash, hodd]
    · simp [placeAfter, backslashesAtEnd_append, stripFrom, heven, hbackslash, hpercent]
  · by_cases hbackslash : c = '\\'
    · have hback : (backslashesAtEnd before + 1) % 2 = 0 := by omega
      simp [placeAfter, backslashesAtEnd_append, stripFrom, heven, hbackslash, hback]
    · simp [placeAfter, backslashesAtEnd_append, stripFrom, heven, hbackslash]

/-- Up to the comment of a line every character is kept. -/
theorem stripFrom_even_of_le_commentStart (cs : List Char) (position : Nat)
    (h : position ≤ commentStart cs) :
    stripFrom .even cs =
      cs.take position ++ stripFrom (placeAfter (cs.take position)) (cs.drop position) := by
  induction position with
  | zero => simp [placeAfter, backslashesAtEnd]
  | succ position ih =>
      have hlt : position < cs.length := by
        have hle := commentStart_le cs
        omega
      have hopens := not_opensComment_of_lt (show position < commentStart cs by omega)
      have hstep : ¬ (cs[position] = '%' ∧ backslashesAtEnd (cs.take position) % 2 = 0) := by
        intro hboth
        apply hopens
        rw [OpensComment, List.getElem?_eq_getElem hlt, hboth.1]
        exact ⟨rfl, hboth.2⟩
      rw [ih (by omega), List.drop_eq_getElem_cons hlt, stripFrom_placeAfter_cons _ hstep,
        List.take_append_getElem hlt]
      rw [← List.take_append_getElem hlt, List.append_assoc]
      rfl

/-- Nothing is stripped from a text in which no percent sign opens a comment. -/
theorem stripFrom_even_of_not_opensComment {cs : List Char}
    (h : ∀ position, ¬ OpensComment cs position) : stripFrom .even cs = cs := by
  have hwhole := Nat.le_of_eq (commentStart_eq_length h).symm
  have hstrip := stripFrom_even_of_le_commentStart cs cs.length hwhole
  simpa [stripFrom] using hstrip

theorem stripFrom_comment {cs : List Char} (h : ∀ c ∈ cs, isLineEnd c = false) :
    stripFrom .comment cs = [] := by
  induction cs with
  | nil => rfl
  | cons c cs ih =>
      have hc := h c (by simp)
      simp [stripFrom, hc, ih fun d hd => h d (List.mem_cons_of_mem c hd)]

theorem Line.stripFrom_even (line : Line) :
    stripFrom .even line.chars = line.withoutComment.chars := by
  rw [stripFrom_even_of_le_commentStart line.chars _ (Nat.le_refl _)]
  change _ = line.chars.take (commentStart line.chars)
  suffices hrest : stripFrom (placeAfter (line.chars.take (commentStart line.chars)))
      (line.chars.drop (commentStart line.chars)) = [] by
    rw [hrest, List.append_nil]
  by_cases hlt : commentStart line.chars < line.chars.length
  · obtain ⟨hpercent, heven⟩ := opensComment_commentStart hlt
    rw [List.getElem?_eq_getElem hlt] at hpercent
    rw [List.drop_eq_getElem_cons hlt, Option.some.inj hpercent, placeAfter, if_pos heven]
    change stripFrom .comment _ = []
    apply stripFrom_comment
    intro c hc
    exact line.no_lineEnd c (List.mem_of_mem_drop hc)
  · rw [List.drop_eq_nil_of_le (Nat.le_of_not_lt hlt), stripFrom]

/-! ## Stripping line by line -/

/-- A line end is kept from every place, and the next line begins afresh. -/
theorem stripFrom_append_lineEnd (place : Place) {line : List Char} {lineEnd : Char}
    (rest : List Char) (hline : ∀ c ∈ line, isLineEnd c = false)
    (hend : isLineEnd lineEnd = true) :
    stripFrom place (line ++ lineEnd :: rest) =
      stripFrom place line ++ lineEnd :: stripFrom .even rest := by
  induction line generalizing place with
  | nil =>
      have hpercent : lineEnd ≠ '%' := by
        intro h
        rw [h] at hend
        revert hend
        decide
      have hbackslash : lineEnd ≠ '\\' := by
        intro h
        rw [h] at hend
        revert hend
        decide
      cases place <;> simp [stripFrom, hend, hpercent, hbackslash]
  | cons c line ih =>
      have hc := hline c (by simp)
      have hrest : ∀ d ∈ line, isLineEnd d = false :=
        fun d hd => hline d (List.mem_cons_of_mem c hd)
      cases place with
      | odd => simp [stripFrom, ih .even hrest]
      | comment => simp [stripFrom, hc, ih .comment hrest]
      | even =>
          by_cases hpercent : c = '%'
          · simp [stripFrom, hpercent, ih .comment hrest]
          · simp [stripFrom, hpercent, ih _ hrest]

theorem Lines.stripFrom_even (lines : Lines) :
    stripFrom .even lines.chars = (lines.map Line.withoutComment).chars := by
  obtain ⟨ended, last⟩ := lines
  induction ended with
  | nil => exact last.stripFrom_even
  | cons first ended ih =>
      obtain ⟨line, lineEnd, hend⟩ := first
      simp only [chars, map] at ih
      simp only [chars, map, List.flatMap_cons, List.append_assoc, List.cons_append,
        List.nil_append, List.map_cons]
      rw [stripFrom_append_lineEnd .even _ line.no_lineEnd hend, line.stripFrom_even, ih]

theorem Lines.map_withoutComment_map (lines : Lines) :
    (lines.map Line.withoutComment).map Line.withoutComment = lines.map Line.withoutComment := by
  simp [map, Line.withoutComment_withoutComment]

theorem toList_strip (text : String) : (strip text).toList = stripFrom .even text.toList := by
  simp [strip]

theorem strip_strip (text : String) : strip (strip text) = strip text := by
  apply String.toList_injective
  rw [toList_strip, toList_strip, ← Lines.chars_cut text.toList, Lines.stripFrom_even,
    Lines.stripFrom_even, Lines.map_withoutComment_map]

/-- Stripping cuts every line before its first percent sign with an even number of backslashes
before it. The line ends stay, the backslashes before a comment stay, and nothing is left to be
stripped. -/
theorem strip_eq_line_by_line (text : String) :
    (Lines.cut text.toList).chars = text.toList ∧
      (strip text).toList = ((Lines.cut text.toList).map Line.withoutComment).chars ∧
      (∀ line : Line, line.withoutComment = line ∨
        ∃ kept pairs removed, kept.getLast? ≠ some '\\' ∧
          line.chars = kept ++ List.replicate (2 * pairs) '\\' ++ '%' :: removed ∧
          line.withoutComment.chars = kept ++ List.replicate (2 * pairs) '\\') ∧
      strip (strip text) = strip text := by
  refine ⟨Lines.chars_cut text.toList, ?_, Line.withoutComment_cases, strip_strip text⟩
  rw [toList_strip, ← Lines.stripFrom_even, Lines.chars_cut]

example : strip "50\\% of a\\\\% rest\nb" = "50\\% of a\\\\\nb" := by decide

end Galley.Comment
