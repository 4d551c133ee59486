import Mathlib
import Galley.Proofs.Binary64.Text
import Galley.Report.Layout

/-! # Columns of the table of images -/

namespace Galley.Report

open Text (IsWord)

/-! ## Widths -/

theorem columnWidth_eq (values : List String) (header : String) :
    columnWidth values header = (values.map String.length).foldr max header.length := by
  rw [columnWidth, ← List.foldl_eq_foldr, List.foldl_map]

theorem length_le_columnWidth {values : List String} {value : String} (h : value ∈ values)
    (header : String) : value.length ≤ columnWidth values header := by
  rw [columnWidth_eq]
  exact List.le_max_of_le' header.length (List.mem_map_of_mem h) le_rfl

theorem header_length_le_columnWidth (values : List String) (header : String) :
    header.length ≤ columnWidth values header := by
  rw [columnWidth_eq]
  induction values with
  | nil => exact le_rfl
  | cons first values ih => exact ih.trans (le_max_right _ _)

/-! ## Cells -/

/-- A field with the spaces between it and the next column. -/
def cell (width : Nat) (field : List Char) : List Char :=
  field ++ List.replicate (width - field.length + 2) ' '

theorem length_cell {width : Nat} {field : List Char} (h : field.length ≤ width) :
    (cell width field).length = width + 2 := by
  rw [cell, List.length_append, List.length_replicate]
  omega

theorem spaces_suffix_cell (width : Nat) (field : List Char) :
    [' ', ' '] <:+ cell width field := by
  refine ⟨field ++ List.replicate (width - field.length) ' ', ?_⟩
  rw [cell, List.replicate_add, List.append_assoc]
  rfl

theorem row_toList (width : Nat) (name ratio words columns : String) :
    (row width name ratio words columns).toList =
      cell width name.toList ++ cell 13 ratio.toList ++ cell 16 words.toList ++ columns.toList := by
  have hpad : ∀ (width : Nat) (field : String),
      (pad width field).toList ++ [' ', ' '] = cell width field.toList := by
    intro width field
    rw [pad, cell, List.replicate_add, String.toList_append, String.toList_ofList,
      String.length_toList, List.append_assoc]
    rfl
  simp only [row, String.toList_append, ← hpad, List.append_assoc]
  rfl

/-! ## Fields -/

/-- A field starts that many characters into a line, with spaces or a border on both sides. -/
def StartsAt (line : List Char) (offset : Nat) (field : List Char) : Prop :=
  ∃ before after, line = before ++ field ++ after ∧ before.length = offset ∧
    [' ', ' '] <:+ before ∧ (after = [] ∨ [' ', ' '] <+: after)

theorem startsAt_cell {before : List Char} {offset : Nat} (hlength : before.length = offset)
    (hspaces : [' ', ' '] <:+ before) (width : Nat) (field rest : List Char) :
    StartsAt (before ++ cell width field ++ rest) offset field := by
  refine ⟨before, List.replicate (width - field.length + 2) ' ' ++ rest, ?_, hlength, hspaces,
    .inr ?_⟩
  · simp only [cell, List.append_assoc]
  · rw [Nat.add_comm, List.replicate_add, List.append_assoc]
    exact List.prefix_append _ _

/-- Where the columns of a line start, as far as the fields before them fit. -/
structure Aligned (width : Nat) (ratio words columns : List Char) (line : List Char) : Prop where
  ratio_at : StartsAt line (width + 2) ratio
  words_at : ratio.length ≤ 13 → StartsAt line (width + 17) words
  columns_at : ratio.length ≤ 13 → words.length ≤ 16 → StartsAt line (width + 35) columns

theorem aligned_row {width : Nat} {name : String} (hname : name.length ≤ width)
    (ratio words columns : String) :
    Aligned width ratio.toList words.toList columns.toList
      (row width name ratio words columns).toList := by
  have hfirst := length_cell (hname.trans_eq' name.length_toList)
  rw [row_toList]
  refine ⟨?_, ?_, ?_⟩
  · rw [List.append_assoc]
    exact startsAt_cell hfirst (spaces_suffix_cell _ _) _ _ _
  · intro hratio
    refine startsAt_cell ?_ ((spaces_suffix_cell _ _).trans (List.suffix_append _ _)) _ _ _
    rw [List.length_append, hfirst, length_cell hratio]
  · intro hratio hwords
    refine ⟨_, [], (List.append_nil _).symm, ?_,
      (spaces_suffix_cell _ _).trans (List.suffix_append _ _), .inl rfl⟩
    rw [List.length_append, List.length_append, hfirst, length_cell hratio, length_cell hwords]

theorem words_row {name ratio words columns : String} (hname : IsWord name.toList)
    (hratio : IsWord ratio.toList) (hwords : IsWord words.toList)
    (hcolumns : IsWord columns.toList) (width : Nat) :
    Text.words (row width name ratio words columns).toList =
      [name.toList, ratio.toList, words.toList, columns.toList] := by
  rw [row_toList, List.append_assoc, List.append_assoc, cell, hname.words_append, cell,
    hratio.words_append, cell, hwords.words_append, hcolumns.words_eq]

theorem newline_not_mem_row {name ratio words columns : String} (hname : '\n' ∉ name.toList)
    (hratio : '\n' ∉ ratio.toList) (hwords : '\n' ∉ words.toList)
    (hcolumns : '\n' ∉ columns.toList) (width : Nat) :
    '\n' ∉ (row width name ratio words columns).toList := by
  rw [row_toList]
  simp [cell, List.mem_replicate, hname, hratio, hwords, hcolumns]

end Galley.Report
