import Mathlib
import Galley.Proofs.Display.Lines
import Galley.Proofs.Document.Scanning
import Galley.Proofs.Document.Stripping
import Galley.Proofs.Figure
import Galley.Proofs.Markup.Region

/-! # Counting what was written -/

namespace Galley

open Markup

variable {κ : Type} {delimiter : Delimiter κ}

/-! ## Regions of a document -/

/-- Events whose marks are an opening, what is inside and a closing are those of a region. -/
theorem exists_region_events (label : κ) {front : List Event} {opens closes : Mark}
    {inside : List Mark} (h : front.map (·.mark) = opens :: (inside ++ [closes])) :
    ∃ region : Region κ, front = region.events ∧ region.label = label ∧
      region.opening.mark = opens ∧ region.inside.map (·.mark) = inside ∧
      region.closing.mark = closes := by
  obtain ⟨opening, rest, rfl, hopens, hrest⟩ := List.map_eq_cons_iff.mp h
  obtain ⟨between, last, rfl, hinside, hlast⟩ := List.map_eq_append_iff.mp hrest
  obtain ⟨closing, rfl, hcloses⟩ := List.map_eq_singleton_iff.mp hlast
  exact ⟨⟨label, opening, between, closing⟩, rfl, rfl, hopens, hinside, hcloses⟩

/-- What an item adds to the regions of one kind: nothing, as it opens none, or one region. -/
def Contributes (delimiter : Delimiter κ) (measure : Region κ → Nat) (item : Item) (n : Nat) :
    Prop :=
  ∀ front : List Event, front.map (·.mark) = item.marks →
    (n = 0 ∧ ∀ event ∈ front, delimiter event.mark = none) ∨
      ∃ region closer, front = region.events ∧ region.Closed delimiter closer ∧
        measure region = n

theorem contributes_zero {measure : Region κ → Nat} {item : Item}
    (h : ∀ mark ∈ item.marks, delimiter mark = none) : Contributes delimiter measure item 0 := by
  intro front hfront
  left
  refine ⟨rfl, ?_⟩
  intro event hevent
  apply h
  rw [← hfront]
  exact List.mem_map_of_mem hevent

/-- A sum over the regions of one kind is the sum of what the items contribute. -/
theorem sum_map_regions {measure : Region κ → Nat} {contribution : Item → Nat}
    (h : ∀ item, Contributes delimiter measure item (contribution item)) (document : Document)
    (events : List Event) (hevents : events.map (·.mark) = document.flatMap Item.marks) :
    ((regions delimiter events).map measure).sum = (document.map contribution).sum := by
  induction document generalizing events with
  | nil =>
      have hnil : events = [] := by simpa using hevents
      rw [hnil]
      rfl
  | cons item document ih =>
      rw [List.flatMap_cons] at hevents
      obtain ⟨front, back, rfl, hfront, hback⟩ := List.map_eq_append_iff.mp hevents
      rw [List.map_cons, List.sum_cons, ← ih back hback]
      rcases h item front hfront with hnone | hregion
      · obtain ⟨hzero, hopening⟩ := hnone
        rw [regions_append_of_not_opening hopening, hzero, Nat.zero_add]
      · obtain ⟨region, closer, rfl, hclosed, hmeasure⟩ := hregion
        rw [regions_append_closed hclosed, List.map_cons, List.sum_cons, hmeasure]

/-! ## The three kinds of regions -/

theorem DisplayEnvironment.name_mem (environment : DisplayEnvironment) :
    environment.name ∈ Display.defaultEnvironments := by
  cases environment <;> decide

theorem figureName_not_mem (starred : Bool) :
    figureName starred ∉ Display.defaultEnvironments := by
  cases starred <;> decide

theorem contributes_rowCount (item : Item) :
    Contributes (environments Display.defaultEnvironments)
      (fun region => region.inside.countP (·.mark == .lineBreak) + 1) item item.rowCount := by
  cases item with
  | piece content => exact contributes_zero (by simp [Item.marks])
  | dollars pieces => exact contributes_zero (by simp [Item.marks, environments])
  | brackets pieces => exact contributes_zero (by simp [Item.marks, environments])
  | figure starred pieces =>
      exact contributes_zero (by simp [Item.marks, environments, figureName_not_mem starred])
  | display environment rows hrows =>
      intro front hfront
      right
      obtain ⟨region, rfl, hlabel, hopens, hinside, hcloses⟩ :=
        exists_region_events environment.name hfront
      refine ⟨region, .endEnv environment.name, rfl, ⟨?_, ?_, hcloses⟩, ?_⟩
      · rw [hopens, hlabel]
        simp [environments, environment.name_mem]
      · intro event hevent hmark
        have hmem : event.mark ∈ region.inside.map (·.mark) := List.mem_map_of_mem hevent
        rw [hinside, hmark] at hmem
        simp at hmem
      · have hbreaks : region.inside.countP (·.mark == .lineBreak) = rows.length - 1 := by
          have hmap := List.countP_map (p := (· == Mark.lineBreak)) (f := (·.mark))
            (l := region.inside)
          rw [hinside, List.countP_replicate] at hmap
          simpa [Function.comp_def] using hmap.symm
        have hlength := List.length_pos_iff.mpr hrows
        simp only [hbreaks, Item.rowCount]
        omega

/-- An item of two marks, of which the first asks for the second, adds one region. -/
theorem contributes_one {label : κ} {item : Item} {opens closes : Mark}
    (hmarks : item.marks = [opens, closes]) (h : delimiter opens = some (label, closes)) :
    Contributes delimiter (fun _ => 1) item 1 := by
  intro front hfront
  right
  have hends : front.map (·.mark) = opens :: ([] ++ [closes]) := hfront.trans hmarks
  obtain ⟨region, rfl, hlabel, hopens, hinside, hcloses⟩ := exists_region_events label hends
  have hnil : region.inside = [] := by simpa using hinside
  refine ⟨region, closes, rfl, ⟨?_, by simp [hnil], hcloses⟩, rfl⟩
  rw [hopens, hlabel, h]

/-- The items that consist of an opener and a closer add one region each, when no other item has
the opener. -/
theorem contributes_between {opener closer : Mark} {condition : Item → Bool}
    (h : ∀ item, if condition item then item.marks = [opener, closer] else opener ∉ item.marks)
    (item : Item) :
    Contributes (between opener closer) (fun _ => 1) item (if condition item then 1 else 0) := by
  by_cases hitem : condition item
  · have hmarks : item.marks = [opener, closer] := by simpa [hitem] using h item
    rw [if_pos hitem]
    exact contributes_one hmarks (if_pos rfl)
  · have hopener : opener ∉ item.marks := by simpa [hitem] using h item
    rw [if_neg hitem]
    apply contributes_zero
    intro mark hmark
    apply if_neg
    rintro rfl
    exact hopener hmark

theorem contributes_isDollars :
    ∀ item, Contributes dollars (fun _ => 1) item (if item.isDollars then 1 else 0) :=
  contributes_between fun item => by cases item <;> simp [Item.isDollars, Item.marks]

theorem contributes_isBrackets :
    ∀ item, Contributes brackets (fun _ => 1) item (if item.isBrackets then 1 else 0) :=
  contributes_between fun item => by cases item <;> simp [Item.isBrackets, Item.marks]

/-! ## Displayed lines and figures -/

theorem sum_map_ite (condition : Item → Bool) (document : Document) :
    (document.map fun item => if condition item then 1 else 0).sum =
      document.countP condition := by
  induction document with
  | nil => rfl
  | cons item document ih =>
      rw [List.map_cons, List.sum_cons, ih, List.countP_cons, Nat.add_comm]

theorem ofMark?_beginEnv_name (environment : DisplayEnvironment) :
    ColumnMode.ofMark? (.beginEnv environment.name) = none := by
  cases environment <;> rfl

theorem filterMap_marks (item : Item) :
    item.marks.filterMap ColumnMode.ofMark? = item.columnMode?.toList := by
  cases item with
  | piece content => rfl
  | display environment rows hrows =>
      have hbreak : ColumnMode.ofMark? .lineBreak = none := rfl
      have hend : ColumnMode.ofMark? (.endEnv environment.name) = none := rfl
      simp [Item.marks, Item.columnMode?, ofMark?_beginEnv_name environment, hbreak, hend]
  | dollars pieces => rfl
  | brackets pieces => rfl
  | figure starred pieces => cases starred <;> rfl

/-- Counting on the stripped text of a printed document gives what was written: the rows of the
display environments, one line for each formula in double dollars or brackets, and the figures
in order. -/
theorem count_strip_print (document : Document) :
    Display.countLines Display.defaultEnvironments (Comment.strip document.print) =
        (document.map Item.rowCount).sum + document.countP Item.isDollars +
          document.countP Item.isBrackets ∧
      (Figure.list (Comment.strip document.print)).map (·.columnMode) =
        document.filterMap Item.columnMode? ∧
      (Figure.list (Comment.strip document.print)).map (·.index) =
        List.range (document.filterMap Item.columnMode?).length := by
  have hmarks : (events (Comment.strip document.print)).map (·.mark) =
      document.flatMap Item.marks := by
    rw [map_mark_events, document.toList_strip_print, marks_flatMap_printStripped]
  have hmodes : (Figure.list (Comment.strip document.print)).map (·.columnMode) =
      document.filterMap Item.columnMode? := by
    rw [Figure.list, map_columnMode_ofEvents, hmarks, List.filterMap_flatMap]
    simp only [filterMap_marks]
    exact (List.filterMap_eq_flatMap_toList _ _).symm
  refine ⟨?_, hmodes, ?_⟩
  · rw [countLines_eq, sum_map_regions contributes_rowCount document _ hmarks,
      sum_map_regions contributes_isDollars document _ hmarks,
      sum_map_regions contributes_isBrackets document _ hmarks, sum_map_ite, sum_map_ite]
  · rw [← hmodes, List.length_map]
    exact map_index_ofEvents _

end Galley
