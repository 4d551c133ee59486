import Mathlib
import Galley.Proofs.Estimate.Pricing
import Galley.Proofs.Failure

/-! # Images and figures in their order -/

namespace Galley

theorem ColumnMode.of_ofMark?_eq_some {mark : Markup.Mark} {mode : ColumnMode}
    (h : ColumnMode.ofMark? mark = some mode) : mode = .single ∨ mode = .double := by
  unfold ColumnMode.ofMark? at h
  split at h
  · exact .inl (Option.some.inj h).symm
  · exact .inr (Option.some.inj h).symm
  · cases h

/-- A document has no figures but those of one column and those of two. -/
theorem Figure.columnMode_of_mem_list {source : String} {figure : Figure}
    (h : figure ∈ Figure.list source) :
    figure.columnMode = .single ∨ figure.columnMode = .double := by
  obtain ⟨⟨⟨mode, position⟩, index⟩, hmem, rfl⟩ := List.mem_map.mp h
  obtain ⟨event, -, hevent⟩ := List.mem_filterMap.mp (List.fst_mem_of_mem_zipIdx hmem)
  obtain ⟨found, hfound, hpair⟩ := Option.map_eq_some_iff.mp hevent
  obtain ⟨rfl, rfl⟩ := Prod.mk.inj hpair
  exact ColumnMode.of_ofMark?_eq_some hfound

variable {guide : LengthGuide} {images : List Image} {figures : List Figure} {failure : Failure}

theorem estimateAll_of_length_lt (h : figures.length < images.length) :
    guide.estimateAll images figures =
      .error (.mismatch (.missingFigures images.length figures.length)) := by
  rw [LengthGuide.estimateAll, pairFigures, if_pos h]
  rfl

/-- The failure of the first pair that has no price is the failure of all. -/
theorem estimateAll_eq_error_iff (h : images.length ≤ figures.length) :
    guide.estimateAll images figures = .error failure ↔
      ∃ before image figure after, images.zip figures = before ++ (image, figure) :: after ∧
        (∀ pair ∈ before, ∃ estimate, guide.estimate pair.1 pair.2.columnMode = .ok estimate) ∧
        guide.estimate image figure.columnMode = .error failure := by
  rw [LengthGuide.estimateAll, pairFigures, if_neg (not_lt.mpr h)]
  change (images.zip figures).mapM (fun pair => guide.estimate pair.1 pair.2.columnMode) = _ ↔ _
  rw [mapM_eq_error_iff]
  constructor
  · rintro ⟨before, ⟨image, figure⟩, after, hsplit⟩
    exact ⟨before, image, figure, after, hsplit⟩
  · rintro ⟨before, image, figure, after, hsplit⟩
    exact ⟨before, (image, figure), after, hsplit⟩

theorem exists_zip_eq_append {before after : List Image} {image : Image}
    (h : (before ++ image :: after).length ≤ figures.length) :
    ∃ pairsBefore figure pairsAfter,
      (before ++ image :: after).zip figures = pairsBefore ++ (image, figure) :: pairsAfter ∧
        pairsBefore.map Prod.fst = before := by
  obtain ⟨pairsBefore, rest, hzip, hbefore, hrest⟩ :=
    List.map_eq_append_iff.mp (List.map_fst_zip h)
  obtain ⟨⟨first, figure⟩, pairsAfter, rfl, rfl, -⟩ := List.map_eq_cons_iff.mp hrest
  exact ⟨pairsBefore, figure, pairsAfter, hzip, hbefore⟩

/-- With the default guide, a fault is that of the first image whose sizes make no price. -/
theorem estimateAll_eq_fault_iff
    (hmodes : ∀ figure ∈ figures, figure.columnMode = .single ∨ figure.columnMode = .double)
    (fault : Fault) :
    ({} : LengthGuide).estimateAll images figures = .error (.fault fault) ↔
      images.length ≤ figures.length ∧ ∃ before image after, images = before ++ image :: after ∧
        (∀ earlier ∈ before, earlier.Fair) ∧ image.Faulty fault := by
  by_cases hlength : images.length ≤ figures.length
  · rw [estimateAll_eq_error_iff hlength]
    have hmode : ∀ pair ∈ images.zip figures,
        pair.2.columnMode = .single ∨ pair.2.columnMode = .double :=
      fun pair hpair => hmodes pair.2 (List.of_mem_zip hpair).2
    constructor
    · rintro ⟨before, image, figure, after, hzip, hbefore, hfault⟩
      rw [hzip] at hmode
      refine ⟨hlength, before.map Prod.fst, image, after.map Prod.fst, ?_, ?_, ?_⟩
      · rw [← List.map_fst_zip hlength, hzip]
        simp
      · intro earlier hearlier
        obtain ⟨pair, hpair, rfl⟩ := List.mem_map.mp hearlier
        have hprices := estimate_prices pair.1 (hmode pair (by simp [hpair]))
        exact hprices.exists_ok_iff.mp (hbefore pair hpair)
      · have hprices := estimate_prices image (hmode (image, figure) (by simp))
        exact (hprices.eq_fault_iff fault).mp hfault
    · rintro ⟨-, before, image, after, rfl, hbefore, hfaulty⟩
      obtain ⟨pairsBefore, figure, pairsAfter, hzip, rfl⟩ := exists_zip_eq_append hlength
      rw [hzip] at hmode
      refine ⟨pairsBefore, image, figure, pairsAfter, hzip, ?_, ?_⟩
      · intro pair hpair
        have hprices := estimate_prices pair.1 (hmode pair (by simp [hpair]))
        exact hprices.exists_ok_iff.mpr (hbefore pair.1 (List.mem_map_of_mem hpair))
      · have hprices := estimate_prices image (hmode (image, figure) (by simp))
        exact (hprices.eq_fault_iff fault).mpr hfaulty
  · rw [estimateAll_of_length_lt (not_le.mp hlength)]
    simp [hlength]

end Galley
