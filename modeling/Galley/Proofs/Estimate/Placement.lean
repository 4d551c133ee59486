import Mathlib
import Galley.Pipeline
import Galley.Proofs.CompileLog.Sizes
import Galley.Proofs.Estimate.Matching
import Galley.Proofs.Figure

/-!
# What is priced with what

A log gives the names and the sizes of images, and a document begins figures. The three are put
together by their order alone.
-/

namespace Galley

open CompileLog (length_images getElem?_images)

variable {guide : LengthGuide} {log source : String} {images : List Image}

/-- The `i`-th image of a log and the mode of the `i`-th figure of a document. -/
structure PlacedAt (log source : String) (i : Nat) (image : Image) (mode : ColumnMode) :
    Prop where
  name : (CompileLog.fileNames log)[i]? = some image.fileName
  size : ∃ sizes, CompileLog.sizes log = .ok sizes ∧ sizes[i]? = some (image.width, image.height)
  mode : ∃ event, (figureEvents source)[i]? = some event ∧ mode = .ofStar event.mark

/-- What comes of pricing the `i`-th image of a log. -/
def OutcomeAt (guide : LengthGuide) (log source : String) (i : Nat)
    (outcome : Except Failure Estimate) : Prop :=
  ∃ image mode, PlacedAt log source i image mode ∧ guide.estimate image mode = outcome

/-- Two logs and two documents that agree on their first images and figures. -/
structure AgreeOn (count : Nat) (log log' source source' : String) : Prop where
  names : CompileLog.fileNames log' = CompileLog.fileNames log
  sizes : ∃ sizes sizes', CompileLog.sizes log = .ok sizes ∧ CompileLog.sizes log' = .ok sizes' ∧
    sizes'.take count = sizes.take count
  figures : ((figureEvents source').map (·.mark)).take count =
    ((figureEvents source).map (·.mark)).take count

/-- The images of a log, each with the mode of its figure. -/
def placements (images : List Image) (source : String) : List (Image × ColumnMode) :=
  images.zip ((figureEvents source).map (.ofStar ·.mark))

theorem getElem?_placements (h : CompileLog.images log = .ok images) (i : Nat) (image : Image)
    (mode : ColumnMode) :
    (placements images source)[i]? = some (image, mode) ↔ PlacedAt log source i image mode := by
  rw [placements, List.getElem?_zip_eq_some, getElem?_images h, List.getElem?_map,
    Option.map_eq_some_iff]
  constructor
  · rintro ⟨⟨hname, hsize⟩, event, hevent, hmode⟩
    exact ⟨hname, hsize, event, hevent, hmode.symm⟩
  · rintro ⟨hname, hsize, event, hevent, hmode⟩
    exact ⟨⟨hname, hsize⟩, event, hevent, hmode.symm⟩

theorem estimateAll_eq_mapM (h : images.length ≤ (figureEvents source).length) :
    guide.estimateAll images (Figure.list source) =
      (placements images source).mapM fun placed => guide.estimate placed.1 placed.2 := by
  rw [LengthGuide.estimateAll, pairFigures, Figure.length_list, if_neg (not_lt.mpr h), placements,
    ← Figure.map_columnMode_list, List.zip_map_right, List.mapM_map]
  rfl

theorem length_placements (h : images.length ≤ (figureEvents source).length) :
    (placements images source).length = images.length := by
  rw [placements, List.length_zip, List.length_map, Nat.min_eq_left h]

theorem outcomeAt_iff (h : CompileLog.images log = .ok images) (i : Nat)
    (outcome : Except Failure Estimate) :
    OutcomeAt guide log source i outcome ↔ ∃ placed, (placements images source)[i]? = some placed ∧
      guide.estimate placed.1 placed.2 = outcome := by
  constructor
  · rintro ⟨image, mode, hplaced, houtcome⟩
    exact ⟨(image, mode), (getElem?_placements h i image mode).mpr hplaced, houtcome⟩
  · rintro ⟨⟨image, mode⟩, hplaced, houtcome⟩
    exact ⟨image, mode, (getElem?_placements h i image mode).mp hplaced, houtcome⟩

theorem estimate_fileName_mode {image : Image} {mode : ColumnMode} {estimate : Estimate}
    (h : guide.estimate image mode = .ok estimate) :
    estimate.fileName = image.fileName ∧ estimate.columnMode = mode :=
  (LengthGuide.estimate_eq_ok_iff.mp h).2.2

/-! ## All or nothing -/

theorem exists_estimateAll_iff (h : CompileLog.images log = .ok images)
    (hle : images.length ≤ (figureEvents source).length) :
    (∃ estimates, guide.estimateAll images (Figure.list source) = .ok estimates) ↔
      ∀ i < images.length, ∃ estimate, OutcomeAt guide log source i (.ok estimate) := by
  rw [estimateAll_eq_mapM hle]
  constructor
  · rintro ⟨estimates, hall⟩ i hi
    have hlength := length_of_mapM_eq_ok hall
    rw [length_placements hle] at hlength
    have hget := List.getElem?_eq_getElem (hlength ▸ hi)
    exact ⟨_, (outcomeAt_iff h i _).mpr (getElem?_of_mapM_eq_ok hall hget)⟩
  · intro hprices
    apply exists_mapM_eq_ok
    intro placed hmem
    obtain ⟨i, hi⟩ := List.mem_iff_getElem?.mp hmem
    have hlt : i < images.length := by
      rw [← length_placements hle]
      exact (List.getElem?_eq_some_iff.mp hi).1
    obtain ⟨estimate, houtcome⟩ := hprices i hlt
    obtain ⟨other, hother, hestimate⟩ := (outcomeAt_iff h i _).mp houtcome
    obtain rfl : placed = other := Option.some.inj (hi.symm.trans hother)
    exact ⟨estimate, hestimate⟩

theorem estimates_in_order (h : CompileLog.images log = .ok images)
    (hle : images.length ≤ (figureEvents source).length) {estimates : List Estimate}
    (hall : guide.estimateAll images (Figure.list source) = .ok estimates) :
    estimates.length = images.length ∧ ∀ i estimate, estimates[i]? = some estimate →
      ∃ image, PlacedAt log source i image estimate.columnMode ∧
        guide.estimate image estimate.columnMode = .ok estimate ∧
        estimate.fileName = image.fileName := by
  rw [estimateAll_eq_mapM hle] at hall
  refine ⟨(length_of_mapM_eq_ok hall).trans (length_placements hle), ?_⟩
  intro i estimate hi
  obtain ⟨⟨image, mode⟩, hplaced, hestimate⟩ := getElem?_of_mapM_eq_ok hall hi
  obtain ⟨hname, rfl⟩ := estimate_fileName_mode hestimate
  exact ⟨image, (getElem?_placements h i _ _).mp hplaced, hestimate, hname⟩

theorem estimateAll_fails_iff (h : CompileLog.images log = .ok images)
    (hle : images.length ≤ (figureEvents source).length) (failure : Failure) :
    guide.estimateAll images (Figure.list source) = .error failure ↔
      ∃ i, OutcomeAt guide log source i (.error failure) ∧
        ∀ j < i, ∃ estimate, OutcomeAt guide log source j (.ok estimate) := by
  rw [estimateAll_eq_mapM hle, mapM_eq_error_iff_getElem?]
  constructor
  · rintro ⟨i, placed, hi, hfails, hbefore⟩
    refine ⟨i, (outcomeAt_iff h i _).mpr ⟨placed, hi, hfails⟩, ?_⟩
    intro j hj
    obtain ⟨earlier, estimate, hearlier, hprices⟩ := hbefore j hj
    exact ⟨estimate, (outcomeAt_iff h j _).mpr ⟨earlier, hearlier, hprices⟩⟩
  · rintro ⟨i, houtcome, hbefore⟩
    obtain ⟨placed, hi, hfails⟩ := (outcomeAt_iff h i _).mp houtcome
    refine ⟨i, placed, hi, hfails, ?_⟩
    intro j hj
    obtain ⟨estimate, hestimate⟩ := hbefore j hj
    obtain ⟨earlier, hearlier, hprices⟩ := (outcomeAt_iff h j _).mp hestimate
    exact ⟨earlier, estimate, hearlier, hprices⟩

/-! ## What comes after the last image -/

theorem zip_take_length {α β : Type} (front : List α) (back : List β) :
    front.zip (back.take front.length) = front.zip back := by
  induction front generalizing back with
  | nil => rfl
  | cons a front ih =>
      cases back with
      | nil => rfl
      | cons b back => rw [List.length_cons, List.take_succ_cons, List.zip_cons_cons, ih]; rfl

theorem zip_eq_of_take_eq {α β : Type} {front : List α} {back back' : List β}
    (h : back'.take front.length = back.take front.length) : front.zip back' = front.zip back := by
  rw [← zip_take_length, h, zip_take_length]

namespace AgreeOn

variable {log' source' : String}

theorem images_eq (hagree : AgreeOn images.length log log' source source')
    (h : CompileLog.images log = .ok images) : CompileLog.images log' = .ok images := by
  obtain ⟨sizes, sizes', hsizes, hsizes', htake⟩ := hagree.sizes
  obtain ⟨found, hfound, hle, himages⟩ := CompileLog.images_eq_ok_iff.mp h
  obtain rfl : sizes = found := Except.ok.inj (hsizes.symm.trans hfound)
  rw [length_images h] at htake
  have hle' : (CompileLog.fileNames log).length ≤ sizes'.length := by
    have hlengths := congrArg List.length htake
    rw [List.length_take, List.length_take] at hlengths
    omega
  rw [CompileLog.images_eq_ok_iff, hagree.names]
  exact ⟨sizes', hsizes', hle', by rw [zip_eq_of_take_eq htake, himages]⟩

theorem length_le (hagree : AgreeOn images.length log log' source source')
    (hle : images.length ≤ (figureEvents source).length) :
    images.length ≤ (figureEvents source').length := by
  have hlengths := congrArg List.length hagree.figures
  rw [List.length_take, List.length_take, List.length_map, List.length_map] at hlengths
  omega

theorem placements_eq (hagree : AgreeOn images.length log log' source source') :
    placements images source' = placements images source := by
  have hmodes := congrArg (List.map ColumnMode.ofStar) hagree.figures
  rw [List.map_take, List.map_take, List.map_map, List.map_map] at hmodes
  exact zip_eq_of_take_eq hmodes

theorem estimateAll_eq (hagree : AgreeOn images.length log log' source source')
    (hle : images.length ≤ (figureEvents source).length) :
    guide.estimateAll images (Figure.list source') =
      guide.estimateAll images (Figure.list source) := by
  rw [estimateAll_eq_mapM (hagree.length_le hle), estimateAll_eq_mapM hle, hagree.placements_eq]

end AgreeOn

/-! ## The report -/

theorem Manuscript.report_eq (manuscript : Manuscript) (summary : WordCounter.Summary)
    (h : CompileLog.images manuscript.log = .ok images) :
    manuscript.report guide summary =
      (guide.estimateAll images (Figure.list manuscript.source)).map fun estimates =>
        ⟨summary.output, summary.words,
          Display.countLines Display.defaultEnvironments manuscript.source, estimates, guide⟩ := by
  rw [Manuscript.report, h]
  rfl

/-- How the images of a manuscript are priced: with the figures in their order, and all of them or
none. -/
structure PricedInOrder (manuscript : Manuscript) (guide : LengthGuide)
    (summary : WordCounter.Summary) (images : List Image) : Prop where
  count : images.length = (CompileLog.fileNames manuscript.log).length
  /-- What prices the images would have does not matter when there are more of them than
  figures. -/
  missing : (figureEvents manuscript.source).length < images.length →
    manuscript.report guide summary = .error
      (.mismatch (.missingFigures images.length (figureEvents manuscript.source).length))
  report : manuscript.report guide summary =
    (guide.estimateAll images (Figure.list manuscript.source)).map fun estimates =>
      ⟨summary.output, summary.words,
        Display.countLines Display.defaultEnvironments manuscript.source, estimates, guide⟩
  all : images.length ≤ (figureEvents manuscript.source).length →
    ((∃ estimates, guide.estimateAll images (Figure.list manuscript.source) = .ok estimates) ↔
      ∀ i < images.length,
        ∃ estimate, OutcomeAt guide manuscript.log manuscript.source i (.ok estimate))
  order : images.length ≤ (figureEvents manuscript.source).length → ∀ estimates,
    guide.estimateAll images (Figure.list manuscript.source) = .ok estimates →
      estimates.length = images.length ∧ ∀ i estimate, estimates[i]? = some estimate →
        ∃ image, PlacedAt manuscript.log manuscript.source i image estimate.columnMode ∧
          guide.estimate image estimate.columnMode = .ok estimate ∧
          estimate.fileName = image.fileName
  first : images.length ≤ (figureEvents manuscript.source).length → ∀ failure,
    (guide.estimateAll images (Figure.list manuscript.source) = .error failure ↔
      ∃ i, OutcomeAt guide manuscript.log manuscript.source i (.error failure) ∧
        ∀ j < i, ∃ estimate, OutcomeAt guide manuscript.log manuscript.source j (.ok estimate))
  rest : images.length ≤ (figureEvents manuscript.source).length → ∀ log' source',
    AgreeOn images.length manuscript.log log' manuscript.source source' →
      CompileLog.images log' = .ok images ∧
        guide.estimateAll images (Figure.list source') =
          guide.estimateAll images (Figure.list manuscript.source)

/-- Every manuscript whose log can be read is priced in order. -/
theorem pricedInOrder (manuscript : Manuscript) (guide : LengthGuide)
    (summary : WordCounter.Summary) {images : List Image}
    (h : CompileLog.images manuscript.log = .ok images) :
    PricedInOrder manuscript guide summary images where
  count := length_images h
  missing := by
    intro hlt
    rw [manuscript.report_eq summary h, estimateAll_of_length_lt (Figure.length_list _ ▸ hlt),
      Figure.length_list]
    rfl
  report := manuscript.report_eq summary h
  all hle := exists_estimateAll_iff h hle
  order hle estimates hall := estimates_in_order h hle hall
  first hle failure := estimateAll_fails_iff h hle failure
  rest hle log' source' hagree := ⟨hagree.images_eq h, hagree.estimateAll_eq hle⟩

/-- Two images, a third size and a third figure. -/
def threeFigures : Manuscript where
  basePath := Path.ofString "three"
  texPath := Path.ofString "three.tex"
  logPath := Path.ofString "three.log"
  source := "\\begin" ++ Text.braced "figure*" ++ "\\end" ++ Text.braced "figure*" ++
    " \\begin" ++ Text.braced "figure" ++ " \\begin" ++ Text.braced "figure"
  log := "<use a.pdf>\nRequested size: 300pt x 100pt.\n<use b.pdf>\n" ++
    "Requested size: 100pt x 100pt.\nRequested size: 0pt x 0pt."
  abstract? := none

theorem threeFigures_pricedInOrder :
    CompileLog.images threeFigures.log =
        .ok [⟨"a.pdf", .ofNat 300, .ofNat 100⟩, ⟨"b.pdf", .ofNat 100, .ofNat 100⟩] ∧
      PricedInOrder threeFigures {} ⟨"Sum count: 7", 7⟩
        [⟨"a.pdf", .ofNat 300, .ofNat 100⟩, ⟨"b.pdf", .ofNat 100, .ofNat 100⟩] :=
  ⟨by decide +kernel, pricedInOrder threeFigures {} _ (by decide +kernel)⟩

/-- The first image is priced across two columns, the second in one. -/
example : (({} : LengthGuide).estimateAll [⟨"a.pdf", .ofNat 300, .ofNat 100⟩,
    ⟨"b.pdf", .ofNat 100, .ofNat 100⟩] (Figure.list threeFigures.source)).map
      (List.map fun estimate => (estimate.words, estimate.columnMode)) =
        .ok [(240, .double), (170, .single)] := by
  decide +kernel

end Galley
