import Mathlib
import Galley.CompileLog
import Galley.Proofs.Binary64.Rounding
import Galley.Proofs.Failure

/-! # The sizes in a log -/

namespace Galley

namespace Binary64

/-- Neither negative nor not-a-number. -/
def Unsigned : Binary64 → Prop
  | .nan => False
  | .infinity negative => negative = false
  | .finite x => x.negative = false

theorem Represents.unsigned {magnitude : Rat} {x : Binary64} (h : Represents false magnitude x) :
    x.Unsigned := by
  cases h with
  | finite f hnegative _ _ => exact hnegative
  | infinity _ => rfl

theorem unsigned_ofDecimal {d : Decimal} (h : d.negative = false) : (ofDecimal d).Unsigned := by
  by_cases hzero : d.coefficient = 0
  · rw [ofDecimal_of_coefficient_eq_zero hzero]
    exact h
  · have hrepresents := (represents_ofDecimal hzero).2
    rw [h] at hrepresents
    exact hrepresents.unsigned

/-- Of unsigned numbers, only two infinite ones have no quotient. -/
theorem eq_infinity_of_div?_eq_nan {x y : Binary64} (hx : x.Unsigned) (hy : y.Unsigned)
    (h : x.div? y = some .nan) : x = .infinity false ∧ y = .infinity false := by
  unfold div? at h
  split at h
  · cases h
  · have hquotient := Option.some.inj h
    cases x with
    | nan => exact absurd hx id
    | infinity m =>
        cases y with
        | nan => exact absurd hy id
        | infinity n => exact ⟨congrArg _ hx, congrArg _ hy⟩
        | finite g => cases hquotient
    | finite f =>
        cases y with
        | nan => exact absurd hy id
        | infinity n => exact absurd hquotient (pack_ne_nan _ _ _)
        | finite g => exact absurd hquotient (ofRat_ne_nan _ _)

end Binary64

theorem Dimension.magnitude_unsigned {run : List Char} {x : Binary64}
    (h : Dimension.magnitude run = .ok x) : x.Unsigned := by
  rw [magnitude] at h
  split at h
  next d hd =>
    have hnegative : d.negative = false := by
      rw [Decimal.ofNumeral?] at hd
      split at hd
      · cases hd
      · obtain ⟨n, -, rfl⟩ := Option.map_eq_some_iff.mp hd
        rfl
    rw [← Except.ok.inj h]
    exact Binary64.unsigned_ofDecimal hnegative
  next => cases h

namespace CompileLog

/-- The sizes of a log as they are written. -/
def writtenSizes (log : String) : List (List Char × List Char) :=
  readings readSize log.toList

/-- The two numbers of a written size. -/
def readNumbers (size : List Char × List Char) : Except Fault (Binary64 × Binary64) := do
  return (← Dimension.magnitude size.1, ← Dimension.magnitude size.2)

theorem of_readNumbers_eq_ok {size : List Char × List Char} {x y : Binary64}
    (h : readNumbers size = .ok (x, y)) :
    Dimension.magnitude size.1 = .ok x ∧ Dimension.magnitude size.2 = .ok y := by
  obtain ⟨width, hwidth, h⟩ := exists_of_bind_eq_ok h
  obtain ⟨height, hheight, h⟩ := exists_of_bind_eq_ok h
  obtain ⟨rfl, rfl⟩ := Prod.mk.inj (Except.ok.inj h)
  exact ⟨hwidth, hheight⟩

theorem sizes_eq (log : String) : sizes log = (writtenSizes log).mapM readNumbers :=
  rfl

theorem length_of_sizes_eq_ok {log : String} {sized : List (Binary64 × Binary64)}
    (h : sizes log = .ok sized) : sized.length = (writtenSizes log).length :=
  length_of_mapM_eq_ok h

theorem sizes_unsigned {log : String} {found : List (Binary64 × Binary64)}
    (h : sizes log = .ok found) : ∀ size ∈ found, size.1.Unsigned ∧ size.2.Unsigned := by
  rw [sizes_eq] at h
  refine forall_of_mapM_eq_ok h ?_
  rintro size - ⟨x, y⟩ hsize
  obtain ⟨hwidth, hheight⟩ := of_readNumbers_eq_ok hsize
  exact ⟨Dimension.magnitude_unsigned hwidth, Dimension.magnitude_unsigned hheight⟩

theorem images_eq_ok_iff {log : String} {found : List Image} :
    images log = .ok found ↔ ∃ sized, sizes log = .ok sized ∧
      (fileNames log).length ≤ sized.length ∧
      ((fileNames log).zip sized).map (fun (name, width, height) => ⟨name, width, height⟩) =
        found := by
  rw [images]
  cases sizes log with
  | error cause => simp
  | ok sized =>
      simp only [Except.ok.injEq, exists_eq_left']
      split
      next hlt => simp [hlt]
      next hle => simp [not_lt.mp hle]

theorem length_images {log : String} {found : List Image} (h : images log = .ok found) :
    found.length = (fileNames log).length := by
  obtain ⟨sized, -, hle, rfl⟩ := images_eq_ok_iff.mp h
  rw [List.length_map, List.length_zip, Nat.min_eq_left hle]

theorem getElem?_images {log : String} {found : List Image} (h : images log = .ok found) (i : Nat)
    (image : Image) :
    found[i]? = some image ↔ (fileNames log)[i]? = some image.fileName ∧
      ∃ sized, sizes log = .ok sized ∧ sized[i]? = some (image.width, image.height) := by
  obtain ⟨sized, hsizes, -, rfl⟩ := images_eq_ok_iff.mp h
  rw [List.getElem?_map, Option.map_eq_some_iff]
  constructor
  · rintro ⟨⟨name, width, height⟩, hzip, rfl⟩
    obtain ⟨hname, hsize⟩ := List.getElem?_zip_eq_some.mp hzip
    exact ⟨hname, sized, hsizes, hsize⟩
  · rintro ⟨hname, other, hother, hsize⟩
    obtain rfl : sized = other := Except.ok.inj (hsizes.symm.trans hother)
    exact ⟨(image.fileName, image.width, image.height),
      List.getElem?_zip_eq_some.mpr ⟨hname, hsize⟩, rfl⟩

theorem images_eq_error_iff {log : String} {cause : Mismatch} :
    images log = .error cause ↔ (∃ fault, sizes log = .error fault ∧ cause = .malformedSize fault) ∨
      ∃ sized, sizes log = .ok sized ∧ sized.length < (fileNames log).length ∧
        cause = .missingSizes (fileNames log).length sized.length := by
  rw [images]
  cases sizes log with
  | error fault => simp [eq_comm]
  | ok sized =>
      simp only [Except.ok.injEq, exists_eq_left', reduceCtorEq, false_and, exists_false, false_or]
      split
      next hlt => simp [hlt, eq_comm]
      next hle => simp [hle]

theorem images_unsigned {log : String} {found : List Image} (h : images log = .ok found) :
    ∀ image ∈ found, image.width.Unsigned ∧ image.height.Unsigned := by
  obtain ⟨sized, hsizes, -, rfl⟩ := images_eq_ok_iff.mp h
  intro image himage
  obtain ⟨⟨name, size⟩, hmem, rfl⟩ := List.mem_map.mp himage
  exact sizes_unsigned hsizes size (List.of_mem_zip hmem).2

end CompileLog

end Galley
