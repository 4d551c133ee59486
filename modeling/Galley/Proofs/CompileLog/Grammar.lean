import Mathlib
import Galley.CompileLog
import Galley.Proofs.Dimension
import Galley.Proofs.Leftmost
import Galley.Proofs.Text.Blank

/-! # The written forms of names and sizes in a log -/

namespace Galley.CompileLog

open Dimension (IsRun)

/-- A name between its mark and the next closing angle bracket, with no line feed in between. -/
inductive UseForm : Grammar Char String where
  | use {name : List Char} : (∀ c ∈ name, c ≠ '>' ∧ c ≠ '\n') →
      UseForm (useMark.toList ++ name ++ ['>']) (String.ofList name)

/-- Two runs of digits and dots with their units, and one character of white space before each of
them and around the cross. -/
inductive SizeForm : Grammar Char (List Char × List Char) where
  | size {before around around' : Char} {width height : List Char} :
      Text.isBlank before = true → Text.isBlank around = true → Text.isBlank around' = true →
      IsRun width → IsRun height →
      SizeForm (sizeMark.toList ++ before :: (width ++ 'p' :: 't' :: around :: 'x' :: around' ::
        (height ++ ['p', 't']))) (width, height)

/-! ## Names -/

theorem isNameChar_iff (c : Char) : isNameChar c = true ↔ c ≠ '>' ∧ c ≠ '\n' := by
  simp [isNameChar]

theorem UseForm.of_readUse {cs : List Char} {name : String} {length : Nat}
    (h : readUse cs = some (name, length)) :
    ∃ written, UseForm written name ∧ written.length = length ∧ written <+: cs := by
  obtain ⟨rest, hmark, h⟩ := Option.bind_eq_some_iff.mp h
  have hcs := List.isPrefixOf?_eq_some_iff_append_eq.mp hmark
  split at h
  next after hafter =>
    obtain ⟨rfl, rfl⟩ := Prod.mk.inj (Option.some.inj h)
    let name := rest.takeWhile isNameChar
    have hrest : rest = name ++ '>' :: after := by
      rw [← hafter]
      exact List.takeWhile_append_dropWhile.symm
    refine ⟨useMark.toList ++ name ++ ['>'], .use ?_, ?_, after, ?_⟩
    · intro c hc
      exact (isNameChar_iff c).mp (List.mem_takeWhile_imp hc)
    · simp [name, String.length_toList, Nat.add_assoc]
    · rw [← hcs, hrest]
      simp
  next => cases h

theorem readUse_append {name : List Char} (h : ∀ c ∈ name, c ≠ '>' ∧ c ≠ '\n')
    (rest : List Char) :
    readUse (useMark.toList ++ name ++ ['>'] ++ rest) =
      some (String.ofList name, (useMark.toList ++ name ++ ['>']).length) := by
  have hname : ∀ c ∈ name, isNameChar c = true :=
    fun c hc => (isNameChar_iff c).mpr (h c hc)
  have hstop : isNameChar '>' = false := rfl
  have hmark : useMark.toList.isPrefixOf? (useMark.toList ++ name ++ ['>'] ++ rest) =
      some (name ++ '>' :: rest) :=
    List.isPrefixOf?_eq_some_iff_append_eq.mpr (by simp)
  rw [readUse, hmark]
  simp [List.takeWhile_append_of_pos hname, List.dropWhile_append_of_pos hname, hstop,
    String.length_toList, Nat.add_assoc]

theorem UseForm.read {written : List Char} {name : String} (h : UseForm written name)
    (rest : List Char) : readUse (written ++ rest) = some (name, written.length) := by
  obtain ⟨hname⟩ := h
  exact readUse_append hname rest

theorem readUse_decides : Reader.Decides readUse UseForm := by
  refine ⟨?_, ?_⟩
  · rintro written name ⟨-⟩
    exact nofun
  · intro cs name length
    constructor
    · exact UseForm.of_readUse
    · rintro ⟨written, hwritten, rfl, rest, rfl⟩
      exact hwritten.read rest

/-! ## Sizes -/

theorem magnitudeBefore?_eq_some_iff {cs run rest : List Char} :
    magnitudeBefore? cs = some (run, rest) ↔ IsRun run ∧ cs = run ++ 'p' :: 't' :: rest := by
  constructor
  · intro h
    rw [magnitudeBefore?] at h
    split at h
    next after hafter =>
      split at h
      next => cases h
      next hne =>
        obtain ⟨rfl, rfl⟩ := Prod.mk.inj (Option.some.inj h)
        refine ⟨Dimension.isRun_takeWhile (by simpa using hne), ?_⟩
        rw [← hafter]
        exact List.takeWhile_append_dropWhile.symm
    next => cases h
  · rintro ⟨hrun, rfl⟩
    have hall := hrun.isMagnitudeChar
    have hstop : Dimension.isMagnitudeChar 'p' = false := rfl
    simp [magnitudeBefore?, List.takeWhile_append_of_pos hall, List.dropWhile_append_of_pos hall,
      hstop, hrun.1]

theorem SizeForm.of_readSize {cs : List Char} {size : List Char × List Char} {length : Nat}
    (h : readSize cs = some (size, length)) :
    ∃ written, SizeForm written size ∧ written.length = length ∧ written <+: cs := by
  obtain ⟨rest, hmark, h⟩ := Option.bind_eq_some_iff.mp h
  obtain ⟨afterBlank, hbefore, h⟩ := Option.bind_eq_some_iff.mp h
  obtain ⟨⟨width, afterWidth⟩, hwidth, h⟩ := Option.bind_eq_some_iff.mp h
  obtain ⟨cross, haround, h⟩ := Option.bind_eq_some_iff.mp h
  obtain ⟨afterCross, hcross, h⟩ := Option.bind_eq_some_iff.mp h
  obtain ⟨afterBlank', haround', h⟩ := Option.bind_eq_some_iff.mp h
  obtain ⟨⟨height, after⟩, hheight, h⟩ := Option.bind_eq_some_iff.mp h
  obtain ⟨rfl, rfl⟩ := Prod.mk.inj (Option.some.inj h)
  obtain rfl := List.isPrefixOf?_eq_some_iff_append_eq.mp hmark
  obtain ⟨before, hblank, rfl⟩ := Text.blank?_eq_some_iff.mp hbefore
  obtain ⟨hrun, rfl⟩ := magnitudeBefore?_eq_some_iff.mp hwidth
  obtain ⟨around, hblank', rfl⟩ := Text.blank?_eq_some_iff.mp haround
  obtain rfl := List.isPrefixOf?_eq_some_iff_append_eq.mp hcross
  obtain ⟨around', hblank'', rfl⟩ := Text.blank?_eq_some_iff.mp haround'
  obtain ⟨hrun', rfl⟩ := magnitudeBefore?_eq_some_iff.mp hheight
  refine ⟨_, .size hblank hblank' hblank'' hrun hrun', ?_, after, ?_⟩
  · simp [String.length_toList]
    omega
  · simp

theorem SizeForm.read {written : List Char} {size : List Char × List Char}
    (h : SizeForm written size) (rest : List Char) :
    readSize (written ++ rest) = some (size, written.length) := by
  obtain @⟨before, around, around', width, height, hbefore, haround, haround', hwidth, hheight⟩ := h
  let afterCross := around' :: (height ++ 'p' :: 't' :: rest)
  let afterWidth := around :: 'x' :: afterCross
  let afterMark := before :: (width ++ 'p' :: 't' :: afterWidth)
  have hmark : sizeMark.toList.isPrefixOf? _ = some afterMark :=
    List.isPrefixOf?_eq_some_iff_append_eq.mpr rfl
  have hcross : ['x'].isPrefixOf? ('x' :: afterCross) = some afterCross :=
    List.isPrefixOf?_eq_some_iff_append_eq.mpr rfl
  have hblank : Text.blank? afterMark = some _ :=
    Text.blank?_eq_some_iff.mpr ⟨before, hbefore, rfl⟩
  have hblank' : Text.blank? afterWidth = some _ :=
    Text.blank?_eq_some_iff.mpr ⟨around, haround, rfl⟩
  have hblank'' : Text.blank? afterCross = some _ :=
    Text.blank?_eq_some_iff.mpr ⟨around', haround', rfl⟩
  have hrun : magnitudeBefore? _ = some (width, afterWidth) :=
    magnitudeBefore?_eq_some_iff.mpr ⟨hwidth, rfl⟩
  have hrun' : magnitudeBefore? _ = some (height, rest) :=
    magnitudeBefore?_eq_some_iff.mpr ⟨hheight, rfl⟩
  have htext : sizeMark.toList ++ before :: (width ++ 'p' :: 't' :: around :: 'x' :: around' ::
      (height ++ ['p', 't'])) ++ rest = sizeMark.toList ++ afterMark := by
    simp [afterMark, afterWidth, afterCross]
  rw [htext, readSize, hmark]
  simp only [Option.bind_eq_bind, Option.bind_some, hblank, hrun, hblank', hcross, hblank'', hrun']
  simp [String.length_toList]
  omega

theorem readSize_decides : Reader.Decides readSize SizeForm := by
  refine ⟨?_, ?_⟩
  · rintro written size ⟨⟩
    exact nofun
  · intro cs size length
    constructor
    · exact SizeForm.of_readSize
    · rintro ⟨written, hwritten, rfl, rest, rfl⟩
      exact hwritten.read rest

end Galley.CompileLog
