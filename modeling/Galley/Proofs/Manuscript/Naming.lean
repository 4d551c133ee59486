import Mathlib
import Galley.Proofs.CommandLine.Ending
import Galley.Proofs.Manuscript.Loading
import Galley.Proofs.Path

/-! # The files that a name stands for -/

namespace Galley.Manuscript

open Galley.Path (lastComponent Suffixless SplitsAtDot)

/-- A file name stands for a base and for two files: they belong to the base, they are the ones
that loading reads, and the word counter is started on the source. -/
structure NamesPair (fileName : String) (base texPath logPath : Path) : Prop where
  resolve_eq : resolve fileName = base
  tex : texPathOf base = .ok texPath
  log : logPathOf base = .ok logPath
  load_eq : ∀ read : FileReader, load read fileName =
    (readSource read texPath).bind fun raw => (readLog read logPath).map fun log =>
      ⟨base, texPath, logPath, Comment.strip raw, log, Abstract.find? (Comment.strip raw)⟩
  commands_eq : ∀ setting : Setting, (setting.report fileName).commands =
    match load setting.read fileName with
    | .ok _ => [setting.counter.command :: texPath.text :: setting.counter.flags]
    | .error _ => []

theorem texPath_of_load {read : FileReader} {fileName : String} {texPath logPath : Path}
    {manuscript : Manuscript} (hlocated : Located fileName texPath logPath)
    (h : load read fileName = .ok manuscript) : manuscript.texPath = texPath := by
  have hloads := load_loads read fileName
  rw [h] at hloads
  cases hloads with
  | loaded hlocated' hsource hlog => exact Except.ok.inj (hlocated'.tex.symm.trans hlocated.tex)

theorem Located.commands_eq {fileName : String} {texPath logPath : Path}
    (h : Located fileName texPath logPath) (setting : Setting) :
    (setting.report fileName).commands =
      match load setting.read fileName with
      | .ok _ => [setting.counter.commandLine texPath]
      | .error _ => [] := by
  have hruns := setting.report_runs fileName
  generalize setting.report fileName = run at hruns
  cases hruns with
  | notLoaded hload =>
      rw [hload]
      rfl
  | notStarted hload hanswer =>
      rw [hload]
      simp only [texPath_of_load h hload]
  | started hload hanswer =>
      rw [hload]
      simp only [texPath_of_load h hload]

theorem Located.namesPair {fileName : String} {texPath logPath : Path}
    (h : Located fileName texPath logPath) :
    NamesPair fileName (resolve fileName) texPath logPath where
  resolve_eq := rfl
  tex := h.tex
  log := h.log
  load_eq _ := load_of_located h
  commands_eq := h.commands_eq

theorem located_of_resolve_eq {fileName : String} {folder : Path} {name : List Char}
    (h : resolve fileName = folder.child name) :
    Located fileName (folder.child (name ++ ".tex".toList))
      (folder.child (name ++ ".log".toList)) := by
  refine ⟨?_, ?_⟩
  · simp [texPathOf, extend, h]
  · simp [logPathOf, extend, h]

theorem exists_letters {extension : String} (h : extension ∈ [".tex", ".log"]) :
    ∃ letters, extension.toList = '.' :: letters ∧ letters ≠ [] ∧ '.' ∉ letters ∧
      '/' ∉ letters := by
  simp only [List.mem_cons, List.not_mem_nil, or_false] at h
  rcases h with rfl | rfl
  · exact ⟨['t', 'e', 'x'], rfl, by decide⟩
  · exact ⟨['l', 'o', 'g'], rfl, by decide⟩

/-- The extensions are taken off again, and no more than they. -/
theorem resolve_append {q extension : String} {folder : Path} {name : List Char} (hname : name ≠ [])
    (hextension : extension ∈ [".tex", ".log"])
    (h : Path.ofString (q ++ extension) = folder.child (name ++ extension.toList)) :
    resolve (q ++ extension) = folder.child name := by
  obtain ⟨letters, hletters, hne, hdot, -⟩ := exists_letters hextension
  have hsplit : SplitsAtDot (name ++ extension.toList) name letters :=
    ⟨by rw [hletters], hname, hne, hdot⟩
  rw [resolve, h, hsplit.withoutExtension_child]

end Galley.Manuscript
