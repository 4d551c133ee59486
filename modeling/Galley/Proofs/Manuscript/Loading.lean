import Galley.Manuscript

/-! # What loading a manuscript comes to -/

namespace Galley.Manuscript

/-- The paths of the two files that belong to a file name. -/
structure Located (fileName : String) (texPath logPath : Path) : Prop where
  tex : texPathOf (resolve fileName) = .ok texPath
  log : logPathOf (resolve fileName) = .ok logPath

/-- Neither a folder nor a name that is too long, but nothing at all. -/
def Missing (read : FileReader) (path : Path) : Prop :=
  ∃ obstacle, read path = .error obstacle ∧ obstacle ≠ .nameTooLong ∧ obstacle ≠ .isFolder

/-- The stages of loading, and what each of them needs. The log is not looked at before the source
has been read. -/
inductive Loads (read : FileReader) (fileName : String) : Except Failure Manuscript → Prop where
  | noName : (resolve fileName).names = [] →
      Loads read fileName (.error (.fault (.emptyName (resolve fileName))))
  | sourceTooLong {texPath logPath : Path} : Located fileName texPath logPath →
      read texPath = .error .nameTooLong →
      Loads read fileName (.error (.fault (.nameTooLong texPath)))
  | sourceUnreadable {texPath logPath : Path} : Located fileName texPath logPath →
      read texPath = .error .isFolder →
      Loads read fileName (.error (.unavailable (.source texPath)))
  | sourceMissing {texPath logPath : Path} : Located fileName texPath logPath →
      Missing read texPath → Loads read fileName (.error (.notice (.missingSource texPath)))
  | logUnreadable {texPath logPath : Path} {source : List UInt8} {obstacle : Obstacle} :
      Located fileName texPath logPath → read texPath = .ok source →
      read logPath = .error obstacle → Loads read fileName (.error (.unavailable (.log logPath)))
  | loaded {texPath logPath : Path} {source log : List UInt8} :
      Located fileName texPath logPath → read texPath = .ok source → read logPath = .ok log →
      Loads read fileName (.ok {
        basePath := resolve fileName
        texPath := texPath
        logPath := logPath
        source := Comment.strip (Text.ofBytes source)
        log := Text.ofBytes log
        abstract? := Abstract.find? (Comment.strip (Text.ofBytes source)) })

theorem extend_eq_error_of_names_eq_nil {base : Path} (h : base.names = []) (extension : String) :
    extend base extension = .error (.emptyName base) := by
  simp [extend, Path.addExtension?, h]

theorem exists_extend_eq_ok {base : Path} (h : base.names ≠ []) (extension : String) :
    ∃ path, extend base extension = .ok path := by
  simp [extend, Path.addExtension?, List.getLast?_eq_some_getLast h]

theorem exists_located {fileName : String} (h : (resolve fileName).names ≠ []) :
    ∃ texPath logPath, Located fileName texPath logPath := by
  obtain ⟨texPath, htex⟩ := exists_extend_eq_ok h ".tex"
  obtain ⟨logPath, hlog⟩ := exists_extend_eq_ok h ".log"
  exact ⟨texPath, logPath, htex, hlog⟩

theorem load_of_located {read : FileReader} {fileName : String} {texPath logPath : Path}
    (h : Located fileName texPath logPath) :
    load read fileName = (readSource read texPath).bind fun raw =>
      (readLog read logPath).map fun log =>
        ⟨resolve fileName, texPath, logPath, Comment.strip raw, log,
          Abstract.find? (Comment.strip raw)⟩ := by
  simp only [load, h.tex, h.log]
  rfl

theorem load_of_names_eq_nil {fileName : String} (h : (resolve fileName).names = [])
    (read : FileReader) :
    load read fileName = .error (.fault (.emptyName (resolve fileName))) := by
  simp only [load, texPathOf, extend_eq_error_of_names_eq_nil h]
  rfl

theorem load_loads (read : FileReader) (fileName : String) :
    Loads read fileName (load read fileName) := by
  by_cases hname : (resolve fileName).names = []
  · rw [load_of_names_eq_nil hname]
    exact .noName hname
  · obtain ⟨texPath, logPath, hlocated⟩ := exists_located hname
    rw [load_of_located hlocated, readSource]
    cases hsource : read texPath with
    | error obstacle =>
        cases obstacle with
        | nameTooLong => exact .sourceTooLong hlocated hsource
        | isFolder => exact .sourceUnreadable hlocated hsource
        | _ => exact .sourceMissing hlocated ⟨_, hsource, by simp, by simp⟩
    | ok source =>
        rw [readLog]
        cases hlog : read logPath with
        | error obstacle => exact .logUnreadable hlocated hsource hlog
        | ok log => exact .loaded hlocated hsource hlog

end Galley.Manuscript
