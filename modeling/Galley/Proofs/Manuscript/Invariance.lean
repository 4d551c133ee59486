import Mathlib
import Galley.Pipeline
import Galley.Proofs.Comment.Visible
import Galley.Proofs.Directory.Agreement
import Galley.Proofs.Manuscript.Loading
import Galley.Proofs.Text.Newline
import Galley.Proofs.Text.Utf8

/-! # Comments and the style of line ends leave no trace -/

namespace Galley

/-! ## Files that hold a text -/

/-- A path leads to a file with a text in it, whose lines are ended in one style. -/
structure Directory.Holds (d : Directory) (path : Path) (place : Place) (text : List Char) :
    Prop where
  locate : d.locate path = .ok place
  file : ∃ bytes style, d.content place = .file bytes ∧
    Text.Utf8.decode bytes = Text.LineEnding.write style text
  no_return : '\r' ∉ text

theorem Directory.Holds.exists_read {d : Directory} {path : Path} {place : Place}
    {text : List Char} (h : d.Holds path place text) {p : Path} (hp : d.locate p = .ok place) :
    ∃ bytes, d.read p = .ok bytes ∧ Text.ofBytes bytes = String.ofList text := by
  obtain ⟨bytes, style, hfile, hdecode⟩ := h.file
  refine ⟨bytes, ?_, ?_⟩
  · rw [Directory.read_eq, hp]
    simp only [Except.bind, hfile]
  · rw [Text.ofBytes, hdecode, Text.unifyNewlines_write style h.no_return]

namespace Manuscript

/-! ## Where the files of a manuscript are -/

theorem names_of_extend {base path : Path} {extension : String}
    (h : extend base extension = .ok path) :
    ∃ front name, path.names = front ++ [name ++ extension.toList] := by
  unfold extend Path.addExtension? at h
  cases hname : base.names.getLast? with
  | none => simp [hname] at h
  | some name =>
      rw [hname] at h
      refine ⟨base.names.dropLast, name, ?_⟩
      rw [← Except.ok.inj h]

/-- A file of a manuscript is found under a name with its extension. -/
theorem exists_getLast?_of_locate {base path : Path} {extension : String} {c : Char}
    (hc : extension.toList.getLast? = some c) (hdot : c ≠ '.')
    (h : extend base extension = .ok path) {d : Directory} {place : Place}
    (hplace : d.locate path = .ok place) :
    ∃ name, place.names.getLast? = some (name ++ extension.toList) := by
  obtain ⟨front, name, hnames⟩ := names_of_extend h
  refine ⟨name, ?_⟩
  have hup : name ++ extension.toList ≠ Directory.upName := by
    intro heq
    have hlast := congrArg List.getLast? heq
    rw [List.getLast?_append, hc] at hlast
    exact hdot (Option.some.inj hlast)
  rw [Directory.locate_eq] at hplace
  split at hplace
  · cases hplace
  · split at hplace
    · cases hplace
    · rw [hnames] at hplace
      exact Directory.getLast?_of_reach hup hplace

/-- No path of a source leads where a path of a log does. -/
theorem locate_tex_ne_locate_log {fileName other : String}
    {texPath logPath texPath' logPath' : Path}
    (h : Located fileName texPath logPath) (h' : Located other texPath' logPath') {d : Directory}
    {place place' : Place} (htex : d.locate texPath = .ok place)
    (hlog : d.locate logPath' = .ok place') : place ≠ place' := by
  rintro rfl
  have hx : ".tex".toList.getLast? = some 'x' := rfl
  have hg : ".log".toList.getLast? = some 'g' := rfl
  obtain ⟨name, hname⟩ := exists_getLast?_of_locate hx (by decide) h.tex htex
  obtain ⟨name', hname'⟩ := exists_getLast?_of_locate hg (by decide) h'.log hlog
  have heq := Option.some.inj (hname.symm.trans hname')
  have hlast := congrArg List.getLast? heq
  rw [List.getLast?_append, List.getLast?_append, hx, hg] at hlast
  simp at hlast

/-! ## Loading from two directories -/

/-- Loading depends on the source without its comments and on the log. -/
theorem load_congr {read other : FileReader} {fileName : String} {texPath logPath : Path}
    (h : Located fileName texPath logPath)
    (hsource : (readSource read texPath).map Comment.strip =
      (readSource other texPath).map Comment.strip)
    (hlog : readLog read logPath = readLog other logPath) :
    load read fileName = load other fileName := by
  have hload : ∀ reader : FileReader, load reader fileName =
      ((readSource reader texPath).map Comment.strip).bind fun source =>
        (readLog reader logPath).map fun log =>
          ⟨resolve fileName, texPath, logPath, source, log, Abstract.find? source⟩ := by
    intro reader
    rw [load_of_located h]
    cases readSource reader texPath <;> rfl
  rw [hload read, hload other, hsource, hlog]

variable {d other : Directory} {manuscript : String} {texPath logPath : Path}
  {texPlace logPlace : Place} {source otherSource log : List Char}

/-- When two directories differ in the two files of one manuscript only, which hold the same log
and sources that differ in their comments, then loading is the same from both, whatever is
loaded. -/
theorem load_eq_of_sameButComments (located : Located manuscript texPath logPath)
    (tex : d.Holds texPath texPlace source) (otherTex : other.Holds texPath texPlace otherSource)
    (dLog : d.Holds logPath logPlace log) (otherLog : other.Holds logPath logPlace log)
    (comments : Comment.SameButComments source otherSource)
    (elsewhere : ∀ place, place ≠ texPlace → place ≠ logPlace →
      d.content place = other.content place) (fileName : String) :
    load d.read fileName = load other.read fileName := by
  have hagree : Directory.AgreeBut [texPlace, logPlace] d other := by
    refine ⟨?_, ?_⟩
    · intro place hplace
      simp only [List.mem_cons, List.not_mem_nil, or_false] at hplace
      rcases hplace with rfl | rfl
      · obtain ⟨bytes, style, hbytes, -⟩ := tex.file
        obtain ⟨otherBytes, otherStyle, hother, -⟩ := otherTex.file
        exact ⟨⟨bytes, hbytes⟩, otherBytes, hother⟩
      · obtain ⟨bytes, style, hbytes, -⟩ := dLog.file
        obtain ⟨otherBytes, otherStyle, hother, -⟩ := otherLog.file
        exact ⟨⟨bytes, hbytes⟩, otherBytes, hother⟩
    · intro place hplace
      simp only [List.mem_cons, List.not_mem_nil, or_false, not_or] at hplace
      exact elsewhere place hplace.1 hplace.2
  by_cases hname : (resolve fileName).names = []
  · rw [load_of_names_eq_nil hname, load_of_names_eq_nil hname]
  · obtain ⟨p, q, hlocated⟩ := exists_located hname
    apply load_congr hlocated
    · rcases hagree.read_eq_or_locate p with heq | ⟨place, hplace, hlocate⟩
      · rw [readSource, readSource, heq]
      · have htex : place = texPlace := by
          have hne := locate_tex_ne_locate_log hlocated located hlocate dLog.locate
          simpa [hne] using hplace
        subst htex
        obtain ⟨bytes, hread, htext⟩ := tex.exists_read hlocate
        obtain ⟨otherBytes, hotherRead, hotherText⟩ :=
          otherTex.exists_read (hagree.locate_eq p ▸ hlocate)
        have hstrip := comments.strip_eq tex.no_return otherTex.no_return
        rw [readSource, readSource, hread, hotherRead]
        simp only [Except.map, htext, hotherText, hstrip]
    · rcases hagree.read_eq_or_locate q with heq | ⟨place, hplace, hlocate⟩
      · rw [readLog, readLog, heq]
      · have hlog : place = logPlace := by
          have hne := locate_tex_ne_locate_log located hlocated tex.locate hlocate
          simpa [hne.symm] using hplace
        subst hlog
        obtain ⟨bytes, hread, htext⟩ := dLog.exists_read hlocate
        obtain ⟨otherBytes, hotherRead, hotherText⟩ :=
          otherLog.exists_read (hagree.locate_eq q ▸ hlocate)
        rw [readLog, readLog, hread, hotherRead]
        simp only [htext, hotherText]

end Manuscript

/-! ## Directories with one manuscript -/

namespace Directory

/-- The two files of a manuscript in the working directory. -/
def ofPair (texName logName : List Char) (tex log : List UInt8) : Directory :=
  ⟨[(.above 0, .folder [(texName, .file tex), (logName, .file log)])]⟩

theorem content_ofPair_elsewhere {texName logName : List Char}
    (tex log otherTex otherLog : List UInt8) {place : Place} (htex : place ≠ ⟨.above 0, [texName]⟩)
    (hlog : place ≠ ⟨.above 0, [logName]⟩) :
    (ofPair texName logName tex log).content place =
      (ofPair texName logName otherTex otherLog).content place := by
  obtain ⟨origin, names⟩ := place
  by_cases horigin : origin = .above 0
  · subst horigin
    match names with
    | [] => rfl
    | [name] =>
        have hnotTex : (name == texName) = false := by simpa using htex
        have hnotLog : (name == logName) = false := by simpa using hlog
        simp [content, entry?, tree, ofPair, Entry.get?, List.lookup, hnotTex, hnotLog]
    | name :: next :: names =>
        -- The way leads to nothing or through a file.
        cases htexName : name == texName <;> cases hlogName : name == logName <;>
          simp [content, entry?, tree, ofPair, Entry.get?, List.lookup, htexName, hlogName]
  · have hlookup : (origin == Place.Origin.above 0) = false := by
      rwa [beq_eq_false_iff_ne]
    simp [content, entry?, tree, ofPair, List.lookup, hlookup]

/-- The manuscript `paper` in the working directory. -/
def ofPaper (texStyle logStyle : Text.LineEnding) (tex log : String) : Directory :=
  ofPair "paper.tex".toList "paper.log".toList (Text.Utf8.encode (texStyle.write tex.toList))
    (Text.Utf8.encode (logStyle.write log.toList))

theorem holds_paperTex (texStyle logStyle : Text.LineEnding) {tex : String} (log : String)
    (h : '\r' ∉ tex.toList) :
    (ofPaper texStyle logStyle tex log).Holds (.ofString "paper.tex")
      ⟨.above 0, ["paper.tex".toList]⟩ tex.toList where
  locate := rfl
  file := ⟨_, texStyle, rfl, Text.Utf8.decode_encode _⟩
  no_return := h

theorem holds_paperLog (texStyle logStyle : Text.LineEnding) (tex : String) {log : String}
    (h : '\r' ∉ log.toList) :
    (ofPaper texStyle logStyle tex log).Holds (.ofString "paper.log")
      ⟨.above 0, ["paper.log".toList]⟩ log.toList where
  locate := rfl
  file := ⟨_, logStyle, rfl, Text.Utf8.decode_encode _⟩
  no_return := h

end Directory

/-- Neither comments nor the style of line ends bear on what is loaded or reported. -/
theorem report_eq_of_sameButComments {d other : Directory} {manuscript : String}
    {texPath logPath : Path} {texPlace logPlace : Place} {source otherSource log : List Char}
    (located : Manuscript.Located manuscript texPath logPath)
    (tex : d.Holds texPath texPlace source) (otherTex : other.Holds texPath texPlace otherSource)
    (dLog : d.Holds logPath logPlace log) (otherLog : other.Holds logPath logPlace log)
    (comments : Comment.SameButComments source otherSource)
    (elsewhere : ∀ place, place ≠ texPlace → place ≠ logPlace →
      d.content place = other.content place) (fileName : String) (answer : WordCounter.Answer)
    (counter : WordCounter) (guide : LengthGuide) :
    Manuscript.load d.read fileName = Manuscript.load other.read fileName ∧
      Setting.report ⟨d.read, answer, counter, guide⟩ fileName =
        Setting.report ⟨other.read, answer, counter, guide⟩ fileName := by
  have hload := Manuscript.load_eq_of_sameButComments located tex otherTex dLog otherLog comments
    elsewhere fileName
  refine ⟨hload, ?_⟩
  rw [Setting.report, Setting.report, hload]

theorem report_commented_eq_report_bare :
    Setting.report ⟨(Directory.ofPaper .lf .cr "A % $x$\nB" "No image.\n").read,
        .finished "Sum count: 2" 0 "", {}, {}⟩ "paper" =
      Setting.report ⟨(Directory.ofPaper .crlf .lf "A %\nB" "No image.\n").read,
        .finished "Sum count: 2" 0 "", {}, {}⟩ "paper" :=
  (report_eq_of_sameButComments (⟨rfl, rfl⟩ : Manuscript.Located "paper" _ _)
    (Directory.holds_paperTex _ _ _ (by decide)) (Directory.holds_paperTex _ _ _ (by decide))
    (Directory.holds_paperLog _ _ _ (by decide)) (Directory.holds_paperLog _ _ _ (by decide))
    (by decide) (fun _ => Directory.content_ofPair_elsewhere _ _ _ _) "paper" _ _ _).2

end Galley
