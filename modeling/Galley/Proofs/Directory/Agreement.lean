import Mathlib
import Galley.Directory

/-! # Directories that differ in the bytes of some files only -/

namespace Galley.Directory

inductive Content where
  | nothing
  | folder
  | file (bytes : List UInt8)
  deriving DecidableEq

def Entry.content : Entry → Content
  | .file bytes => .file bytes
  | .folder _ => .folder

/-- What is at a place, without what is below it. -/
def content (d : Directory) (place : Place) : Content :=
  match d.entry? place with
  | none => .nothing
  | some entry => entry.content

/-- Two directories are the same, but some places have files in both that may differ. -/
structure AgreeBut (places : List Place) (d other : Directory) : Prop where
  files : ∀ place ∈ places, (∃ bytes, d.content place = .file bytes) ∧
    ∃ bytes, other.content place = .file bytes
  elsewhere : ∀ place, place ∉ places → d.content place = other.content place

/-! ## Following a path -/

/-- The place that names lead to from another one. -/
def reach (d : Directory) (place : Place) (names : List (List Char)) : Except Obstacle Place :=
  (d.follow place names).map (·.1)

theorem reach_nil (d : Directory) (place : Place) :
    d.reach place [] =
      match d.content place with
      | .nothing => .error .noEntry
      | .folder | .file _ => .ok place := by
  rw [reach, follow, content]
  cases d.entry? place with
  | none => rfl
  | some entry => cases entry <;> rfl

theorem reach_cons (d : Directory) (place : Place) (name : List Char) (names : List (List Char)) :
    d.reach place (name :: names) =
      match d.content place with
      | .nothing => .error .noEntry
      | .file _ => .error .notFolder
      | .folder =>
        if nameLimit < byteLength name then .error .nameTooLong
        else d.reach (if name = upName then place.up else place.down name) names := by
  rw [reach, follow, content]
  cases d.entry? place with
  | none => rfl
  | some entry =>
      cases entry with
      | file bytes => rfl
      | folder entries =>
          by_cases hlong : nameLimit < byteLength name
          · simp [Entry.content, hlong, Except.map]
          · simp only [Entry.content, hlong, if_false, reach]

/-- The last name of a path that does not lead up is the name of the place that it leads to. -/
theorem getLast?_of_reach {d : Directory} {place found : Place} {names : List (List Char)}
    {name : List Char} (hname : name ≠ upName) (h : d.reach place (names ++ [name]) = .ok found) :
    found.names.getLast? = some name := by
  induction names generalizing place with
  | nil =>
      rw [List.nil_append, reach_cons, if_neg hname, reach_nil] at h
      cases hplace : d.content place with
      | nothing => simp [hplace] at h
      | file bytes => simp [hplace] at h
      | folder =>
          rw [hplace] at h
          by_cases hlong : nameLimit < byteLength name
          · simp [hlong] at h
          · cases hbelow : d.content (place.down name) <;> simp [hlong, hbelow] at h <;>
              simp [← h, Place.down]
  | cons first names ih =>
      rw [List.cons_append, reach_cons] at h
      cases hplace : d.content place with
      | nothing => simp [hplace] at h
      | file bytes => simp [hplace] at h
      | folder =>
          rw [hplace] at h
          by_cases hlong : nameLimit < byteLength first
          · simp [hlong] at h
          · simp only [hlong, if_false] at h
            exact ih h

namespace AgreeBut

variable {places : List Place} {d other : Directory}

theorem content_eq_or_files (h : AgreeBut places d other) (place : Place) :
    d.content place = other.content place ∨
      ∃ bytes otherBytes, d.content place = .file bytes ∧
        other.content place = .file otherBytes := by
  by_cases hplace : place ∈ places
  · obtain ⟨⟨bytes, hbytes⟩, otherBytes, hother⟩ := h.files place hplace
    exact .inr ⟨bytes, otherBytes, hbytes, hother⟩
  · exact .inl (h.elsewhere place hplace)

/-- Where names lead does not depend on the bytes of files. -/
theorem reach_eq (h : AgreeBut places d other) (place : Place) (names : List (List Char)) :
    d.reach place names = other.reach place names := by
  induction names generalizing place with
  | nil =>
      rw [reach_nil, reach_nil]
      rcases h.content_eq_or_files place with heq | ⟨bytes, otherBytes, hfile, hother⟩
      · rw [heq]
      · rw [hfile, hother]
  | cons name names ih =>
      rw [reach_cons, reach_cons, ih]
      rcases h.content_eq_or_files place with heq | ⟨bytes, otherBytes, hfile, hother⟩
      · rw [heq]
      · rw [hfile, hother]

end AgreeBut

/-! ## Reading -/

/-- The place that a path leads to. -/
def locate (d : Directory) (p : Path) : Except Obstacle Place :=
  (d.find p).map (·.1)

theorem locate_eq (d : Directory) (p : Path) :
    d.locate p =
      if p.chars.contains '\x00' then .error .nullCharacter
      else if pathLimit < byteLength p.chars then .error .nameTooLong
      else d.reach (.start p) p.names := by
  rw [locate, find, reach]
  split
  · rfl
  · split <;> rfl

theorem entry?_of_follow {d : Directory} {place found : Place} {names : List (List Char)}
    {entry : Entry} (h : d.follow place names = .ok (found, entry)) :
    d.entry? found = some entry := by
  induction names generalizing place with
  | nil =>
      rw [follow] at h
      cases hentry : d.entry? place with
      | none => simp [hentry] at h
      | some first =>
          rw [hentry] at h
          obtain ⟨rfl, rfl⟩ := Prod.mk.inj (Except.ok.inj h)
          exact hentry
  | cons name names ih =>
      rw [follow] at h
      split at h
      · cases h
      · cases h
      · split at h
        · cases h
        · exact ih h

/-- Reading a path is looking at the content of the place that it leads to. -/
theorem read_eq (d : Directory) (p : Path) :
    d.read p = (d.locate p).bind fun place =>
      match d.content place with
      | .file bytes => .ok bytes
      | .nothing | .folder => .error .isFolder := by
  rw [read, locate]
  cases hfind : d.find p with
  | error obstacle => rfl
  | ok found =>
      obtain ⟨place, entry⟩ := found
      have hentry : d.entry? place = some entry := by
        rw [find] at hfind
        split at hfind
        · cases hfind
        · split at hfind
          · cases hfind
          · exact entry?_of_follow hfind
      have hcontent : d.content place = entry.content := by rw [content, hentry]
      simp only [Except.map, Except.bind, hcontent]
      cases entry <;> rfl

theorem AgreeBut.locate_eq {places : List Place} {d other : Directory}
    (h : AgreeBut places d other) (p : Path) : d.locate p = other.locate p := by
  rw [Directory.locate_eq, Directory.locate_eq, h.reach_eq]

/-- A path is read alike in both directories, unless it leads to one of the places. -/
theorem AgreeBut.read_eq_or_locate {places : List Place} {d other : Directory}
    (h : AgreeBut places d other) (p : Path) :
    d.read p = other.read p ∨ ∃ place ∈ places, d.locate p = .ok place := by
  rw [read_eq, read_eq, h.locate_eq]
  cases hlocate : other.locate p with
  | error obstacle => exact .inl rfl
  | ok place =>
      by_cases hplace : place ∈ places
      · exact .inr ⟨place, hplace, rfl⟩
      · left
        simp only [Except.bind, h.elsewhere place hplace]

end Galley.Directory
