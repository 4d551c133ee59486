import Galley.Obstacle
import Galley.Path

/-!
# Directories

The files and folders that are known to a run. Most of them are in the working directory; of
places outside of it nothing is known but that the folders above it exist.
-/

namespace Galley

/-- A folder that surely exists: some levels above the working directory, or the root. -/
inductive Place.Origin where
  | above (levels : Nat)
  | root
  deriving DecidableEq, Repr

/-- Where an entry is: the names that lead down to it from an origin. -/
structure Place where
  origin : Place.Origin
  names : List (List Char)
  deriving DecidableEq, Repr

namespace Place

/-- Where a path starts. Level 0 is the working directory. -/
def start (p : Path) : Place :=
  if p.anchor = .relative then ⟨.above 0, []⟩ else ⟨.root, []⟩

def down (place : Place) (name : List Char) : Place :=
  { place with names := place.names ++ [name] }

/-- The folder above. The root is its own. -/
def up (place : Place) : Place :=
  if place.names.isEmpty then
    match place.origin with
    | .above levels => ⟨.above (levels + 1), []⟩
    | .root => place
  else { place with names := place.names.dropLast }

end Place

/-- A file with its bytes, or a folder with its entries by name. -/
inductive Directory.Entry where
  | file (bytes : List UInt8)
  | folder (entries : List (List Char × Directory.Entry))
  deriving Repr

/-- For each origin at which something is known, the folder there. -/
structure Directory where
  trees : List (Place.Origin × Directory.Entry)
  deriving Repr

namespace Directory

def empty : Directory := ⟨[]⟩

/-! ## Entries of a tree -/

/-- Puts an entry under a name, in place of the one that is there, if any. -/
def insert (entries : List (List Char × Entry)) (name : List Char) (entry : Entry) :
    List (List Char × Entry) :=
  (name, entry) :: entries.filter (·.1 != name)

/-- The entry that names lead down to. -/
def Entry.get? : Entry → List (List Char) → Option Entry
  | entry, [] => some entry
  | .file _, _ :: _ => none
  | .folder entries, name :: names => (entries.lookup name).bind (get? · names)

/-- Changes the entries of the folder that names lead down to. -/
def Entry.modify (change : List (List Char × Entry) → List (List Char × Entry)) :
    List (List Char) → Entry → Entry
  | _, .file bytes => .file bytes
  | [], .folder entries => .folder (change entries)
  | name :: names, .folder entries =>
    match entries.lookup name with
    | some entry => .folder (insert entries name (modify change names entry))
    | none => .folder entries

def tree (d : Directory) (origin : Place.Origin) : Entry :=
  (d.trees.lookup origin).getD (.folder [])

def entry? (d : Directory) (place : Place) : Option Entry :=
  (d.tree place.origin).get? place.names

/-- Changes the entries of the folder at a place. -/
def modify (d : Directory) (place : Place)
    (change : List (List Char × Entry) → List (List Char × Entry)) : Directory :=
  let tree := (d.tree place.origin).modify change place.names
  ⟨(place.origin, tree) :: d.trees.filter (·.1 != place.origin)⟩

/-- Puts an entry under a name into the folder at a place. -/
def put (d : Directory) (folder : Place) (name : List Char) (entry : Entry) : Directory :=
  d.modify folder fun entries => insert entries name entry

/-! ## Following paths -/

/-- The number of bytes that a text takes in UTF-8. -/
def byteLength (cs : List Char) : Nat :=
  cs.foldr (fun c n => c.utf8Size + n) 0

def nameLimit : Nat := 255

def pathLimit : Nat := 4095

/-- The two dots that lead to the folder above. -/
def upName : List Char := ['.', '.']

/-- Follows names from a place. Each is looked up in a folder that has to exist, also before two
dots. -/
def follow (d : Directory) : Place → List (List Char) → Except Obstacle (Place × Entry)
  | place, [] =>
    match d.entry? place with
    | some entry => .ok (place, entry)
    | none => .error .noEntry
  | place, name :: names =>
    match d.entry? place with
    | none => .error .noEntry
    | some (.file _) => .error .notFolder
    | some (.folder _) =>
      if nameLimit < byteLength name then .error .nameTooLong
      else d.follow (if name = upName then place.up else place.down name) names

/-- The entry that a path leads to, and its place. -/
def find (d : Directory) (p : Path) : Except Obstacle (Place × Entry) :=
  if p.chars.contains '\x00' then .error .nullCharacter
  else if pathLimit < byteLength p.chars then .error .nameTooLong
  else d.follow (.start p) p.names

/-- The bytes of the file that a path leads to. -/
def read (d : Directory) (p : Path) : Except Obstacle (List UInt8) := do
  match ← d.find p with
  | (_, .file bytes) => return bytes
  | (_, .folder _) => throw .isFolder

/-! ## Changing entries -/

/-- Follows names from a place and makes the folders that are not there. -/
def makeFolders : Directory → Place → List (List Char) → Except Obstacle (Directory × Place)
  | d, place, [] => .ok (d, place)
  | d, place, name :: names =>
    if nameLimit < byteLength name then .error .nameTooLong
    else if name = upName then makeFolders d place.up names
    else
      match d.entry? (place.down name) with
      | none => makeFolders (d.put place name (.folder [])) (place.down name) names
      | some (.folder _) => makeFolders d (place.down name) names
      | some (.file _) => .error (if names.isEmpty then .taken else .notFolder)

/-- Makes the folder that a path leads to, and those on the way. -/
def addFolder (d : Directory) (p : Path) : Except Obstacle Directory :=
  if p.chars.contains '\x00' then .error .nullCharacter
  else (makeFolders d (.start p) p.names).map (·.1)

/-- Puts a file in a folder, in place of a file of the same name. -/
def putFile (d : Directory) (folder : Place) (name : List Char) (bytes : List UInt8) :
    Except Obstacle Directory :=
  if name = upName then .error .isFolder
  else if nameLimit < byteLength name then .error .nameTooLong
  else
    match d.entry? (folder.down name) with
    | some (.folder _) => .error .isFolder
    | _ => .ok (d.put folder name (.file bytes))

/-- Writes a file, after the folders that lead to it have been made. -/
def write (d : Directory) (p : Path) (bytes : List UInt8) : Except Obstacle Directory :=
  if p.chars.contains '\x00' then .error .nullCharacter
  else
    match p.names.getLast? with
    | none => .error .isFolder
    | some name => do
      let (d, folder) ← makeFolders d (.start p) p.parent.names
      d.putFile folder name bytes

/-- Takes a file away. -/
def remove (d : Directory) (p : Path) : Except Obstacle Directory := do
  match ← d.find p with
  | (place, .file _) =>
    let name := place.names.getLast?.getD []
    return d.modify place.up fun entries => entries.filter (·.1 != name)
  | (_, .folder _) => throw .isFolder

end Directory

end Galley
