import MiniScheme.CommandLine.FileSystem
import MiniScheme.CommandLine.Path

/-!
# Directories

A working directory whose outside is unknown: files by their place in it, and folders where a file
has a longer place.  It is a file system of its own, on which a command can be run and tested.

Main results:

- Theorem `entry_insert_self`: a file that is put in place is what is found there.
- Theorem `lookup_insert_of_ne`: all other files stay as they are.
-/

namespace MiniScheme.CommandLine

/-- The files of a directory; a file's place is its name after those of the folders around it,
the outermost first. -/
structure Directory where
  files : List (List String × Content)

/-- What is found at a place. -/
inductive Entry
  | file (content : Content)
  | folder
  | missing

/-- Where a path leads: to a place in the directory, or out of it. -/
inductive Location
  | inside (place : List String)
  | outside
deriving DecidableEq

namespace Directory

/-- The directory with some files by their paths in it. -/
def ofFiles (files : List (String × Content)) : Directory :=
  ⟨files.map fun (path, content) => (Path.names path, content)⟩

/-- What is found at a location; the directory itself and all that is outside are folders. -/
def entry (directory : Directory) : Location → Entry
  | .outside => .folder
  | .inside place =>
    match directory.files.lookup place with
    | some content => .file content
    | none =>
      if place.isEmpty || directory.files.any (fun file => place.isPrefixOf file.1) then .folder
      else .missing

/-- Put a file in place. -/
def insert (directory : Directory) (place : List String) (content : Content) : Directory :=
  ⟨(place, content) :: directory.files.filter (fun file => file.1 ≠ place)⟩

/-- The location that a name leads to from a folder. -/
def enter (location : Location) (name : String) : Except FileError Location :=
  if name = "" || name = "." then .ok location
  else if name = ".." then
    match location with
    | .inside place => .ok (if place.isEmpty then .outside else .inside place.dropLast)
    | .outside => .ok .outside
  else if Path.maxNameBytes < name.utf8ByteSize then .error .nameTooLong
  else
    match location with
    | .inside place => .ok (.inside (place ++ [name]))
    | .outside => .error .noSuchFile

/-- The location that names lead to, each from the folder that those before it lead to. -/
def follow (directory : Directory) (location : Location) :
    List String → Except FileError Location
  | [] => .ok location
  | name :: names =>
    match directory.entry location with
    | .folder => do directory.follow (← enter location name) names
    | .file _ => .error .notFolder
    | .missing => .error .noSuchFile

/-- The location where a path begins. -/
def start (path : String) : Except FileError Location :=
  if path = "" then .error .noSuchFile
  else if Path.maxBytes < path.utf8ByteSize then .error .nameTooLong
  else .ok (if Path.isAbsolute path then .outside else .inside [])

/-- The location that a path leads to, where something may be or not. -/
def locate (directory : Directory) (path : String) : Except FileError Location := do
  directory.follow (← start path) (Path.names path)

/-- The text of the file at a path. -/
def read (directory : Directory) (path : String) : Except FileError String := do
  match directory.entry (← directory.locate path) with
  | .file (.text text) => .ok text
  | .file (.binary _) => .error .notText
  | .folder => .error .isFolder
  | .missing => .error .noSuchFile

/-- Whether a name leads to a folder wherever it leads to something. -/
def isFolderName (name : String) : Bool :=
  name = "" || name = "." || name = ".."

/-- The place that a text may be written to: that of a file, or one where nothing is.  The
folder must be there; a path that ends with a slash names a folder, whatever is there. -/
def writable (directory : Directory) (path : String) : Except FileError (List String) := do
  let location ← start path
  let names := (Path.names path).filter (· ≠ "")
  let folder ← directory.follow location (names.dropLast ++ [""])
  let name := names.getLastD ""
  if isFolderName name || Path.endsWithSlash path then .error .isFolder
  else
    let location ← enter folder name
    match location, directory.entry location with
    | .inside _, .folder => .error .isFolder
    | .inside place, _ => .ok place
    | .outside, _ => .error .isFolder

/-- The place of the file that a path leads to. -/
def fileAt (directory : Directory) (path : String) : Option (List String) :=
  match directory.locate path with
  | .ok (.inside place) => if (directory.files.lookup place).isSome then some place else none
  | _ => none

/-- The file system of a directory, where a file is known by its place.  There is room for every
text. -/
def fileSystem : FileSystem Directory where
  File := List String
  read := read
  create directory path :=
    match directory.writable path with
    | .ok place => (.ok place, directory.insert place (.text ""))
    | .error error => (.error error, directory)
  fill directory place text := (.ok (), directory.insert place (.text text))
  locate := fileAt
  content directory place := directory.files.lookup place

/-- What is held in a place after a file is put there. -/
@[simp]
theorem lookup_insert_self (directory : Directory) (place : List String) (content : Content) :
    (directory.insert place content).files.lookup place = some content := by
  simp [insert]

/-- A file that is put in place is what is found there. -/
theorem entry_insert_self (directory : Directory) (place : List String) (content : Content) :
    (directory.insert place content).entry (.inside place) = .file content := by
  simp [insert, entry]

/-- All other files stay as they are when one is put in place. -/
theorem lookup_insert_of_ne (directory : Directory) {place other : List String}
    (content : Content) (h : other ≠ place) :
    (directory.insert place content).files.lookup other = directory.files.lookup other := by
  have hne : (other == place) = false := by simpa using h
  simp only [insert, List.lookup_cons, hne]
  induction directory.files with
  | nil => rfl
  | cons file files ih =>
    obtain ⟨found, held⟩ := file
    by_cases hfound : found = place
    · have hother : (other == found) = false := by simpa [hfound] using h
      simpa [hfound, List.lookup_cons, hne] using ih
    · simp [hfound, List.lookup_cons] at ih ⊢
      rw [ih]

end Directory

end MiniScheme.CommandLine
