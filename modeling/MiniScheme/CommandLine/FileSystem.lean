/-!
# File systems

A file system is known by what can be done with it: a text is read from a path, a file is opened at
a path, which makes or empties it, and an open file is filled with a text.  Each of these may fail,
and filling may fail when the file is empty already.  What a command can rely on are a few laws;
they say nothing of when an operation succeeds.

Main results:

- Theorem `FileSystem.Lawful.full`: a file system that keeps to the laws does so when it is full.
-/

namespace MiniScheme.CommandLine

/-- What a file holds: a text, or bytes that are no text. -/
inductive Content
  | text (content : String)
  | binary (bytes : ByteArray)
deriving BEq

/-- What a file of some bytes holds. -/
def Content.ofBytes (bytes : ByteArray) : Content :=
  match String.fromUTF8? bytes with
  | some content => .text content
  | none => .binary bytes

/-- Why a file cannot be read or written. -/
inductive FileError
  | noSuchFile
  | notFolder
  | isFolder
  | nameTooLong
  | noSpace
  | notText
  | other (message : String)
deriving DecidableEq

/-- The error in words. -/
def FileError.message : FileError → String
  | noSuchFile => "No such file or directory (os error 2)"
  | notFolder => "Not a directory (os error 20)"
  | isFolder => "Is a directory (os error 21)"
  | nameTooLong => "File name too long (os error 36)"
  | noSpace => "No space left on device (os error 28)"
  | notText => "stream did not contain valid UTF-8"
  | other message => message

/-- What can be done with files, and what can be seen of them.  A file is known by itself and not
by its path: two paths may lead to one file. -/
structure FileSystem (Files : Type) where
  File : Type
  /-- The text of the file at a path. -/
  read : Files → String → Except FileError String
  /-- The file at a path, opened for a new text: it is made, or emptied if it is there. -/
  create : Files → String → Except FileError File × Files
  /-- Write a text to an open file; a part of it may be written before this fails. -/
  fill : Files → File → String → Except FileError Unit × Files
  /-- The file that a path leads to. -/
  locate : Files → String → Option File
  /-- What a file holds, if it is there. -/
  content : Files → File → Option Content

namespace FileSystem

variable {Files : Type}

/-- The laws of files: what is documented of opening and writing files that are neither devices nor
pipes, where nobody else is at work on them. -/
structure Lawful (system : FileSystem Files) : Prop where
  /-- If no file can be opened at a path, then all files stay as they are. -/
  create_error {files opened : Files} {path : String} {error : FileError} :
    system.create files path = (.error error, opened) →
      ∀ file, system.content opened file = system.content files file
  /-- A file that is opened at a path is the one that the path leads to. -/
  create_locate {files opened : Files} {path : String} {file : system.File} :
    system.create files path = (.ok file, opened) → system.locate opened path = some file
  /-- A file that is opened is empty. -/
  create_empty {files opened : Files} {path : String} {file : system.File} :
    system.create files path = (.ok file, opened) →
      system.content opened file = some (.text "")
  /-- When a file is opened, all others stay as they are. -/
  create_other {files opened : Files} {path : String} {file other : system.File} :
    system.create files path = (.ok file, opened) → other ≠ file →
      system.content opened other = system.content files other
  /-- When an empty file is filled, or this fails, all paths lead where they led. -/
  fill_locate {files : Files} {file : system.File} (text : String) :
    system.content files file = some (.text "") →
      ∀ path, system.locate (system.fill files file text).2 path = system.locate files path
  /-- When a file is filled, or this fails, all others stay as they are. -/
  fill_other {files : Files} {file other : system.File} (text : String) :
    other ≠ file →
      system.content (system.fill files file text).2 other = system.content files other
  /-- An empty file that is filled with a text holds the text. -/
  fill_text {files filled : Files} {file : system.File} {text : String} :
    system.content files file = some (.text "") →
      system.fill files file text = (.ok (), filled) →
        system.content filled file = some (.text text)

/-- After a file was opened at a path and filled, or this failed, the path leads to it. -/
theorem Lawful.locate_fill {system : FileSystem Files} (h : system.Lawful) {files opened : Files}
    {path : String} {file : system.File} (hcreate : system.create files path = (.ok file, opened))
    (text : String) : system.locate (system.fill opened file text).2 path = some file :=
  (h.fill_locate text (h.create_empty hcreate) path).trans (h.create_locate hcreate)

/-- After a file was opened at a path and filled, or this failed, all others are as they were. -/
theorem Lawful.content_fill {system : FileSystem Files} (h : system.Lawful) {files opened : Files}
    {path : String} {file other : system.File}
    (hcreate : system.create files path = (.ok file, opened)) (text : String)
    (hother : other ≠ file) :
    system.content (system.fill opened file text).2 other = system.content files other :=
  (h.fill_other text hother).trans (h.create_other hcreate hother)

/-- Whether a text can be written to a path: a file can be opened there and filled with it. -/
def CanWrite (system : FileSystem Files) (files : Files) (path text : String) : Prop :=
  ∃ file opened filled, system.create files path = (.ok file, opened) ∧
    system.fill opened file text = (.ok (), filled)

/-- The file system when it is full: files can be made and emptied, and nothing can be added. -/
def full (system : FileSystem Files) : FileSystem Files :=
  { system with
    fill := fun files _ text => if text = "" then (.ok (), files) else (.error .noSpace, files) }

/-- A file system that keeps to the laws does so when it is full. -/
theorem Lawful.full {system : FileSystem Files} (h : system.Lawful) : system.full.Lawful where
  create_error := h.create_error
  create_locate := h.create_locate
  create_empty := h.create_empty
  create_other := h.create_other
  fill_locate text _ path := by
    simp only [FileSystem.full]
    split <;> rfl
  fill_other text _ := by
    simp only [FileSystem.full]
    split <;> rfl
  fill_text {files filled file text} hempty hfill := by
    simp only [FileSystem.full] at hempty hfill ⊢
    split at hfill
    next htext =>
      cases hfill
      rw [htext]
      exact hempty
    next => cases hfill

end FileSystem

end MiniScheme.CommandLine
