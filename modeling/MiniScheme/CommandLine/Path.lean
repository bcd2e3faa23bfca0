/-!
# Paths

A path is a text in which slashes separate names.
-/

namespace MiniScheme.CommandLine.Path

/-- The names between the slashes of a path, given the beginning of the first one, the latest
character first. -/
def splitNames (begun : List Char) : List Char → List String
  | [] => [String.ofList begun.reverse]
  | c :: path =>
    if c = '/' then String.ofList begun.reverse :: splitNames [] path
    else splitNames (c :: begun) path

/-- The names between the slashes of a path; two slashes in a row have an empty name between
them. -/
def names (path : String) : List String :=
  splitNames [] path.toList

/-- Whether a path starts at the root of all files. -/
def isAbsolute (path : String) : Bool :=
  path.toList.head? = some '/'

/-- Whether a path ends with a slash. -/
def endsWithSlash (path : String) : Bool :=
  path.toList.getLast? = some '/'

/-- The largest number of bytes that a path may have. -/
def maxBytes : Nat :=
  4095

/-- The largest number of bytes that a name in a path may have. -/
def maxNameBytes : Nat :=
  255

/-- The path of a file with another extension.  What follows the last dot of its name is
replaced, unless the name begins with that dot, and a name without an extension gets one.  If
the name up to the last dot is two dots, it leads to the folder above and takes no extension. -/
def withExtension (path extension : String) : String :=
  let reversed := path.toList.reverse
  let name := reversed.takeWhile (· ≠ '/')
  let current := name.takeWhile (· ≠ '.')
  let kept := reversed.drop current.length
  match name.drop current.length with
  | ['.', '.'] => String.ofList kept.reverse
  | '.' :: _ :: _ => String.ofList kept.reverse ++ extension
  | _ => path ++ "." ++ extension

end MiniScheme.CommandLine.Path
