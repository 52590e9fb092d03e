/-! Paths as texts, and why the file at a path cannot be opened or read. The parts of a path are separated by slashes;
a path that starts with one is absolute. -/
namespace JvmSymbols

inductive FileFailure
  | notFound
  | notDirectory
  | isDirectory
  | notUtf8
  deriving DecidableEq, Repr

namespace FileFailure

def message : FileFailure → String
  | notFound => "No such file or directory (os error 2)"
  | notDirectory => "Not a directory (os error 20)"
  | isDirectory => "Is a directory (os error 21)"
  | notUtf8 => "stream did not contain valid UTF-8"

end FileFailure

namespace Path

def isAbsolute (path : String) : Bool := path.toList.head? = some '/'

/-- The text of `path` seen from `base`: an absolute path stays as it is, any other is appended with a
slash between the two unless one is there or the base is empty. -/
def join (base path : String) : String :=
  if isAbsolute path then path
  else if base.isEmpty || base.toList.getLast? = some '/' then base ++ path
  else base ++ "/" ++ path

/-- The names between the slashes, where runs of slashes count as one. -/
def names (path : String) : List String :=
  ((path.toList.splitOn '/').filter (fun name => !name.isEmpty)).map String.ofList

def endsWithSlash (path : String) : Bool := path.toList.getLast? = some '/'

/-- Drops what says nothing at the end of a text written backwards: slashes, and single dots that
follow a slash. -/
def dropIdle : List Char → List Char
  | '/' :: rest => dropIdle rest
  | '.' :: '/' :: rest => dropIdle rest
  | cs => cs

/-- What stands before the last part of a path. The root and the empty path have no part. -/
def parent? (path : String) : Option String :=
  match dropIdle path.toList.reverse with
  | [] => none
  | cs =>
    match cs.dropWhile (· ≠ '/') with
    | [] => some ""
    | front =>
      match dropIdle front with
      | [] => some "/"
      | front => some (String.ofList front.reverse)

end Path
end JvmSymbols
