import JvmSymbols.Files.Path

/-! A tree of files and directories. Places in it are lists of names from the root; a path that is not
absolute is looked up from the working directory. -/
namespace JvmSymbols

inductive FileNode
  | directory
  | file (content : ByteArray)

namespace FileNode

def append : FileNode → ByteArray → FileNode
  | directory, _ => directory
  | file content, bytes => file (content ++ bytes)

end FileNode

abbrev Place := List String

structure FileTree where
  nodes : List (Place × FileNode)
  workingDirectory : Place

namespace FileTree

/-- A tree with nothing but its working directory and what is above it. -/
def empty (workingDirectory : Place) : FileTree :=
  ⟨(List.range workingDirectory.length).map fun k => (workingDirectory.take (k + 1), .directory),
    workingDirectory⟩

def get? (t : FileTree) (place : Place) : Option FileNode :=
  if place = [] then some .directory else t.nodes.lookup place

def put (t : FileTree) (place : Place) (node : FileNode) : FileTree :=
  { t with nodes := (place, node) :: t.nodes.filter (fun (p, _) => p ≠ place) }

def addDirectory (t : FileTree) (place : Place) : FileTree :=
  (List.range place.length).foldl (fun t k =>
    if (t.get? (place.take (k + 1))).isSome then t else t.put (place.take (k + 1)) .directory) t

def addFile (t : FileTree) (place : Place) (content : ByteArray) : FileTree :=
  (t.addDirectory place.dropLast).put place (.file content)

def absolute (place : Place) : String := "/" ++ "/".intercalate place

/-- The place that names lead to from `place`; the last of them need not exist. -/
def walk (t : FileTree) (place : Place) : List String → Except FileFailure Place
  | [] => .ok place
  | name :: names =>
    match t.get? place with
    | none => .error .notFound
    | some (.file _) => .error .notDirectory
    | some .directory =>
      if name = "." then t.walk place names
      else if name = ".." then t.walk place.dropLast names
      else t.walk (place ++ [name]) names

def start (t : FileTree) (path : String) : Place :=
  if Path.isAbsolute path then [] else t.workingDirectory

/-- The place of what a path names. A path that ends in a slash names a directory. -/
def locate (t : FileTree) (path : String) : Except FileFailure (Place × FileNode) :=
  if path.isEmpty then .error .notFound
  else do
    let names := Path.names path ++ if Path.endsWithSlash path then ["."] else []
    let place ← t.walk (t.start path) names
    match t.get? place with
    | none => .error .notFound
    | some node => return (place, node)

def fileAt? (t : FileTree) (path : String) : Option Place :=
  match t.locate path with
  | .ok (place, .file _) => some place
  | _ => none

def readText (t : FileTree) (path : String) : Except FileFailure String :=
  match t.locate path with
  | .error failure => .error failure
  | .ok (_, .directory) => .error .isDirectory
  | .ok (_, .file content) =>
    match String.fromUTF8? content with
    | some text => .ok text
    | none => .error .notUtf8

/-- The place at which a file named by `path` may be written, which is created if it is missing. -/
def openForAppending (t : FileTree) (path : String) : Except FileFailure (FileTree × Place) :=
  match (Path.names path).getLast? with
  | none => .error (if path.isEmpty then .notFound else .isDirectory)
  | some name => do
    let above ← t.walk (t.start path) (Path.names path).dropLast
    match t.get? above with
    | none => .error .notFound
    | some (.file _) => .error .notDirectory
    | some .directory =>
      if Path.endsWithSlash path || name = "." || name = ".." then .error .isDirectory
      else
        match t.get? (above ++ [name]) with
        | none => .ok (t.put (above ++ [name]) (.file .empty), above ++ [name])
        | some (.file _) => .ok (t, above ++ [name])
        | some .directory => .error .isDirectory

def append (t : FileTree) (place : Place) (bytes : ByteArray) : FileTree :=
  { t with nodes := t.nodes.map fun (p, node) => (p, if p = place then node.append bytes else node) }

end FileTree
end JvmSymbols
