import StackScript.Error

/-!
# Folders in memory

A folder holds files by name, and beside them directories that are empty. A path is followed part
by part from the folder; what lies outside of it is taken to hold directories only on the way up.
-/

namespace StackScript

/-- Files by name, and the names of empty directories beside them. -/
structure Folder where
  files : List (String × ByteArray) := []
  directories : List String := []

namespace Folder

/-- What a path can lead to. -/
inductive Place where
  | here
  | outside
  | directory
  | file (contents : ByteArray)

/-- Follow one part of a path. An empty part and a dot stay where they are, in a directory. -/
def follow (folder : Folder) (place : Place) (part : String) : Except ReadError Place :=
  match place with
  | .file _ => .error .notDirectory
  | .here =>
    if part = "" ∨ part = "." then .ok .here
    else if part = ".." then .ok .outside
    else
      match folder.files.lookup part with
      | some contents => .ok (.file contents)
      | none => if folder.directories.contains part then .ok .directory else .error .notFound
  | .outside =>
    if part = "" ∨ part = "." ∨ part = ".." then .ok .outside else .error .notFound
  | .directory =>
    if part = "" ∨ part = "." then .ok .directory
    else if part = ".." then .ok .here
    else .error .notFound

/-- The parts of a path between its slashes. -/
def parts (path : String) : List String :=
  (path.toList.splitOn '/').map String.ofList

/-- What a path leads to. A path that starts with a slash starts outside. -/
def resolve (folder : Folder) (path : String) : Except ReadError Place :=
  (parts path).foldlM folder.follow (if path.startsWith "/" then .outside else .here)

/-- A path leads to something. The empty path does not. -/
def holds (folder : Folder) (path : String) : Bool :=
  path ≠ "" && (folder.resolve path).isOk

/-- The text of bytes, if they are text. -/
def decodeText (bytes : ByteArray) : Except ReadError String :=
  match String.fromUTF8? bytes with
  | some text => .ok text
  | none => .error .notText

/-- The text of the file that a path leads to. -/
def read (folder : Folder) (path : String) : Except ReadError String := do
  match ← folder.resolve path with
  | .file contents => decodeText contents
  | _ => throw .isDirectory

end Folder

end StackScript
