import NameResolution.CommandLine.Path

/-!
# Files — what a path leads to

A directory holds files and directories under names. A path is followed part by part from a
directory; `..` leads back to the directory that holds the present one. What lies above the
starting directory holds nothing. Names and paths have a greatest length, and a NUL has no place in
them.

* `FileTree.read` — what is found when the file of a path is read.
-/

namespace NameResolution.CommandLine

/-- What reading a file comes to. -/
inductive Content where
  | bytes (bytes : ByteArray)
  /-- There is no such file. -/
  | missing
  /-- The file may not be read. -/
  | denied
  /-- The path leads to a directory. -/
  | directory
  /-- The path goes on behind a file. -/
  | notDirectory
  /-- The path, or a name in it, is longer than any file's. -/
  | nameTooLong
  /-- There is a NUL in the path. -/
  | nulInName

/-- The greatest length of a name, in bytes. -/
def maxNameBytes : Nat := 255

/-- The greatest length of a path, in bytes. -/
def maxPathBytes : Nat := 4095

/-- A file with what it holds, or a directory. -/
inductive FileTree where
  | file (bytes : ByteArray)
  | directory (entries : List (String × FileTree))

namespace FileTree

/-- Follows parts of a path from `here`; `above` are the directories that hold it, the nearest
first. -/
def follow (above : List FileTree) (here : FileTree) : List String → Content
  | [] =>
    match here with
    | file bytes => .bytes bytes
    | directory _ => .directory
  | part :: parts =>
    match here with
    | file _ => .notDirectory
    | directory entries =>
      if part == ".." then
        -- above the top directory there is nothing else
        match above with
        | [] => follow [] (directory []) parts
        | parent :: above => follow above parent parts
      else if maxNameBytes < part.utf8ByteSize then .nameTooLong
      else
        match entries.lookup part with
        | none => .missing
        | some next => follow (here :: above) next parts

/-- What reading the file of a path comes to, from a directory that holds what `tree` does. -/
def read (tree : FileTree) (path : Path) : Content :=
  if path.hasNul then .nulInName
  else if maxPathBytes < path.text.utf8ByteSize then .nameTooLong
  else if path.root.isEmpty then follow [] tree path.parts
  else follow [] (directory []) path.parts

/-- The tree with one more file, at the end of the path `parts`; directories are made on the way. -/
def insert (tree : FileTree) (bytes : ByteArray) : List String → FileTree
  | [] => file bytes
  | part :: parts =>
    let entries := match tree with
      | directory entries => entries
      | file _ => []
    match entries.lookup part with
    | none => directory (entries ++ [(part, insert (directory []) bytes parts)])
    | some next =>
      let changed := insert next bytes parts
      directory (entries.map fun (name, tree) => (name, if name = part then changed else tree))

/-- The directory that holds files under the given paths. -/
def ofFiles (files : List (String × ByteArray)) : FileTree :=
  files.foldl (fun tree (name, bytes) => tree.insert bytes (Path.ofString name).parts)
    (directory [])

end FileTree

end NameResolution.CommandLine
