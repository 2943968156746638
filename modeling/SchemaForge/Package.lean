import SchemaForge.Fault
import SchemaForge.Path
import SchemaForge.Text.Words

/-! The package in which generated Python classes are published. -/
namespace SchemaForge

structure Package where
  name : String := "#artifactName"
  version : String := "#artifactVersion"
  description : String := "Symbol Catbuffer Builders"
  author : String := "NEM Group"
  authorEmail : String := "dev@nem.software"
  url : String := "https://github.com/nemtech/catbuffer-generators"
  keywords : List String :=
    ["catbuffer-generators", "catbuffer", "builders", "Symbol Catbuffer Builders"]
  requires : List String := []
  packageDirs : List (String × String) := [("", "src")]
  packages : List String
  includesData : Bool := true
  license : String := "Apache 2.0"
  longDescription : String
  longDescriptionType : String := "text/markdown"
  classifiers : List String := ["Programming Language :: Python :: 3.7"]
  deriving DecidableEq, Repr

namespace Package

/-- The files and directories below a directory, each as the names on the way down to it. -/
structure Tree where
  files : List (List String) := []
  directories : List (List String) := [[]]

namespace Tree

/-- Makes the directories on a path, unless a file is in the way. -/
def makeDirectories (tree : Tree) (directory : List String) :
    List String → Checked (Tree × List String)
  | [] => pure (tree, directory)
  | piece :: rest => do
    let directory ← Path.step directory piece
    if tree.files.contains directory then throw (if rest.isEmpty then .isFile else .belowFile)
    makeDirectories { tree with directories := directory :: tree.directories } directory rest

/-- Adds an empty file, with the directories above it. -/
def addFile (tree : Tree) (path : String) : Checked Tree := do
  let pieces ← Path.pieces path
  let (tree, directory) ← tree.makeDirectories [] pieces.dropLast
  let file ← Path.step directory (pieces.getLastD "")
  if tree.directories.contains file then throw .isDirectory
  return { tree with files := file :: tree.files }

def ofFiles (paths : List String) : Checked Tree := paths.foldlM addFile {}

end Tree

/-- The directory that a file makes a package, if its name says so. -/
def markedBy (file : List String) : Option (List String) :=
  if file.getLast? = some "__init__.py" then some file.dropLast else none

/-- All beginnings of a list but the empty one. -/
def beginnings {α : Type} (xs : List α) : List (List α) :=
  (List.range xs.length).map fun n => xs.take (n + 1)

/-- The packages below the source directory: every directory on the way down has a marker, and no dot
in its name. -/
def find (files : List (List String)) : List String :=
  let marked := files.filterMap fun file =>
    match markedBy file with
    | some ("src" :: below) => some below
    | _ => none
  let isPackage := fun (dirs : List String) => !dirs.isEmpty &&
    (beginnings dirs).all marked.contains && dirs.all (!Text.holds "." ·)
  ((marked.filter isPackage).map (Text.joinWith ".")).eraseDups.mergeSort (· ≤ ·)

/-- The package for a directory with these files; its description is the text of the read-me file. -/
def ofFiles (readme : Option String) (paths : List String) : Checked Package := do
  let tree ← Tree.ofFiles paths
  if tree.directories.contains ["README.md"] then throw .isDirectory
  let text ← match readme with
    | some text => pure text
    | none => if tree.files.contains ["README.md"] then pure "" else throw .noFile
  return { packages := find tree.files
           longDescription := String.ofList (Text.lineFeeds text.toList) }

end Package
end SchemaForge
