import JavaAtlas.File.Tree
import JavaAtlas.File.Fault
import JavaAtlas.Path

set_option autoImplicit false

/-! # File systems

A file system is a tree together with the directory from which relative paths are seen. A path is
resolved step by step: every step needs a directory to start from, a parent step leads back up, and
the root is its own parent. -/

namespace JavaAtlas

/-- A tree and the address of the working directory. -/
structure FileSystem where
  tree : FileTree
  working : List FileName := []
deriving Inhabited

namespace FileSystem

/-! ## Resolving paths -/

/-- Where a path leads: the address of an existing node, or of a place in an existing directory
that has no node yet. -/
inductive Target where
  | node (address : List FileName) (tree : FileTree)
  | vacant (address : List FileName)

/-- Follows the parts of a path from the directory at `address`. A last part whose entry is missing
leads to a vacant place. -/
def follow (root : FileTree) : List FileName → List (List UInt8) → Except FileFault Target
  | address, [] => match root.get? address with
    | some tree => .ok (.node address tree)
    | none => .error .notFound
  | address, part :: parts => match root.get? address with
    | none => .error .notFound
    | some (.file _ _) => .error .notDirectory
    | some (.directory entries) =>
      match Path.stepOf? part with
      | none => follow root address parts
      | some .parent => follow root address.dropLast parts
      | some (.name name) =>
        if name.length > 255 then .error .nameTooLong
        else match Assoc.find? name entries with
          | some _ => follow root (address ++ [name]) parts
          | none => if parts = [] then .ok (.vacant (address ++ [name])) else .error .notFound
      | some _ => follow root address parts

/-- Where a path leads. -/
def resolve (fs : FileSystem) (path : Path) : Except FileFault Target :=
  if path.bytes.contains 0 then .error .invalidName
  else if path.bytes.isEmpty then .error .notFound
  else if path.bytes.length ≥ 4096 then .error .nameTooLong
  else follow fs.tree (if path.isAbsolute then [] else fs.working) (Path.split path.bytes)

/-- The node that a path names. -/
def node (fs : FileSystem) (path : Path) : Except FileFault FileTree :=
  match fs.resolve path with
  | .ok (.node _ tree) => .ok tree
  | .ok (.vacant _) => .error .notFound
  | .error fault => .error fault

/-- Whether a path names anything. -/
def pathExists (fs : FileSystem) (path : Path) : Bool := (fs.node path).isOk

/-- Whether a path names a directory. -/
def isDirectory (fs : FileSystem) (path : Path) : Bool :=
  match fs.node path with
  | .ok tree => tree.isDirectory
  | .error _ => false

/-- Whether a path names a file. -/
def isFile (fs : FileSystem) (path : Path) : Bool :=
  match fs.node path with
  | .ok tree => !tree.isDirectory
  | .error _ => false

/-- The path from the root that an address spells. -/
def addressPath : List FileName → Path
  | [] => ⟨[Path.separator]⟩
  | names => ⟨names.flatMap fun name => Path.separator :: name⟩

/-- The path from the root, without detours, to what a path names. -/
def canonicalize (fs : FileSystem) (path : Path) : Except FileFault Path :=
  match fs.resolve path with
  | .ok (.node address _) => .ok (addressPath address)
  | .ok (.vacant _) => .error .notFound
  | .error fault => .error fault

/-! ## Reading -/

/-- The bytes of the file that a path names. -/
def readBytes (fs : FileSystem) (path : Path) : Except FileFault (List UInt8) :=
  match fs.node path with
  | .ok (.file content _) => .ok content
  | .ok (.directory _) => .error .isDirectory
  | .error fault => .error fault

/-- The text of the file that a path names. -/
def readText (fs : FileSystem) (path : Path) : Except FileFault String := do
  let bytes ← fs.readBytes path
  match Utf8.toString? bytes with
  | some text => .ok text
  | none => .error .notText

/-! ## Writing -/

/-- Writes a file, which is created in an existing directory if need be. -/
def writeBytes (fs : FileSystem) (path : Path) (content : List UInt8) :
    Except FileFault FileSystem :=
  match fs.resolve path with
  | .ok (.node address (.file _ executable)) =>
    .ok { fs with tree := FileTree.put (.file content executable) address fs.tree }
  | .ok (.node _ (.directory _)) => .error .isDirectory
  | .ok (.vacant address) =>
    .ok { fs with tree := FileTree.put (.file content false) address fs.tree }
  | .error fault => .error fault

/-- Makes one directory, whose parent exists. -/
def makeDirectory (fs : FileSystem) (path : Path) : Except FileFault FileSystem :=
  -- a separator after the name of a directory to be made does not count
  match fs.resolve ⟨Path.dropTrailingSteps path.bytes⟩ with
  | .ok (.vacant address) => .ok { fs with tree := FileTree.put (.directory []) address fs.tree }
  | .ok (.node _ _) => .error .alreadyExists
  | .error fault => if path.isAbsolute && (Path.dropTrailingSteps path.bytes).isEmpty then
      .error .alreadyExists else .error fault

/-- Makes one directory, or accepts that the directory exists. -/
def ensureDirectory (fs : FileSystem) (path : Path) : Except FileFault FileSystem :=
  match fs.makeDirectory path with
  | .ok fs => .ok fs
  | .error fault => if fs.isDirectory path then .ok fs else .error fault

/-- Makes a directory and its missing parents. `depth` bounds the number of parents. -/
def ensureDirectoriesWithin : Nat → FileSystem → Path → Except FileFault FileSystem
  | 0, _, _ => .error .noWholeTree
  | depth + 1, fs, path =>
    if path.bytes.isEmpty then .ok fs
    else match fs.makeDirectory path with
      | .ok fs => .ok fs
      | .error .notFound => match path.parent? with
        | none => .error .noWholeTree
        | some parent => do
          let fs ← ensureDirectoriesWithin depth fs parent
          fs.ensureDirectory path
      | .error fault => if fs.isDirectory path then .ok fs else .error fault

/-- Makes a directory and its missing parents. -/
def ensureDirectories (fs : FileSystem) (path : Path) : Except FileFault FileSystem :=
  ensureDirectoriesWithin (path.components.length + 2) fs path

/-- Moves the file at `source` to `target`, in the place of a file that may be there. -/
def rename (fs : FileSystem) (source target : Path) : Except FileFault FileSystem := do
  let (address, moved) ← match ← fs.resolve source with
    | .node address tree => .ok (address, tree)
    | .vacant _ => .error .notFound
  let place ← match ← fs.resolve target with
    | .node place (.directory _) => if moved.isDirectory then .ok place else .error .isDirectory
    | .node place (.file _ _) => if moved.isDirectory then .error .notDirectory else .ok place
    | .vacant place => .ok place
  if place = address then .ok fs
  else .ok { fs with tree := FileTree.put moved place (FileTree.remove address fs.tree) }

end FileSystem

end JavaAtlas
