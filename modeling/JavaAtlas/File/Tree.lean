import JavaAtlas.Data.Dict

set_option autoImplicit false

/-! # File trees

A file tree is a file with its bytes or a directory with named entries. A node is addressed by the
list of names on the way to it. -/

namespace JavaAtlas

/-- The name of a directory entry. -/
abbrev FileName := List UInt8

/-- A file or a directory. -/
inductive FileTree where
  | file (content : List UInt8) (executable : Bool)
  | directory (entries : List (FileName × FileTree))
deriving Inhabited

namespace FileTree

/-- Whether the node is a directory. -/
def isDirectory : FileTree → Bool
  | directory _ => true
  | file _ _ => false

/-- The bytes of a file. -/
def content? : FileTree → Option (List UInt8)
  | file content _ => some content
  | directory _ => none

/-- The entry of a directory under `name`. -/
def child? (name : FileName) : FileTree → Option FileTree
  | directory entries => Assoc.find? name entries
  | file _ _ => none

/-- The node at an address. -/
def get? : List FileName → FileTree → Option FileTree
  | [], tree => some tree
  | name :: names, tree => (tree.child? name).bind (get? names)

/-- Puts `node` at an address whose directories exist; the tree is unchanged where they do not. -/
def put (node : FileTree) : List FileName → FileTree → FileTree
  | [], _ => node
  | _ :: _, file content executable => file content executable
  | name :: names, directory entries =>
    match Assoc.find? name entries with
    | some child => directory (Assoc.insert name (put node names child) entries)
    | none =>
      if names.isEmpty then directory (Assoc.insert name node entries) else directory entries

/-- Removes the node at an address, if there is one. -/
def remove : List FileName → FileTree → FileTree
  | [], tree => tree
  | _ :: _, file content executable => file content executable
  | name :: names, directory entries =>
    if names.isEmpty then directory (Assoc.erase name entries)
    else match Assoc.find? name entries with
      | some child => directory (Assoc.insert name (remove names child) entries)
      | none => directory entries

end FileTree

end JavaAtlas
