import JavaAtlas.Config.Settings

set_option autoImplicit false

/-! # The sources of a project

The sources are the files below the project with the extension `java`. Hidden files and whatever
lies in a hidden directory do not count, and neither do the paths that the settings exclude. The
project itself may have any name. -/

namespace JavaAtlas.Project

/-- Whether a name is that of a hidden entry. -/
def isHidden (name : FileName) : Bool := name.head? == some Path.dot

mutual

/-- The addresses of the files of a tree that are not hidden on the way from its root. -/
def visibleFiles : FileTree → List (List FileName)
  | .file _ _ => [[]]
  | .directory entries => visibleEntries entries

/-- The addresses of the files below the entries of a directory. -/
def visibleEntries : List (FileName × FileTree) → List (List FileName)
  | [] => []
  | (name, tree) :: rest =>
    (if isHidden name then [] else (visibleFiles tree).map (name :: ·)) ++ visibleEntries rest

end

/-- The path from the project to an address below it. -/
def relativePath : List FileName → Path
  | [] => ⟨[]⟩
  | [name] => ⟨name⟩
  | name :: rest => ⟨name ++ Path.separator :: (relativePath rest).bytes⟩

/-- The extension of Java sources. -/
def sourceExtension : List UInt8 := Utf8.encode "java"

/-- Whether the file at an address below the project counts as a source. The project may itself be
a file; its own extension counts then. -/
def isSource (settings : Config.Settings) (project : Path) (address : List FileName) : Bool :=
  let extension := match address.getLast? with
    | some name => (Path.splitExtension name).2
    | none => project.extension?
  extension == some sourceExtension && !settings.isExcluded (relativePath address).display

/-- The number of sources below the project. -/
def countSources (settings : Config.Settings) (files : FileSystem) (project : Path) : Nat :=
  match files.node project with
  | .ok tree => (visibleFiles tree).countP (isSource settings project)
  | .error _ => 0

end JavaAtlas.Project
