import JavaAtlas.Text.Utf8

set_option autoImplicit false

/-! # Paths

A path is a sequence of bytes, since a file name need not be well-formed text. Its components are
the parts between slashes: repeated slashes and inner dots do not count, a leading slash is the
root, and a leading dot is kept. -/

namespace JavaAtlas

/-- A file path. -/
structure Path where
  bytes : List UInt8
deriving DecidableEq, Repr, Inhabited

namespace Path

/-- The path that a string spells. -/
def ofString (s : String) : Path := ⟨Utf8.encode s⟩

/-- The string that spells the path, if it is well-formed text. -/
def text? (p : Path) : Option String := Utf8.toString? p.bytes

/-- The path for display, with replacement characters where it is not text. -/
def display (p : Path) : String := Utf8.toStringLenient p.bytes

/-- The byte between components. -/
def separator : UInt8 := 0x2F

/-- The byte before an extension. -/
def dot : UInt8 := 0x2E

/-- Whether the path begins at the root. -/
def isAbsolute (p : Path) : Bool := p.bytes.head? == some separator

/-- `child` seen from `base`: an absolute child stands alone, any other is appended after a
separator. -/
def join (base child : Path) : Path :=
  if child.isAbsolute then child
  else if base.bytes.isEmpty || base.bytes.getLast? == some separator then
    ⟨base.bytes ++ child.bytes⟩
  else
    ⟨base.bytes ++ separator :: child.bytes⟩

/-- `base` joined with the path that a string spells. -/
def push (base : Path) (child : String) : Path := base.join (ofString child)

/-! ## Components -/

/-- A step of a path. -/
inductive Component where
  | root
  | current
  | parent
  | name (bytes : List UInt8)
deriving DecidableEq, Repr

/-- The parts between separators, empty ones included. -/
def split : List UInt8 → List (List UInt8)
  | [] => [[]]
  | b :: rest =>
    if b = separator then [] :: split rest
    else match split rest with
      | [] => [[b]]
      | part :: parts => (b :: part) :: parts

/-- The step that a part stands for, if it is neither empty nor a dot. -/
def stepOf? (part : List UInt8) : Option Component :=
  if part = [] ∨ part = [dot] then none
  else if part = [dot, dot] then some .parent
  else some (.name part)

/-- The components of the path. -/
def components (p : Path) : List Component :=
  let parts := split p.bytes
  let start :=
    if p.isAbsolute then [.root]
    else if parts.head? = some [dot] then [.current]
    else []
  start ++ parts.filterMap stepOf?

/-- Whether the components of `suffix` are the last components of `p`. -/
def endsWith (p suffix : Path) : Bool := suffix.components.isSuffixOf p.components

/-- The last component, if it is a name. -/
def fileName? (p : Path) : Option (List UInt8) :=
  match p.components.getLast? with
  | some (.name bytes) => some bytes
  | _ => none

/-- A file name taken apart at its last dot. A name without a dot, or whose only dot is its first
byte, has no extension. -/
def splitExtension (name : List UInt8) : List UInt8 × Option (List UInt8) :=
  let tail := (name.reverse.takeWhile (· ≠ dot)).reverse
  let stem := name.take (name.length - tail.length - 1)
  if tail.length = name.length ∨ stem = [] then (name, none) else (stem, some tail)

/-- The extension of the last component. -/
def extension? (p : Path) : Option (List UInt8) :=
  p.fileName?.bind fun name => (splitExtension name).2

/-- The bytes of a path up to the end of its last component. -/
def dropTrailingSteps (bytes : List UInt8) : List UInt8 :=
  let rec go : List UInt8 → List UInt8
    | [] => []
    | b :: rest =>
      if b = separator then go rest
      else if b = dot then
        match rest with
        | c :: rest' => if c = separator then go rest' else b :: c :: rest'
        | [] => [b]
      else b :: rest
  (go bytes.reverse).reverse

/-- The path whose last component has `extension` in the place of its own. A path that does not end
in a name stays as it is. -/
def setExtension (p : Path) (extension : List UInt8) : Path :=
  match p.fileName? with
  | none => p
  | some name =>
    let stem := (splitExtension name).1
    let kept := dropTrailingSteps p.bytes
    ⟨kept.take (kept.length - name.length) ++ stem ++ dot :: extension⟩

/-- A copy of the path with its extension exchanged. The old extension is cut off by its length at
the end of the text, which is where it stands unless a separator follows the name. -/
def withExtension (p : Path) (extension : List UInt8) : Path :=
  let cut := (p.extension?.map List.length).getD 0
  setExtension ⟨p.bytes.take (p.bytes.length - cut)⟩ extension

/-- The path without its last component, if it has one to drop. -/
def parent? (p : Path) : Option Path :=
  match p.components.getLast? with
  | none | some .root => none
  | some _ =>
    let kept := dropTrailingSteps p.bytes
    let last := (kept.reverse.takeWhile (· ≠ separator)).length
    let front := kept.take (kept.length - last)
    let trimmed := dropTrailingSteps front
    some (if trimmed.isEmpty && p.isAbsolute then ⟨[separator]⟩ else ⟨trimmed⟩)

end Path

end JavaAtlas
