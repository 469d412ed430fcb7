import JavaAtlas.Environment
import JavaAtlas.Text.Word

set_option autoImplicit false

/-! # References to variables

A text may refer to a variable as `$NAME`, as `NAME` in braces after a dollar sign, or as `env:NAME`
with `env` in any letter case. A name is a longest run of word characters. References are taken
from left to right and do not overlap; a value that is put in is not read again, and a reference to
an unknown variable stays as it is written. -/

namespace JavaAtlas.Config

/-- A reference at the start of a text: the name of the variable, and the reference as written. -/
structure Reference where
  name : List Char
  spelling : List Char
deriving Repr, DecidableEq

namespace Reference

/-- The reference that is spelled `before`, a name and `after`, if a name stands at the start of
`cs`. -/
def named? (before cs : List Char) : Option Reference :=
  let name := cs.takeWhile Text.isWord
  if name.isEmpty then none else some ⟨name, before ++ name⟩

/-- The reference in braces whose name and closing brace stand at the start of `cs`. -/
def braced? (cs : List Char) : Option Reference :=
  let name := cs.takeWhile Text.isWord
  if name.isEmpty then none
  else if (cs.dropWhile Text.isWord).head? = some '\x7d' then
    some ⟨name, '$' :: '\x7b' :: name ++ ['\x7d']⟩
  else none

/-- The reference at the start of a text. -/
def atStart? : List Char → Option Reference
  | '$' :: '\x7b' :: rest => braced? rest
  | '$' :: rest => named? ['$'] rest
  | e :: n :: v :: ':' :: rest =>
    if e.toLower = 'e' ∧ n.toLower = 'n' ∧ v.toLower = 'v' then named? [e, n, v, ':'] rest else none
  | _ => none

/-- What is put in the place of the reference. -/
def replacement (lookup : Lookup) (reference : Reference) : List Char :=
  match lookup (String.ofList reference.name) with
  | some value => value.toList
  | none => reference.spelling

end Reference

/-- Replaces the references of a text, of which the first `skip` characters have been dealt with. -/
def expandFrom (lookup : Lookup) : Nat → List Char → List Char
  | _, [] => []
  | skip + 1, _ :: rest => expandFrom lookup skip rest
  | 0, c :: rest =>
    match Reference.atStart? (c :: rest) with
    | some reference =>
      reference.replacement lookup ++ expandFrom lookup (reference.spelling.length - 1) rest
    | none => c :: expandFrom lookup 0 rest

/-- The text with its references replaced by the values of the variables. -/
def expand (lookup : Lookup) (text : String) : String :=
  String.ofList (expandFrom lookup 0 text.toList)

end JavaAtlas.Config
