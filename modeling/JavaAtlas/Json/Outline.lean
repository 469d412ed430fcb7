import JavaAtlas.Json.Numeral

set_option autoImplicit false

/-! # The outline of JSON text

An outline is a JSON text taken apart before anything is asked of its values: member names may
repeat, numerals keep their spelling, and the place where the text stops following the grammar is a
leaf of its own. Records are read from outlines, in the order of the text, so that of several
faults the first one is reported. -/

namespace JavaAtlas.Json

/-- A JSON text as far as its grammar can be followed. A string is `none` when it holds half of a
surrogate pair, and so is the name of a member; the name is `none` too where no name can be found,
and its value is `broken` then. -/
inductive Outline where
  | broken
  | null
  | bool (value : Bool)
  | number (numeral : Numeral)
  | string (value : Option String)
  | array (items : List Outline)
  | object (members : List (Option String × Outline))
deriving Inhabited

/-- Drops the blanks of JSON text: space, tab, line feed and carriage return. -/
def skipBlank (cs : List Char) : List Char :=
  cs.dropWhile fun c => c == ' ' || c == '\n' || c == '\t' || c == '\r'

/-! ## Strings -/

/-- A piece of a string: a character as it stands, or a 16-bit unit written as `\u` and four
digits. -/
inductive StringPiece where
  | char (c : Char)
  | unit (n : Nat)
deriving Repr, DecidableEq

/-- The value of a hexadecimal digit. -/
def hexValue? (c : Char) : Option Nat :=
  if '0' ≤ c ∧ c ≤ '9' then some (c.toNat - 48)
  else if 'a' ≤ c ∧ c ≤ 'f' then some (c.toNat - 87)
  else if 'A' ≤ c ∧ c ≤ 'F' then some (c.toNat - 55)
  else none

/-- The value of four hexadecimal digits. -/
def hexUnit? (a b c d : Char) : Option Nat := do
  some ((← hexValue? a) * 4096 + (← hexValue? b) * 256 + (← hexValue? c) * 16 + (← hexValue? d))

/-- The character for which a one-letter escape stands. -/
def escapedChar? : Char → Option Char
  | '"' => some '"'
  | '\\' => some '\\'
  | '/' => some '/'
  | 'b' => some '\x08'
  | 'f' => some '\x0c'
  | 'n' => some '\n'
  | 'r' => some '\r'
  | 't' => some '\t'
  | _ => none

/-- The pieces of a string up to its closing quote, and the text after it; `none` when the string
breaks the grammar. -/
def scanString : List Char → Option (List StringPiece × List Char)
  | [] => none
  | '"' :: rest => some ([], rest)
  | '\\' :: 'u' :: a :: b :: c :: d :: rest => do
    let n ← hexUnit? a b c d
    let (pieces, rest) ← scanString rest
    some (.unit n :: pieces, rest)
  | '\\' :: e :: rest => do
    let c ← escapedChar? e
    let (pieces, rest) ← scanString rest
    some (.char c :: pieces, rest)
  | c :: rest =>
    if c.toNat < 0x20 || c == '\\' then none
    else do
      let (pieces, rest) ← scanString rest
      some (.char c :: pieces, rest)

/-- Whether `n` is the first unit of a surrogate pair. -/
def isHighSurrogate (n : Nat) : Bool := 0xD800 ≤ n && n < 0xDC00

/-- Whether `n` is the second unit of a surrogate pair. -/
def isLowSurrogate (n : Nat) : Bool := 0xDC00 ≤ n && n < 0xE000

/-- The characters that the pieces stand for, if no unit is half of a pair. -/
def assemble : List StringPiece → Option (List Char)
  | [] => some []
  | .char c :: rest => (assemble rest).map (c :: ·)
  | .unit n :: rest =>
    if isHighSurrogate n then
      match rest with
      | .unit m :: rest' =>
        if isLowSurrogate m then
          (assemble rest').map (Char.ofNat (0x10000 + (n - 0xD800) * 0x400 + (m - 0xDC00)) :: ·)
        else none
      | _ => none
    else if isLowSurrogate n then none
    else (assemble rest).map (Char.ofNat n :: ·)

/-- The string that the pieces stand for. -/
def assembleString (pieces : List StringPiece) : Option String :=
  (assemble pieces).map String.ofList

/-! ## Numerals -/

/-- The digits at the start of a text, and the rest; `none` when there is no digit. -/
def scanDigits (cs : List Char) : Option (List Char × List Char) :=
  match cs.span Char.isDigit with
  | ([], _) => none
  | (digits, rest) => some (digits, rest)

/-- The natural number that decimal digits denote. -/
def digitsValue (digits : List Char) : Nat :=
  digits.foldl (fun n c => n * 10 + Numeral.digitValue c) 0

/-- The whole part of a numeral, which has no needless zero in front. -/
def scanWhole (cs : List Char) : Option (List Char × List Char) := do
  let (digits, rest) ← scanDigits cs
  if digits.head? = some '0' ∧ digits.length > 1 then none else some (digits, rest)

/-- The exponent after its letter. -/
def scanExponent (cs : List Char) : Option (Int × List Char) := do
  let (negative, cs) := match cs with
    | '+' :: rest => (false, rest)
    | '-' :: rest => (true, rest)
    | _ => (false, cs)
  let (digits, rest) ← scanDigits cs
  let value : Int := digitsValue digits
  some (if negative then -value else value, rest)

/-- The numeral at the start of a text, and the rest. -/
def scanNumeral (cs : List Char) : Option (Numeral × List Char) := do
  let (negative, cs) := match cs with
    | '-' :: rest => (true, rest)
    | _ => (false, cs)
  let (whole, cs) ← scanWhole cs
  let (fraction, cs) ← match cs with
    | '.' :: rest => (scanDigits rest).map fun (digits, rest) => (some digits, rest)
    | _ => some (none, cs)
  let (exponent, cs) ← match cs with
    | 'e' :: rest | 'E' :: rest => (scanExponent rest).map fun (value, rest) => (some value, rest)
    | _ => some (none, cs)
  some (⟨negative, whole, fraction, exponent⟩, cs)

/-! ## Values -/

mutual

/-- The outline of the value at the start of a text, and the text after it; no text is left when
the value is broken off. -/
def scanValue : Nat → List Char → Outline × Option (List Char)
  | 0, _ => (.broken, none)
  | fuel + 1, cs =>
    match skipBlank cs with
    | 'n' :: 'u' :: 'l' :: 'l' :: rest => (.null, some rest)
    | 't' :: 'r' :: 'u' :: 'e' :: rest => (.bool true, some rest)
    | 'f' :: 'a' :: 'l' :: 's' :: 'e' :: rest => (.bool false, some rest)
    | '"' :: rest =>
      match scanString rest with
      | some (pieces, rest) => (.string (assembleString pieces), some rest)
      | none => (.broken, none)
    | '[' :: rest =>
      match skipBlank rest with
      | ']' :: rest => (.array [], some rest)
      | rest =>
        let (items, rest) := scanItems fuel rest
        (.array items, rest)
    | '\x7b' :: rest =>
      match skipBlank rest with
      | '\x7d' :: rest => (.object [], some rest)
      | rest =>
        let (members, rest) := scanMembers fuel rest
        (.object members, rest)
    | cs =>
      match scanNumeral cs with
      | some (numeral, rest) => (.number numeral, some rest)
      | none => (.broken, none)

/-- The items of an array from the next one on, and the text after the array. -/
def scanItems : Nat → List Char → List Outline × Option (List Char)
  | 0, _ => ([.broken], none)
  | fuel + 1, cs =>
    match scanValue fuel cs with
    | (item, none) => ([item], none)
    | (item, some rest) =>
      match skipBlank rest with
      | ',' :: rest =>
        let (items, rest) := scanItems fuel rest
        (item :: items, rest)
      | ']' :: rest => ([item], some rest)
      | _ => ([item, .broken], none)

/-- The members of an object from the next one on, and the text after the object. -/
def scanMembers : Nat → List Char → List (Option String × Outline) × Option (List Char)
  | 0, _ => ([(none, .broken)], none)
  | fuel + 1, cs =>
    match skipBlank cs with
    | '"' :: rest =>
      match scanString rest with
      | none => ([(none, .broken)], none)
      | some (pieces, rest) =>
        let name := assembleString pieces
        match skipBlank rest with
        | ':' :: rest =>
          match scanValue fuel rest with
          | (value, none) => ([(name, value)], none)
          | (value, some rest) =>
            match skipBlank rest with
            | ',' :: rest =>
              let (members, rest) := scanMembers fuel rest
              ((name, value) :: members, rest)
            | '\x7d' :: rest => ([(name, value)], some rest)
            | _ => ([(name, value), (none, .broken)], none)
        | _ => ([(name, .broken)], none)
    | _ => ([(none, .broken)], none)

end

/-- A whole text: the outline of its value, and whether nothing but blanks follows. -/
structure Document where
  outline : Outline
  complete : Bool

/-- The outline of a text. Each step down or along a container reads at least one character, so
twice the length of the text bounds the recursion. -/
def Document.ofText (text : String) : Document :=
  let cs := text.toList
  match scanValue (2 * cs.length + 2) cs with
  | (outline, some rest) => ⟨outline, (skipBlank rest).isEmpty⟩
  | (outline, none) => ⟨outline, false⟩

/-! ## What may be skipped, and what is a value -/

mutual

/-- Whether the whole outline follows the grammar. Numerals out of range and halves of surrogate
pairs do, so a value that nobody asks for may hold them. -/
def Outline.wellFormed : Outline → Bool
  | .broken => false
  | .array items => itemsWellFormed items
  | .object members => membersWellFormed members
  | _ => true

/-- Whether every item follows the grammar. -/
def itemsWellFormed : List Outline → Bool
  | [] => true
  | item :: rest => item.wellFormed && itemsWellFormed rest

/-- Whether every member follows the grammar. -/
def membersWellFormed : List (Option String × Outline) → Bool
  | [] => true
  | (_, value) :: rest => value.wellFormed && membersWellFormed rest

end

end JavaAtlas.Json
