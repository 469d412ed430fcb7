set_option autoImplicit false

/-! # UTF-8

Decoding takes the bytes apart into characters and undecodable stretches: a stretch is the longest
beginning of some character's encoding, or a lone byte that begins none. Strict decoding refuses
every stretch; lenient decoding replaces each by the replacement character. -/

namespace JavaAtlas.Utf8

/-- Whether `b` continues a character. -/
def isContinuation (b : UInt8) : Bool := 0x80 ≤ b && b ≤ 0xBF

/-- Whether `b` may follow `a`, the first byte of a character of three or four bytes. Overlong
forms, surrogates and code points that are too large are excluded here. -/
def mayFollow (a b : UInt8) : Bool :=
  if a == 0xE0 then 0xA0 ≤ b && b ≤ 0xBF
  else if a == 0xED then 0x80 ≤ b && b ≤ 0x9F
  else if a == 0xF0 then 0x90 ≤ b && b ≤ 0xBF
  else if a == 0xF4 then 0x80 ≤ b && b ≤ 0x8F
  else isContinuation b

/-- The low six bits of a continuation byte. -/
def payload (b : UInt8) : Nat := b.toNat % 64

/-- The characters that `bytes` encodes, with `none` for each undecodable stretch. -/
def decode : List UInt8 → List (Option Char)
  | [] => []
  | a :: rest =>
    if a < 0x80 then
      some (Char.ofNat a.toNat) :: decode rest
    else if 0xC2 ≤ a && a ≤ 0xDF then
      match rest with
      | b :: rest' =>
        if isContinuation b then
          some (Char.ofNat (a.toNat % 32 * 64 + payload b)) :: decode rest'
        else none :: decode (b :: rest')
      | [] => [none]
    else if 0xE0 ≤ a && a ≤ 0xEF then
      match rest with
      | b :: rest' =>
        if mayFollow a b then
          match rest' with
          | c :: rest'' =>
            if isContinuation c then
              some (Char.ofNat (a.toNat % 16 * 4096 + payload b * 64 + payload c)) :: decode rest''
            else none :: decode (c :: rest'')
          | [] => [none]
        else none :: decode (b :: rest')
      | [] => [none]
    else if 0xF0 ≤ a && a ≤ 0xF4 then
      match rest with
      | b :: rest' =>
        if mayFollow a b then
          match rest' with
          | c :: rest'' =>
            if isContinuation c then
              match rest'' with
              | d :: rest''' =>
                if isContinuation d then
                  some (Char.ofNat (a.toNat % 8 * 262144 + payload b * 4096 + payload c * 64 +
                    payload d)) :: decode rest'''
                else none :: decode (d :: rest''')
              | [] => [none]
            else none :: decode (c :: rest'')
          | [] => [none]
        else none :: decode (b :: rest')
      | [] => [none]
    else
      none :: decode rest
termination_by bytes => bytes.length

/-- The characters of well-formed bytes. -/
def decodeStrict (bytes : List UInt8) : Option (List Char) :=
  (decode bytes).mapM id

/-- The characters of `bytes`, with a replacement character for each undecodable stretch. -/
def decodeLenient (bytes : List UInt8) : List Char :=
  (decode bytes).map (·.getD '\uFFFD')

/-- The bytes of a string. -/
def encode (s : String) : List UInt8 := s.toUTF8.toList

/-- The string that `bytes` encodes, if they are well-formed. -/
def toString? (bytes : List UInt8) : Option String :=
  (decodeStrict bytes).map String.ofList

/-- The string that `bytes` encodes, with replacement characters where they are malformed. -/
def toStringLenient (bytes : List UInt8) : String :=
  String.ofList (decodeLenient bytes)

end JavaAtlas.Utf8
