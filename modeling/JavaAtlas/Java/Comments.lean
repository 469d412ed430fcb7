set_option autoImplicit false

/-! # Comments in Java source

Java text is read in regions: code, the three kinds of literals and the two kinds of comments. A
comment marker counts in code only, a literal ends at its own unescaped delimiter, a line comment
ends before the line feed and a block comment after its first end marker. Stripping drops the
comments but keeps their line breaks, so that the remaining code stays on its lines. -/

namespace JavaAtlas.Java

/-- The region in which a character stands. -/
inductive Region where
  | code
  | stringLiteral
  | charLiteral
  | textBlock
  | lineComment
  | blockComment
deriving DecidableEq, Repr

/-- Drops the comments of a text that begins in the given region. -/
def stripFrom : Region → List Char → List Char
  | _, [] => []
  | .code, '/' :: '/' :: rest => stripFrom .lineComment rest
  | .code, '/' :: '*' :: rest => stripFrom .blockComment rest
  | .code, '"' :: '"' :: '"' :: rest => '"' :: '"' :: '"' :: stripFrom .textBlock rest
  | .code, '"' :: rest => '"' :: stripFrom .stringLiteral rest
  | .code, '\'' :: rest => '\'' :: stripFrom .charLiteral rest
  | .code, c :: rest => c :: stripFrom .code rest
  | .stringLiteral, '\\' :: c :: rest => '\\' :: c :: stripFrom .stringLiteral rest
  | .stringLiteral, '"' :: rest => '"' :: stripFrom .code rest
  | .stringLiteral, c :: rest => c :: stripFrom .stringLiteral rest
  | .charLiteral, '\\' :: c :: rest => '\\' :: c :: stripFrom .charLiteral rest
  | .charLiteral, '\'' :: rest => '\'' :: stripFrom .code rest
  | .charLiteral, c :: rest => c :: stripFrom .charLiteral rest
  | .textBlock, '\\' :: c :: rest => '\\' :: c :: stripFrom .textBlock rest
  | .textBlock, '"' :: '"' :: '"' :: rest => '"' :: '"' :: '"' :: stripFrom .code rest
  | .textBlock, c :: rest => c :: stripFrom .textBlock rest
  | .lineComment, '\n' :: rest => '\n' :: stripFrom .code rest
  | .lineComment, '\r' :: rest => '\r' :: stripFrom .lineComment rest
  | .lineComment, _ :: rest => stripFrom .lineComment rest
  | .blockComment, '*' :: '/' :: rest => stripFrom .code rest
  | .blockComment, '\n' :: rest => '\n' :: stripFrom .blockComment rest
  | .blockComment, '\r' :: rest => '\r' :: stripFrom .blockComment rest
  | .blockComment, _ :: rest => stripFrom .blockComment rest

/-- Java source without its comments. -/
def stripComments (source : String) : String :=
  String.ofList (stripFrom .code source.toList)

end JavaAtlas.Java
