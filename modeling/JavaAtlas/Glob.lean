set_option autoImplicit false

/-! # Patterns for paths

A pattern is matched against a whole text. A question mark stands for any character and an asterisk
for any run of characters, slashes included. A double asterisk must be a component of its own; it
stands for any number of leading components, and at the end of the pattern for whatever is left.
Brackets enclose a set of characters, which an exclamation mark turns into its complement. -/

namespace JavaAtlas

namespace Glob

/-- A closed range of characters. -/
structure CharRange where
  first : Char
  last : Char
deriving Repr, DecidableEq

/-- The ranges that the text between brackets spells: a character, a hyphen and a character are a
range, any other character stands for itself. -/
def rangesOf : List Char → List CharRange
  | a :: '-' :: b :: rest => ⟨a, b⟩ :: rangesOf rest
  | a :: rest => ⟨a, a⟩ :: rangesOf rest
  | [] => []

/-- A part of a pattern. -/
inductive Token where
  | char (c : Char)
  | anyChar
  | anySequence
  | anyComponents
  | within (ranges : List CharRange)
  | except (ranges : List CharRange)
deriving Repr, DecidableEq

/-! ## Reading patterns -/

/-- Where a pattern is being read: outside of brackets after a character, or in brackets after some
characters, the latest first. -/
inductive Place where
  | outside (previous : Option Char)
  | brackets (complement : Bool) (members : List Char)

/-- The token for the text between brackets. -/
def setToken (complement : Bool) (members : List Char) : Token :=
  if complement then .except (rangesOf members.reverse) else .within (rangesOf members.reverse)

/-- The tokens of the rest of a pattern; `none` when it is not well formed. -/
def scan : Place → List Char → Option (List Token)
  | .outside _, [] => some []
  | .outside _, '?' :: rest => (scan (.outside '?') rest).map (.anyChar :: ·)
  | .outside _, '*' :: '*' :: '*' :: _ => none
  | .outside previous, '*' :: '*' :: rest =>
    if previous = none ∨ previous = some '/' then
      match rest with
      | [] => some [.anyComponents]
      | c :: rest =>
        if c = '/' then (scan (.outside '/') rest).map (.anyComponents :: ·) else none
    else none
  | .outside _, '*' :: rest => (scan (.outside '*') rest).map (.anySequence :: ·)
  | .outside _, '[' :: '!' :: c :: rest => scan (.brackets true [c]) rest
  | .outside _, '[' :: c :: rest => if c = '!' then none else scan (.brackets false [c]) rest
  | .outside _, ['['] => none
  | .outside _, c :: rest => (scan (.outside c) rest).map (.char c :: ·)
  | .brackets _ _, [] => none
  | .brackets complement members, c :: rest =>
    if c = ']' then (scan (.outside ']') rest).map (setToken complement members :: ·)
    else scan (.brackets complement (c :: members)) rest

/-! ## Matching -/

/-- Whether a character lies in one of the ranges. -/
def inRanges (ranges : List CharRange) (c : Char) : Bool :=
  ranges.any fun range => range.first ≤ c && c ≤ range.last

/-- Whether a single character can stand for the token. -/
def Token.accepts (c : Char) : Token → Bool
  | char c' => c == c'
  | anyChar => true
  | within ranges => inRanges ranges c
  | except ranges => !inRanges ranges c
  | anySequence | anyComponents => false

/-! The tokens are taken one after the other. In between a list of marks, one for each place between
two characters and one for either end of the text, says which places the tokens so far can lead to,
so that the work is bounded by the number of tokens times the length of the text. -/

/-- The marks before the first token: only the start of the text is reached. -/
def startMarks (text : List Char) : List Bool := true :: text.map fun _ => false

/-- The marks after any run of characters: every place after a marked one. -/
def afterRun : Bool → List Bool → List Bool
  | _, [] => []
  | earlier, mark :: marks => (earlier || mark) :: afterRun (earlier || mark) marks

/-- The marks after any number of components: the marked places, the places after a later slash and
the end of the text. `earlier` says that a place before this one is marked, and `slash` that a slash
stands before it. -/
def afterComponents (earlier slash : Bool) : List Char → List Bool → List Bool
  | _, [] => []
  | [], mark :: _ => [earlier || mark]
  | c :: text, mark :: marks =>
    (mark || earlier && slash) :: afterComponents (earlier || mark) (c == '/') text marks

/-- The marks after a token. -/
def marksAfter (text : List Char) (marks : List Bool) : Token → List Bool
  | .anySequence => afterRun false marks
  | .anyComponents => afterComponents false false text marks
  | token => false :: List.zipWith (fun c mark => mark && token.accepts c) text marks

/-- Whether the tokens match the whole text. -/
def matchesChars (tokens : List Token) (text : List Char) : Bool :=
  (tokens.foldl (marksAfter text) (startMarks text)).getLast? == some true

end Glob

/-- A pattern that is well formed. -/
structure Glob where
  tokens : List Glob.Token

namespace Glob

/-- The pattern that a text spells, if it is well formed. -/
def ofString? (pattern : String) : Option Glob :=
  (scan (.outside none) pattern.toList).map Glob.mk

/-- Whether the pattern matches a whole text. -/
def admits (glob : Glob) (text : String) : Bool := matchesChars glob.tokens text.toList

end Glob

end JavaAtlas
