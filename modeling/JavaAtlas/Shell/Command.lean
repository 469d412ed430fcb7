set_option autoImplicit false

/-! # Commands of a shell script

A script is taken apart into tokens: words, whose pieces are literal text or parameters to be
filled in, redirections of output, and the marks between commands. Quotes join characters into a
word; between apostrophes nothing is special, between quotes only the backslash and parameters. -/

namespace JavaAtlas.Shell

/-- A piece of a word. -/
inductive Piece where
  | text (c : Char)
  | parameter (name : String)
deriving DecidableEq, Repr

/-- What follows a command: the next one in any case, only after success, or only after failure. -/
inductive Link where
  | always
  | ifSuccess
  | ifFailure
deriving DecidableEq, Repr

/-- A token of a script. The numbers are those of output channels. -/
inductive Token where
  | word (pieces : List Piece)
  | link (link : Link)
  | lineBreak
  | toFile (channel : Nat) (append : Bool)
  | toChannel (channel target : Nat)
deriving DecidableEq, Repr

/-- Where a script is being read. -/
inductive Place where
  | plain
  | apostrophes
  | quotes
  | comment
  | dollar (quoted : Bool)
  | braces (quoted : Bool) (name : List Char)
  | named (quoted : Bool) (name : List Char)
deriving DecidableEq, Repr

/-- A word being read, its latest piece first; `none` between words. -/
abbrev OpenWord := Option (List Piece)

/-- Adds a piece to the word being read. -/
def addPiece (word : OpenWord) (piece : Piece) : OpenWord := some (piece :: word.getD [])

/-- The token of the word being read. -/
def closeWord : OpenWord → List Token
  | some pieces => [.word pieces.reverse]
  | none => []

/-- The number that the word being read is, which a redirection takes as its channel. -/
def channel? : OpenWord → Option Nat
  | some [.text '1'] => some 1
  | some [.text '2'] => some 2
  | _ => none

/-- The tokens before a redirection, and its channel. -/
def beforeRedirection (word : OpenWord) : List Token × Nat :=
  match channel? word with
  | some channel => ([], channel)
  | none => (closeWord word, 1)

/-- Whether a character can be part of the name of a parameter. -/
def isNameChar (c : Char) : Bool := c.isAlphanum || c == '_'

/-- Whether a character alone names a parameter. -/
def isShortName (c : Char) : Bool := c.isDigit || "$@*#?".toList.contains c

/-- The place after a parameter. -/
def Place.after (quoted : Bool) : Place := if quoted then .quotes else .plain

/-- The tokens of a script from a place on. The text ends the last word. -/
def scan : Place → OpenWord → List Char → List Token
  | .named _ name, word, [] =>
    closeWord (addPiece word (.parameter (String.ofList name.reverse)))
  | .dollar _, word, [] => closeWord (addPiece word (.text '$'))
  | _, word, [] => closeWord word
  | .comment, _, c :: rest =>
    if c = '\n' then .lineBreak :: scan .plain none rest else scan .comment none rest
  | .apostrophes, word, c :: rest =>
    if c = '\'' then scan .plain (some (word.getD [])) rest
    else scan .apostrophes (addPiece word (.text c)) rest
  | .quotes, word, '\\' :: c :: rest =>
    if c = '\n' then scan .quotes word rest
    else if "\"\\$".toList.contains c || c == Char.ofNat 0x60 then
      scan .quotes (addPiece word (.text c)) rest
    else scan .quotes (addPiece (addPiece word (.text '\\')) (.text c)) rest
  | .quotes, word, c :: rest =>
    if c = '"' then scan .plain (some (word.getD [])) rest
    else if c = '$' then scan (.dollar true) word rest
    else scan .quotes (addPiece word (.text c)) rest
  | .dollar quoted, word, c :: rest =>
    if c = '\x7b' then scan (.braces quoted []) word rest
    else if isShortName c then
      scan (.after quoted) (addPiece word (.parameter (String.singleton c))) rest
    else if isNameChar c then scan (.named quoted [c]) word rest
    else if quoted && c == '"' then scan .plain (addPiece word (.text '$')) rest
    else scan (.after quoted) (addPiece (addPiece word (.text '$')) (.text c)) rest
  | .braces quoted name, word, c :: rest =>
    if c = '\x7d' then
      scan (.after quoted) (addPiece word (.parameter (String.ofList name.reverse))) rest
    else scan (.braces quoted (c :: name)) word rest
  | .named true name, word, c :: rest =>
    let filled := addPiece word (.parameter (String.ofList name.reverse))
    if isNameChar c then scan (.named true (c :: name)) word rest
    else if c = '"' then scan .plain filled rest
    else if c = '$' then scan (.dollar true) filled rest
    else scan .quotes (addPiece filled (.text c)) rest
  | .named false name, word, c :: rest =>
    let filled := addPiece word (.parameter (String.ofList name.reverse))
    if isNameChar c then scan (.named false (c :: name)) word rest
    else if c = '\'' then scan .apostrophes filled rest
    else if c = '"' then scan .quotes filled rest
    else if c = '$' then scan (.dollar false) filled rest
    else if c = ' ' ∨ c = '\t' then closeWord filled ++ scan .plain none rest
    else if c = ';' then closeWord filled ++ .link .always :: scan .plain none rest
    else if c = '\n' then closeWord filled ++ .lineBreak :: scan .plain none rest
    else scan .plain (addPiece filled (.text c)) rest
  | .plain, word, '\\' :: c :: rest =>
    if c = '\n' then scan .plain word rest else scan .plain (addPiece word (.text c)) rest
  | .plain, word, '&' :: '&' :: rest => closeWord word ++ .link .ifSuccess :: scan .plain none rest
  | .plain, word, '|' :: '|' :: rest => closeWord word ++ .link .ifFailure :: scan .plain none rest
  | .plain, word, '>' :: '&' :: '1' :: rest =>
    let (tokens, channel) := beforeRedirection word
    tokens ++ .toChannel channel 1 :: scan .plain none rest
  | .plain, word, '>' :: '&' :: '2' :: rest =>
    let (tokens, channel) := beforeRedirection word
    tokens ++ .toChannel channel 2 :: scan .plain none rest
  | .plain, word, '>' :: '>' :: rest =>
    let (tokens, channel) := beforeRedirection word
    tokens ++ .toFile channel true :: scan .plain none rest
  | .plain, word, c :: rest =>
    if c = '>' then
      let (tokens, channel) := beforeRedirection word
      tokens ++ .toFile channel false :: scan .plain none rest
    else if c = '\'' then scan .apostrophes (some (word.getD [])) rest
    else if c = '"' then scan .quotes (some (word.getD [])) rest
    else if c = '$' then scan (.dollar false) word rest
    else if c = ' ' ∨ c = '\t' then closeWord word ++ scan .plain none rest
    else if c = ';' then closeWord word ++ .link .always :: scan .plain none rest
    else if c = '\n' then closeWord word ++ .lineBreak :: scan .plain none rest
    else if c = '#' ∧ word = none then scan .comment none rest
    else scan .plain (addPiece word (.text c)) rest

/-! ## Commands -/

/-- Where the output of a channel goes. -/
inductive Redirection where
  | file (channel : Nat) (append : Bool) (target : List Piece)
  | copy (channel target : Nat)
deriving DecidableEq, Repr

/-- A command: when it runs, on which line it stands, its words and its redirections. -/
structure Command where
  link : Link
  line : Nat
  words : List (List Piece) := []
  redirections : List Redirection := []
deriving DecidableEq, Repr

/-- The command, unless it is empty. -/
def Command.emit (command : Command) : List Command :=
  if command.words.isEmpty && command.redirections.isEmpty then [] else [command]

/-- The commands of tokens, of which the first ones belong to `command`. -/
def commandsFrom (command : Command) : List Token → List Command
  | [] => command.emit
  | .lineBreak :: rest =>
    let link := if command.emit.isEmpty then command.link else .always
    command.emit ++ commandsFrom { link := link, line := command.line + 1 } rest
  | .link link :: rest => command.emit ++ commandsFrom { link := link, line := command.line } rest
  | .toFile channel append :: .word target :: rest =>
    let redirections := command.redirections ++ [.file channel append target]
    commandsFrom { command with redirections := redirections } rest
  | .toFile _ _ :: rest => commandsFrom command rest
  | .toChannel channel target :: rest =>
    let redirections := command.redirections ++ [.copy channel target]
    commandsFrom { command with redirections := redirections } rest
  | .word pieces :: rest => commandsFrom { command with words := command.words ++ [pieces] } rest

/-- The commands of a script. -/
def commandsOf (script : String) : List Command :=
  commandsFrom { link := .always, line := 1 } (scan .plain none script.toList)

end JavaAtlas.Shell
