/-!
# Tokens

A token is a piece of an expression's text, its kind, and the number of characters before it.
Tokens are usually read from a text, but may also be put together by hand with any text at all; the
operations here make sense of every token.

Offsets are machine words of 64 bits. No text is long enough for its offsets to come near the largest
word, but those of other tokens and errors may.
-/

namespace ScalarExpr

/-- The offset that lies a number of characters behind another. Like any sum of machine words it
starts again at zero behind the largest word; a build that checks its sums stops there instead. -/
def offsetBehind (offset count : Nat) : Nat := (offset + count) % UInt64.size

/-- The kinds of tokens. -/
inductive TokenKind
  | identifier
  | number
  | string
  | plus
  | minus
  | star
  | slash
  | percent
  | greater
  | greaterEqual
  | less
  | lessEqual
  | equal
  | notEqual
  | and
  | or
  | not
  | question
  | colon
  | leftParen
  | rightParen
  | endOfInput
  deriving DecidableEq, Repr

/-- What a message calls a token of this kind. -/
def TokenKind.describe : TokenKind → String
  | .identifier => "identifier"
  | .number => "number"
  | .string => "string"
  | .plus => "'+'"
  | .minus => "'-'"
  | .star => "'*'"
  | .slash => "'/'"
  | .percent => "'%'"
  | .greater => "'>'"
  | .greaterEqual => "'>='"
  | .less => "'<'"
  | .lessEqual => "'<='"
  | .equal => "'=='"
  | .notEqual => "'!='"
  | .and => "'&&'"
  | .or => "'||'"
  | .not => "'!'"
  | .question => "'?'"
  | .colon => "':'"
  | .leftParen => "'('"
  | .rightParen => "')'"
  | .endOfInput => "end of input"

/-- A piece of text with its kind and the number of characters before it. -/
structure Token where
  kind : TokenKind
  text : String
  offset : Nat
  deriving DecidableEq, Repr

namespace Token

/-- The number of characters of a token. -/
def length (token : Token) : Nat := token.text.length

/-- The offset right behind a token. -/
def behind (token : Token) : Nat := offsetBehind token.offset token.length

/-- Whether a token has no characters. -/
def isEmpty (token : Token) : Bool := token.text.toList.isEmpty

/-- Drops characters that take exactly this many bytes of UTF-8 off the front of a list, if the
bytes end where a character does. -/
def dropBytes? : Nat → List Char → Option (List Char)
  | 0, chars => some chars
  | _ + 1, [] => none
  | bytes + 1, c :: chars =>
    if c.utf8Size ≤ bytes + 1 then dropBytes? (bytes + 1 - c.utf8Size) chars else none

/-- What stands between the first character of a text and as many bytes at its end as that
character has. -/
def unquote? : List Char → Option (List Char)
  | [] => none
  | quote :: chars => (dropBytes? quote.utf8Size chars.reverse).map List.reverse

/-- The contents of a string token, without the quotes around them. -/
def contents? (token : Token) : Option String :=
  if token.kind = .string then (unquote? token.text.toList).map String.ofList else none

/-- What a message shows of a token. -/
def displayText (token : Token) : String :=
  if token.kind = .endOfInput then "end of input" else token.text

end Token

end ScalarExpr
