import TypeSurface.Text.Span

/-!
# Tokens

Keywords are no token kinds of their own: what a word means depends on where it stands, so the
reader compares the text of identifiers.  A line that starts with three slashes is one token.
-/

namespace TypeSurface

inductive TokenKind where
  | endOfFile
  | identifier
  | stringLiteral
  | numericLiteral
  | directive
  | openBrace
  | closeBrace
  | openParen
  | closeParen
  | openBracket
  | closeBracket
  | lessThan
  | greaterThan
  | comma
  | semicolon
  | colon
  | question
  | dot
  | ellipsis
  | equals
  | arrow
  | bar
  | ampersand
  | minus
  | unknown
deriving DecidableEq, Repr

namespace TokenKind

/-- How a message names the kind: its text where it has only one. -/
def text : TokenKind → String
  | endOfFile => "end of file"
  | identifier => "identifier"
  | stringLiteral => "string literal"
  | numericLiteral => "numeric literal"
  | directive => "///"
  | openBrace => "\x7b"
  | closeBrace => "\x7d"
  | openParen => "("
  | closeParen => ")"
  | openBracket => "["
  | closeBracket => "]"
  | lessThan => "<"
  | greaterThan => ">"
  | comma => ","
  | semicolon => ";"
  | colon => ":"
  | question => "?"
  | dot => "."
  | ellipsis => "..."
  | equals => "="
  | arrow => "=>"
  | bar => "|"
  | ampersand => "&"
  | minus => "-"
  | unknown => "unknown"

/-- Punctuation of one character. -/
def ofPunctuation? : Char → Option TokenKind
  | '\x7b' => some openBrace
  | '\x7d' => some closeBrace
  | '(' => some openParen
  | ')' => some closeParen
  | '[' => some openBracket
  | ']' => some closeBracket
  | '<' => some lessThan
  | '>' => some greaterThan
  | ',' => some comma
  | ';' => some semicolon
  | ':' => some colon
  | '?' => some question
  | '.' => some dot
  | '=' => some equals
  | '|' => some bar
  | '&' => some ampersand
  | '-' => some minus
  | _ => none

end TokenKind

/-- A token with its value: the name of an identifier, the contents of a string literal, the digits
of a number, the body of a directive line, and nothing for punctuation. -/
structure Token where
  kind : TokenKind
  span : Span
  value : String
  /-- Whether a line break stands between this token and the one before. -/
  afterLineBreak : Bool
deriving DecidableEq, Repr

namespace Token

/-- The token of a text of which nothing has been read yet. -/
def start : Token := ⟨.unknown, ⟨0, 0⟩, "", false⟩

/-- Whether the token is the word `text`. -/
def isWord (t : Token) (text : String) : Bool :=
  t.kind = .identifier && t.value == text

end Token
end TypeSurface
