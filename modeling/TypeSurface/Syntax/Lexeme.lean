import TypeSurface.Diagnostic.Rule
import TypeSurface.Syntax.Token

/-!
# Lexemes

A lexeme is the piece of text that one token takes.  Reading one splits the text: what was taken
and what is left give the text back, and only the end of the text takes nothing.
-/

namespace TypeSurface

structure Lexeme where
  kind : TokenKind
  value : List Char
  text : List Char
  rest : List Char
  /-- What is wrong with the lexeme; the defect covers its whole text. -/
  problem : Option Rule
deriving DecidableEq, Repr

namespace Lexeme

/-- The character that a backslash and `c` stand for inside a string literal. -/
def unescape (c : Char) : Char :=
  if c = 'n' then '\n'
  else if c = 't' then '\t'
  else if c = 'r' then '\r'
  else if c = '0' then '\x00'
  else c

/-- What follows the opening quote of a string literal, the closing quote included.  A line break
that no backslash precedes stands outside the literal, which then lacks its closing quote. -/
def ofStringBody (quote : Char) : List Char → Lexeme
  | [] => ⟨.stringLiteral, [], [], [], some .unterminatedStringLiteral⟩
  | ['\\'] => ⟨.stringLiteral, [], ['\\'], [], some .unterminatedStringLiteral⟩
  | '\\' :: c :: cs =>
    let tail := ofStringBody quote cs
    { tail with value := unescape c :: tail.value, text := '\\' :: c :: tail.text }
  | c :: cs =>
    if c = quote then ⟨.stringLiteral, [], [c], cs, none⟩
    else if Text.isLineBreak c then
      ⟨.stringLiteral, [], [], c :: cs, some .unterminatedStringLiteral⟩
    else
      let tail := ofStringBody quote cs
      { tail with value := c :: tail.value, text := c :: tail.text }

/-- Characters after a radix mark, whatever the radix. -/
def isRadixDigit (c : Char) : Bool := CharClass.isHexDigit c || c == '_'

def isRadixMark (c : Char) : Bool :=
  c == 'x' || c == 'X' || c == 'b' || c == 'B' || c == 'o' || c == 'O'

def isWholeDigit (c : Char) : Bool := c.isDigit || c == '_'

/-- A point and the digits behind it, if the text starts with a point. -/
def fractionText : List Char → List Char
  | '.' :: cs => '.' :: cs.takeWhile Char.isDigit
  | _ => []

/-- An exponent, if the text starts with one that has a digit. -/
def exponentText : List Char → List Char
  | e :: cs =>
    if e = 'e' ∨ e = 'E' then
      match cs with
      | [] => []
      | sign :: digits =>
        if sign = '+' ∨ sign = '-' then
          if (digits.head?.any Char.isDigit) = true then
            e :: sign :: digits.takeWhile Char.isDigit
          else []
        else if sign.isDigit then e :: cs.takeWhile Char.isDigit
        else []
    else []
  | [] => []

/-- The text of the number at the front of a text. -/
def numberText : List Char → List Char
  | '0' :: mark :: cs =>
    if isRadixMark mark then '0' :: mark :: cs.takeWhile isRadixDigit
    else decimalText ('0' :: mark :: cs)
  | cs => decimalText cs
where
  /-- Digits, a fraction and an exponent, each of which may be missing. -/
  decimalText (cs : List Char) : List Char :=
    let whole := cs.takeWhile isWholeDigit
    let afterWhole := cs.drop whole.length
    let fraction := fractionText afterWhole
    whole ++ (fraction ++ exponentText (afterWhole.drop fraction.length))

/-- The lexeme that takes the first characters of `cs`, as many as `text` has. -/
def ofText (kind : TokenKind) (text cs : List Char) : Lexeme :=
  ⟨kind, text, text, cs.drop text.length, none⟩

def ofIdentifier (c : Char) (cs : List Char) : Lexeme :=
  ofText .identifier (c :: cs.takeWhile CharClass.isIdentifierPart) (c :: cs)

/-- Punctuation of one character, and characters that start nothing. -/
def ofSymbol (c : Char) (cs : List Char) : Lexeme :=
  match TokenKind.ofPunctuation? c with
  | some kind => ⟨kind, [], [c], cs, none⟩
  | none => ⟨.unknown, [], [c], cs, some .invalidCharacter⟩

/-- The lexeme at the front of a text that does not start with trivia. -/
def read : List Char → Lexeme
  | [] => ⟨.endOfFile, [], [], [], none⟩
  | '/' :: '/' :: '/' :: cs =>
    let line := cs.takeWhile (!Text.isLineBreak ·)
    ⟨.directive, Text.trim line, '/' :: '/' :: '/' :: line, cs.dropWhile (!Text.isLineBreak ·), none⟩
  | '.' :: '.' :: '.' :: cs => ⟨.ellipsis, [], ['.', '.', '.'], cs, none⟩
  | '=' :: '>' :: cs => ⟨.arrow, [], ['=', '>'], cs, none⟩
  | c :: cs =>
    if c = '\x22' ∨ c = '\x27' then
      let body := ofStringBody c cs
      { body with text := c :: body.text }
    else if c.isDigit || (c == '.' && cs.head?.any Char.isDigit) then
      ofText .numericLiteral (numberText (c :: cs)) (c :: cs)
    else if CharClass.isIdentifierStart c then ofIdentifier c cs
    else ofSymbol c cs

end Lexeme
end TypeSurface
