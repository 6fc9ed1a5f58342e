import TypeSurface.Text.CharClass

/-!
# Quoted text

The printed form of a string literal: double quotes around the text, with the usual escapes for
quote, backslash, tab, line breaks and NUL.  A character that cannot be shown by itself, because it
is not printable or combines with the one before it, is written by its code point.
-/

namespace TypeSurface
namespace Text

/-- `\u{...}` with the code point in lower-case hexadecimal, without leading zeros. -/
def escapedCodePoint (c : Char) : List Char :=
  '\\' :: 'u' :: '\x7b' :: (Nat.toDigits 16 c.toNat ++ ['\x7d'])

def quotedChar (c : Char) : List Char :=
  if c = '\x00' then ['\\', '0']
  else if c = '\t' then ['\\', 't']
  else if c = '\r' then ['\\', 'r']
  else if c = '\n' then ['\\', 'n']
  else if c = '"' then ['\\', '"']
  else if c = '\\' then ['\\', '\\']
  else if CharClass.isCombining c || !CharClass.isPrintable c then escapedCodePoint c
  else [c]

def quoted (s : String) : String :=
  String.ofList ('"' :: (s.toList.flatMap quotedChar ++ ['"']))

end Text
end TypeSurface
