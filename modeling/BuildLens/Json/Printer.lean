/-
Writing a JSON value, on one line or with an indent of two blanks per level.

Of the characters of a string only the quote, the backslash and the control characters
below U+0020 are escaped, by a letter where there is one and by four hexadecimal digits in
lower case otherwise.  What cannot be read is written as `null`.
-/
import BuildLens.Json.Value
import BuildLens.Text.Numeral

namespace BuildLens.Json

open BuildLens.Text

/-- A lower-case hexadecimal digit. -/
def hexDigit (n : Nat) : Char :=
  Nat.digitChar n

/-- How a character is written inside a string literal. -/
def escapeChar (c : Char) : List Char :=
  if c = '"' then ['\\', '"']
  else if c = '\\' then ['\\', '\\']
  else if c = '\x08' then ['\\', 'b']
  else if c = '\x0c' then ['\\', 'f']
  else if c = '\n' then ['\\', 'n']
  else if c = '\r' then ['\\', 'r']
  else if c = '\t' then ['\\', 't']
  else if c.toNat < 0x20 then
    ['\\', 'u', '0', '0', hexDigit (c.toNat / 16), hexDigit (c.toNat % 16)]
  else [c]

/-- A string literal. -/
def quote (cs : List Char) : List Char :=
  '"' :: cs.flatMap escapeChar ++ ['"']

/-- A whole number. -/
def integerText : Int → List Char
  | .ofNat n => digits n
  | .negSucc n => '-' :: digits (n + 1)

/-- A literal `true` or `false`. -/
def boolText : Bool → List Char
  | true => ['t', 'r', 'u', 'e']
  | false => ['f', 'a', 'l', 's', 'e']

/-- The literal `null`. -/
def nullText : List Char :=
  ['n', 'u', 'l', 'l']

/-! ## On one line -/

mutual

/-- A value on one line, without blanks. -/
def render : Json → List Char
  | .null => nullText
  | .bool b => boolText b
  | .integer n => integerText n
  | .real cs => cs
  | .text s => quote s.toList
  | .array [] => ['[', ']']
  | .array (x :: xs) => '[' :: (render x ++ renderItems xs)
  | .object [] => ['\x7b', '\x7d']
  | .object ((name, x) :: fs) =>
    '\x7b' :: (quote name.toList ++ ':' :: (render x ++ renderFields fs))
  | .unreadable => nullText

/-- The elements of an array after the first one, and its end. -/
def renderItems : List Json → List Char
  | [] => [']']
  | x :: xs => ',' :: (render x ++ renderItems xs)

/-- The fields of an object after the first one, and its end. -/
def renderFields : List (String × Json) → List Char
  | [] => ['\x7d']
  | (name, x) :: fs => ',' :: (quote name.toList ++ ':' :: (render x ++ renderFields fs))

end

/-! ## With an indent -/

/-- A line feed and the indent of a level. -/
def newline (level : Nat) : List Char :=
  '\n' :: List.replicate (2 * level) ' '

mutual

/-- A value over several lines, inside `level` arrays and objects. -/
def renderPretty (level : Nat) : Json → List Char
  | .null => nullText
  | .bool b => boolText b
  | .integer n => integerText n
  | .real cs => cs
  | .text s => quote s.toList
  | .array [] => ['[', ']']
  | .array (x :: xs) =>
    '[' :: newline (level + 1) ++ renderPretty (level + 1) x ++ renderPrettyItems level xs
  | .object [] => ['\x7b', '\x7d']
  | .object ((name, x) :: fs) =>
    '\x7b' :: newline (level + 1) ++ quote name.toList ++ [':', ' '] ++
      renderPretty (level + 1) x ++ renderPrettyFields level fs
  | .unreadable => nullText

/-- The elements of an array after the first one, and its end. -/
def renderPrettyItems (level : Nat) : List Json → List Char
  | [] => newline level ++ [']']
  | x :: xs =>
    ',' :: newline (level + 1) ++ renderPretty (level + 1) x ++ renderPrettyItems level xs

/-- The fields of an object after the first one, and its end. -/
def renderPrettyFields (level : Nat) : List (String × Json) → List Char
  | [] => newline level ++ ['\x7d']
  | (name, x) :: fs =>
    ',' :: newline (level + 1) ++ quote name.toList ++ [':', ' '] ++
      renderPretty (level + 1) x ++ renderPrettyFields level fs

end

end BuildLens.Json
