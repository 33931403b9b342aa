/-
The tokens of a JSON text.

A text is cut into punctuation marks, string literals and *words*.  A word is a longest run
of characters without white space, quotes and punctuation; whether it is a number, a
literal or an error is decided when the tokens are read.  The lexer goes through the text
once, character by character; where it stands inside a token is its `Mode`.

Of a string literal only what JSON allows is accepted: no control character and no unknown
escape.  A literal in which half of a surrogate pair stands alone stands for no text; it is a
token all the same, because a value that nobody asks for may contain it.
-/
namespace BuildLens.Json

/-- A token of a JSON text. -/
inductive Token where
  /-- `[` -/
  | openBracket
  /-- `]` -/
  | closeBracket
  /-- `{` (the brace of an object) -/
  | openBrace
  /-- `}` (the brace that ends an object) -/
  | closeBrace
  /-- `:` -/
  | colon
  /-- `,` -/
  | comma
  /-- A string literal, by the text it stands for, if there is one. -/
  | quoted (s : Option String)
  /-- A run of other characters. -/
  | word (cs : List Char)
  deriving DecidableEq, Repr

namespace Token

/-- The characters that may stand between tokens. -/
def isSpace (c : Char) : Bool :=
  c == ' ' || c == '\t' || c == '\n' || c == '\r'

/-- The token of a punctuation mark. -/
def ofMark (c : Char) : Option Token :=
  if c = '[' then some .openBracket
  else if c = ']' then some .closeBracket
  else if c = '\x7b' then some .openBrace
  else if c = '\x7d' then some .closeBrace
  else if c = ':' then some .colon
  else if c = ',' then some .comma
  else none

/-- The character that a backslash and a letter stand for. -/
def ofEscape (c : Char) : Option Char :=
  if c = '"' then some '"'
  else if c = '\\' then some '\\'
  else if c = '/' then some '/'
  else if c = 'b' then some '\x08'
  else if c = 'f' then some '\x0c'
  else if c = 'n' then some '\n'
  else if c = 'r' then some '\r'
  else if c = 't' then some '\t'
  else none

/-- The value of a hexadecimal digit. -/
def hexValue (c : Char) : Option Nat :=
  if '0' ≤ c ∧ c ≤ '9' then some (c.toNat - '0'.toNat)
  else if 'a' ≤ c ∧ c ≤ 'f' then some (c.toNat - 'a'.toNat + 10)
  else if 'A' ≤ c ∧ c ≤ 'F' then some (c.toNat - 'A'.toNat + 10)
  else none

/-- The first half of a surrogate pair. -/
def isHighHalf (n : Nat) : Bool :=
  0xD800 ≤ n && n ≤ 0xDBFF

/-- The second half of a surrogate pair. -/
def isLowHalf (n : Nat) : Bool :=
  0xDC00 ≤ n && n ≤ 0xDFFF

/-- The character of a surrogate pair. -/
def ofHalves (high low : Nat) : Char :=
  Char.ofNat (0x10000 + (high - 0xD800) * 0x400 + (low - 0xDC00))

/-- What has been read of a string literal. -/
structure Draft where
  /-- The characters, last first, unless half of a surrogate pair has stood alone. -/
  read : Option (List Char) := some []
  /-- The first half of a surrogate pair, if it was read last. -/
  half : Option Nat := none
  deriving DecidableEq, Repr

namespace Draft

/-- The text of a literal that ends here. -/
def text (d : Draft) : Option String :=
  if d.half.isSome then none else d.read.map fun cs => String.ofList cs.reverse

/-- The literal with one more character. -/
def push (d : Draft) (c : Char) : Draft :=
  { read := if d.half.isSome then none else d.read.map (c :: ·) }

/-- The literal with one more code of four hexadecimal digits. -/
def pushCode (d : Draft) (n : Nat) : Draft :=
  match d.half with
  | some high => { read := if isLowHalf n then d.read.map (ofHalves high n :: ·) else none }
  | none =>
    if isHighHalf n then { d with half := some n }
    else if isLowHalf n then { read := none }
    else d.push (Char.ofNat n)

end Draft

/-- Where the lexer stands. -/
inductive Mode where
  /-- Between two tokens. -/
  | between
  /-- Inside a word, whose characters are kept last first. -/
  | word (read : List Char)
  /-- Inside a string literal. -/
  | quoted (d : Draft)
  /-- After a backslash. -/
  | escape (d : Draft)
  /-- Inside a code of four hexadecimal digits, of which `left` are still to come. -/
  | code (d : Draft) (left value : Nat)

/-- The tokens of a text, from a given mode on. -/
def scan : Mode → List Char → Option (List Token)
  | .between, [] => some []
  | .word w, [] => some [.word w.reverse]
  | _, [] => none
  | .between, c :: cs =>
    if isSpace c then scan .between cs
    else if c = '"' then scan (.quoted {}) cs
    else
      match ofMark c with
      | some t => (scan .between cs).map (t :: ·)
      | none => scan (.word [c]) cs
  | .word w, c :: cs =>
    if isSpace c then (scan .between cs).map (.word w.reverse :: ·)
    else if c = '"' then (scan (.quoted {}) cs).map (.word w.reverse :: ·)
    else
      match ofMark c with
      | some t => (scan .between cs).map fun ts => .word w.reverse :: t :: ts
      | none => scan (.word (c :: w)) cs
  | .quoted d, c :: cs =>
    if c = '"' then (scan .between cs).map (.quoted d.text :: ·)
    else if c = '\\' then scan (.escape d) cs
    else if c.toNat < 0x20 then none
    else scan (.quoted (d.push c)) cs
  | .escape d, c :: cs =>
    if c = 'u' then scan (.code d 4 0) cs
    else (ofEscape c).bind fun e => scan (.quoted (d.push e)) cs
  | .code d left value, c :: cs =>
    (hexValue c).bind fun digit =>
      let n := 16 * value + digit
      if 1 < left then scan (.code d (left - 1) n) cs else scan (.quoted (d.pushCode n)) cs

end Token

/-- The tokens of a JSON text. -/
def tokens (cs : List Char) : Option (List Token) :=
  Token.scan .between cs

end BuildLens.Json
