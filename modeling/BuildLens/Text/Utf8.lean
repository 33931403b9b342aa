/-
Text as bytes.

Files hold bytes.  Writing a text as UTF-8 is `encode`.  Reading is *lossy*: every maximal
ill-formed piece, the longest start of a well-formed sequence or else a single byte, is
replaced by one U+FFFD, so every row of bytes has a reading.
-/
namespace BuildLens.Text

/-- The contents of a file. -/
abbrev Bytes := List UInt8

namespace Utf8

/-- The UTF-8 form of a text. -/
def encode (cs : List Char) : Bytes :=
  cs.flatMap String.utf8EncodeChar

/-- What stands for an ill-formed piece. -/
def replacement : Char := '\uFFFD'

/-- A continuation byte. -/
def isTail (b : UInt8) : Bool :=
  0x80 ≤ b && b ≤ 0xBF

/-- The first byte of a two-byte sequence. -/
def leadsTwo (a : UInt8) : Bool :=
  0xC2 ≤ a && a ≤ 0xDF

/-- The first byte of a three-byte sequence. -/
def leadsThree (a : UInt8) : Bool :=
  0xE0 ≤ a && a ≤ 0xEF

/-- The first byte of a four-byte sequence. -/
def leadsFour (a : UInt8) : Bool :=
  0xF0 ≤ a && a ≤ 0xF4

/-- Whether `b` may follow the first byte `a` of a sequence of three or four: this leaves
out overlong forms, surrogates and values above the last code point. -/
def follows (a b : UInt8) : Bool :=
  if a == 0xE0 then 0xA0 ≤ b && b ≤ 0xBF
  else if a == 0xED then 0x80 ≤ b && b ≤ 0x9F
  else if a == 0xF0 then 0x90 ≤ b && b ≤ 0xBF
  else if a == 0xF4 then 0x80 ≤ b && b ≤ 0x8F
  else isTail b

/-- The character of a two-byte sequence. -/
def char₂ (a b : UInt8) : Char :=
  Char.ofNat ((a.toNat % 0x20) * 0x40 + b.toNat % 0x40)

/-- The character of a three-byte sequence. -/
def char₃ (a b c : UInt8) : Char :=
  Char.ofNat ((a.toNat % 0x10) * 0x1000 + (b.toNat % 0x40) * 0x40 + c.toNat % 0x40)

/-- The character of a four-byte sequence. -/
def char₄ (a b c d : UInt8) : Char :=
  Char.ofNat ((a.toNat % 0x08) * 0x40000 + (b.toNat % 0x40) * 0x1000 +
    (c.toNat % 0x40) * 0x40 + d.toNat % 0x40)

/-- The lossy reading of bytes. -/
def decode : Bytes → List Char
  | [] => []
  | a :: s =>
    if a < 0x80 then Char.ofNat a.toNat :: decode s
    else if leadsTwo a then
      match s with
      | [] => [replacement]
      | b :: s₁ => if isTail b then char₂ a b :: decode s₁ else replacement :: decode (b :: s₁)
    else if leadsThree a then
      match s with
      | [] => [replacement]
      | b :: s₁ =>
        if follows a b then
          match s₁ with
          | [] => [replacement]
          | c :: s₂ => if isTail c then char₃ a b c :: decode s₂ else replacement :: decode (c :: s₂)
        else replacement :: decode (b :: s₁)
    else if leadsFour a then
      match s with
      | [] => [replacement]
      | b :: s₁ =>
        if follows a b then
          match s₁ with
          | [] => [replacement]
          | c :: s₂ =>
            if isTail c then
              match s₂ with
              | [] => [replacement]
              | d :: s₃ =>
                if isTail d then char₄ a b c d :: decode s₃ else replacement :: decode (d :: s₃)
            else replacement :: decode (c :: s₂)
        else replacement :: decode (b :: s₁)
    else replacement :: decode s

/-- The bytes are the UTF-8 form of a text. -/
def WellFormed (bs : Bytes) : Prop :=
  ∃ cs, bs = encode cs

@[simp] theorem encode_nil : encode [] = [] := rfl

@[simp] theorem decode_nil : decode [] = [] := rfl

theorem encode_cons (c : Char) (cs : List Char) :
    encode (c :: cs) = String.utf8EncodeChar c ++ encode cs := rfl

@[simp] theorem encode_append (cs ds : List Char) :
    encode (cs ++ ds) = encode cs ++ encode ds := by
  simp [encode]

end Utf8

/-- The UTF-8 form of a string. -/
def bytesOf (s : String) : Bytes :=
  Utf8.encode s.toList

/-- The lossy reading of bytes as a string. -/
def textOf (bs : Bytes) : String :=
  String.ofList (Utf8.decode bs)

end BuildLens.Text
