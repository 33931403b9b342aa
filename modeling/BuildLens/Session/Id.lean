/-
The names of sessions.

A session is named by a random number of 122 bits, written like a universally unique
identifier: 32 hexadecimal digits in five groups, of which the 13th and a part of the 17th
only tell how the others were chosen.
-/
import BuildLens.Text.Numeral

namespace BuildLens.SessionId

open BuildLens.Text

/-- The last `width` hexadecimal digits of a number. -/
def hexDigits : Nat → Nat → List Char
  | 0, _ => []
  | width + 1, n => hexDigits width (n / 16) ++ [Nat.digitChar (n % 16)]

/-- The identifier of a number. -/
def identifier (n : Nat) : List Char :=
  hexDigits 8 n ++ '-' :: hexDigits 4 (n >>> 32) ++ '-' :: '4' :: hexDigits 3 (n >>> 48) ++
    '-' :: Nat.digitChar (8 + (n >>> 60) % 4) :: hexDigits 3 (n >>> 62) ++
    '-' :: hexDigits 12 (n >>> 74)

/-- The name of the session of a number. -/
def ofNumber (n : Nat) : String :=
  "sess-" ++ String.ofList (identifier n)

end BuildLens.SessionId
