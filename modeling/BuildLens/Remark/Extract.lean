/-
Diagnostics from build output.

Every remark whose location is a path followed by a line number in parentheses becomes a
diagnostic; other remarks are passed over.  The raw message is the remark without white space
around it; a project prefix such as `12>` does not belong to it, so the same remark of two
projects has the same raw message.
-/
import BuildLens.Model.Diagnostic
import BuildLens.Remark.Pattern
import BuildLens.Text.Numeral

namespace BuildLens.Remark

open BuildLens.Text

/-- The path and the digits of a location that ends in digits in parentheses. -/
def splitParentheses (location : List Char) : Option (List Char × List Char) :=
  match location.reverse with
  | ')' :: back =>
    let ds := back.takeWhile isDecimal
    match back.dropWhile isDecimal with
    | '(' :: path => if ds.isEmpty then none else some (path.reverse, ds.reverse)
    | _ => none
  | _ => none

/-- The path and the line number of a location.  The path is not blank, and the line is a
number from 1 to the largest word of 32 bits, in the digits `0` to `9`. -/
def splitLocation (location : List Char) : Option (List Char × Nat) := do
  let (path, ds) ← splitParentheses location
  let path := trim path
  let line ← readNumeralUpTo maxWord32 ds
  if path.isEmpty || line == 0 then none else some (path, line)

/-- The diagnostic of a remark. -/
def Match.diagnostic (m : Match) : Option Diagnostic := do
  let (path, line) ← splitLocation (trim m.location)
  pure
    { rawMessage := String.ofList (trim m.whole)
      filePath := String.ofList path
      line
      code := String.ofList m.code }

/-- The diagnostics of a text, in the order of their remarks. -/
def extract (f : RemarkFamily) (cs : List Char) : List Diagnostic :=
  (matches? f cs).filterMap Match.diagnostic

end BuildLens.Remark
