/-
JSON values.

Objects keep their fields in the order in which they are written, repeated names included:
whether a repeated name is an error is a matter of the record that is read from the object.
A value that nobody asks for has to be well written only, so there is a value for what is
well written and cannot be read.
-/
namespace BuildLens

/-- A JSON value. -/
inductive Json where
  /-- The literal `null`. -/
  | null
  /-- One of the literals `true` and `false`. -/
  | bool (b : Bool)
  /-- A whole number from `-2 ^ 63` to `2 ^ 64 - 1`, other than a negative zero, that is
  written without a fraction and an exponent. -/
  | integer (n : Int)
  /-- Every other number, as it is written. -/
  | real (literal : List Char)
  /-- A string. -/
  | text (s : String)
  /-- The elements of an array. -/
  | array (items : List Json)
  /-- The fields of an object. -/
  | object (fields : List (String × Json))
  /-- A string in which half of a surrogate pair stands alone, or an object in which the name
  of a field is such a string. -/
  | unreadable

namespace Json

/-- The value of a string. -/
def text? : Json → Option String
  | .text s => some s
  | _ => none

/-- The value of a literal `true` or `false`. -/
def bool? : Json → Option Bool
  | .bool b => some b
  | _ => none

/-- The value of a whole number from 0 to a limit. -/
def nat? (limit : Nat) : Json → Option Nat
  | .integer n => if 0 ≤ n ∧ n ≤ limit then some n.toNat else none
  | _ => none

/-- The value of a whole number. -/
def int? : Json → Option Int
  | .integer n => some n
  | _ => none

/-- The elements of an array. -/
def array? : Json → Option (List Json)
  | .array xs => some xs
  | _ => none

/-- The fields of an object. -/
def object? : Json → Option (List (String × Json))
  | .object fs => some fs
  | _ => none

/-- The value of the first field of a name. -/
def get? (name : String) : Json → Option Json
  | .object fs => fs.lookup name
  | _ => none

/-- Whether a value cannot be read. -/
def isUnreadable : Json → Bool
  | .unreadable => true
  | _ => false

/-- A value that may be `null`. -/
def nullable {α : Type} (read : Json → Option α) : Json → Option (Option α)
  | .null => some none
  | j => (read j).map some

/-- The elements of an array, each one read the same way. -/
def listOf {α : Type} (read : Json → Option α) (j : Json) : Option (List α) :=
  j.array?.bind fun xs => xs.mapM read

/-- A value or `null`. -/
def ofOption {α : Type} (write : α → Json) : Option α → Json
  | none => .null
  | some a => write a

mutual

/-- How many arrays and objects enclose the innermost value, the value itself included. -/
def depth : Json → Nat
  | .array xs => depthOfItems xs + 1
  | .object fs => depthOfFields fs + 1
  | _ => 0

/-- The largest depth of the elements of an array. -/
def depthOfItems : List Json → Nat
  | [] => 0
  | x :: xs => max (depth x) (depthOfItems xs)

/-- The largest depth of the fields of an object. -/
def depthOfFields : List (String × Json) → Nat
  | [] => 0
  | (_, x) :: fs => max (depth x) (depthOfFields fs)

end

mutual

/-- Whether all of a value satisfies a condition on the values that contain no others. -/
def all (p : Json → Bool) : Json → Bool
  | .array xs => allItems p xs
  | .object fs => allFields p fs
  | j => p j

/-- Whether all elements of an array satisfy a condition. -/
def allItems (p : Json → Bool) : List Json → Bool
  | [] => true
  | x :: xs => all p x && allItems p xs

/-- Whether all fields of an object satisfy a condition. -/
def allFields (p : Json → Bool) : List (String × Json) → Bool
  | [] => true
  | (_, x) :: fs => all p x && allFields p fs

end

end Json

end BuildLens
