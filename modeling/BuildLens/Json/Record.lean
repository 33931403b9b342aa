/-
Reading records from JSON.

A record is written as an object with a field per component, or as an array of the
components in the order of their declaration.  Unknown fields of an object are ignored and
a repeated known field is an error.  An array must not be longer than the record.

A component is *required*; or *optional*, then a missing field is no value; or it has a
*default*, then a missing field or a missing end of the array is the default.  A component
that is optional has no default, so an array must contain it.
-/
import BuildLens.Json.Value

namespace BuildLens.Json

/-- The components of a record that are present in a JSON value. -/
structure Record where
  /-- Whether the record was written as an array. -/
  positional : Bool
  /-- The components by name. -/
  present : List (String × Json)

/-- Whether a name occurs twice. -/
def hasRepeats : List String → Bool
  | [] => false
  | n :: ns => ns.contains n || hasRepeats ns

/-- The components of a record from the fields of an object. -/
def Record.ofFields (names : List String) (fields : List (String × Json)) : Option Record :=
  let known := fields.filter fun f => names.contains f.1
  if hasRepeats (known.map Prod.fst) then none else some ⟨false, known⟩

/-- The components of a record from the elements of an array. -/
def Record.ofItems (names : List String) (items : List Json) : Option Record :=
  if names.length < items.length then none else some ⟨true, names.zip items⟩

/-- The components of a record with the given names. -/
def record (names : List String) : Json → Option Record
  | .object fields => Record.ofFields names fields
  | .array items => Record.ofItems names items
  | _ => none

namespace Record

variable {α : Type}

/-- A component that must be present. -/
def required (r : Record) (name : String) (read : Json → Option α) : Option α :=
  (r.present.lookup name).bind read

/-- A component that may be `null`, and may be missing from an object. -/
def optional (r : Record) (name : String) (read : Json → Option α) : Option (Option α) :=
  match r.present.lookup name with
  | some j => nullable read j
  | none => if r.positional then none else some none

/-- A component that may be missing. -/
def withDefault (r : Record) (name : String) (read : Json → Option α) (default : α) :
    Option α :=
  match r.present.lookup name with
  | some j => read j
  | none => some default

end Record

/-- The value named by a string, or by an object with one field of that name whose value
stands for nothing. -/
def named {α : Type} (isNothing : Json → Bool) (ofName : String → Option α) :
    Json → Option α
  | .text s => ofName s
  | .object [(s, j)] => if isNothing j then ofName s else none
  | _ => none

/-- The value `null`. -/
def isNull : Json → Bool
  | .null => true
  | _ => false

/-- The value `null` or an object without fields. -/
def isNullOrEmpty : Json → Bool
  | .null => true
  | .object [] => true
  | _ => false

end BuildLens.Json
