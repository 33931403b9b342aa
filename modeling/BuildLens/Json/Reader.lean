/-
Reading a JSON text.

The tokens are read from left to right with a stack of the arrays and objects that are
still open.  The grammar is the strict one: no leading zeros, no trailing commas, and
nothing but white space around the value.
-/
import BuildLens.Json.Number
import BuildLens.Json.Token

namespace BuildLens.Json

/-- The value of a word: a literal or a number. -/
def ofWord (cs : List Char) : Option Json :=
  if cs = ['n', 'u', 'l', 'l'] then some .null
  else if cs = ['t', 'r', 'u', 'e'] then some (.bool true)
  else if cs = ['f', 'a', 'l', 's', 'e'] then some (.bool false)
  else (readLiteral cs).map (ofLiteral cs)

/-! ## Tokens -/

/-- A field of an object.  Its name may be no text. -/
abbrev Field := Option String × Json

/-- The object of some fields. -/
def ofFields (fs : List Field) : Json :=
  match fs.mapM fun (name, v) => name.map (·, v) with
  | some fs => .object fs
  | none => .unreadable

/-- The value of a string literal. -/
def ofQuoted (s : Option String) : Json :=
  s.elim .unreadable .text

/-- An array or an object that is still open, with what has been read of it, last first. -/
inductive Frame where
  /-- An array, waiting for an element. -/
  | items (done : List Json)
  /-- An object, waiting for the value of `name`. -/
  | fields (done : List Field) (name : Option String)

/-- What the reader expects next. -/
inductive Position where
  /-- A value. -/
  | value
  /-- A value or the end of the array that was just opened. -/
  | first
  /-- The name of a field of an object. -/
  | name (done : List Field)
  /-- The name of a field or the end of the object that was just opened. -/
  | firstName
  /-- The colon after the name of a field. -/
  | colon (done : List Field) (name : Option String)
  /-- The end of the text, or what may follow a value inside an array or an object. -/
  | after (v : Json)

/-- The value that the tokens stand for inside the open arrays and objects. -/
def build : List Frame → Position → List Token → Option Json
  | [], .after v, [] => some v
  | _, _, [] => none
  | stack, .value, t :: ts =>
    match t with
    | .openBracket => build (.items [] :: stack) .first ts
    | .openBrace => build stack .firstName ts
    | .quoted s => build stack (.after (ofQuoted s)) ts
    | .word w => (ofWord w).bind fun v => build stack (.after v) ts
    | _ => none
  | stack, .first, t :: ts =>
    match t, stack with
    | .closeBracket, _ :: stack => build stack (.after (.array [])) ts
    | .openBracket, stack => build (.items [] :: stack) .first ts
    | .openBrace, stack => build stack .firstName ts
    | .quoted s, stack => build stack (.after (ofQuoted s)) ts
    | .word w, stack => (ofWord w).bind fun v => build stack (.after v) ts
    | _, _ => none
  | stack, .name done, t :: ts =>
    match t with
    | .quoted s => build stack (.colon done s) ts
    | _ => none
  | stack, .firstName, t :: ts =>
    match t with
    | .quoted s => build stack (.colon [] s) ts
    | .closeBrace => build stack (.after (.object [])) ts
    | _ => none
  | stack, .colon done name, t :: ts =>
    match t with
    | .colon => build (.fields done name :: stack) .value ts
    | _ => none
  | stack, .after v, t :: ts =>
    match t, stack with
    | .comma, .items done :: stack => build (.items (v :: done) :: stack) .value ts
    | .closeBracket, .items done :: stack =>
      build stack (.after (.array (v :: done).reverse)) ts
    | .comma, .fields done name :: stack => build stack (.name ((name, v) :: done)) ts
    | .closeBrace, .fields done name :: stack =>
      build stack (.after (ofFields ((name, v) :: done).reverse)) ts
    | _, _ => none

/-- The value of a JSON text. -/
def read (cs : List Char) : Option Json :=
  (tokens cs).bind (build [] .value)

end BuildLens.Json
