/-
The variables that a program is given.
-/
namespace BuildLens

/-- The variables of an environment, by their names. -/
abbrev Environment := String → Option String

end BuildLens
