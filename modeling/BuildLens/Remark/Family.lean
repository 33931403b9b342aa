/-
Families of compiler remarks.

The remarks of a family differ in their location and in their reason code only:

    c:\src\engine\foo.cpp(42) : info C5002: loop not vectorized due to reason '1203'
-/
namespace BuildLens

/-- A family of remarks. -/
structure RemarkFamily where
  /-- What follows the word `info`. -/
  id : String
  /-- What follows the id; a blank stands for any gap between two words. -/
  text : String
  deriving DecidableEq, Repr

namespace RemarkFamily

/-- Loops that were not vectorized. -/
def loopNotVectorized : RemarkFamily :=
  ⟨"C5002", "loop not vectorized"⟩

/-- Loops that were not parallelized. -/
def loopNotParallelized : RemarkFamily :=
  ⟨"C5012", "loop not parallelized"⟩

end RemarkFamily

end BuildLens
