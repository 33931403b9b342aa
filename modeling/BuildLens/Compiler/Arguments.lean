/-
What a command-line compiler is told.

Options become arguments.  A compiler that is asked for preprocessed source does nothing
else; otherwise it writes a listing, and without one it only checks the source.
-/
import BuildLens.Model.Options

namespace BuildLens

/-- The arguments that name the file to be written. -/
def outputArguments : Option String → List String
  | none => []
  | some path => ["-o", path]

namespace Options

/-- The arguments that tell what is to be written. -/
def purposeArguments (o : Options) : List String :=
  match o.generatePreprocessedFile with
  | .yes => "-E" :: outputArguments o.objectFile
  | .withoutLineNumbers => "-E" :: "-P" :: outputArguments o.objectFile
  | .no =>
    if o.assemblerOutput = .noListing then ["-fsyntax-only"]
    else "-S" :: "-fverbose-asm" :: outputArguments o.assemblerListingLocation

/-- The arguments that stand for options. -/
def arguments (o : Options) : List String :=
  o.purposeArguments ++ (if o.wholeProgramOptimization then ["-flto"] else []) ++
    if o.warnAsError then ["-Werror"] else []

end Options

end BuildLens
