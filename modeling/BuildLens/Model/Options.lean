/-
Compiler options of a file: the six settings that decide what the compiler writes, and
where.
-/
import BuildLens.Json.Record

namespace BuildLens

/-- Which assembly listing the compiler writes. -/
inductive AssemblerOutput where
  /-- None. -/
  | noListing
  /-- Assembly alone. -/
  | asmOnly
  /-- Assembly and machine code. -/
  | asmWithMachineCode
  /-- Assembly and source lines. -/
  | asmWithSource
  /-- Assembly, machine code and source lines. -/
  | asmWithAll
  deriving DecidableEq, Repr

namespace AssemblerOutput

/-- The name of a kind of listing. -/
def name : AssemblerOutput → String
  | .noListing => "no_listing"
  | .asmOnly => "asm_only"
  | .asmWithMachineCode => "asm_with_machine_code"
  | .asmWithSource => "asm_with_source"
  | .asmWithAll => "asm_with_all"

/-- The kind of listing of a name. -/
def ofName (s : String) : Option AssemblerOutput :=
  [AssemblerOutput.noListing, .asmOnly, .asmWithMachineCode, .asmWithSource, .asmWithAll].find?
    fun v => v.name == s

/-- The kind of listing that a JSON value stands for. -/
def ofJson : Json → Option AssemblerOutput :=
  Json.named Json.isNull ofName

/-- A kind of listing in JSON. -/
def toJson (v : AssemblerOutput) : Json :=
  .text v.name

end AssemblerOutput

/-- Whether the compiler stops after preprocessing. -/
inductive PreprocessOutput where
  /-- It compiles. -/
  | no
  /-- It writes the preprocessed source. -/
  | yes
  /-- It writes the preprocessed source without line markers. -/
  | withoutLineNumbers
  deriving DecidableEq, Repr

namespace PreprocessOutput

/-- The name of a way to preprocess. -/
def name : PreprocessOutput → String
  | .no => "no"
  | .yes => "yes"
  | .withoutLineNumbers => "without_line_numbers"

/-- The way to preprocess of a name. -/
def ofName (s : String) : Option PreprocessOutput :=
  [PreprocessOutput.no, .yes, .withoutLineNumbers].find? fun v => v.name == s

/-- The way to preprocess that a JSON value stands for. -/
def ofJson : Json → Option PreprocessOutput :=
  Json.named Json.isNull ofName

/-- A way to preprocess in JSON. -/
def toJson (v : PreprocessOutput) : Json :=
  .text v.name

end PreprocessOutput

/-- The options of one file. -/
structure Options where
  /-- Whether code is generated when the program is linked. -/
  wholeProgramOptimization : Bool := false
  /-- Whether warnings are errors. -/
  warnAsError : Bool := false
  /-- Which listing is written. -/
  assemblerOutput : AssemblerOutput := .noListing
  /-- Where the listing is written. -/
  assemblerListingLocation : Option String := none
  /-- Whether the compiler stops after preprocessing. -/
  generatePreprocessedFile : PreprocessOutput := .no
  /-- Where the object file, or the preprocessed source, is written. -/
  objectFile : Option String := none
  deriving DecidableEq, Repr, Inhabited

namespace Options

/-- The options that a JSON value stands for. -/
def ofJson (j : Json) : Option Options := do
  let r ← Json.record ["whole_program_optimization", "warn_as_error", "assembler_output",
    "assembler_listing_location", "generate_preprocessed_file", "object_file"] j
  let wholeProgramOptimization ← r.required "whole_program_optimization" Json.bool?
  let warnAsError ← r.required "warn_as_error" Json.bool?
  let assemblerOutput ← r.required "assembler_output" AssemblerOutput.ofJson
  let assemblerListingLocation ← r.optional "assembler_listing_location" Json.text?
  let generatePreprocessedFile ←
    r.required "generate_preprocessed_file" PreprocessOutput.ofJson
  let objectFile ← r.optional "object_file" Json.text?
  pure ⟨wholeProgramOptimization, warnAsError, assemblerOutput, assemblerListingLocation,
    generatePreprocessedFile, objectFile⟩

/-- Options in JSON. -/
def toJson (o : Options) : Json :=
  .object [("whole_program_optimization", .bool o.wholeProgramOptimization),
    ("warn_as_error", .bool o.warnAsError),
    ("assembler_output", o.assemblerOutput.toJson),
    ("assembler_listing_location", Json.ofOption .text o.assemblerListingLocation),
    ("generate_preprocessed_file", o.generatePreprocessedFile.toJson),
    ("object_file", Json.ofOption .text o.objectFile)]

end Options

end BuildLens
