import LuaGlobals.Files.Path
import LuaGlobals.Listing.Reader

/-! # Running the disassembler

The compiler of Lua prints the listing of a source file. Running it is left to the caller; this
module says how it is called and what its result means.

* `luacCommand` is the command line.
* `disassemble` finds the listing in the result of a run.
-/

namespace LuaGlobals

open Text

/-- The result of running a program. -/
inductive ProcessResult where
  /-- The program did not start; the text tells why. -/
  | notStarted (reason : String)
  /-- The program ended. -/
  | finished (status : Int) (output errors : String)
deriving DecidableEq, Repr

/-- Why there is no listing. -/
inductive DisassemblerError where
  /-- The compiler did not start. -/
  | cannotRun (luac reason : String)
  /-- The compiler failed. -/
  | failed (detail : String)
  /-- The compiler printed nothing. -/
  | noListing (luac source : String)
deriving DecidableEq, Repr

/-- The message for a missing listing. -/
def DisassemblerError.message : DisassemblerError → String
  | .cannotRun luac reason => "cannot run " ++ luac ++ ": " ++ reason
  | .failed detail => detail
  | .noListing luac source => luac ++ " produced no listing for " ++ source

/-- The command that prints the listing of a source file with its tables and writes nothing
else. -/
def luacCommand (luac source : String) : List String :=
  [luac, "-p", "-l", "-l", source]

/-- The message of a compiler that failed: what it printed, or else its status. -/
def failureDetail (status : Int) (errors : String) : String :=
  let detail := trimString errors
  if detail = "" then "exit status " ++ toString status else detail

/-- The listing of a source file, given the result of running the compiler on it. -/
def disassemble (luac source : String) (result : ProcessResult) :
    Except DisassemblerError String :=
  match result with
  | .notStarted reason => .error (.cannotRun luac reason)
  | .finished status output errors =>
    if status ≠ 0 then .error (.failed (failureDetail status errors))
    else if isBlankText output.toList then .error (.noListing luac source)
    else .ok output

/-- Why a source file could not be analyzed. -/
inductive AnalysisError where
  /-- There is no listing. -/
  | disassembly (cause : DisassemblerError)
  /-- The listing is malformed. -/
  | listing (cause : ListingError)
deriving DecidableEq, Repr

/-- The message for a source file that could not be analyzed. -/
def AnalysisError.message : AnalysisError → String
  | .disassembly cause => cause.message
  | .listing cause => cause.message

end LuaGlobals
