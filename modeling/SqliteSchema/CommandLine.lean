import SqliteSchema.CommandArguments
import SqliteSchema.ConstraintEdits
import SqliteSchema.RunFaults
import SqliteSchema.SchemaDumps
import SqliteSchema.TableReports

/-!
The five commands over a schema dump, and what a run of the program leaves
behind: an exit code, a text for standard output and a complaint.
-/
namespace SqliteSchema.CommandLine

open PlainText TableDefinitions ConstraintEdits TableReports SchemaDumps RunFaults CommandArguments

def dumpTable (source : Text) : Except RunFault Table := (readDump source).mapError .definition

/-- A report on a dump in a format given by name. The dump is read before the
name of the format is looked at. -/
def reportDump (source format : Text) : Except RunFault Text := do
  let table ← dumpTable source
  match ReportFormat.ofName? format with
  | some format => return report table format
  | none => .error (.unknownFormat format)

def runCommand (source : Text) : Command → Except RunFault Text
  | .inspect format => reportDump source format
  | .compile => do return (← dumpTable source).statement
  | .columns => do return ", ".toList.intercalate (← dumpTable source).writableColumns
  | .putConstraint name clause => do
      return (putConstraint name clause (← dumpTable source)).statement
  | .dropConstraint name => do
      match dropConstraint? name (← dumpTable source) with
      | some rest => return rest.statement
      | none => .error (.noSuchConstraint name)

structure Outcome where
  exitCode : Nat
  output : Text
  complaint : Text
  deriving DecidableEq

def versionText : Text := "sqlite-ddl 0.1.0".toList

def usageText : Text :=
  "Usage: sqlite-ddl [--input FILE] COMMAND\nCommands: inspect [--format json|table], ".toList ++
    "compile, columns,\n  add-constraint --name NAME --clause CLAUSE, ".toList ++
    "drop-constraint --name NAME".toList

def Outcome.ofResult : Except RunFault Text → Outcome
  | .ok text => ⟨0, text ++ ['\n'], []⟩
  | .error fault => ⟨1, [], "Error: ".toList ++ shownRunFault fault ++ ['\n']⟩

def commandOutcome (command : Command) (input : Except InputFault Text) : Outcome :=
  .ofResult do
    let source ← input.mapError .input
    runCommand source command

def versionOutcome : Outcome := .ofResult (.ok versionText)

def misuseOutcome : Outcome := ⟨2, [], usageText ++ ['\n']⟩

end SqliteSchema.CommandLine
