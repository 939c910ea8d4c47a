import SqliteSchema.DiagnosticNotation

/-!
Why a command fails: its input cannot be read, the dump does not define a table,
the format of a report is not known, or a constraint is not there.
-/
namespace SqliteSchema.RunFaults

open PlainText Faults DiagnosticNotation

inductive SystemFault where
  | missingFile
  | permissionDenied
  | notDirectory
  | isDirectory
  | longName
  deriving DecidableEq

def SystemFault.code : SystemFault → Nat
  | .missingFile => 2
  | .permissionDenied => 13
  | .notDirectory => 20
  | .isDirectory => 21
  | .longName => 36

def SystemFault.ofCode? (code : Nat) : Option SystemFault :=
  [.missingFile, .permissionDenied, .notDirectory, .isDirectory, .longName].find? fun fault =>
    fault.code == code

def SystemFault.name : SystemFault → String
  | .missingFile => "NotFound"
  | .permissionDenied => "PermissionDenied"
  | .notDirectory => "NotADirectory"
  | .isDirectory => "IsADirectory"
  | .longName => "InvalidFilename"

def SystemFault.message : SystemFault → Text
  | .missingFile => "No such file or directory".toList
  | .permissionDenied => "Permission denied".toList
  | .notDirectory => "Not a directory".toList
  | .isDirectory => "Is a directory".toList
  | .longName => "File name too long".toList

inductive InputFault where
  | system (cause : SystemFault)
  | invalidEncoding
  | unreadable (reason : Text)
  deriving DecidableEq

inductive RunFault where
  | input (cause : InputFault)
  | definition (cause : Fault)
  | unknownFormat (name : Text)
  | noSuchConstraint (name : Text)
  deriving DecidableEq

def invalidEncodingText : Text := "stream did not contain valid UTF-8".toList

def InputFault.message : InputFault → Text
  | .system cause =>
      cause.message ++ " (os error ".toList ++ Nat.toDigits 10 cause.code ++ [')']
  | .invalidEncoding => invalidEncodingText
  | .unreadable reason => reason

def RunFault.message : RunFault → Text
  | .input cause => "Failed to read the DDL input: ".toList ++ cause.message
  | .definition cause => "Failed to parse the DDL: ".toList ++ cause.message
  | .unknownFormat name => "Invalid output format provided: ".toList ++ name
  | .noSuchConstraint name => "Constraint not found: ".toList ++ name

def shownInputFault : InputFault → Text
  | .system cause =>
      shownFields "Os"
        [("code", Nat.toDigits 10 cause.code), ("kind", cause.name.toList),
          ("message", shownText cause.message)]
  | .invalidEncoding =>
      shownFields "Error"
        [("kind", "InvalidData".toList), ("message", shownText invalidEncodingText)]
  | .unreadable reason => shownCase "Other" (shownText reason)

def shownRunFault : RunFault → Text
  | .input cause => shownCase "InputRead" (shownInputFault cause)
  | .definition cause => shownCase "Ddl" (shownFault cause)
  | .unknownFormat name => shownCase "InvalidOutputFormat" (shownText name)
  | .noSuchConstraint name => shownCase "ConstraintNotFound" (shownText name)

end SqliteSchema.RunFaults
