import SqliteSchema.CommandLine

/-!
The program: it reads its arguments, then its input, and prints the outcome.
-/
namespace SqliteSchema.Main

open PlainText RunFaults CommandArguments CommandLine

partial def readBytes (stream : IO.FS.Stream) (found : ByteArray) : IO ByteArray := do
  let bytes ← stream.read 65536
  if bytes.isEmpty then return found else readBytes stream (found ++ bytes)

/-- The number of a failure to read a file. It is reported negated where the file
could not be opened. -/
def systemCode? : IO.Error → Option Nat
  | .noFileOrDirectory _ code _ | .inappropriateType _ code _ | .permissionDenied _ code _
  | .invalidArgument _ code _ => some (min code.toNat (-code).toNat)
  | _ => none

def inputFault (fault : IO.Error) : InputFault :=
  match (systemCode? fault).bind SystemFault.ofCode? with
  | some cause => .system cause
  | none => .unreadable fault.toString.toList

def sourceOf (bytes : ByteArray) : Except InputFault Text :=
  match String.fromUTF8? bytes with
  | some source => .ok source.toList
  | none => .error .invalidEncoding

def readInput (input : Option Text) : IO (Except InputFault Text) := do
  try
    match input with
    | some path => return sourceOf (← IO.FS.readBinFile (String.ofList path))
    | none => return sourceOf (← readBytes (← IO.getStdin) .empty)
  catch fault => return .error (inputFault fault)

def outcome : Request → IO Outcome
  | .version => return versionOutcome
  | .misuse => return misuseOutcome
  | .invocation found => return commandOutcome found.command (← readInput found.input)

end SqliteSchema.Main

open SqliteSchema in
def main (arguments : List String) : IO UInt32 := do
  let found ← Main.outcome (CommandArguments.request (arguments.map String.toList))
  IO.print (String.ofList found.output)
  IO.eprint (String.ofList found.complaint)
  return found.exitCode.toUInt32
