import SqliteSchema.PlainText

/-!
The ways in which a batch of statements, or one clause of a table, is refused.
Each cause carries the text it refuses, so that its message can show it.
-/
namespace SqliteSchema.Faults

open PlainText

inductive SyntaxFault where
  | namelessTable (statement : Text)
  | emptyColumn (clause : Text)
  deriving DecidableEq

inductive Fault where
  | noBody (statement : Text)
  | unbalanced (text : Text)
  | badTypeSize (column arguments : Text)
  | noTable
  | manyTables
  | unknownStatement (statement : Text)
  | badSyntax (cause : SyntaxFault)
  deriving DecidableEq

def Fault.isMalformed : Fault → Bool
  | .noBody _ | .unbalanced _ | .badTypeSize _ _ => true
  | _ => false

def SyntaxFault.message : SyntaxFault → Text
  | .namelessTable statement => "missing table name: '".toList ++ statement ++ ['\x27']
  | .emptyColumn clause => "empty column definition: '".toList ++ clause ++ ['\x27']

def Fault.message : Fault → Text
  | .noBody statement => "Malformed DDL, no brackets: ".toList ++ statement
  | .unbalanced text => "Malformed DDL, unbalanced delimiters: ".toList ++ text
  | .badTypeSize column arguments =>
      "Malformed DDL, bad length '".toList ++ arguments ++ "' for column '".toList ++ column ++
        ['\x27']
  | .noTable => "No CREATE TABLE statement found".toList
  | .manyTables => "More than one CREATE TABLE statement found".toList
  | .unknownStatement statement => "Unsupported statement: ".toList ++ statement
  | .badSyntax cause => "Syntax error: ".toList ++ cause.message

end SqliteSchema.Faults
