import SqliteSchema.ClauseSplitting
import SqliteSchema.StatementHeaders

/-!
The parts of a CREATE INDEX statement that bear on a table's columns.
-/
namespace SqliteSchema.IndexDefinitions

open PlainText Quoting Faults ClauseSplitting ClauseTokens StatementHeaders

structure Index where
  name : Text
  table : Text
  isUnique : Bool
  columns : List Text
  isPartial : Bool
  deriving DecidableEq

/-- A function call is kept as written; any other entry gives its first token without quotes. -/
def entryColumn (entry : Text) : Text :=
  match tokensOf entry with
  | [] => []
  | first :: rest => if rest.head?.any Token.isGroup then entry else bareText first.text

def readBody (statement : Text) (header : IndexHeading) : Except Fault Index := do
  match ← parenthesized header.rest with
  | none => .error (.noBody statement)
  | some group =>
      let entries ← separateClauses group.body
      return {
        name := bareText header.name
        table := bareText header.table
        isUnique := header.isUnique
        columns := entries.map entryColumn
        isPartial := startsWith "WHERE" (tokensOf group.tail) }

def readIndex (statement : Text) : Except Fault Index :=
  match readHeader? statement with
  | some (.index header) => readBody statement header
  | _ => .error (.unknownStatement statement)

/-- The one column of a unique index that covers every row. -/
def Index.soleUniqueColumn? (index : Index) : Option Text :=
  match index.columns with
  | [column] => if index.isUnique && !index.isPartial then some column else none
  | _ => none

def Index.isOf (table : Text) (index : Index) : Bool := sameLetters index.table table

end SqliteSchema.IndexDefinitions
