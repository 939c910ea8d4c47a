import SqliteSchema.ColumnDefinitions
import SqliteSchema.IndexDefinitions
import SqliteSchema.TableConstraints

/-!
A table as one CREATE TABLE statement and any number of CREATE INDEX statements
define it. The clauses of the body are kept in their order and determine the
rest; the columns are computed from them once, when the statements are read.
-/
namespace SqliteSchema.TableDefinitions

open PlainText Quoting LetterCase Faults ClauseSplitting StatementHeaders TableConstraints
  ColumnDefinitions IndexDefinitions

structure Table where
  /-- The name as written, with its quotes. -/
  name : Text
  ifNotExists : Bool
  clauses : List Text
  columns : List Column
  options : Option Text
  indexes : List Index
  deriving DecidableEq

def Table.ofClauses (name : Text) (clauses : List Text) : Table where
  name := name
  ifNotExists := false
  clauses := clauses
  columns := []
  options := none
  indexes := []

structure TableStatement where
  statement : Text
  header : TableHeading
  deriving DecidableEq

/-- Sorts the statements of a batch, given the table statement that came before
them. The earliest statement that cannot be taken decides the fault. -/
def gather (table : Option TableStatement) :
    List Text → Except Fault (Option TableStatement × List Index)
  | [] => .ok (table, [])
  | statement :: rest =>
      match readHeader? statement with
      | none => .error (.unknownStatement statement)
      | some (.table header) =>
          match table with
          | some _ => .error .manyTables
          | none => gather (some ⟨statement, header⟩) rest
      | some (.index header) => do
          let index ← readBody statement header
          let (found, indexes) ← gather table rest
          return (found, index :: indexes)

/-- The text after the body, without the blanks around it and the semicolons at
its end, if any is left. -/
def trailingOptions (tail : Text) : Option Text :=
  let text := trim (trimEnd (· == ';') (trim tail))
  if text.isEmpty then none else some text

structure Draft where
  name : Text
  ifNotExists : Bool
  clauses : List Text
  options : Option Text
  indexes : List Index
  deriving DecidableEq

/-- Takes a table statement apart. A missing body is found before a missing name. -/
def TableStatement.draft (table : TableStatement) (indexes : List Index) : Except Fault Draft := do
  match ← parenthesized table.header.rest with
  | none => .error (.noBody table.statement)
  | some group =>
      match table.header.name with
      | none => .error (.badSyntax (.namelessTable table.statement))
      | some name =>
          let clauses ← separateClauses group.body
          return ⟨name, table.header.ifNotExists, clauses, trailingOptions group.tail, indexes⟩

def readDraft (statements : List Text) : Except Fault Draft := do
  match ← gather none statements with
  | (none, _) => .error .noTable
  | (some table, indexes) => table.draft indexes

def Draft.keeps (draft : Draft) (index : Index) : Bool := index.isOf (bareText draft.name)

def Draft.keptIndexes (draft : Draft) : List Index := draft.indexes.filter draft.keeps

def Draft.ignoredIndexes (draft : Draft) : List Index :=
  draft.indexes.filter fun index => !draft.keeps index

def constraints (clauses : List Text) : List Constraint :=
  clauses.filterMap fun clause => (readClause clause).constraint?

def primaryKeys (clauses : List Text) : List Text :=
  ((constraints clauses).flatMap Constraint.primaryKeys).map lower

def uniqueKeys (clauses : List Text) (indexes : List Index) : List Text :=
  ((constraints clauses).flatMap Constraint.uniqueColumns ++
    indexes.filterMap Index.soleUniqueColumn?).map lower

def columnClauses (clauses : List Text) : List Text :=
  clauses.filter fun clause => (readClause clause).isColumn

def readColumns (clauses : List Text) (indexes : List Index) : Except Fault (List Column) :=
  let mark := Column.mark (primaryKeys clauses) (uniqueKeys clauses indexes)
  (columnClauses clauses).mapM fun clause => (readColumn clause).map mark

def Draft.complete (draft : Draft) : Except Fault Table := do
  let columns ← readColumns draft.clauses draft.keptIndexes
  return {
    name := draft.name
    ifNotExists := draft.ifNotExists
    clauses := draft.clauses
    columns := columns
    options := draft.options
    indexes := draft.keptIndexes }

/-- Reads exactly one table statement and any number of index statements, in any
order. Indexes on other tables are left out. -/
def readTable (statements : List Text) : Except Fault Table := do
  let draft ← readDraft statements
  draft.complete

def Table.statement (table : Table) : Text :=
  "CREATE TABLE ".toList ++ (if table.ifNotExists then "IF NOT EXISTS ".toList else []) ++
    table.name ++ " (".toList ++ ", ".toList.intercalate table.clauses ++ [')'] ++
    (match table.options with
      | some options => ' ' :: options
      | none => [])

def Table.writableColumns (table : Table) : List Text :=
  ((columnClauses table.clauses).filterMap writableName?).map backticked

end SqliteSchema.TableDefinitions
