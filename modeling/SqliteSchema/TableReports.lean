import SqliteSchema.JsonLayout
import SqliteSchema.TableDefinitions

/-!
A table's name, clauses, columns and options as JSON, and its columns as lines of
padded cells for reading.
-/
namespace SqliteSchema.TableReports

open PlainText LetterCase TypeArguments ColumnDefinitions TableDefinitions JsonLayout

def sizePair (depth : Nat) (size : Int × Int) : Text :=
  array depth [integer size.1, integer size.2]

def columnReport (depth : Nat) (column : Column) : Text :=
  object depth [
    ("name", string column.name),
    ("data_type", string column.dataType),
    ("column_type", string column.columnType),
    ("length", nullable integer column.size.length?),
    ("decimal_size", nullable (sizePair (depth + 1)) column.size.decimal?),
    ("default_value", nullable string column.defaultValue),
    ("nullable", boolean column.isNullable),
    ("primary_key", boolean column.isPrimaryKey),
    ("unique", boolean column.isUnique),
    ("auto_increment", boolean column.isAutoIncrement),
    ("generated", boolean column.isGenerated)]

/-- The options are a member of the report only if there are any. -/
def jsonReport (table : Table) : Text :=
  object 0 <| [
    ("table_name", string table.name),
    ("fields", array 1 (table.clauses.map string)),
    ("columns", array 1 (table.columns.map (columnReport 2)))] ++
    table.options.toList.map fun options => ("options", string options)

def padded (width : Nat) (text : Text) : Text :=
  text ++ List.replicate (width - text.length) ' '

def row (name type nullable primaryKey unique default : Text) : Text :=
  [' '].intercalate [padded 20 name, padded 16 type, padded 8 nullable, padded 4 primaryKey,
    padded 6 unique, default] ++ ['\n']

def flagText : Bool → Text
  | true => "yes".toList
  | false => "no".toList

def columnRow (column : Column) : Text :=
  row column.name column.columnType (flagText column.isNullable) (flagText column.isPrimaryKey)
    (flagText column.isUnique) (column.defaultValue.getD "n/a".toList)

def headRow : Text :=
  row "Column".toList "Type".toList "Nullable".toList "PK".toList "Unique".toList "Default".toList

def rowReport (table : Table) : Text :=
  "Table ".toList ++ table.name ++ " (".toList ++ Nat.toDigits 10 table.clauses.length ++
    " clauses)\n".toList ++ headRow ++ List.replicate 64 '-' ++ ['\n'] ++
    table.columns.flatMap columnRow

inductive ReportFormat where
  | json
  | rows
  deriving DecidableEq

def ReportFormat.ofName? (name : Text) : Option ReportFormat :=
  let name := lower name
  if name = "json".toList then some .json
  else if name = "table".toList ∨ name = "text".toList then some .rows
  else none

def report (table : Table) : ReportFormat → Text
  | .json => jsonReport table
  | .rows => rowReport table

end SqliteSchema.TableReports
