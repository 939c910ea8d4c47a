import SqliteSchema.ColumnModifiers
import SqliteSchema.Faults
import SqliteSchema.TypeArguments

/-!
The facts that a column definition states about its column. A definition is a
name, an optional type of one or more words with optional arguments, and
modifiers.
-/
namespace SqliteSchema.ColumnDefinitions

open PlainText Quoting ClauseTokens LetterCase Faults TypeArguments ColumnModifiers

structure Column where
  name : Text
  dataType : Text
  columnType : Text
  size : TypeSize
  defaultValue : Option Text
  isNullable : Bool
  isPrimaryKey : Bool
  isUnique : Bool
  isAutoIncrement : Bool
  isGenerated : Bool
  deriving DecidableEq

structure TypePart where
  words : List Token
  arguments : Option Token
  rest : List Token
  deriving DecidableEq

/-- The words up to a modifier are the type; a group right after them holds its arguments. -/
def typePart (tokens : List Token) : TypePart :=
  let isTypeWord := fun token : Token => token.kind == .word && !isReserved token
  let words := tokens.takeWhile isTypeWord
  let rest := tokens.dropWhile isTypeWord
  if words.isEmpty then ⟨[], none, rest⟩
  else
    match rest with
    | [] => ⟨words, none, []⟩
    | next :: after => if next.isGroup then ⟨words, some next, after⟩ else ⟨words, none, rest⟩

def TypePart.dataType (part : TypePart) : Text := [' '].intercalate (part.words.map (·.text))

def TypePart.columnType (part : TypePart) : Text := slice (part.words ++ part.arguments.toList)

def TypePart.size? (part : TypePart) : Option TypeSize :=
  match part.arguments with
  | none => some .unsized
  | some group => typeSize? group.inside

def describe (name : Text) (part : TypePart) (size : TypeSize) (found : List Modifier) :
    Column where
  name := name
  dataType := part.dataType
  columnType := part.columnType
  size := size
  defaultValue := defaultValue? found
  isNullable := !found.contains .notNull
  isPrimaryKey := found.contains .primaryKey
  isUnique := found.contains .unique
  isAutoIncrement := found.contains .autoIncrement
  isGenerated := found.contains .generated

def readColumn (clause : Text) : Except Fault Column :=
  match tokensOf clause with
  | [] => .error (.badSyntax (.emptyColumn clause))
  | first :: rest =>
      let name := bareText first.text
      let part := typePart rest
      match part.size? with
      | some size => .ok (describe name part size (modifiers part.rest))
      | none => .error (.badTypeSize name ((part.arguments.map Token.inside).getD []))

def Column.key (column : Column) : Text := lower column.name

/-- Adds the flags that a column takes from outside its definition: the keys of
primary-key columns and of unique columns are given. -/
def Column.mark (primaryKeys uniques : List Text) (column : Column) : Column :=
  { column with
    isPrimaryKey := column.isPrimaryKey || primaryKeys.contains column.key
    isUnique := column.isUnique || uniques.contains column.key }

def mentionsGenerated : List Token → Bool
  | [] => false
  | token :: rest => opensGenerated token rest || mentionsGenerated rest

/-- The name of a column that values can be inserted into, which excludes generated columns. -/
def writableName? (clause : Text) : Option Text :=
  match tokensOf clause with
  | [] => none
  | first :: rest => if mentionsGenerated rest then none else some (bareText first.text)

end SqliteSchema.ColumnDefinitions
