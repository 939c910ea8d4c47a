import SqliteSchema.Faults
import SqliteSchema.TableConstraints

/-!
The notation in which faults and clauses are shown to a developer: the name of
the case with its data in parentheses, or in braces where the data have names,
and every text in double quotes with escapes. Escapes are those of ASCII and of
control characters; any other character stands as it is.
-/
namespace SqliteSchema.DiagnosticNotation

open PlainText Faults TableConstraints

def isControl (c : Char) : Bool := c.toNat < 0x20 || (0x7F ≤ c.toNat && c.toNat < 0xA0)

def escapeChar (c : Char) : Text :=
  match c with
  | '\x22' => ['\\', '\x22']
  | '\\' => ['\\', '\\']
  | '\n' => ['\\', 'n']
  | '\r' => ['\\', 'r']
  | '\t' => ['\\', 't']
  | '\x00' => ['\\', '0']
  | c => if isControl c then "\\u\x7b".toList ++ Nat.toDigits 16 c.toNat ++ "\x7d".toList else [c]

def shownText (text : Text) : Text := '\x22' :: text.flatMap escapeChar ++ ['\x22']

def shownCase (name : String) (shown : Text) : Text := name.toList ++ '(' :: shown ++ [')']

def shownList (texts : List Text) : Text :=
  '[' :: ", ".toList.intercalate (texts.map shownText) ++ [']']

def shownOption : Option Text → Text
  | none => "None".toList
  | some text => shownCase "Some" (shownText text)

def shownFields (name : String) (fields : List (String × Text)) : Text :=
  name.toList ++ " \x7b ".toList ++
    ", ".toList.intercalate (fields.map fun field => field.1.toList ++ ": ".toList ++ field.2) ++
    " \x7d".toList

def kindName : ConstraintKind → String
  | .primaryKey _ => "PrimaryKey"
  | .foreignKey => "ForeignKey"
  | .check => "Check"
  | .unique _ => "Unique"
  | .other => "Generic"

def shownKind (kind : ConstraintKind) : Text :=
  match kind with
  | .primaryKey columns | .unique columns => shownCase (kindName kind) (shownList columns)
  | _ => (kindName kind).toList

def shownClause : Clause → Text
  | .column => "Column".toList
  | .constraint found =>
      shownCase "Constraint" <| shownFields "Constraint"
        [("name", shownOption found.name), ("kind", shownKind found.kind)]

def faultName : Fault → String
  | .noBody _ => "NoBrackets"
  | .unbalanced _ => "UnbalancedDelimiters"
  | .badTypeSize _ _ => "BadLength"
  | .noTable => "MissingCreateTable"
  | .manyTables => "MultipleCreateTable"
  | .unknownStatement _ => "UnsupportedStatement"
  | .badSyntax _ => "Syntax"

def shownFault (fault : Fault) : Text :=
  match fault with
  | .noBody text | .unbalanced text | .unknownStatement text =>
      shownCase (faultName fault) (shownText text)
  | .badSyntax cause => shownCase (faultName fault) (shownText cause.message)
  | .badTypeSize column arguments =>
      shownFields (faultName fault)
        [("column", shownText column), ("args", shownText arguments)]
  | .noTable | .manyTables => (faultName fault).toList

end SqliteSchema.DiagnosticNotation
