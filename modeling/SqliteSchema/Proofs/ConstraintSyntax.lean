import SqliteSchema.TableConstraints
import SqliteSchema.Proofs.ColumnSyntax

/-!
Table constraints as data, the texts they are written as, and what they mean. A constraint
holds the blanks between its parts and the letters of its keywords, so each way to write one
is a constraint by itself and its text is a function of it.
-/
namespace SqliteSchema.Proofs.ConstraintSyntax

open PlainText ClauseTokens TableConstraints QuotedRuns ColumnSyntax

abbrev Blanks := { text : Text // ∀ c ∈ text, isBlank c = true }

abbrev Gap := { text : Text // text ≠ [] ∧ ∀ c ∈ text, isBlank c = true }

abbrev Spelling (keyword : String) := { text : Text // sameLetters text keyword.toList = true }

abbrev Word := { text : Text // text ≠ [] ∧ ∀ c ∈ text, isWordChar c = true }

abbrev Remainder := { text : Text // text.head?.any isWordChar = false }

structure QuotedName where
  mark : Char
  isMark : IsQuoteMark mark
  inside : Text

def QuotedName.text (name : QuotedName) : Text := quotedBy name.mark name.inside

structure Collation where
  before : Gap
  keyword : Spelling "COLLATE"
  between : Gap
  collation : Word

def Collation.text (collation : Collation) : Text :=
  collation.before ++ (collation.keyword ++ (collation.between ++ collation.collation.val))

structure Direction where
  before : Gap
  order : Order
  keyword : Spelling order.keyword

def Direction.text (direction : Direction) : Text := direction.before ++ direction.keyword.val

structure ListedColumn where
  before : Blanks
  name : QuotedName
  collation : Option Collation
  direction : Option Direction
  after : Blanks

def ListedColumn.text (column : ListedColumn) : Text :=
  column.before ++ (column.name.text ++ (column.collation.toList.flatMap Collation.text ++
    (column.direction.toList.flatMap Direction.text ++ column.after.val)))

structure ColumnList where
  before : Blanks
  columns : List ListedColumn

def ColumnList.text (list : ColumnList) : Text :=
  list.before ++ [','].intercalate (list.columns.map ListedColumn.text)

def ColumnList.names (list : ColumnList) : List Text :=
  list.columns.map fun column => column.name.inside

inductive TableRule where
  | primaryKey (primary : Spelling "PRIMARY") (gap : Gap) (key : Spelling "KEY")
      (before : Blanks) (columns : ColumnList) (rest : Text)
  | unique (keyword : Spelling "UNIQUE") (before : Blanks) (columns : ColumnList) (rest : Text)
  | foreignKey (foreign : Spelling "FOREIGN") (gap : Gap) (key : Spelling "KEY")
      (rest : Remainder)
  | check (keyword : Spelling "CHECK") (before : Blanks) (condition : BalancedText) (rest : Text)

def TableRule.text : TableRule → Text
  | .primaryKey primary gap key before columns rest =>
      primary ++ (gap ++ (key ++ (before ++ (parenthesize columns.text ++ rest))))
  | .unique keyword before columns rest =>
      keyword ++ (before ++ (parenthesize columns.text ++ rest))
  | .foreignKey foreign gap key rest => foreign ++ (gap ++ (key ++ rest.val))
  | .check keyword before condition rest =>
      keyword ++ (before ++ (parenthesize condition ++ rest))

def TableRule.kind : TableRule → ConstraintKind
  | .primaryKey _ _ _ _ columns _ => .primaryKey columns.names
  | .unique _ _ columns _ => .unique columns.names
  | .foreignKey .. => .foreignKey
  | .check .. => .check

structure Label where
  keyword : Spelling "CONSTRAINT"
  gap : Gap
  name : QuotedName
  after : Gap

def Label.text (label : Label) : Text :=
  label.keyword ++ (label.gap ++ (label.name.text ++ label.after.val))

structure TableConstraint where
  before : Blanks
  label : Option Label
  rule : TableRule

def TableConstraint.text (written : TableConstraint) : Text :=
  written.before ++ (written.label.toList.flatMap Label.text ++ written.rule.text)

def TableConstraint.meaning (written : TableConstraint) : Constraint where
  name := written.label.map fun label => label.name.inside
  kind := written.rule.kind

end SqliteSchema.Proofs.ConstraintSyntax
