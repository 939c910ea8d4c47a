import SqliteSchema.ClauseSplitting
import SqliteSchema.ClauseTokens

/-!
A clause of a table body defines a column or constrains the table. Its first
words tell which: a keyword counts only as a whole word, so a column may be
called checksum or unique_code.
-/
namespace SqliteSchema.TableConstraints

open PlainText Quoting ClauseSplitting ClauseTokens

inductive ConstraintKind where
  | primaryKey (columns : List Text)
  | foreignKey
  | check
  | unique (columns : List Text)
  /-- A named constraint whose wording is none of the above. -/
  | other
  deriving DecidableEq

structure Constraint where
  name : Option Text
  kind : ConstraintKind
  deriving DecidableEq

def Constraint.primaryKeys (found : Constraint) : List Text :=
  match found.kind with
  | .primaryKey columns => columns
  | _ => []

def Constraint.uniqueColumns (found : Constraint) : List Text :=
  match found.kind with
  | .unique [column] => [column]
  | _ => []

inductive Clause where
  | column
  | constraint (found : Constraint)
  deriving DecidableEq

def Clause.isColumn : Clause → Bool
  | .column => true
  | .constraint _ => false

def Clause.constraint? : Clause → Option Constraint
  | .column => none
  | .constraint found => some found

def Clause.name? (clause : Clause) : Option Text := clause.constraint?.bind (·.name)

def entryName? (entry : Text) : Option Text :=
  (tokensOf entry).head?.map fun token => bareText token.text

/-- The names listed in a group. A group whose inside is not balanced lists none. -/
def groupNames (group : Token) : List Text :=
  match separateClauses group.inside with
  | .ok entries => entries.filterMap entryName?
  | .error _ => []

def listedColumns (tokens : List Token) : List Text :=
  match tokens.head?.filter Token.isGroup with
  | some group => groupNames group
  | none => []

def constraintKind? (first : Token) (rest : List Token) : Option ConstraintKind :=
  if first.spells "PRIMARY" && startsWith "KEY" rest then
    some (.primaryKey (listedColumns rest.tail))
  else if first.spells "FOREIGN" && startsWith "KEY" rest then some .foreignKey
  else if first.spells "CHECK" && rest.head?.any Token.isGroup then some .check
  else if first.spells "UNIQUE" && rest.head?.any Token.isGroup then
    some (.unique (listedColumns rest))
  else none

def clauseOfTokens : List Token → Clause
  | [] => .column
  | first :: rest =>
      if first.spells "CONSTRAINT" then
        match rest with
        | [] => .column
        | name :: tail =>
            if name.isName then
              let kind := (clauseOfTokens tail).constraint?.map (·.kind)
              .constraint ⟨some (bareText name.text), kind.getD .other⟩
            else .column
      else
        match constraintKind? first rest with
        | some kind => .constraint ⟨none, kind⟩
        | none => .column

def readClause (clause : Text) : Clause := clauseOfTokens (tokensOf clause)

end SqliteSchema.TableConstraints
