import SqliteSchema.TableDefinitions

/-!
Adding and removing named constraints of a table. An edit changes the list of
clauses and nothing else: the columns stay those that were read. A constraint is
added in place of one with exactly its name, and it is removed by a name that may
differ in the case of ASCII letters.
-/
namespace SqliteSchema.ConstraintEdits

open PlainText TableConstraints TableDefinitions

def isNamed (name : Text) (clause : Text) : Bool := (readClause clause).name? == some name

def isNamedLike (name : Text) (clause : Text) : Bool :=
  (readClause clause).name?.any fun found => sameLetters found name

def putClause (name clause : Text) (clauses : List Text) : List Text :=
  match clauses.findIdx? (isNamed name) with
  | some position => clauses.set position clause
  | none => clauses ++ [clause]

def putConstraint (name clause : Text) (table : Table) : Table :=
  { table with clauses := putClause name clause table.clauses }

def dropConstraint? (name : Text) (table : Table) : Option Table :=
  if table.clauses.any (isNamedLike name) then
    some { table with clauses := table.clauses.eraseP (isNamedLike name) }
  else none

end SqliteSchema.ConstraintEdits
