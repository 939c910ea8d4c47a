import SqliteSchema.ConstraintEdits
import SqliteSchema.DiagnosticNotation

/-!
What is worth logging when a table is read or edited. The events of an action are
computed from the same data as its result.
-/
namespace SqliteSchema.TableEvents

open PlainText Quoting TableConstraints TableDefinitions ConstraintEdits IndexDefinitions
  DiagnosticNotation

inductive Event where
  | ignoredIndex (index table : Text) (reading : Text)
  | classifiedClause (clause : Text) (meaning : Clause)
  | replacedConstraint (name : Text) (position : Nat)
  | appendedConstraint (name : Text)
  | removedConstraint (name clause : Text)
  deriving DecidableEq

def Event.line : Event → Text
  | .ignoredIndex index table reading =>
      "DEBUG Ignoring index '".toList ++ index ++ "' on table '".toList ++ table ++
        "' while parsing '".toList ++ reading ++ ['\x27']
  | .classifiedClause clause meaning =>
      "TRACE Classified clause '".toList ++ clause ++ "' as ".toList ++ shownClause meaning
  | .replacedConstraint name position =>
      "DEBUG Replacing constraint '".toList ++ name ++ "' at position ".toList ++
        Nat.toDigits 10 position
  | .appendedConstraint name => "DEBUG Appending constraint '".toList ++ name ++ ['\x27']
  | .removedConstraint name clause =>
      "DEBUG Removed constraint '".toList ++ name ++ "': ".toList ++ clause

/-- A draft first drops the indexes of other tables and then classifies its clauses. -/
def draftEvents (draft : Draft) : List Event :=
  (draft.ignoredIndexes.map fun index =>
      .ignoredIndex index.name index.table (bareText draft.name)) ++
    draft.clauses.map fun clause => .classifiedClause clause (readClause clause)

def readingEvents (statements : List Text) : List Event :=
  match readDraft statements with
  | .ok draft => draftEvents draft
  | .error _ => []

def additionEvent (name : Text) (table : Table) : Event :=
  match table.clauses.findIdx? (isNamed name) with
  | some position => .replacedConstraint name position
  | none => .appendedConstraint name

def removalEvents (name : Text) (table : Table) : List Event :=
  (table.clauses.find? (isNamedLike name)).toList.map (.removedConstraint name)

end SqliteSchema.TableEvents
