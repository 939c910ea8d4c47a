import SqliteSchema.CommentStripping
import SqliteSchema.TableDefinitions

/-!
The text of a whole schema dump: its comments are removed and the rest is split
into statements.
-/
namespace SqliteSchema.SchemaDumps

open PlainText Faults ClauseSplitting CommentStripping TableDefinitions

def dumpStatements (source : Text) : Except Fault (List Text) :=
  separateStatements (withoutComments source)

def readDump (source : Text) : Except Fault Table := do
  let statements ← dumpStatements source
  readTable statements

end SqliteSchema.SchemaDumps
