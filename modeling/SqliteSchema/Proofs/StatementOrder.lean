import Mathlib.Data.List.Perm.Basic
import SqliteSchema.Proofs.BatchOutcomes

/-!
The order of a batch. Whether a batch is accepted depends on its statements one by one
and on how many of them define a table, and the columns of the table depend on the
indexes only through the set of the columns that these make unique. So a batch in
another order is read alike, up to the order of the indexes that the table keeps.
-/
namespace SqliteSchema.Proofs.StatementOrder

open PlainText Quoting ColumnDefinitions IndexDefinitions TableDefinitions TableReading
  StatementBodies BatchOutcomes

variable {statements others : List Text}

theorem tableStatements_of_perm {definition : TableStatement} (h : statements.Perm others)
    (hone : tableStatements statements = [definition]) : tableStatements others = [definition] := by
  have htables := h.filterMap tableStatement?
  rw [tableStatements] at hone ⊢
  rwa [hone, List.singleton_perm, eq_comm] at htables

theorem isAcceptable_of_perm (h : statements.Perm others) (hstatements : IsAcceptable statements) :
    IsAcceptable others := by
  obtain ⟨definition, hone, hsized⟩ := hstatements.table
  refine ⟨?_, definition, tableStatements_of_perm h hone, hsized⟩
  intro statement hmem
  exact hstatements.bodies statement (h.mem_iff.mpr hmem)

/-- The indexes of a table mark its columns whatever their order. -/
theorem readColumns_of_perm (clauses : List Text) {indexes more : List Index}
    (h : indexes.Perm more) : readColumns clauses indexes = readColumns clauses more := by
  have hkeys : (uniqueKeys clauses indexes).Perm (uniqueKeys clauses more) :=
    ((h.filterMap Index.soleUniqueColumn?).append_left _).map _
  have hmark : Column.mark (primaryKeys clauses) (uniqueKeys clauses indexes) =
      Column.mark (primaryKeys clauses) (uniqueKeys clauses more) := by
    funext column
    rw [Column.mark, Column.mark, hkeys.contains_eq]
  rw [readColumns, readColumns, hmark]

theorem exists_readTable_of_perm (h : statements.Perm others) {table : Table}
    (htable : readTable statements = .ok table) : ∃ other, readTable others = .ok other := by
  rcases isAcceptable_or_isRefused statements with hacceptable | ⟨fault, hfault⟩
  · exact exists_readTable (isAcceptable_of_perm h hacceptable)
  · simp [readTable_of_isRefused hfault] at htable

/-- A batch in any order gives the same table, with the same indexes in some order, or no
table in any order. -/
theorem readTable_perm (h : statements.Perm others) :
    ((∃ table, readTable statements = .ok table) ↔ ∃ other, readTable others = .ok other) ∧
    ∀ table other, readTable statements = .ok table → readTable others = .ok other →
      other.name = table.name ∧ other.ifNotExists = table.ifNotExists ∧
        other.clauses = table.clauses ∧ other.columns = table.columns ∧
        other.options = table.options ∧ other.indexes.Perm table.indexes := by
  refine ⟨⟨?_, ?_⟩, ?_⟩
  · rintro ⟨table, htable⟩
    exact exists_readTable_of_perm h htable
  · rintro ⟨other, hother⟩
    exact exists_readTable_of_perm h.symm hother
  intro table other htable hother
  obtain ⟨definition, indexes, group, htable⟩ := exists_isReadFrom htable
  obtain ⟨same, more, part, hother⟩ := exists_isReadFrom hother
  have hone := tableStatements_of_perm h (tableStatements_of_isReadFrom htable)
  rw [tableStatements_of_isReadFrom hother, List.cons.injEq] at hone
  obtain ⟨rfl, -⟩ := hone
  obtain rfl := Option.some.inj (Except.ok.inj (htable.body.symm.trans hother.body))
  have hname : other.name = table.name := Option.some.inj (hother.name.symm.trans htable.name)
  have hclauses : other.clauses = table.clauses :=
    Except.ok.inj (hother.clauses.symm.trans htable.clauses)
  have hindexes : other.indexes.Perm table.indexes := by
    rw [hother.indexes, htable.indexes, hname, ← filterMap_definedIndex?_of_gather hother.gathered,
      ← filterMap_definedIndex?_of_gather htable.gathered]
    exact ((h.filterMap definedIndex?).filter _).symm
  refine ⟨hname, hother.ifNotExists.symm.trans htable.ifNotExists, hclauses, ?_,
    hother.options.symm.trans htable.options, hindexes⟩
  have hcolumns := hother.columns
  rw [IsCurrent, hclauses, readColumns_of_perm _ hindexes] at hcolumns
  exact Except.ok.inj (hcolumns.symm.trans htable.columns)

def mixedBatch : List Text :=
  ["CREATE UNIQUE INDEX a ON \"T\" (n)".toList, "CREATE INDEX b ON u (id)".toList,
    "CREATE TABLE t (id int, n text) STRICT".toList, "CREATE INDEX c ON t (id, n)".toList]

def mixedTable : Table where
  name := ['t']
  ifNotExists := false
  clauses := ["id int".toList, "n text".toList]
  columns := [
    ⟨"id".toList, "int".toList, "int".toList, .unsized, none, true, false, false, false, false⟩,
    ⟨['n'], "text".toList, "text".toList, .unsized, none, true, false, true, false, false⟩]
  options := some "STRICT".toList
  indexes := [⟨['a'], ['T'], true, [['n']], false⟩, ⟨['c'], ['t'], false, ["id".toList, ['n']], false⟩]

def reversedTable : Table := { mixedTable with indexes := mixedTable.indexes.reverse }

theorem readTable_perm_mixedBatch :
    mixedBatch.Perm mixedBatch.reverse ∧ readTable mixedBatch = .ok mixedTable ∧
      readTable mixedBatch.reverse = .ok reversedTable ∧
      reversedTable.columns = mixedTable.columns ∧
      reversedTable.indexes.Perm mixedTable.indexes := by
  have hperm : mixedBatch.Perm mixedBatch.reverse := (List.reverse_perm _).symm
  have hread : readTable mixedBatch = .ok mixedTable := eq_ok_of_toOption (by decide +kernel)
  have hreversed : readTable mixedBatch.reverse = .ok reversedTable :=
    eq_ok_of_toOption (by decide +kernel)
  obtain ⟨-, hsame⟩ := readTable_perm hperm
  obtain ⟨-, -, -, hcolumns, -, hindexes⟩ := hsame mixedTable reversedTable hread hreversed
  exact ⟨hperm, hread, hreversed, hcolumns, hindexes⟩

end SqliteSchema.Proofs.StatementOrder
