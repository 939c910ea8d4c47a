import SqliteSchema.Proofs.TableReading

/-!
A table is read again from the statement it is written as. The header, the body
and the options are found where they were put, and the index statements of the
batch give their indexes to the new table as they did to the old.
-/
namespace SqliteSchema.Proofs.StatementRoundTrip

open PlainText DelimiterScan ClauseSplitting StatementHeaders ColumnDefinitions IndexDefinitions
  TableDefinitions BalancedTexts SqueezedPieces NormalPieces HeaderNames FirstGroups
  TableReading

def writtenOptions : Option Text → Text
  | some options => ' ' :: options
  | none => []

def writtenBody (clauses : List Text) : Text := [',', ' '].intercalate clauses

theorem statement_eq (table : Table) :
    table.statement = "CREATE TABLE ".toList ++
      ((if table.ifNotExists then "IF NOT EXISTS ".toList else []) ++
        (table.name ++ ' ' :: '(' ::
          (writtenBody table.clauses ++ ')' :: writtenOptions table.options))) := by
  have hopen : " (".toList = [' ', '('] := rfl
  have hcomma : ", ".toList = [',', ' '] := rfl
  unfold Table.statement
  -- The words of the statement stay closed, as nothing depends on their letters.
  generalize "CREATE TABLE ".toList = keywords
  generalize "IF NOT EXISTS ".toList = condition
  simp only [hopen, hcomma, writtenBody, List.append_assoc, List.cons_append, List.nil_append]
  cases table.options <;> rfl

theorem separateClauses_writtenBody {clauses : List Text}
    (hclauses : ∀ clause ∈ clauses, IsNormal ',' clause) :
    separateClauses (writtenBody clauses) = .ok clauses := by
  refine separate_intercalate isSeparating_comma ?_ hclauses
  intro c hc
  rw [List.mem_singleton.mp hc]
  exact isBlank_space

theorem isBalanced_writtenOptions {table : Table} (htable : IsWritable table) :
    isBalanced (writtenOptions table.options) = true := by
  cases hoptions : table.options with
  | none => rfl
  | some options =>
    rw [writtenOptions, isBalanced_cons (by decide)]
    exact htable.options options hoptions

def writtenHeading (table : Table) : TableHeading where
  name := some table.name
  ifNotExists := table.ifNotExists
  rest := ' ' :: '(' :: (writtenBody table.clauses ++ ')' :: writtenOptions table.options)

theorem readHeader?_statement {table : Table} (htable : IsWritable table) :
    readHeader? table.statement = some (.table (writtenHeading table)) := by
  rw [statement_eq]
  exact readHeader?_rendered htable.name table.ifNotExists _

/-- The statement of a table is taken apart into the parts it was put together from. -/
theorem draft_writtenHeading {table : Table} (htable : IsWritable table) (indexes : List Index) :
    TableStatement.draft ⟨table.statement, writtenHeading table⟩ indexes =
      .ok ⟨table.name, table.ifNotExists, table.clauses,
        trailingOptions (writtenOptions table.options), indexes⟩ := by
  have hclauses := separateClauses_writtenBody htable.clauses
  have hgroup := parenthesized_group (separate_eq_ok_iff.mp hclauses).1
    (isBalanced_writtenOptions htable)
  exact draft_eq_ok ⟨table.statement, writtenHeading table⟩ rfl hgroup hclauses indexes

/-- A batch with the statement of a table gives its name and clauses back, and what its
options are read as. -/
theorem readTable_of_gather_statement {table : Table} (htable : IsWritable table)
    {statements : List Text} {indexes : List Index}
    (h : gather none statements =
      .ok (some ⟨table.statement, writtenHeading table⟩, indexes)) :
    readTable statements =
      Draft.complete ⟨table.name, table.ifNotExists, table.clauses,
        trailingOptions (writtenOptions table.options), indexes⟩ := by
  rw [readTable, readDraft, h]
  change TableStatement.draft _ indexes >>= Draft.complete = _
  rw [draft_writtenHeading htable]
  rfl

theorem readTable_statement {table : Table} (htable : IsWritable table) {rest : List Text}
    {indexes : List Index}
    (hrest : ∀ found, gather (some found) rest = .ok (some found, indexes)) :
    readTable (table.statement :: rest) =
      Draft.complete ⟨table.name, table.ifNotExists, table.clauses,
        trailingOptions (writtenOptions table.options), indexes⟩ := by
  refine readTable_of_gather_statement htable ?_
  rw [gather, readHeader?_statement htable]
  exact hrest _

/-- A writable table keeps its name, clauses and indexes; its columns are computed afresh. -/
theorem readTable_again {statements : List Text} {table : Table} (htable : IsWritable table)
    (hindexes : IsIndexedBy statements table) {columns : List Column}
    (hcolumns : readColumns table.clauses table.indexes = .ok columns) :
    ∃ options, readTable (table.statement :: indexStatements statements) =
      .ok { table with columns := columns, options := options } := by
  obtain ⟨indexes, hkept, hgather⟩ := hindexes
  refine ⟨trailingOptions (writtenOptions table.options), ?_⟩
  rw [readTable_statement htable hgather]
  refine bind_eq_ok.mpr ⟨columns, ?_, ?_⟩
  · rwa [hkept] at hcolumns
  · rw [hkept]
    rfl

/-- The statement of a table that was read gives the table back, whatever layout,
quotes, empty clauses and options it was first written with. -/
theorem readTable_statement_of_readTable {statements : List Text} {table : Table}
    (h : readTable statements = .ok table) :
    ∃ again, readTable (table.statement :: indexStatements statements) = .ok again ∧
      again.name = table.name ∧ again.ifNotExists = table.ifNotExists ∧
      again.clauses = table.clauses ∧ again.columns = table.columns ∧
      again.indexes = table.indexes := by
  obtain ⟨htable, hcolumns, hindexes⟩ := properties_of_readTable h
  obtain ⟨options, hread⟩ := readTable_again htable hindexes hcolumns
  exact ⟨_, hread, rfl, rfl, rfl, rfl, rfl⟩

def unevenBatch : List Text :=
  ["CREATE UNIQUE INDEX u ON \"MY T\" (n)".toList,
    "create table[my t](id int  PRIMARY KEY,, n text DEFAULT 'a,  b' ) STRICT ; ;".toList]

def unevenTable : Table where
  name := "[my t]".toList
  ifNotExists := false
  clauses := ["id int PRIMARY KEY".toList, "n text DEFAULT 'a,  b'".toList]
  columns := [
    ⟨"id".toList, "int".toList, "int".toList, .unsized, none, true, true, false, false, false⟩,
    ⟨"n".toList, "text".toList, "text".toList, .unsized, some "a,  b".toList, true, false, true,
      false, false⟩]
  options := some "STRICT ;".toList
  indexes := [⟨"u".toList, "MY T".toList, true, ["n".toList], false⟩]

theorem readTable_statement_unevenTable :
    readTable unevenBatch = .ok unevenTable ∧
    ∃ again, readTable (unevenTable.statement :: indexStatements unevenBatch) = .ok again ∧
      again.name = unevenTable.name ∧ again.ifNotExists = unevenTable.ifNotExists ∧
      again.clauses = unevenTable.clauses ∧ again.columns = unevenTable.columns ∧
      again.indexes = unevenTable.indexes := by
  have hread : readTable unevenBatch = .ok unevenTable :=
    eq_ok_of_toOption (by decide +kernel)
  exact ⟨hread, readTable_statement_of_readTable hread⟩

end SqliteSchema.Proofs.StatementRoundTrip
