import SqliteSchema.ConstraintEdits
import SqliteSchema.Proofs.StatementRoundTrip

/-!
Runs of constraint edits. An edit puts a clause into a table or takes one out and
leaves the rest of the table alone, so whatever the clauses it touches do not
contribute to is the same after any run. An edited table is still writable, and
its stale columns are right as long as no touched clause gives a column a flag.
-/
namespace SqliteSchema.Proofs.EditRuns

open PlainText ClauseSplitting TableConstraints ColumnDefinitions IndexDefinitions TableDefinitions
  ConstraintEdits TableReading StatementRoundTrip

inductive Edit where
  | put (name clause : Text)
  | drop (name : Text)
  deriving DecidableEq

/-- The table after an edit. A name that no constraint has drops nothing. -/
def Edit.apply (table : Table) : Edit → Table
  | .put name clause => putConstraint name clause table
  | .drop name => (dropConstraint? name table).getD table

def run (table : Table) (edits : List Edit) : Table := edits.foldl Edit.apply table

def Edit.touched (table : Table) : Edit → List Text
  | .put name clause => clause :: (table.clauses.find? (isNamed name)).toList
  | .drop name => (table.clauses.find? (isNamedLike name)).toList

def touchedBy (table : Table) : List Edit → List Text
  | [] => []
  | edit :: rest => edit.touched table ++ touchedBy (edit.apply table) rest

/-- An edit that puts in nothing but one table constraint in normal form. -/
def Edit.IsSound : Edit → Prop
  | .put _ clause => (readClause clause).isColumn = false ∧ separateClauses clause = .ok [clause]
  | .drop _ => True

def Edit.PutsConstraint : Edit → Prop
  | .put _ clause => (readClause clause).isColumn = false
  | .drop _ => True

instance : (edit : Edit) → Decidable edit.PutsConstraint
  | .put _ clause => inferInstanceAs (Decidable ((readClause clause).isColumn = false))
  | .drop _ => inferInstanceAs (Decidable True)

theorem putsConstraint_of_isSound {edit : Edit} (h : edit.IsSound) : edit.PutsConstraint := by
  cases edit with
  | put name clause => exact h.1
  | drop name => trivial

/-- A constraint that gives no column a flag: a foreign key, a check, or a named
constraint whose wording is unknown. -/
def isFlagless (clause : Text) : Bool :=
  match readClause clause with
  | .column => false
  | .constraint found =>
      match found.kind with
      | .foreignKey | .check | .other => true
      | .primaryKey _ | .unique _ => false

theorem findIdx?_isNamed {name old : Text} {left : List Text}
    (hleft : ∀ other ∈ left, isNamed name other = false) (hold : isNamed name old = true)
    (right : List Text) : (left ++ old :: right).findIdx? (isNamed name) = some left.length := by
  have hfind : left.findIdx? (isNamed name) = none := List.findIdx?_eq_none_iff.mpr hleft
  simp [List.findIdx?_append, hfind, List.findIdx?_cons, hold]

theorem putClause_append_cons {name clause old : Text} {left right : List Text}
    (hleft : ∀ other ∈ left, isNamed name other = false) (hold : isNamed name old = true) :
    putClause name clause (left ++ old :: right) = left ++ clause :: right := by
  simp [putClause, findIdx?_isNamed hleft hold]

theorem putClause_of_not_named {name clause : Text} {clauses : List Text}
    (h : ∀ other ∈ clauses, isNamed name other = false) :
    putClause name clause clauses = clauses ++ [clause] := by
  have hfind : clauses.findIdx? (isNamed name) = none := List.findIdx?_eq_none_iff.mpr h
  simp [putClause, hfind]

theorem clauses_apply_drop (table : Table) (name : Text) :
    ((Edit.drop name).apply table).clauses = table.clauses.eraseP (isNamedLike name) := by
  by_cases h : table.clauses.any (isNamedLike name) = true
  · simp [Edit.apply, dropConstraint?, h]
  · have hnone : ∀ clause ∈ table.clauses, ¬isNamedLike name clause = true := by simpa using h
    rw [List.eraseP_of_forall_not hnone]
    simp [Edit.apply, dropConstraint?, h]

/-- An edit changes the clauses of a table and nothing else. -/
theorem apply_eq (table : Table) (edit : Edit) :
    edit.apply table = { table with clauses := (edit.apply table).clauses } := by
  cases edit with
  | put name clause => rfl
  | drop name =>
    by_cases h : table.clauses.any (isNamedLike name) = true <;>
      simp [Edit.apply, dropConstraint?, h]

theorem isColumn_of_name?_ne_none {clause : Text} (h : (readClause clause).name? ≠ none) :
    (readClause clause).isColumn = false := by
  cases hclause : readClause clause with
  | column => simp [hclause, Clause.name?, Clause.constraint?] at h
  | constraint found => rfl

theorem name?_of_isNamed {name clause : Text} (h : isNamed name clause = true) :
    (readClause clause).name? ≠ none := by
  intro hnone
  simp [isNamed, hnone] at h

theorem name?_of_isNamedLike {name clause : Text} (h : isNamedLike name clause = true) :
    (readClause clause).name? ≠ none := by
  intro hnone
  simp [isNamedLike, hnone] at h

/-- At one place an edit takes out at most one named constraint and puts in the clause
it is given, if it is given one. -/
theorem exists_clauses_apply (table : Table) (edit : Edit) :
    ∃ left removed added right, table.clauses = left ++ removed ++ right ∧
      (edit.apply table).clauses = left ++ added ++ right ∧
      edit.touched table = added ++ removed ∧
      (∀ clause ∈ removed, (readClause clause).name? ≠ none) ∧
      ∀ clause ∈ added, ∃ name, edit = .put name clause := by
  cases edit with
  | put name clause =>
    cases hfind : table.clauses.find? (isNamed name) with
    | none =>
      have hnone : ∀ other ∈ table.clauses, isNamed name other = false := by simpa using hfind
      refine ⟨table.clauses, [], [clause], [], by simp, ?_, by simp [Edit.touched, hfind], ?_, ?_⟩
      · simp [Edit.apply, putConstraint, putClause_of_not_named hnone]
      · simp
      · simp
    | some old =>
      obtain ⟨hold, left, right, hclauses, hleft⟩ := List.find?_eq_some_iff_append.mp hfind
      have hleft : ∀ other ∈ left, isNamed name other = false := by simpa using hleft
      refine ⟨left, [old], [clause], right, by simp [hclauses], ?_,
        by simp [Edit.touched, hfind], ?_, ?_⟩
      · simp [Edit.apply, putConstraint, hclauses, putClause_append_cons hleft hold]
      · simpa using name?_of_isNamed hold
      · simp
  | drop name =>
    rw [clauses_apply_drop]
    cases hfind : table.clauses.find? (isNamedLike name) with
    | none =>
      have hnone : ∀ clause ∈ table.clauses, ¬isNamedLike name clause = true := by
        simpa using hfind
      refine ⟨table.clauses, [], [], [], by simp, ?_, by simp [Edit.touched, hfind], ?_, ?_⟩
      · simp [List.eraseP_of_forall_not hnone]
      · simp
      · simp
    | some old =>
      obtain ⟨hold, left, right, hclauses, hleft⟩ := List.find?_eq_some_iff_append.mp hfind
      have hleft : ∀ clause ∈ left, ¬isNamedLike name clause = true := by simpa using hleft
      refine ⟨left, [old], [], right, by simp [hclauses], ?_, by simp [Edit.touched, hfind], ?_, ?_⟩
      · rw [hclauses, List.eraseP_append_right _ hleft, List.eraseP_cons_of_pos hold]
        simp
      · simpa using name?_of_isNamedLike hold
      · simp

theorem run_cons (table : Table) (edit : Edit) (rest : List Edit) :
    run table (edit :: rest) = run (edit.apply table) rest := rfl

theorem run_eq (table : Table) (edits : List Edit) :
    run table edits = { table with clauses := (run table edits).clauses } := by
  induction edits generalizing table with
  | nil => rfl
  | cons edit rest ih =>
    rw [run_cons, ih, apply_eq]

/-- Every clause of an edited table was there before or was put in. -/
theorem mem_clauses_run {table : Table} {edits : List Edit} {clause : Text}
    (h : clause ∈ (run table edits).clauses) :
    clause ∈ table.clauses ∨ ∃ name, Edit.put name clause ∈ edits := by
  induction edits generalizing table with
  | nil => exact .inl h
  | cons edit rest ih =>
    rw [run_cons] at h
    rcases ih h with hmem | ⟨name, hput⟩
    · obtain ⟨left, removed, added, right, hbefore, hafter, -, -, hadded⟩ :=
        exists_clauses_apply table edit
      rw [hafter] at hmem
      rw [hbefore]
      simp only [List.mem_append] at hmem ⊢
      rcases hmem with (hleft | hin) | hright
      · exact .inl (.inl (.inl hleft))
      · obtain ⟨name, rfl⟩ := hadded clause hin
        exact .inr ⟨name, List.mem_cons_self ..⟩
      · exact .inl (.inr hright)
    · exact .inr ⟨name, List.mem_cons_of_mem _ hput⟩

/-- What the touched clauses do not contribute to, an edit leaves as it is. -/
theorem flatMap_clauses_apply {α : Type} {part : Text → List α} {table : Table} {edit : Edit}
    (h : ∀ clause ∈ edit.touched table, part clause = []) :
    (edit.apply table).clauses.flatMap part = table.clauses.flatMap part := by
  obtain ⟨left, removed, added, right, hbefore, hafter, htouched, -, -⟩ :=
    exists_clauses_apply table edit
  rw [htouched] at h
  have hadded : added.flatMap part = [] := by
    rw [List.flatMap_eq_nil_iff]
    intro clause hin
    exact h clause (List.mem_append_left _ hin)
  have hremoved : removed.flatMap part = [] := by
    rw [List.flatMap_eq_nil_iff]
    intro clause hin
    exact h clause (List.mem_append_right _ hin)
  rw [hbefore, hafter]
  simp [hadded, hremoved]

theorem flatMap_clauses_run {α : Type} {part : Text → List α} {table : Table} {edits : List Edit}
    (h : ∀ clause ∈ touchedBy table edits, part clause = []) :
    (run table edits).clauses.flatMap part = table.clauses.flatMap part := by
  induction edits generalizing table with
  | nil => rfl
  | cons edit rest ih =>
    have hfirst : (edit.apply table).clauses.flatMap part = table.clauses.flatMap part := by
      apply flatMap_clauses_apply
      intro clause hin
      exact h clause (List.mem_append_left _ hin)
    rw [run_cons, ← hfirst]
    apply ih
    intro clause hin
    exact h clause (List.mem_append_right _ hin)

/-- Edits that put in constraints touch no column clause. -/
theorem isColumn_of_mem_touchedBy {table : Table} {edits : List Edit}
    (hedits : ∀ edit ∈ edits, edit.PutsConstraint) {clause : Text}
    (h : clause ∈ touchedBy table edits) : (readClause clause).isColumn = false := by
  induction edits generalizing table with
  | nil => simp [touchedBy] at h
  | cons edit rest ih =>
    rcases List.mem_append.mp h with hfirst | hrest
    · obtain ⟨left, removed, added, right, -, -, htouched, hremoved, hadded⟩ :=
        exists_clauses_apply table edit
      rw [htouched] at hfirst
      rcases List.mem_append.mp hfirst with hin | hin
      · obtain ⟨name, rfl⟩ := hadded clause hin
        exact hedits _ (List.mem_cons_self ..)
      · exact isColumn_of_name?_ne_none (hremoved clause hin)
    · have hmore : ∀ other ∈ rest, other.PutsConstraint := by
        intro other hin
        exact hedits other (List.mem_cons_of_mem _ hin)
      exact ih hmore hrest

theorem columnClauses_eq_flatMap (clauses : List Text) :
    columnClauses clauses =
      clauses.flatMap fun clause => if (readClause clause).isColumn then [clause] else [] := by
  induction clauses with
  | nil => rfl
  | cons clause rest ih =>
    rw [columnClauses, List.filter_cons, List.flatMap_cons, ← ih]
    split <;> rfl

/-- The columns that the constraints of some clauses list, by one way of listing them. -/
theorem flatMap_constraints (listed : Constraint → List Text) (clauses : List Text) :
    (constraints clauses).flatMap listed =
      clauses.flatMap fun clause => ((readClause clause).constraint?.map listed).getD [] := by
  induction clauses with
  | nil => rfl
  | cons clause rest ih =>
    rw [List.flatMap_cons, ← ih, constraints, List.filterMap_cons]
    cases (readClause clause).constraint? with
    | none => rfl
    | some found => exact List.flatMap_cons

theorem columnClauses_run_of_putsConstraint (table : Table) {edits : List Edit}
    (hedits : ∀ edit ∈ edits, edit.PutsConstraint) :
    columnClauses (run table edits).clauses = columnClauses table.clauses := by
  rw [columnClauses_eq_flatMap, columnClauses_eq_flatMap]
  refine flatMap_clauses_run ?_
  intro clause hin
  rw [isColumn_of_mem_touchedBy hedits hin]
  rfl

theorem columnClauses_run {table : Table} {edits : List Edit}
    (hedits : ∀ edit ∈ edits, edit.IsSound) :
    columnClauses (run table edits).clauses = columnClauses table.clauses := by
  refine columnClauses_run_of_putsConstraint table ?_
  intro edit hin
  exact putsConstraint_of_isSound (hedits edit hin)

theorem flatMap_constraints_run (listed : Constraint → List Text)
    (hlisted : ∀ name, listed ⟨name, .foreignKey⟩ = [] ∧ listed ⟨name, .check⟩ = [] ∧
      listed ⟨name, .other⟩ = []) {table : Table} {edits : List Edit}
    (h : ∀ clause ∈ touchedBy table edits, isFlagless clause = true) :
    (constraints (run table edits).clauses).flatMap listed =
      (constraints table.clauses).flatMap listed := by
  rw [flatMap_constraints, flatMap_constraints]
  refine flatMap_clauses_run ?_
  intro clause hin
  have hflagless := h clause hin
  unfold isFlagless at hflagless
  cases hclause : readClause clause with
  | column => rfl
  | constraint found =>
    obtain ⟨name, kind⟩ := found
    obtain ⟨hforeign, hcheck, hother⟩ := hlisted name
    cases kind <;> simp_all [Clause.constraint?]

/-- Whether the columns can be read depends on the column clauses alone. -/
theorem exists_readColumns {clauses others : List Text} {indexes : List Index}
    {columns : List Column} (h : readColumns clauses indexes = .ok columns)
    (hothers : columnClauses others = columnClauses clauses) :
    ∃ found, readColumns others indexes = .ok found := by
  obtain ⟨found, hfound, -⟩ := readColumns_eq_ok_iff.mp h
  rw [← hothers] at hfound
  exact ⟨_, readColumns_eq_ok_iff.mpr ⟨found, hfound, rfl⟩⟩

/-- Where no touched clause gives a flag, the columns that were read stay right. -/
theorem readColumns_run {table : Table} {edits : List Edit}
    (hedits : ∀ edit ∈ edits, edit.IsSound)
    (hflagless : ∀ clause ∈ touchedBy table edits, isFlagless clause = true) :
    readColumns (run table edits).clauses table.indexes =
      readColumns table.clauses table.indexes := by
  have hprimary := flatMap_constraints_run Constraint.primaryKeys
    (fun name => ⟨rfl, rfl, rfl⟩) hflagless
  have hunique := flatMap_constraints_run Constraint.uniqueColumns
    (fun name => ⟨rfl, rfl, rfl⟩) hflagless
  simp only [readColumns, primaryKeys, uniqueKeys, columnClauses_run hedits, hprimary, hunique]

theorem isWritable_run {table : Table} (htable : IsWritable table) {edits : List Edit}
    (hedits : ∀ edit ∈ edits, edit.IsSound) : IsWritable (run table edits) := by
  rw [run_eq]
  refine ⟨htable.name, ?_, htable.options⟩
  intro clause hclause
  rcases mem_clauses_run hclause with hbefore | ⟨name, hput⟩
  · exact htable.clauses clause hbefore
  · exact (hedits _ hput).2

theorem isIndexedBy_run {statements : List Text} {table : Table}
    (htable : IsIndexedBy statements table) (edits : List Edit) :
    IsIndexedBy statements (run table edits) := by
  rw [run_eq]
  exact htable

/-- The statement of a table edited any number of times is read as the edited table,
and where no touched clause gives a flag its columns are read again as they stand. -/
theorem readTable_statement_run {statements : List Text} {table : Table}
    (hread : readTable statements = .ok table) {edits : List Edit}
    (hedits : ∀ edit ∈ edits, edit.IsSound) :
    ∃ again, readTable ((run table edits).statement :: indexStatements statements) = .ok again ∧
      again.name = (run table edits).name ∧
      again.ifNotExists = (run table edits).ifNotExists ∧
      again.clauses = (run table edits).clauses ∧
      again.writableColumns = (run table edits).writableColumns ∧
      ((∀ clause ∈ touchedBy table edits, isFlagless clause = true) →
        again.columns = (run table edits).columns) := by
  obtain ⟨htable, hcurrent, hindexes⟩ := properties_of_readTable hread
  have hrunIndexes : (run table edits).indexes = table.indexes := by rw [run_eq]
  have hrunColumns : (run table edits).columns = table.columns := by rw [run_eq]
  obtain ⟨columns, hcolumns⟩ := exists_readColumns hcurrent (columnClauses_run hedits)
  rw [← hrunIndexes] at hcolumns
  obtain ⟨options, hagain⟩ := readTable_again (isWritable_run htable hedits)
    (isIndexedBy_run hindexes edits) hcolumns
  refine ⟨_, hagain, rfl, rfl, rfl, rfl, ?_⟩
  intro hflagless
  rw [hrunIndexes, readColumns_run hedits hflagless, hcurrent] at hcolumns
  rw [hrunColumns]
  exact (Except.ok.inj hcolumns).symm

def checkedBatch : List Text :=
  ["CREATE TABLE t (id int, CONSTRAINT c CHECK (id > 0))".toList, "CREATE INDEX i ON t (id)".toList]

def checkedTable : Table where
  name := ['t']
  ifNotExists := false
  clauses := ["id int".toList, "CONSTRAINT c CHECK (id > 0)".toList]
  columns := [
    ⟨"id".toList, "int".toList, "int".toList, .unsized, none, true, false, false, false, false⟩]
  options := none
  indexes := [⟨['i'], ['t'], false, ["id".toList], false⟩]

def checkedEdits : List Edit :=
  [.put ['c'] "CONSTRAINT c FOREIGN KEY (id) REFERENCES u (k)".toList,
    .put ['d'] "CONSTRAINT d CHECK (id <> ',')".toList, .drop ['C']]

theorem readTable_statement_checkedEdits :
    ∃ again, readTable ((run checkedTable checkedEdits).statement ::
        indexStatements checkedBatch) = .ok again ∧
      again.name = (run checkedTable checkedEdits).name ∧
      again.ifNotExists = (run checkedTable checkedEdits).ifNotExists ∧
      again.clauses = (run checkedTable checkedEdits).clauses ∧
      again.writableColumns = (run checkedTable checkedEdits).writableColumns ∧
      again.columns = (run checkedTable checkedEdits).columns := by
  have hread : readTable checkedBatch = .ok checkedTable :=
    eq_ok_of_toOption (by decide +kernel)
  have hedits : ∀ edit ∈ checkedEdits, edit.IsSound := by
    simp only [checkedEdits, List.forall_mem_cons]
    refine ⟨⟨by decide +kernel, eq_ok_of_toOption (by decide +kernel)⟩,
      ⟨by decide +kernel, eq_ok_of_toOption (by decide +kernel)⟩, trivial, by simp⟩
  have hflagless : ∀ clause ∈ touchedBy checkedTable checkedEdits, isFlagless clause = true := by
    decide +kernel
  obtain ⟨again, hagain, hname, hguard, hclauses, hwritable, hcolumns⟩ :=
    readTable_statement_run hread hedits
  exact ⟨again, hagain, hname, hguard, hclauses, hwritable, hcolumns hflagless⟩

end SqliteSchema.Proofs.EditRuns
