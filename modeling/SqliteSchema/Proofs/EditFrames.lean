import SqliteSchema.Proofs.EditRuns

/-!
What runs of constraint edits leave alone. A clause without a name, be it a column
or a constraint, is never touched, so the columns and the unnamed constraints of a
table survive any run in their order. Removing a constraint that is not there
changes nothing.
-/
namespace SqliteSchema.Proofs.EditFrames

open PlainText TableConstraints TableDefinitions ConstraintEdits EditRuns

def isUnnamedConstraint (clause : Text) : Bool :=
  !(readClause clause).isColumn && (readClause clause).name?.isNone

/-- An edit takes out only clauses with a name. -/
theorem filter_clauses_apply {keeps : Text → Bool}
    (hkeeps : ∀ clause, keeps clause = true → (readClause clause).name? = none)
    (table : Table) (edit : Edit) :
    (table.clauses.filter keeps).Sublist ((edit.apply table).clauses.filter keeps) := by
  obtain ⟨left, removed, added, right, hbefore, hafter, -, hremoved, -⟩ :=
    exists_clauses_apply table edit
  have hnone : removed.filter keeps = [] := by
    rw [List.filter_eq_nil_iff]
    intro clause hin hkept
    exact hremoved clause hin (hkeeps clause hkept)
  rw [hbefore, hafter]
  simp only [List.filter_append, hnone, List.append_nil]
  exact (List.sublist_append_left _ _).append_right _

theorem filter_clauses_run {keeps : Text → Bool}
    (hkeeps : ∀ clause, keeps clause = true → (readClause clause).name? = none)
    (table : Table) (edits : List Edit) :
    (table.clauses.filter keeps).Sublist ((run table edits).clauses.filter keeps) := by
  induction edits generalizing table with
  | nil => exact List.Sublist.refl _
  | cons edit rest ih =>
    rw [run_cons]
    exact (filter_clauses_apply hkeeps table edit).trans (ih (edit.apply table))

theorem name?_of_isUnnamedConstraint (clause : Text) (h : isUnnamedConstraint clause = true) :
    (readClause clause).name? = none := by
  simp only [isUnnamedConstraint, Bool.and_eq_true, Option.isNone_iff_eq_none] at h
  exact h.2

/-- A removal is refused exactly where no constraint has the name. -/
theorem dropConstraint?_eq_none_iff (name : Text) (table : Table) :
    dropConstraint? name table = none ↔
      ∀ clause ∈ table.clauses, isNamedLike name clause = false := by
  simp [dropConstraint?]

/-- No constraint has the name that the edit is to drop. -/
def IsRefused (table : Table) (edit : Edit) : Prop :=
  ∃ name, edit = .drop name ∧ ∀ clause ∈ table.clauses, isNamedLike name clause = false

theorem isRefused_drop_iff {table : Table} {name : Text} :
    IsRefused table (.drop name) ↔ dropConstraint? name table = none := by
  rw [dropConstraint?_eq_none_iff]
  simp [IsRefused]

theorem not_isRefused_put (table : Table) (name clause : Text) :
    ¬IsRefused table (.put name clause) := by
  rintro ⟨other, hother, -⟩
  simp at hother

def Accepts (table : Table) : List Edit → Prop
  | [] => True
  | edit :: rest => ¬IsRefused table edit ∧ Accepts (edit.apply table) rest

theorem run_append (table : Table) (before after : List Edit) :
    run table (before ++ after) = run (run table before) after := List.foldl_append

theorem run_snoc_drop {name : Text} {table : Table} {before : List Edit}
    (h : dropConstraint? name (run table before) = none) :
    run table (before ++ [.drop name]) = run table before := by
  rw [run_append]
  change (dropConstraint? name (run table before)).getD (run table before) = _
  rw [h, Option.getD_none]

/-- A run that puts in constraints alone leaves the columns of a table and all its
other parts as they are and keeps its unnamed constraints in their order. A removal
is refused only where nothing has the name, and then it changes nothing. -/
theorem frame_run (table : Table) {edits : List Edit}
    (hedits : ∀ edit ∈ edits, edit.PutsConstraint) :
    columnClauses (run table edits).clauses = columnClauses table.clauses ∧
      (run table edits).writableColumns = table.writableColumns ∧
      (run table edits).name = table.name ∧
      (run table edits).ifNotExists = table.ifNotExists ∧
      (run table edits).columns = table.columns ∧
      (run table edits).options = table.options ∧
      (run table edits).indexes = table.indexes ∧
      (table.clauses.filter isUnnamedConstraint).Sublist
        ((run table edits).clauses.filter isUnnamedConstraint) ∧
      ∀ before name after, edits = before ++ .drop name :: after →
        dropConstraint? name (run table before) = none →
        (∀ clause ∈ (run table before).clauses, isNamedLike name clause = false) ∧
          run table (before ++ [.drop name]) = run table before := by
  have hcolumns := columnClauses_run_of_putsConstraint table hedits
  have hwritable : (run table edits).writableColumns = table.writableColumns := by
    rw [Table.writableColumns, hcolumns, Table.writableColumns]
  have hunnamed := filter_clauses_run name?_of_isUnnamedConstraint table edits
  refine ⟨hcolumns, hwritable, ?_, ?_, ?_, ?_, ?_, hunnamed, ?_⟩
  any_goals rw [run_eq]
  intro before name after _ hrefused
  exact ⟨(dropConstraint?_eq_none_iff name _).mp hrefused, run_snoc_drop hrefused⟩

def crowdedTable : Table :=
  Table.ofClauses ['t'] ["c int".toList, "CHECK (c > 0)".toList, "CONSTRAINT c CHECK (c < 9)".toList,
    "CONSTRAINT C UNIQUE (c)".toList]

def crowdedEdits : List Edit :=
  [.put ['C'] "CONSTRAINT d CHECK (c <> 5)".toList, .put ['e'] "FOREIGN KEY (c) REFERENCES u".toList,
    .drop ['D'], .drop ['x']]

theorem frame_run_crowdedEdits :
    columnClauses (run crowdedTable crowdedEdits).clauses = ["c int".toList] ∧
      (run crowdedTable crowdedEdits).writableColumns = crowdedTable.writableColumns ∧
      ["CHECK (c > 0)".toList].Sublist
        ((run crowdedTable crowdedEdits).clauses.filter isUnnamedConstraint) ∧
      dropConstraint? ['x'] (run crowdedTable (crowdedEdits.take 3)) = none ∧
      run crowdedTable crowdedEdits = run crowdedTable (crowdedEdits.take 3) := by
  have hedits : ∀ edit ∈ crowdedEdits, edit.PutsConstraint := by decide +kernel
  have hrefused : dropConstraint? ['x'] (run crowdedTable (crowdedEdits.take 3)) = none := by
    decide +kernel
  obtain ⟨hcolumns, hwritable, -, -, -, -, -, hunnamed, hdrop⟩ := frame_run crowdedTable hedits
  have hclauses : columnClauses crowdedTable.clauses = ["c int".toList] := by decide +kernel
  have hchecks : crowdedTable.clauses.filter isUnnamedConstraint = ["CHECK (c > 0)".toList] := by
    decide +kernel
  rw [hclauses] at hcolumns
  rw [hchecks] at hunnamed
  exact ⟨hcolumns, hwritable, hunnamed, hrefused,
    (hdrop (crowdedEdits.take 3) ['x'] [] rfl hrefused).2⟩

end SqliteSchema.Proofs.EditFrames
