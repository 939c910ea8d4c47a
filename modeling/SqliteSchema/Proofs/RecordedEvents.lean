import SqliteSchema.TableEvents
import SqliteSchema.Proofs.EditFrames
import SqliteSchema.Proofs.EditLaws

/-!
What the events of a table tell. When a batch is read, each of its indexes is kept or recorded as
ignored, each clause is recorded once with its meaning, and there are as many column clauses among
them as the table has columns. When constraints are edited, an event stands for each edit that is
not refused and tells the place that the edit changed, and the clauses of the table can be counted
by the events of a run.
-/
namespace SqliteSchema.Proofs.RecordedEvents

open PlainText Quoting TableConstraints IndexDefinitions TableDefinitions ConstraintEdits
  TableEvents TableReading EditRuns EditFrames EditLaws

variable {statements : List Text} {table : Table}

def ignoresIndex : Event → Bool
  | .ignoredIndex .. => true
  | _ => false

def findsColumn : Event → Bool
  | .classifiedClause _ meaning => meaning.isColumn
  | _ => false

def classified? : Event → Option Text
  | .classifiedClause clause _ => some clause
  | _ => none

def appendsClause : Event → Bool
  | .appendedConstraint _ => true
  | _ => false

def removesClause : Event → Bool
  | .removedConstraint .. => true
  | _ => false

def ignoredEvents (name : Text) (indexes : List Index) : List Event :=
  (indexes.filter fun index => !index.isOf name).map fun index =>
    .ignoredIndex index.name index.table name

def classifiedEvents (clauses : List Text) : List Event :=
  clauses.map fun clause => .classifiedClause clause (readClause clause)

/-- Every index of a batch is kept by its table or recorded, and every clause is recorded. -/
theorem readingEvents_of_readTable (h : readTable statements = .ok table) :
    ∃ indexes, statements.filterMap definedIndex? = indexes ∧
      table.indexes = indexes.filter (Index.isOf (bareText table.name)) ∧
      readingEvents statements =
        ignoredEvents (bareText table.name) indexes ++ classifiedEvents table.clauses := by
  obtain ⟨draft, hdraft, h⟩ := bind_eq_ok.mp h
  obtain ⟨columns, -, h⟩ := bind_eq_ok.mp h
  obtain rfl := Except.ok.inj h
  obtain ⟨found, group, hgather, -⟩ := exists_of_readDraft hdraft
  refine ⟨draft.indexes, filterMap_definedIndex?_of_gather hgather, rfl, ?_⟩
  rw [readingEvents, hdraft]
  rfl

/-- Each column clause gives one column. -/
theorem length_columns_of_readTable (h : readTable statements = .ok table) :
    (columnClauses table.clauses).length = table.columns.length := by
  obtain ⟨-, hcurrent, -⟩ := properties_of_readTable h
  obtain ⟨found, hfound, hcolumns⟩ := readColumns_eq_ok_iff.mp hcurrent
  rw [← hcolumns, List.length_map]
  exact (mapM_eq_ok_iff.mp hfound).length_eq

theorem countP_ignoresIndex (name : Text) (indexes : List Index) (clauses : List Text) :
    (ignoredEvents name indexes ++ classifiedEvents clauses).countP ignoresIndex +
      (indexes.filter (Index.isOf name)).length = indexes.length := by
  have hsum := List.length_eq_countP_add_countP (Index.isOf name) (l := indexes)
  simp only [Bool.not_eq_true, Bool.decide_eq_false] at hsum
  have hignored : (ignoredEvents name indexes ++ classifiedEvents clauses).countP ignoresIndex =
      indexes.countP fun index => !index.isOf name := by
    simp [ignoredEvents, classifiedEvents, List.countP_map, Function.comp_def, ignoresIndex,
      ← List.countP_eq_length_filter]
  rw [hignored, ← List.countP_eq_length_filter, hsum, Nat.add_comm]

theorem countP_findsColumn (name : Text) (indexes : List Index) (clauses : List Text) :
    (ignoredEvents name indexes ++ classifiedEvents clauses).countP findsColumn =
      (columnClauses clauses).length := by
  simp [ignoredEvents, classifiedEvents, columnClauses, List.countP_map, Function.comp_def,
    findsColumn, ← List.countP_eq_length_filter]

theorem filterMap_classified? (name : Text) (indexes : List Index) (clauses : List Text) :
    (ignoredEvents name indexes ++ classifiedEvents clauses).filterMap classified? = clauses := by
  simp [ignoredEvents, classifiedEvents, List.filterMap_map, Function.comp_def, classified?]

/-- The events of reading a table account for its indexes, its clauses and its columns. -/
theorem counts_readingEvents (h : readTable statements = .ok table) :
    (readingEvents statements).countP ignoresIndex + table.indexes.length =
        (statements.filterMap definedIndex?).length ∧
      (readingEvents statements).filterMap classified? = table.clauses ∧
      (readingEvents statements).countP findsColumn = table.columns.length := by
  obtain ⟨indexes, hbatch, hindexes, hevents⟩ := readingEvents_of_readTable h
  rw [hevents, hbatch, hindexes, ← length_columns_of_readTable h]
  exact ⟨countP_ignoresIndex _ _ _, filterMap_classified? _ _ _, countP_findsColumn _ _ _⟩

/-- An edit that puts in a clause records whether it took the place of another, and which. -/
theorem putConstraint_cases (name clause : Text) (table : Table) :
    (∃ left old right, table.clauses = left ++ old :: right ∧ isNamed name old = true ∧
        additionEvent name table = .replacedConstraint name left.length ∧
        (putConstraint name clause table).clauses = left ++ clause :: right) ∨
      (∀ old ∈ table.clauses, isNamed name old = false) ∧
        additionEvent name table = .appendedConstraint name ∧
        (putConstraint name clause table).clauses = table.clauses ++ [clause] := by
  obtain hnone | ⟨left, old, right, hclauses, hleft, hold⟩ :=
    forall_or_exists_first (isNamed name) table.clauses
  · have hindex : table.clauses.findIdx? (isNamed name) = none :=
      List.findIdx?_eq_none_iff.mpr hnone
    refine .inr ⟨hnone, ?_, putClause_of_not_named hnone⟩
    rw [additionEvent, hindex]
  · have hindex : table.clauses.findIdx? (isNamed name) = some left.length := by
      rw [hclauses]
      exact findIdx?_isNamed hleft hold right
    refine .inl ⟨left, old, right, hclauses, hold, ?_, ?_⟩
    · rw [additionEvent, hindex]
    · rw [putConstraint, hclauses, putClause_append_cons hleft hold]

/-- An edit that takes a constraint out records it, and one that finds none records nothing. -/
theorem dropConstraint?_cases (name : Text) (table : Table) :
    (∃ left old right, table.clauses = left ++ old :: right ∧ isNamedLike name old = true ∧
        removalEvents name table = [.removedConstraint name old] ∧
        dropConstraint? name table = some { table with clauses := left ++ right }) ∨
      (∀ old ∈ table.clauses, isNamedLike name old = false) ∧ removalEvents name table = [] ∧
        dropConstraint? name table = none := by
  obtain hnone | ⟨left, old, right, hclauses, hleft, hold⟩ :=
    forall_or_exists_first (isNamedLike name) table.clauses
  · refine .inr ⟨hnone, ?_, (dropConstraint?_eq_none_iff name table).mpr hnone⟩
    have hfind : table.clauses.find? (isNamedLike name) = none := by simpa using hnone
    rw [removalEvents, hfind]
    rfl
  · refine .inl ⟨left, old, right, hclauses, hold, ?_,
      dropConstraint?_of_append_cons hclauses hleft hold⟩
    have hfind : table.clauses.find? (isNamedLike name) = some old :=
      List.find?_eq_some_iff_append.mpr ⟨hold, left, right, hclauses, by simpa using hleft⟩
    rw [removalEvents, hfind]
    rfl

def editEvents (table : Table) : Edit → List Event
  | .put name _ => [additionEvent name table]
  | .drop name => removalEvents name table

def runEvents (table : Table) : List Edit → List Event
  | [] => []
  | edit :: rest => editEvents table edit ++ runEvents (edit.apply table) rest

/-- An edit changes the number of clauses by what it records. -/
theorem length_apply (table : Table) (edit : Edit) :
    (edit.apply table).clauses.length + (editEvents table edit).countP removesClause =
      table.clauses.length + (editEvents table edit).countP appendsClause := by
  cases edit with
  | put name clause =>
    change (putConstraint name clause table).clauses.length + _ = _
    obtain ⟨left, old, right, hclauses, -, hevent, hput⟩ | ⟨-, hevent, hput⟩ :=
      putConstraint_cases name clause table
    · rw [editEvents, hevent, hput, hclauses]
      simp [removesClause, appendsClause]
    · rw [editEvents, hevent, hput]
      simp [removesClause, appendsClause]
  | drop name =>
    obtain ⟨left, old, right, hclauses, -, hevents, hdrop⟩ | ⟨-, hevents, hdrop⟩ :=
      dropConstraint?_cases name table
    · rw [editEvents, hevents, Edit.apply, hdrop, hclauses]
      simp [removesClause, appendsClause]
      omega
    · rw [editEvents, hevents, Edit.apply, hdrop]
      simp

/-- The clauses of a table after a run are told by the clauses before it and the events. -/
theorem length_run (table : Table) (edits : List Edit) :
    (run table edits).clauses.length + (runEvents table edits).countP removesClause =
      table.clauses.length + (runEvents table edits).countP appendsClause := by
  induction edits generalizing table with
  | nil => rfl
  | cons edit rest ih =>
    have hedit := length_apply table edit
    have hrest := ih (edit.apply table)
    rw [run_cons, runEvents, List.countP_append, List.countP_append]
    omega

/-- An edit is recorded once unless it is refused. -/
theorem length_editEvents (table : Table) (edit : Edit) :
    (editEvents table edit).length ≤ 1 ∧
      ((editEvents table edit).length = 1 ↔ ¬IsRefused table edit) := by
  cases edit with
  | put name clause => simp [editEvents, not_isRefused_put]
  | drop name =>
    rw [isRefused_drop_iff]
    obtain ⟨left, old, right, -, -, hevents, hdrop⟩ | ⟨-, hevents, hdrop⟩ :=
      dropConstraint?_cases name table
    · simp [editEvents, hevents, hdrop]
    · simp [editEvents, hevents, hdrop]

/-- A run records at most one event for each of its edits, and one for each just where none of
them is refused. -/
theorem length_runEvents (table : Table) (edits : List Edit) :
    (runEvents table edits).length ≤ edits.length ∧
      ((runEvents table edits).length = edits.length ↔ Accepts table edits) := by
  induction edits generalizing table with
  | nil => simp [runEvents, Accepts]
  | cons edit rest ih =>
    obtain ⟨hle, heq⟩ := length_editEvents table edit
    obtain ⟨hrest, hiff⟩ := ih (edit.apply table)
    rw [runEvents, List.length_append, List.length_cons, Accepts, ← heq, ← hiff]
    omega

end SqliteSchema.Proofs.RecordedEvents
