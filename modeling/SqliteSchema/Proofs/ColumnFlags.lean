import Mathlib.Data.List.Forall2
import SqliteSchema.Proofs.TableReading

/-!
Where the flags of a column come from. A clause states some of its own, a
constraint adds the primary key to each column that it lists and uniqueness to a
column that it lists alone, and a unique index over every row of the table adds
uniqueness to the column that is its only entry. An entry is known by its first
token, so an expression that begins with a name passes for the column of that name.
-/
namespace SqliteSchema.Proofs.ColumnFlags

open PlainText Quoting LetterCase Faults ClauseSplitting ClauseTokens StatementHeaders
  TableConstraints ColumnDefinitions IndexDefinitions TableDefinitions KeywordTokens TableReading

def listsKey (key clause : Text) : Bool :=
  match (readClause clause).constraint? with
  | some ⟨_, .primaryKey columns⟩ => columns.any fun column => lower column == key
  | _ => false

def listsAlone (key clause : Text) : Bool :=
  match (readClause clause).constraint? with
  | some ⟨_, .unique [column]⟩ => lower column == key
  | _ => false

def uniqueEntryOf? (table statement : Text) : Option Text :=
  match readHeader? statement with
  | some (.index header) =>
      match parenthesized header.rest with
      | .ok (some group) =>
          match separateClauses group.body with
          | .ok [entry] =>
              if header.isUnique && !startsWith "WHERE" (tokensOf group.tail) &&
                sameLetters (bareText header.table) (bareText table) then some entry else none
          | _ => none
      | _ => none
  | _ => none

def soleEntries (table : Text) (statements : List Text) : List Text :=
  statements.filterMap (uniqueEntryOf? table)

def skipCollation : List Token → List Token
  | collate :: name :: rest =>
      if collate.spells "COLLATE" && name.isName then rest else collate :: name :: rest
  | tokens => tokens

def isOrder : List Token → Bool
  | [] => true
  | [order] => order.spells "ASC" || order.spells "DESC"
  | _ => false

/-- The column that an entry is: a name, a collation where one is given, and an order. -/
def plainColumn? (entry : Text) : Option Text :=
  match tokensOf entry with
  | [] => none
  | first :: rest =>
      if first.isName && isOrder (skipCollation rest) then some (bareText first.text) else none

def isColumnEntry (key entry : Text) : Bool :=
  (plainColumn? entry).any fun column => lower column == key

/-- The entry is an expression, and it is read as the column with the given key. -/
def passesForColumn (key entry : Text) : Bool :=
  (plainColumn? entry).isNone && lower (entryColumn entry) == key

/-- The three places that make a column unique: its clause, a constraint that lists it
alone, and a unique index that has it as the only entry. -/
def IsUniqueIn (statements : List Text) (table : Table) (stated : Column) : Prop :=
  stated.isUnique = true ∨ (∃ clause ∈ table.clauses, listsAlone stated.key clause = true) ∨
    ∃ entry ∈ soleEntries table.name statements, isColumnEntry stated.key entry = true

instance (statements : List Text) (table : Table) (stated : Column) :
    Decidable (IsUniqueIn statements table stated) :=
  inferInstanceAs (Decidable (_ ∨ _ ∨ _))

/-- A column as its clause states it, with the flags that it takes from outside. -/
structure TakesFlags (statements : List Text) (table : Table) (stated column : Column) : Prop where
  unchanged : column =
    { stated with isPrimaryKey := column.isPrimaryKey, isUnique := column.isUnique }
  primaryKey : column.isPrimaryKey = true ↔
    stated.isPrimaryKey = true ∨ ∃ clause ∈ table.clauses, listsKey stated.key clause = true
  unique : column.isUnique = true ↔ IsUniqueIn statements table stated ∨
    ∃ entry ∈ soleEntries table.name statements, passesForColumn stated.key entry = true

variable {clauses statements : List Text} {key : Text}

theorem listsKey_iff (key clause : Text) :
    listsKey key clause = true ↔ ∃ found, (readClause clause).constraint? = some found ∧
      ∃ column ∈ found.primaryKeys, lower column = key := by
  unfold listsKey
  cases (readClause clause).constraint? with
  | none => simp
  | some found =>
    obtain ⟨name, kind⟩ := found
    cases kind <;> simp [Constraint.primaryKeys]

theorem listsAlone_iff (key clause : Text) :
    listsAlone key clause = true ↔ ∃ found, (readClause clause).constraint? = some found ∧
      ∃ column ∈ found.uniqueColumns, lower column = key := by
  unfold listsAlone
  cases (readClause clause).constraint? with
  | none => simp
  | some found =>
    obtain ⟨name, kind⟩ := found
    cases kind with
    | unique columns =>
      match columns with
      | [] | [_] | _ :: _ :: _ => simp [Constraint.uniqueColumns]
    | primaryKey | foreignKey | check | other => simp [Constraint.uniqueColumns]

/-- The constraints among some clauses are the clauses that read as one. -/
theorem mem_map_flatMap_constraints {columns : Constraint → List Text} :
    key ∈ ((constraints clauses).flatMap columns).map lower ↔
      ∃ clause ∈ clauses, ∃ found, (readClause clause).constraint? = some found ∧
        ∃ column ∈ columns found, lower column = key := by
  simp only [constraints, List.mem_map, List.mem_flatMap, List.mem_filterMap]
  constructor
  · rintro ⟨column, ⟨found, ⟨clause, hclause, hfound⟩, hcolumn⟩, hkey⟩
    exact ⟨clause, hclause, found, hfound, column, hcolumn, hkey⟩
  · rintro ⟨clause, hclause, found, hfound, column, hcolumn, hkey⟩
    exact ⟨column, ⟨found, ⟨clause, hclause, hfound⟩, hcolumn⟩, hkey⟩

theorem mem_primaryKeys_iff :
    key ∈ primaryKeys clauses ↔ ∃ clause ∈ clauses, listsKey key clause = true := by
  simp only [primaryKeys, mem_map_flatMap_constraints, listsKey_iff]

/-- The column that an index makes unique is its only entry, as the entry is read. -/
theorem map_entryColumn_uniqueEntryOf? (table statement : Text) :
    (uniqueEntryOf? table statement).map entryColumn =
      ((definedIndex? statement).filter (Index.isOf (bareText table))).bind
        Index.soleUniqueColumn? := by
  unfold uniqueEntryOf? definedIndex? readIndex
  cases readHeader? statement with
  | none => rfl
  | some header =>
    cases header with
    | table header => rfl
    | index header =>
      simp only [readBody]
      cases parenthesized header.rest with
      | error fault => rfl
      | ok part =>
        cases part with
        | none => rfl
        | some group =>
          simp only [bind, Except.bind]
          cases separateClauses group.body with
          | error fault => rfl
          | ok entries =>
            have hof : ∀ columns, Index.isOf (bareText table) ⟨bareText header.name,
                bareText header.table, header.isUnique, columns,
                startsWith "WHERE" (tokensOf group.tail)⟩ =
                  sameLetters (bareText header.table) (bareText table) := fun _ => rfl
            cases hon : sameLetters (bareText header.table) (bareText table) <;>
              match entries with
              | [] | [_] | _ :: _ :: _ =>
                simp [Except.toOption, pure, Except.pure, Option.filter, Index.soleUniqueColumn?,
                  hof, hon]

/-- The columns that the indexes on a table make unique. -/
theorem filterMap_soleUniqueColumn? (table : Text) (statements : List Text) :
    ((statements.filterMap definedIndex?).filter (Index.isOf (bareText table))).filterMap
        Index.soleUniqueColumn? =
      (soleEntries table statements).map entryColumn := by
  rw [soleEntries, List.map_filterMap]
  simp only [map_entryColumn_uniqueEntryOf?, List.filter_filterMap, List.filterMap_filterMap]

theorem mem_uniqueKeys_iff {table : Text} {indexes : List Index}
    (hindexes : indexes =
      (statements.filterMap definedIndex?).filter (Index.isOf (bareText table))) :
    key ∈ uniqueKeys clauses indexes ↔
      (∃ clause ∈ clauses, listsAlone key clause = true) ∨
        ∃ entry ∈ soleEntries table statements, lower (entryColumn entry) = key := by
  rw [uniqueKeys, hindexes, filterMap_soleUniqueColumn?, List.map_append, List.mem_append,
    mem_map_flatMap_constraints]
  simp [listsAlone_iff]

theorem isGroup_of_isOrder {tokens : List Token} (h : isOrder (skipCollation tokens) = true) :
    tokens.head?.any Token.isGroup = false := by
  cases tokens with
  | nil => rfl
  | cons first rest =>
    by_contra hgroup
    have hkind : first.kind ≠ .word := by
      have hfirst : first.isGroup = true := by simpa using hgroup
      rw [eq_of_beq hfirst]
      decide
    have hspells := spells_of_kind_ne hkind
    match rest with
    | [] => simp [skipCollation, isOrder, hspells] at h
    | _ :: _ => simp [skipCollation, isOrder, hspells] at h

/-- An entry that is a column is read as that column. -/
theorem entryColumn_of_plainColumn? {entry column : Text}
    (h : plainColumn? entry = some column) : entryColumn entry = column := by
  unfold plainColumn? at h
  unfold entryColumn
  cases htokens : tokensOf entry with
  | nil => simp [htokens] at h
  | cons first rest =>
    simp only [htokens, Option.ite_none_right_eq_some, Bool.and_eq_true, Option.some.injEq] at h
    obtain ⟨⟨-, horder⟩, rfl⟩ := h
    simp [isGroup_of_isOrder horder]

theorem lower_entryColumn_iff (key entry : Text) :
    lower (entryColumn entry) = key ↔
      isColumnEntry key entry = true ∨ passesForColumn key entry = true := by
  unfold isColumnEntry passesForColumn
  cases hentry : plainColumn? entry with
  | none => simp
  | some column => simp [entryColumn_of_plainColumn? hentry]

variable {table : Table}

theorem takesFlags_mark (hindexes : table.indexes =
      (statements.filterMap definedIndex?).filter (Index.isOf (bareText table.name)))
    (stated : Column) :
    TakesFlags statements table stated (stated.mark (primaryKeys table.clauses)
      (uniqueKeys table.clauses table.indexes)) := by
  refine ⟨rfl, ?_, ?_⟩
  · simp [Column.mark, mem_primaryKeys_iff]
  · simp only [Column.mark, IsUniqueIn, Bool.or_eq_true, List.contains_iff_mem,
      mem_uniqueKeys_iff hindexes, lower_entryColumn_iff, and_or_left, exists_or, or_assoc]

/-- The columns of a table are those of its column clauses, each as the clause states it
but for two flags. A column is in the primary key where its clause or a constraint says so.
It is unique where its clause, a constraint or an index on it alone says so, or where an
index over an expression passes for one, and nowhere else. -/
theorem columns_of_readTable (h : readTable statements = .ok table) :
    List.Forall₂ (fun clause column => ∃ stated, readColumn clause = .ok stated ∧
      TakesFlags statements table stated column) (columnClauses table.clauses) table.columns := by
  obtain ⟨definition, indexes, group, h⟩ := exists_isReadFrom h
  obtain ⟨found, hfound, hmarked⟩ := readColumns_eq_ok_iff.mp h.columns
  have hindexes := h.indexes
  rw [← filterMap_definedIndex?_of_gather h.gathered] at hindexes
  rw [← hmarked, List.forall₂_map_right_iff]
  refine (mapM_eq_ok_iff.mp hfound).imp ?_
  intro clause stated hstated
  exact ⟨stated, hstated, takesFlags_mark hindexes stated⟩

def keyedBatch : List Text :=
  ["CREATE UNIQUE INDEX i ON \"T\" (C COLLATE x DESC)".toList,
    "CREATE TABLE [t] (a, b, c, CONSTRAINT k PRIMARY KEY (A, c), UNIQUE (`B`))".toList,
    "CREATE UNIQUE INDEX j ON t (a) WHERE a".toList,
    "CREATE UNIQUE INDEX k ON t (a, b)".toList]

def keyedTable : Table where
  name := "[t]".toList
  ifNotExists := false
  clauses := [['a'], ['b'], ['c'], "CONSTRAINT k PRIMARY KEY (A, c)".toList, "UNIQUE (`B`)".toList]
  columns := [
    ⟨['a'], [], [], .unsized, none, true, true, false, false, false⟩,
    ⟨['b'], [], [], .unsized, none, true, false, true, false, false⟩,
    ⟨['c'], [], [], .unsized, none, true, true, true, false, false⟩]
  options := none
  indexes := [⟨['i'], ['T'], true, [['C']], false⟩, ⟨['j'], ['t'], true, [['a']], true⟩,
    ⟨['k'], ['t'], true, [['a'], ['b']], false⟩]

theorem columns_keyedTable :
    readTable keyedBatch = .ok keyedTable ∧
    List.Forall₂ (fun clause column => ∃ stated, readColumn clause = .ok stated ∧
      TakesFlags keyedBatch keyedTable stated column)
      (columnClauses keyedTable.clauses) keyedTable.columns := by
  have hread : readTable keyedBatch = .ok keyedTable := eq_ok_of_toOption (by decide +kernel)
  exact ⟨hread, columns_of_readTable hread⟩

/-- A table with a unique index over an expression. -/
def expressionBatch : List Text :=
  ["CREATE TABLE t (a int, b int)".toList, "CREATE UNIQUE INDEX i ON t (a || b)".toList]

def expressionTable : Table where
  name := ['t']
  ifNotExists := false
  clauses := ["a int".toList, "b int".toList]
  columns := [
    ⟨['a'], "int".toList, "int".toList, .unsized, none, true, false, true, false, false⟩,
    ⟨['b'], "int".toList, "int".toList, .unsized, none, true, false, false, false, false⟩]
  options := none
  indexes := [⟨['i'], ['t'], true, [['a']], false⟩]

def expressionColumn : Column :=
  ⟨['a'], "int".toList, "int".toList, .unsized, none, true, false, false, false, false⟩

/-- Neither of two columns is unique by itself, but the index over an expression of both
begins with the first, and so the first is marked without a reason. -/
theorem isUnique_expressionTable :
    readTable expressionBatch = .ok expressionTable ∧
      readColumn "a int".toList = .ok expressionColumn ∧
      expressionTable.columns.head? = some { expressionColumn with isUnique := true } ∧
      ¬ IsUniqueIn expressionBatch expressionTable expressionColumn := by
  have hread : readTable expressionBatch = .ok expressionTable :=
    eq_ok_of_toOption (by decide +kernel)
  exact ⟨hread, eq_ok_of_toOption (by decide +kernel), rfl, by decide +kernel⟩

end SqliteSchema.Proofs.ColumnFlags
