import Mathlib.Data.List.Forall2
import Mathlib.Data.List.Induction
import SqliteSchema.TableDefinitions
import SqliteSchema.Proofs.FirstGroups
import SqliteSchema.Proofs.HeaderNames
import SqliteSchema.Proofs.NormalPieces

/-!
What a table keeps of the statements it was read from. Its name has one of the
forms of a name, its clauses split into themselves and its options are balanced,
its columns are those that its clauses and indexes give, and its indexes are
those that the batch defines whatever table statement it has.
-/
namespace SqliteSchema.Proofs.TableReading

open PlainText Quoting DelimiterScan Faults ClauseSplitting ClauseTokens StatementHeaders
  ColumnModifiers ColumnDefinitions IndexDefinitions TableDefinitions BalancedTexts SqueezedPieces
  NormalPieces HeaderNames FirstGroups

theorem bind_eq_ok {α β : Type} {part : Except Fault α} {next : α → Except Fault β} {result : β} :
    (part >>= next) = .ok result ↔ ∃ value, part = .ok value ∧ next value = .ok result := by
  cases part <;> simp [bind, Except.bind]

theorem eq_ok_of_toOption {α : Type} {result : Except Fault α} {value : α}
    (h : result.toOption = some value) : result = .ok value := by
  cases result with
  | error fault => simp [Except.toOption] at h
  | ok found => rw [Option.some.inj h]

variable {drops : Char → Bool}

theorem isBalanced_dropWhile (hdrops : ∀ c, drops c = true → isNeutral c = true) (text : Text) :
    isBalanced (text.dropWhile drops) = isBalanced text := by
  induction text with
  | nil => rfl
  | cons c rest ih =>
    by_cases hc : drops c = true
    · rw [List.dropWhile_cons_of_pos hc, ih, isBalanced_cons (hdrops c hc)]
    · rw [List.dropWhile_cons_of_neg hc]

theorem isBalanced_trimEnd (hdrops : ∀ c, drops c = true → isNeutral c = true) (text : Text) :
    isBalanced (trimEnd drops text) = isBalanced text := by
  induction text using List.reverseRecOn with
  | nil => rfl
  | append_singleton rest c ih =>
    by_cases hc : drops c = true
    · have htrim : trimEnd drops (rest ++ [c]) = trimEnd drops rest := by
        simp [trimEnd, List.reverse_append, hc]
      rw [htrim, ih, isBalanced_snoc (hdrops c hc)]
    · have htrim : trimEnd drops (rest ++ [c]) = rest ++ [c] := by
        simp [trimEnd, List.reverse_append, hc]
      rw [htrim]

theorem isBalanced_trim (text : Text) : isBalanced (trim text) = isBalanced text := by
  rw [trim, isBalanced_trimEnd fun _ => isNeutral_of_isBlank,
    isBalanced_dropWhile fun _ => isNeutral_of_isBlank]

theorem isBalanced_trailingOptions {tail options : Text} (htail : isBalanced tail = true)
    (h : trailingOptions tail = some options) : isBalanced options = true := by
  have hsemicolon : ∀ c, (c == ';') = true → isNeutral c = true := by
    intro c hc
    rw [eq_of_beq hc]
    decide
  simp only [trailingOptions] at h
  split_ifs at h
  obtain rfl := Option.some.inj h
  rw [isBalanced_trim, isBalanced_trimEnd hsemicolon, isBalanced_trim, htail]

/-- What gathering one more statement does: it is the first table statement, or it adds
an index. -/
theorem gather_cons_cases {table found : Option TableStatement} {statement : Text}
    {rest : List Text} {indexes : List Index}
    (h : gather table (statement :: rest) = .ok (found, indexes)) :
    (∃ header, readHeader? statement = some (.table header) ∧ table = none ∧
      gather (some ⟨statement, header⟩) rest = .ok (found, indexes)) ∨
    ∃ header index more, readHeader? statement = some (.index header) ∧
      readBody statement header = .ok index ∧ gather table rest = .ok (found, more) ∧
      indexes = index :: more := by
  rw [gather] at h
  cases hheader : readHeader? statement with
  | none => simp [hheader] at h
  | some header =>
    rw [hheader] at h
    cases header with
    | table header =>
      cases table with
      | none => exact .inl ⟨header, rfl, rfl, h⟩
      | some other => simp at h
    | index header =>
      obtain ⟨index, hindex, h⟩ := bind_eq_ok.mp h
      obtain ⟨⟨between, more⟩, hmore, h⟩ := bind_eq_ok.mp h
      obtain ⟨rfl, rfl⟩ := Prod.mk.inj (Except.ok.inj h)
      exact .inr ⟨header, index, more, rfl, hindex, hmore, rfl⟩

def definesIndex (statement : Text) : Bool :=
  match readHeader? statement with
  | some (.index _) => true
  | _ => false

def indexStatements (statements : List Text) : List Text := statements.filter definesIndex

/-- A batch yields its indexes in front of any table statement too. -/
theorem gather_indexStatements {before result : Option TableStatement} {statements : List Text}
    {indexes : List Index} (h : gather before statements = .ok (result, indexes))
    (found : TableStatement) :
    gather (some found) (indexStatements statements) = .ok (some found, indexes) := by
  induction statements generalizing before indexes with
  | nil =>
    obtain ⟨-, rfl⟩ := Prod.mk.inj (Except.ok.inj h)
    rfl
  | cons statement rest ih =>
    rcases gather_cons_cases h with
      ⟨header, hheader, -, hrest⟩ | ⟨header, index, more, hheader, hindex, hmore, rfl⟩
    · have hskip : indexStatements (statement :: rest) = indexStatements rest := by
        simp [indexStatements, definesIndex, hheader]
      rw [hskip]
      exact ih hrest
    · have hkeep : indexStatements (statement :: rest) = statement :: indexStatements rest := by
        simp [indexStatements, definesIndex, hheader]
      rw [hkeep, gather, hheader]
      exact bind_eq_ok.mpr ⟨index, hindex, bind_eq_ok.mpr ⟨_, ih hmore, rfl⟩⟩

def definedIndex? (statement : Text) : Option Index := (readIndex statement).toOption

/-- Gathering gives the indexes that the statements define, one by one. -/
theorem filterMap_definedIndex?_of_gather {table found : Option TableStatement}
    {statements : List Text} {indexes : List Index}
    (h : gather table statements = .ok (found, indexes)) :
    statements.filterMap definedIndex? = indexes := by
  induction statements generalizing table indexes with
  | nil =>
    obtain ⟨-, rfl⟩ := Prod.mk.inj (Except.ok.inj h)
    rfl
  | cons statement rest ih =>
    rcases gather_cons_cases h with
      ⟨header, hheader, -, hrest⟩ | ⟨header, index, more, hheader, hindex, hmore, rfl⟩
    · have hnone : definedIndex? statement = none := by
        simp [definedIndex?, readIndex, hheader, Except.toOption]
      rw [List.filterMap_cons_none hnone, ih hrest]
    · have hsome : definedIndex? statement = some index := by
        simp [definedIndex?, readIndex, hheader, hindex, Except.toOption]
      rw [List.filterMap_cons_some hsome, ih hmore]

def tableStatement? (statement : Text) : Option TableStatement :=
  match readHeader? statement with
  | some (.table header) => some ⟨statement, header⟩
  | _ => none

def tableStatements (statements : List Text) : List TableStatement :=
  statements.filterMap tableStatement?

variable {statements : List Text} {statement : Text} {definition : TableStatement}

theorem tableStatement?_eq_some {header : TableHeading}
    (h : readHeader? statement = some (.table header)) :
    tableStatement? statement = some ⟨statement, header⟩ := by rw [tableStatement?, h]

theorem mem_tableStatements :
    definition ∈ tableStatements statements ↔ definition.statement ∈ statements ∧
      readHeader? definition.statement = some (.table definition.header) := by
  constructor
  · intro h
    obtain ⟨statement, hmem, hstatement⟩ := List.mem_filterMap.mp h
    unfold tableStatement? at hstatement
    split at hstatement
    · rename_i header hheader
      obtain rfl := Option.some.inj hstatement
      exact ⟨hmem, hheader⟩
    · simp at hstatement
  · rintro ⟨hmem, hheader⟩
    exact List.mem_filterMap.mpr ⟨_, hmem, tableStatement?_eq_some hheader⟩

/-- The table statement that gathering gives is the only one. -/
theorem tableStatements_of_gather {table found : Option TableStatement} {indexes : List Index}
    (h : gather table statements = .ok (found, indexes)) :
    table.toList ++ tableStatements statements = found.toList := by
  induction statements generalizing table indexes with
  | nil =>
    obtain ⟨rfl, -⟩ := Prod.mk.inj (Except.ok.inj h)
    simp [tableStatements]
  | cons statement rest ih =>
    rcases gather_cons_cases h with
      ⟨header, hheader, rfl, hrest⟩ | ⟨header, index, more, hheader, -, hmore, -⟩
    · simp [← ih hrest, tableStatements, tableStatement?, hheader]
    · simp [← ih hmore, tableStatements, tableStatement?, hheader]

/-- A list is read into the values of its items, and only where each item can be read. -/
theorem mapM_eq_ok_iff {α β : Type} {read : α → Except Fault β} {items : List α}
    {values : List β} :
    items.mapM read = .ok values ↔
      List.Forall₂ (fun item value => read item = .ok value) items values := by
  induction items generalizing values with
  | nil =>
    rw [List.forall₂_nil_left_iff]
    constructor
    · intro h
      exact (Except.ok.inj h).symm
    · rintro rfl
      rfl
  | cons item rest ih =>
    rw [List.mapM_cons, bind_eq_ok, List.forall₂_cons_left_iff]
    constructor
    · rintro ⟨value, hvalue, h⟩
      obtain ⟨more, hmore, h⟩ := bind_eq_ok.mp h
      obtain rfl := Except.ok.inj h
      exact ⟨value, more, hvalue, ih.mp hmore, rfl⟩
    · rintro ⟨value, more, hvalue, hmore, rfl⟩
      exact ⟨value, hvalue, bind_eq_ok.mpr ⟨more, ih.mpr hmore, rfl⟩⟩

theorem mapM_map {α β γ : Type} (read : α → Except Fault β) (change : β → γ) (items : List α) :
    (items.mapM fun item => (read item).map change) =
      (items.mapM read).map (List.map change) := by
  induction items with
  | nil => rfl
  | cons item rest ih =>
    rw [List.mapM_cons, List.mapM_cons, ih]
    cases read item with
    | error fault => rfl
    | ok value => cases rest.mapM read <;> rfl

/-- What a column was read from. -/
theorem exists_of_readColumn {clause : Text} {column : Column}
    (h : readColumn clause = .ok column) :
    ∃ first rest size, tokensOf clause = first :: rest ∧ (typePart rest).size? = some size ∧
      column =
        describe (bareText first.text) (typePart rest) size (modifiers (typePart rest).rest) := by
  unfold readColumn at h
  cases htokens : tokensOf clause with
  | nil => simp [htokens] at h
  | cons first rest =>
    cases hsize : (typePart rest).size? with
    | none => simp [htokens, hsize] at h
    | some size =>
      simp only [htokens, hsize, Except.ok.injEq] at h
      exact ⟨first, rest, size, rfl, hsize, h.symm⟩

/-- The columns are read clause by clause, and the flags from outside are added at the end. -/
theorem readColumns_eq_ok_iff {clauses : List Text} {indexes : List Index}
    {columns : List Column} :
    readColumns clauses indexes = .ok columns ↔
      ∃ found, (columnClauses clauses).mapM readColumn = .ok found ∧
        found.map (Column.mark (primaryKeys clauses) (uniqueKeys clauses indexes)) = columns := by
  rw [readColumns, mapM_map]
  cases (columnClauses clauses).mapM readColumn <;> simp [Except.map]

/-- What lets a table be written and read again: each part is found where it was put. -/
structure IsWritable (table : Table) : Prop where
  name : IsIdentifier table.name
  clauses : ∀ clause ∈ table.clauses, IsNormal ',' clause
  options : ∀ options ∈ table.options, isBalanced options = true

def IsCurrent (table : Table) : Prop :=
  readColumns table.clauses table.indexes = .ok table.columns

/-- The indexes of a table are those that a batch defines on it, whatever table
statement the batch has. -/
def IsIndexedBy (statements : List Text) (table : Table) : Prop :=
  ∃ indexes, table.indexes = indexes.filter (Index.isOf (bareText table.name)) ∧
    ∀ found, gather (some found) (indexStatements statements) = .ok (some found, indexes)

/-- A table statement with a name and a body is taken apart. -/
theorem draft_eq_ok (found : TableStatement) {name : Text} {group : Parenthesized}
    {clauses : List Text} (hname : found.header.name = some name)
    (hgroup : parenthesized found.header.rest = .ok (some group))
    (hclauses : separateClauses group.body = .ok clauses) (indexes : List Index) :
    found.draft indexes = .ok
      ⟨name, found.header.ifNotExists, clauses, trailingOptions group.tail, indexes⟩ := by
  refine bind_eq_ok.mpr ⟨some group, hgroup, ?_⟩
  simp only [hname]
  exact bind_eq_ok.mpr ⟨clauses, hclauses, rfl⟩

/-- The table statement and the body that a draft is made from. -/
theorem exists_of_readDraft {draft : Draft} (h : readDraft statements = .ok draft) :
    ∃ found group, gather none statements = .ok (some found, draft.indexes) ∧
      found.header.name = some draft.name ∧ found.header.ifNotExists = draft.ifNotExists ∧
      parenthesized found.header.rest = .ok (some group) ∧
      separateClauses group.body = .ok draft.clauses ∧
      trailingOptions group.tail = draft.options := by
  obtain ⟨⟨found, indexes⟩, hgather, hdraft⟩ := bind_eq_ok.mp h
  cases found with
  | none => simp at hdraft
  | some found =>
    obtain ⟨group, hgroup, hdraft⟩ := bind_eq_ok.mp hdraft
    cases group with
    | none => simp at hdraft
    | some group =>
      cases hname : found.header.name with
      | none => simp [hname] at hdraft
      | some name =>
        simp only [hname] at hdraft
        obtain ⟨clauses, hclauses, hdraft⟩ := bind_eq_ok.mp hdraft
        obtain rfl := Except.ok.inj hdraft
        exact ⟨found, group, hgather, hname, rfl, hgroup, hclauses, rfl⟩

/-- The clauses of a table statement are balanced. -/
theorem isBalanced_of_mem_clauses {draft : Draft} (h : readDraft statements = .ok draft)
    {clause : Text} (hclause : clause ∈ draft.clauses) : isBalanced clause = true := by
  obtain ⟨found, group, -, -, -, -, hclauses, -⟩ := exists_of_readDraft h
  exact (separate_eq_ok_iff.mp (isNormal_of_mem isSeparating_comma hclauses hclause)).1

structure IsReadFrom (statements : List Text) (table : Table) (definition : TableStatement)
    (indexes : List Index) (group : Parenthesized) : Prop where
  gathered : gather none statements = .ok (some definition, indexes)
  name : definition.header.name = some table.name
  ifNotExists : definition.header.ifNotExists = table.ifNotExists
  body : parenthesized definition.header.rest = .ok (some group)
  clauses : separateClauses group.body = .ok table.clauses
  columns : IsCurrent table
  options : trailingOptions group.tail = table.options
  indexes : table.indexes = indexes.filter (Index.isOf (bareText table.name))

variable {table : Table}

theorem exists_isReadFrom (h : readTable statements = .ok table) :
    ∃ definition indexes group, IsReadFrom statements table definition indexes group := by
  obtain ⟨draft, hdraft, h⟩ := bind_eq_ok.mp h
  obtain ⟨columns, hcolumns, h⟩ := bind_eq_ok.mp h
  obtain rfl := Except.ok.inj h
  obtain ⟨found, group, hgather, hname, hifNotExists, hgroup, hclauses, hoptions⟩ :=
    exists_of_readDraft hdraft
  exact ⟨found, draft.indexes, group, hgather, hname, hifNotExists, hgroup, hclauses, hcolumns,
    hoptions, rfl⟩

/-- A table is read from the only table statement of the batch. -/
theorem tableStatements_of_isReadFrom {indexes : List Index} {group : Parenthesized}
    (h : IsReadFrom statements table definition indexes group) :
    tableStatements statements = [definition] := tableStatements_of_gather h.gathered

/-- A table that is read has all three properties. -/
theorem properties_of_readTable (h : readTable statements = .ok table) :
    IsWritable table ∧ IsCurrent table ∧ IsIndexedBy statements table := by
  obtain ⟨definition, indexes, group, h⟩ := exists_isReadFrom h
  have hmem : definition ∈ tableStatements statements := by
    simp [tableStatements_of_isReadFrom h]
  obtain ⟨-, hheader⟩ := mem_tableStatements.mp hmem
  refine ⟨⟨isIdentifier_of_readHeader? hheader h.name, ?_, ?_⟩, h.columns,
    ⟨indexes, h.indexes, gather_indexStatements h.gathered⟩⟩
  · intro clause hclause
    exact isNormal_of_mem isSeparating_comma h.clauses hclause
  · intro options hoptions
    have htail : trailingOptions group.tail = some options := by rw [h.options, hoptions]
    exact isBalanced_trailingOptions (isBalanced_tail h.body) htail

end SqliteSchema.Proofs.TableReading
