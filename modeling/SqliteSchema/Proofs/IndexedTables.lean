import SqliteSchema.Proofs.Passages
import SqliteSchema.Proofs.StatementRoundTrip
import SqliteSchema.Proofs.TokenReading

/-!
A table of one column and a unique index over a column of that name. The names of the
table, of the column and of what the index is on are arbitrary texts, each quoted in one
of two styles of its own. Every reader undoes the quoting, so the index belongs to the
table exactly where the names are the same but for the case of their letters, and then it
makes the column unique, in whatever order the two statements come.
-/
namespace SqliteSchema.Proofs.IndexedTables

open PlainText Quoting DelimiterScan Faults ClauseSplitting ClauseTokens StatementHeaders
  TableConstraints ColumnModifiers ColumnDefinitions IndexDefinitions TableDefinitions
  BalancedTexts SqueezedPieces NormalPieces QuotedRuns HeaderNames FirstGroups TableReading
  StatementRoundTrip Passages TokenReading

inductive NameQuote where
  | backtick
  | doubleQuote

def NameQuote.mark : NameQuote → Char
  | .backtick => '\x60'
  | .doubleQuote => '\x22'

def NameQuote.quoted (quote : NameQuote) (name : Text) : Text := quotedBy quote.mark name

def tableSource (tableQuote columnQuote : NameQuote) (table column : Text) : Text :=
  "CREATE TABLE ".toList ++ tableQuote.quoted table ++ " (".toList ++
    columnQuote.quoted column ++ " int)".toList

def indexSource (tableQuote columnQuote : NameQuote) (table column : Text) : Text :=
  "CREATE UNIQUE INDEX i ON ".toList ++ tableQuote.quoted table ++ " (".toList ++
    columnQuote.quoted column ++ [')']

def inOrder (indexFirst : Bool) (table index : Text) : List Text :=
  if indexFirst then [index, table] else [table, index]

variable (quote tableQuote columnQuote : NameQuote) (name table column : Text)

theorem isQuoteMark_mark : IsQuoteMark quote.mark := by cases quote <;> rfl

theorem isIdentifier_quoted : IsIdentifier (quote.quoted name) := by
  cases quote with
  | backtick => exact .backticked name
  | doubleQuote => exact .doubleQuoted name

theorem bareText_quoted : bareText (quote.quoted name) = name :=
  bareText_quotedBy (isQuoteMark_mark quote) name

theorem isNormal_quoted : IsNormal ',' (quote.quoted name) :=
  isNormal_of_isPassage (isPassage_quotedBy (isQuoteMark_mark quote) name)

theorem tokensOf_quoted : tokensOf (quote.quoted name) = [⟨[], .quoted, quote.quoted name⟩] :=
  tokensOf_quotedBy_alone (isQuoteMark_mark quote) name

/-- The header of a unique index is read whatever the two names are. -/
theorem readHeader?_uniqueIndex {name table rest : Text} (hname : IsIdentifier name)
    (htable : IsIdentifier table) (hrest : EndsName rest) :
    readHeader? ("CREATE UNIQUE INDEX ".toList ++ (name ++ ' ' :: ("ON ".toList ++
        (table ++ rest)))) =
      some (.index ⟨name, table, true, rest⟩) := by
  have hspace : isHeaderSpace ' ' = true := rfl
  have hcreate : ∀ text, keyword? "CREATE" ("CREATE UNIQUE INDEX ".toList ++ text) =
      some (' ' :: ("UNIQUE INDEX ".toList ++ text)) :=
    fun text => keyword?_space_append "CREATE" rfl rfl _
  have hnotTable : ∀ text, keyword? "TABLE" (' ' :: ("UNIQUE INDEX ".toList ++ text)) = none := by
    intro text
    rw [keyword?_cons hspace]
    exact keyword?_eq_none 'T' rfl rfl (by decide) _
  have hunique : ∀ text, keyword? "UNIQUE" (' ' :: ("UNIQUE INDEX ".toList ++ text)) =
      some (' ' :: ("INDEX ".toList ++ text)) := by
    intro text
    rw [keyword?_cons hspace]
    exact keyword?_space_append "UNIQUE" rfl rfl _
  have hindex : ∀ text, keyword? "INDEX" (' ' :: ("INDEX ".toList ++ text)) =
      some (' ' :: text) := by
    intro text
    rw [keyword?_cons hspace]
    exact keyword?_space_append "INDEX" rfl rfl _
  have hon : ∀ text, keyword? "ON" (' ' :: ("ON ".toList ++ text)) = some (' ' :: text) := by
    intro text
    rw [keyword?_cons hspace]
    exact keyword?_space_append "ON" rfl rfl _
  have hnot : ∀ text, keyword? "NOT" (' ' :: ("ON ".toList ++ text)) = none := by
    intro text
    rw [keyword?_cons hspace]
    exact keyword?_eq_none 'N' rfl rfl (by decide) _
  have hplain : ∀ text, ifNotExists? (' ' :: (name ++ ' ' :: ("ON ".toList ++ text))) = none := by
    intro text
    rw [ifNotExists?_cons hspace, ifNotExists?_identifier hname (endsName_cons_space _) (hnot text)]
  have hsecond : identifier? (' ' :: (table ++ rest)) = some (table, rest) := by
    rw [identifier?_cons hspace, identifier?_append htable hrest]
  have hfirst : ∀ text, identifier? (' ' :: (name ++ ' ' :: text)) =
      some (name, ' ' :: text) := by
    intro text
    rw [identifier?_cons hspace, identifier?_append hname (endsName_cons_space _)]
  rw [readHeader?, tableHeader?, hcreate, Option.bind_eq_bind, Option.bind_some, hnotTable,
    Option.bind_none, indexHeader?, hcreate, Option.bind_eq_bind, Option.bind_some]
  simp only [hunique, skipOptional, Option.getD_some, Option.bind_eq_bind, hindex,
    Option.bind_some, hplain, Option.getD_none, hfirst, hon, hsecond, Option.isSome_some]
  rfl

def indexHeading : IndexHeading where
  name := ['i']
  table := tableQuote.quoted table
  isUnique := true
  rest := ' ' :: '(' :: (columnQuote.quoted column ++ [')'])

def uniqueIndex (table column : Text) : Index := ⟨['i'], table, true, [column], false⟩

/-- The source of an index is its header and the group of its one column. -/
theorem indexSource_eq :
    indexSource tableQuote columnQuote table column =
      "CREATE UNIQUE INDEX ".toList ++ (['i'] ++ ' ' :: ("ON ".toList ++
        (tableQuote.quoted table ++ (indexHeading tableQuote columnQuote table column).rest))) := by
  have hwords : "CREATE UNIQUE INDEX i ON ".toList =
      "CREATE UNIQUE INDEX ".toList ++ ('i' :: ' ' :: "ON ".toList) := by decide
  have hopen : " (".toList = [' ', '('] := rfl
  unfold indexSource indexHeading
  rw [hwords, hopen]
  generalize "CREATE UNIQUE INDEX ".toList = keywords
  generalize "ON ".toList = preposition
  simp

theorem readHeader?_indexSource :
    readHeader? (indexSource tableQuote columnQuote table column) =
      some (.index (indexHeading tableQuote columnQuote table column)) := by
  have hname : IsIdentifier ['i'] :=
    .bare 'i' [] (List.forall_mem_singleton.mpr (by decide +kernel))
  rw [indexSource_eq]
  exact readHeader?_uniqueIndex hname (isIdentifier_quoted tableQuote table)
    (endsName_cons_space _)

theorem entryColumn_quoted : entryColumn (quote.quoted name) = name := by
  simp [entryColumn, tokensOf_quoted, bareText_quoted]

theorem readBody_indexHeading (statement : Text) :
    readBody statement (indexHeading tableQuote columnQuote table column) =
      .ok (uniqueIndex table column) := by
  have hclauses := isNormal_quoted columnQuote column
  have hgroup : parenthesized (indexHeading tableQuote columnQuote table column).rest = _ :=
    parenthesized_group (separate_eq_ok_iff.mp hclauses).1 (show isBalanced [] = true from rfl)
  rw [readBody, hgroup]
  refine bind_eq_ok.mpr ⟨_, rfl, bind_eq_ok.mpr ⟨_, hclauses, ?_⟩⟩
  simp only [indexHeading, bareText_quoted, List.map_cons, List.map_nil, entryColumn_quoted,
    tokensOf_nil]
  rfl

def columnClause (quote : NameQuote) (name : Text) : Text :=
  quote.quoted name ++ ' ' :: "int".toList

def plainTable : Table :=
  Table.ofClauses (tableQuote.quoted table) [columnClause columnQuote column]

theorem tableSource_eq :
    tableSource tableQuote columnQuote table column =
      (plainTable tableQuote columnQuote table column).statement := by
  have hint : " int)".toList = ' ' :: ("int".toList ++ [')']) := rfl
  unfold tableSource Table.statement plainTable Table.ofClauses columnClause
  rw [hint]
  generalize "CREATE TABLE ".toList = keywords
  generalize " (".toList = opening
  generalize ", ".toList = comma
  generalize "int".toList = word
  simp

theorem isWritable_plainTable : IsWritable (plainTable tableQuote columnQuote table column) := by
  have hint : IsPassage ',' "int".toList := isPassage_letters (by decide) (by decide) rfl
  refine ⟨isIdentifier_quoted tableQuote table, ?_, by simp [plainTable, Table.ofClauses]⟩
  intro clause hclause
  obtain rfl : clause = columnClause columnQuote column := List.mem_singleton.mp hclause
  exact isNormal_of_isPassage (isPassage_append_space
    (isPassage_quotedBy (isQuoteMark_mark columnQuote) column) hint (by decide))

def typeToken : Token := ⟨[' '], .word, "int".toList⟩

theorem tokensOf_columnClause :
    tokensOf (columnClause quote name) = [⟨[], .quoted, quote.quoted name⟩, typeToken] := by
  have hmark : ' ' ≠ quote.mark := by cases quote <;> decide
  have htype : tokensOf ([' '] ++ ("int".toList ++ [])) = typeToken :: tokensOf [] :=
    tokensOf_word (List.forall_mem_singleton.mpr (by decide)) (by decide)
      (List.all_eq_true.mp rfl) rfl
  have htokens : tokensOf ([] ++ (quote.quoted name ++ ' ' :: "int".toList)) = _ :=
    tokensOf_quotedBy (by simp) (isQuoteMark_mark quote) name (by simpa using hmark)
  rw [List.append_nil, tokensOf_nil] at htype
  exact htokens.trans (congrArg _ htype)

def plainColumn (name : Text) : Column where
  name := name
  dataType := "int".toList
  columnType := "int".toList
  size := .unsized
  defaultValue := none
  isNullable := true
  isPrimaryKey := false
  isUnique := false
  isAutoIncrement := false
  isGenerated := false

theorem readColumn_columnClause :
    readColumn (columnClause quote name) = .ok (plainColumn name) := by
  have hpart : typePart [typeToken] = ⟨[typeToken], none, []⟩ := by decide +kernel
  rw [readColumn, tokensOf_columnClause]
  simp only [hpart, TypePart.size?, bareText_quoted, modifiers, modifiersAfter]
  rfl

theorem readClause_columnClause : readClause (columnClause quote name) = .column := by
  have hspells : ∀ keyword, Token.spells keyword ⟨[], .quoted, quote.quoted name⟩ = false :=
    fun _ => rfl
  rw [readClause, tokensOf_columnClause]
  simp [clauseOfTokens, constraintKind?, hspells]

/-- The only clause is a column, which the indexes on the table make unique or not. -/
theorem readColumns_plainTable (indexes : List Index) :
    readColumns (plainTable tableQuote columnQuote table column).clauses indexes =
      .ok [{ plainColumn column with
        isUnique := (indexes.filterMap Index.soleUniqueColumn?).map LetterCase.lower
          |>.contains (LetterCase.lower column) }] := by
  have hcolumn : columnClauses [columnClause columnQuote column] =
      [columnClause columnQuote column] := by
    simp [columnClauses, readClause_columnClause, Clause.isColumn]
  have hconstraints : constraints [columnClause columnQuote column] = [] := by
    simp [constraints, readClause_columnClause, Clause.constraint?]
  refine readColumns_eq_ok_iff.mpr ⟨[plainColumn column], ?_, ?_⟩
  · change (columnClauses [columnClause columnQuote column]).mapM readColumn = _
    rw [hcolumn, List.mapM_cons, readColumn_columnClause]
    rfl
  · simp [plainTable, Table.ofClauses, primaryKeys, uniqueKeys, hconstraints, Column.mark,
      Column.key, plainColumn]

/-- In either order the statements give the table statement and the index. -/
theorem gather_inOrder (otherQuote entryQuote : NameQuote) (indexFirst : Bool) (other : Text) :
    gather none (inOrder indexFirst (tableSource tableQuote columnQuote table column)
        (indexSource otherQuote entryQuote other column)) =
      .ok (some ⟨(plainTable tableQuote columnQuote table column).statement,
          writtenHeading (plainTable tableQuote columnQuote table column)⟩,
        [uniqueIndex other column]) := by
  have htable := readHeader?_statement (isWritable_plainTable tableQuote columnQuote table column)
  have hindex := readHeader?_indexSource otherQuote entryQuote other column
  have hbody := readBody_indexHeading otherQuote entryQuote other column
    (indexSource otherQuote entryQuote other column)
  rw [tableSource_eq]
  cases indexFirst with
  | false =>
    rw [inOrder, if_neg (by simp), gather, htable]
    simp only [gather, hindex, hbody]
    rfl
  | true =>
    rw [inOrder, if_pos rfl, gather, hindex]
    simp only [gather, htable, hbody]
    rfl

theorem filter_uniqueIndex (table column other : Text) :
    [uniqueIndex other column].filter (Index.isOf table) =
      if sameLetters other table then [uniqueIndex other column] else [] := by
  cases hsame : sameLetters other table <;> simp [Index.isOf, uniqueIndex, hsame]

theorem readColumns_filter_uniqueIndex (other : Text) :
    readColumns (plainTable tableQuote columnQuote table column).clauses
        ([uniqueIndex other column].filter (Index.isOf table)) =
      .ok [{ plainColumn column with isUnique := sameLetters other table }] := by
  rw [readColumns_plainTable, filter_uniqueIndex]
  cases hsame : sameLetters other table <;> simp [uniqueIndex, Index.soleUniqueColumn?]

/-- A table and a unique index over its column are read together, whatever the names and
their quotes and in either order. Where the index is on the name of the table, in letters
of either case, it is kept and makes the column unique; on any other name it is not kept
and the column is not unique. -/
theorem readTable_inOrder (tableQuote columnQuote otherQuote entryQuote : NameQuote)
    (indexFirst : Bool) (table column other : Text) :
    ∃ found, readTable (inOrder indexFirst (tableSource tableQuote columnQuote table column)
        (indexSource otherQuote entryQuote other column)) = .ok found ∧
      found.name = tableQuote.quoted table ∧
      found.columns = [{ plainColumn column with isUnique := sameLetters other table }] ∧
      found.indexes = if sameLetters other table then [uniqueIndex other column] else [] := by
  have hwritable := isWritable_plainTable tableQuote columnQuote table column
  have hgather := gather_inOrder tableQuote columnQuote table column otherQuote entryQuote
    indexFirst other
  have hkept : Draft.keptIndexes ⟨(plainTable tableQuote columnQuote table column).name, false,
      (plainTable tableQuote columnQuote table column).clauses, none,
      [uniqueIndex other column]⟩ = [uniqueIndex other column].filter (Index.isOf table) := by
    change [uniqueIndex other column].filter (Index.isOf (bareText (tableQuote.quoted table))) = _
    rw [bareText_quoted]
  rw [readTable_of_gather_statement hwritable hgather]
  refine ⟨_, bind_eq_ok.mpr ⟨_, ?_, rfl⟩, rfl, rfl, hkept.trans (filter_uniqueIndex _ _ _)⟩
  exact (congrArg (readColumns _) hkept).trans
    (readColumns_filter_uniqueIndex tableQuote columnQuote table column other)

end SqliteSchema.Proofs.IndexedTables
