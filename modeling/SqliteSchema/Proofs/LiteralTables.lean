import SqliteSchema.SchemaDumps
import SqliteSchema.Proofs.Passages
import SqliteSchema.Proofs.StatementRoundTrip
import SqliteSchema.Proofs.TokenReading

/-!
Tables written out with arbitrary names and default values. Names stand in
backticks and values in single quotes, each with its mark doubled inside, so no
character in them is taken for a comment, a separator, a parenthesis or the end
of a run, and every reader in turn gives them back.
-/
namespace SqliteSchema.Proofs.LiteralTables

open PlainText Quoting ClauseSplitting ClauseTokens TableConstraints ColumnModifiers
  ColumnDefinitions IndexDefinitions TableDefinitions SchemaDumps BalancedTexts SqueezedPieces
  NormalPieces QuotedRuns TableReading StatementRoundTrip Passages TokenReading

def literalClause (name value : Text) : Text :=
  backticked name ++ " text DEFAULT \x27".toList ++ double '\x27' value ++ ['\x27']

def literalSource (name : Text) (pairs : List (Text × Text)) : Text :=
  "CREATE TABLE ".toList ++ backticked name ++ " (".toList ++
    ", ".toList.intercalate (pairs.map fun pair => literalClause pair.1 pair.2) ++ ");".toList

theorem literalClause_eq (name value : Text) :
    literalClause name value =
      quotedBy '\x60' name ++ ' ' :: ("text".toList ++ ' ' ::
        ("DEFAULT".toList ++ ' ' :: quotedBy '\x27' value)) := by
  have hwords : " text DEFAULT \x27".toList =
      ' ' :: ("text".toList ++ ' ' :: ("DEFAULT".toList ++ [' ', '\x27'])) := rfl
  rw [literalClause, hwords, backticked_eq_quotedBy]
  generalize "text".toList = word
  generalize "DEFAULT".toList = keyword
  simp [quotedBy]

variable {avoided : Char}

theorem isPassage_literalClause (havoided : avoided.isAlpha = false) (hspace : ' ' ≠ avoided)
    (name value : Text) : IsPassage avoided (literalClause name value) := by
  have htext : IsPassage avoided "text".toList := isPassage_letters havoided (by decide) rfl
  have hdefault : IsPassage avoided "DEFAULT".toList :=
    isPassage_letters havoided (by decide) rfl
  have hname : IsPassage avoided (quotedBy '\x60' name) :=
    isPassage_quotedBy isQuoteMark_backtick name
  have hvalue : IsPassage avoided (quotedBy '\x27' value) :=
    isPassage_quotedBy isQuoteMark_single value
  rw [literalClause_eq]
  exact isPassage_append_space hname (isPassage_append_space htext
    (isPassage_append_space hdefault hvalue hspace) hspace) hspace

def literalTable (name : Text) (pairs : List (Text × Text)) : Table :=
  Table.ofClauses (backticked name) (pairs.map fun pair => literalClause pair.1 pair.2)

theorem literalSource_eq (name : Text) (pairs : List (Text × Text)) :
    literalSource name pairs = (literalTable name pairs).statement ++ [';'] := by
  have hclose : ");".toList = [')', ';'] := rfl
  unfold literalSource Table.statement literalTable Table.ofClauses
  rw [hclose]
  generalize "CREATE TABLE ".toList = keywords
  generalize " (".toList = opening
  generalize ", ".toList = comma
  simp

/-- What the statement puts around names and values is letters, spaces, commas and parentheses;
any other character is quoted. -/
theorem isPassage_literalStatement (havoided : avoided.isAlpha = false)
    (hneutral : avoided ∉ [' ', ',', '(', ')']) (name : Text) (pairs : List (Text × Text)) :
    IsPassage avoided (literalTable name pairs).statement := by
  simp only [List.mem_cons, List.not_mem_nil, or_false, not_or] at hneutral
  obtain ⟨hspace, hcomma, hopen, hclose⟩ := hneutral
  have hcreate : IsPassage avoided "CREATE".toList := isPassage_letters havoided (by decide) rfl
  have htable : IsPassage avoided "TABLE".toList := isPassage_letters havoided (by decide) rfl
  have hbody : writtenBody (literalTable name pairs).clauses = [] ∨
      IsPassage avoided (writtenBody (literalTable name pairs).clauses) := by
    cases pairs with
    | nil => exact .inl rfl
    | cons pair rest =>
      refine .inr (isPassage_intercalate ?_ (List.cons_ne_nil _ _) (Ne.symm hcomma)
        (Ne.symm hspace))
      intro part hpart
      obtain ⟨one, -, rfl⟩ := List.mem_map.mp hpart
      exact isPassage_literalClause havoided (Ne.symm hspace) one.1 one.2
  have hgroup := isPassage_group hbody (Ne.symm hopen) (Ne.symm hclose)
  have hname : IsPassage avoided (literalTable name pairs).name :=
    isPassage_quotedBy isQuoteMark_backtick name
  have hstatement := isPassage_append_space hcreate (isPassage_append_space htable
    (isPassage_append_space hname hgroup (Ne.symm hspace)) (Ne.symm hspace)) (Ne.symm hspace)
  have hwords : "CREATE TABLE ".toList = "CREATE".toList ++ ' ' :: ("TABLE".toList ++ [' ']) := rfl
  have hguard : (literalTable name pairs).ifNotExists = false := rfl
  have hoptions : writtenOptions (literalTable name pairs).options = [] := rfl
  rw [statement_eq, hwords, hguard, hoptions]
  simpa using hstatement

theorem isWritable_literalTable (name : Text) (pairs : List (Text × Text)) :
    IsWritable (literalTable name pairs) := by
  refine ⟨.backticked name, ?_, by simp [literalTable, Table.ofClauses]⟩
  intro clause hclause
  obtain ⟨pair, -, rfl⟩ := List.mem_map.mp hclause
  exact isNormal_of_isPassage (isPassage_literalClause (by decide) (by decide) pair.1 pair.2)

/-- No comment is found in the source and it is one statement. -/
theorem dumpStatements_literalSource (name : Text) (pairs : List (Text × Text)) :
    dumpStatements (literalSource name pairs) = .ok [(literalTable name pairs).statement] := by
  have hsource : IsPassage '-' (literalSource name pairs) := by
    rw [literalSource_eq]
    exact isPassage_snoc (isPassage_literalStatement (by decide) (by decide) name pairs)
      ⟨by decide, by decide, by decide⟩
  have hstatement : IsNormal ';' (literalTable name pairs).statement :=
    isNormal_of_isPassage (isPassage_literalStatement (by decide) (by decide) name pairs)
  rw [dumpStatements, withoutComments_of_isPassage hsource, literalSource_eq]
  exact separate_append_cons isSeparating_semicolon hstatement
    (show separate ';' [] = .ok [] from rfl)

def typeToken : Token := ⟨[' '], .word, "text".toList⟩

def keywordToken : Token := ⟨[' '], .word, "DEFAULT".toList⟩

def nameToken (name : Text) : Token := ⟨[], .quoted, quotedBy '\x60' name⟩

def valueToken (value : Text) : Token := ⟨[' '], .quoted, quotedBy '\x27' value⟩

/-- A clause has four tokens, whatever its name and its value hold. -/
theorem tokensOf_literalClause (name value : Text) :
    tokensOf (literalClause name value) =
      [nameToken name, typeToken, keywordToken, valueToken value] := by
  have hblank : ∀ c ∈ [' '], isBlank c = true := by simp [isBlank_space]
  have hvalue : tokensOf ([' '] ++ (quotedBy '\x27' value ++ [])) =
      valueToken value :: tokensOf [] :=
    tokensOf_quotedBy hblank isQuoteMark_single value (by simp)
  have hdefault : ∀ rest, tokensOf ([' '] ++ ("DEFAULT".toList ++ ' ' :: rest)) =
      keywordToken :: tokensOf (' ' :: rest) := fun rest =>
    tokensOf_word hblank (by decide) (List.all_eq_true.mp rfl) rfl
  have htext : ∀ rest, tokensOf ([' '] ++ ("text".toList ++ ' ' :: rest)) =
      typeToken :: tokensOf (' ' :: rest) := fun rest =>
    tokensOf_word hblank (by decide) (List.all_eq_true.mp rfl) rfl
  have hname : ∀ rest, tokensOf ([] ++ (quotedBy '\x60' name ++ ' ' :: rest)) =
      nameToken name :: tokensOf (' ' :: rest) := fun rest =>
    tokensOf_quotedBy (by simp) isQuoteMark_backtick name (by simp)
  rw [List.append_nil, tokensOf_nil] at hvalue
  rw [literalClause_eq]
  calc
    _ = nameToken name :: tokensOf _ := hname _
    _ = nameToken name :: typeToken :: tokensOf _ := congrArg _ (htext _)
    _ = nameToken name :: typeToken :: keywordToken :: tokensOf _ :=
      congrArg _ (congrArg _ (hdefault _))
    _ = _ := congrArg _ (congrArg _ (congrArg _ hvalue))

theorem isReserved_valueToken (value : Text) : isReserved (valueToken value) = false := rfl

theorem spells_nameToken (keyword : String) (name : Text) :
    (nameToken name).spells keyword = false := rfl

theorem typePart_literal (value : Text) :
    typePart [typeToken, keywordToken, valueToken value] =
      ⟨[typeToken], none, [keywordToken, valueToken value]⟩ := by
  have htype : isReserved typeToken = false := rfl
  have hkeyword : isReserved keywordToken = true := rfl
  have hword : (typeToken.kind == .word) = true := rfl
  have hgroup : keywordToken.isGroup = false := rfl
  simp [typePart, htype, hkeyword, hword, hgroup]

theorem opensGenerated_keywordToken (rest : List Token) :
    opensGenerated keywordToken rest = false := by
  have hgenerated : keywordToken.spells "GENERATED" = false := rfl
  have has : keywordToken.spells "AS" = false := rfl
  simp [opensGenerated, hgenerated, has]

theorem modifiers_literal (value : Text) :
    modifiers [keywordToken, valueToken value] = [.defaultValue value] := by
  have hdefault : keywordToken.spells "DEFAULT" = true := rfl
  obtain ⟨hnot, hprimary, hunique, hauto, hconstraint⟩ :
      keywordToken.spells "NOT" = false ∧ keywordToken.spells "PRIMARY" = false ∧
        keywordToken.spells "UNIQUE" = false ∧ keywordToken.spells "AUTOINCREMENT" = false ∧
        keywordToken.spells "CONSTRAINT" = false :=
    ⟨rfl, rfl, rfl, rfl, rfl⟩
  have htokens : defaultTokens [valueToken value] = [valueToken value] := by
    simp [defaultTokens, isReserved_valueToken]
  have hbare : bareValue (slice [valueToken value]) = value := by
    simpa [slice, valueToken] using bareValue_quotedBy isQuoteMark_single value
  rw [modifiers, modifiersAfter]
  simp [hnot, hprimary, hunique, hauto, hconstraint, hdefault, htokens, hbare,
    opensGenerated_keywordToken, modifiersAfter]

def literalColumn (name value : Text) : Column :=
  describe name ⟨[typeToken], none, [keywordToken, valueToken value]⟩ .unsized
    [.defaultValue value]

theorem readColumn_literalClause (name value : Text) :
    readColumn (literalClause name value) = .ok (literalColumn name value) := by
  have hname : bareText (nameToken name).text = name :=
    bareText_quotedBy isQuoteMark_backtick name
  rw [readColumn, tokensOf_literalClause]
  simp only [typePart_literal, TypePart.size?, modifiers_literal, hname]
  rfl

theorem writableName?_literalClause (name value : Text) :
    writableName? (literalClause name value) = some name := by
  have hname : bareText (nameToken name).text = name :=
    bareText_quotedBy isQuoteMark_backtick name
  have htype : ∀ rest, opensGenerated typeToken rest = false := by
    have hgenerated : typeToken.spells "GENERATED" = false := rfl
    have has : typeToken.spells "AS" = false := rfl
    simp [opensGenerated, hgenerated, has]
  have hvalue : opensGenerated (valueToken value) [] = false := rfl
  have hgenerated : mentionsGenerated [typeToken, keywordToken, valueToken value] = false := by
    simp [mentionsGenerated, htype, opensGenerated_keywordToken, hvalue]
  rw [writableName?, tokensOf_literalClause]
  simp only [hgenerated, hname]
  rfl

theorem isColumn_literalClause (name value : Text) :
    (readClause (literalClause name value)).isColumn = true := by
  rw [readClause, tokensOf_literalClause]
  simp [clauseOfTokens, constraintKind?, spells_nameToken, Clause.isColumn]

theorem columnClauses_literalTable (name : Text) (pairs : List (Text × Text)) :
    columnClauses (literalTable name pairs).clauses = (literalTable name pairs).clauses := by
  refine List.filter_eq_self.mpr ?_
  intro clause hclause
  obtain ⟨pair, -, rfl⟩ := List.mem_map.mp hclause
  exact isColumn_literalClause pair.1 pair.2

theorem mapM_literalClause (pairs : List (Text × Text)) :
    (pairs.map fun pair => literalClause pair.1 pair.2).mapM readColumn =
      .ok (pairs.map fun pair => literalColumn pair.1 pair.2) := by
  rw [mapM_eq_ok_iff, List.forall₂_map_left_iff, List.forall₂_map_right_iff, List.forall₂_same]
  intro pair _
  exact readColumn_literalClause pair.1 pair.2

theorem exists_readColumns_literalTable (name : Text) (pairs : List (Text × Text))
    (indexes : List Index) :
    ∃ columns, readColumns (literalTable name pairs).clauses indexes = .ok columns ∧
      columns.map (fun column => (column.name, column.defaultValue)) =
        pairs.map fun pair => (pair.1, some pair.2) := by
  have hfound : (columnClauses (literalTable name pairs).clauses).mapM readColumn =
      .ok (pairs.map fun pair => literalColumn pair.1 pair.2) := by
    rw [columnClauses_literalTable]
    exact mapM_literalClause pairs
  refine ⟨_, readColumns_eq_ok_iff.mpr ⟨_, hfound, rfl⟩, ?_⟩
  rw [List.map_map, List.map_map]
  rfl

theorem writableColumns_literalTable (name : Text) (pairs : List (Text × Text)) :
    (literalTable name pairs).writableColumns = pairs.map fun pair => backticked pair.1 := by
  rw [Table.writableColumns, columnClauses_literalTable]
  simp [literalTable, Table.ofClauses, List.filterMap_map, Function.comp_def,
    writableName?_literalClause]

/-- Every name and every default value comes back from the source, whatever
characters it holds: the source is one statement, the statement is read, and the
columns have the names and values that were written, in their order. -/
theorem readTable_literalSource (name : Text) (pairs : List (Text × Text)) :
    ∃ statement table, dumpStatements (literalSource name pairs) = .ok [statement] ∧
      readTable [statement] = .ok table ∧
      table.name = backticked name ∧
      table.columns.map (fun column => (column.name, column.defaultValue)) =
        pairs.map (fun pair => (pair.1, some pair.2)) ∧
      table.writableColumns = pairs.map fun pair => backticked pair.1 := by
  have hindexes : IsIndexedBy [] (literalTable name pairs) := ⟨[], rfl, fun _ => rfl⟩
  obtain ⟨columns, hcolumns, hpairs⟩ := exists_readColumns_literalTable name pairs []
  obtain ⟨options, hread⟩ :=
    readTable_again (isWritable_literalTable name pairs) hindexes hcolumns
  exact ⟨_, _, dumpStatements_literalSource name pairs, hread, rfl, hpairs,
    writableColumns_literalTable name pairs⟩

end SqliteSchema.Proofs.LiteralTables
