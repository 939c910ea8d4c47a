import SqliteSchema.Proofs.PieceTokens
import SqliteSchema.Proofs.TableReading

/-!
What a table does not keep of its statement. The header ends with the first name, and
the body is the first group after it, wherever it begins. A text that stands between
the two is passed over, such as the second part of a quoted name with a schema. All
that a table keeps is in the group and behind it, so nothing is lost exactly where that
text is blank.
-/
namespace SqliteSchema.Proofs.StrayTexts

open PlainText Quoting DelimiterScan ClauseSplitting ClauseTokens StatementHeaders
  TableDefinitions BalancedTexts FirstGroups TokenReading BalancedTokens PieceTokens
  NormalPieces TableReading

variable {stray body tail : Text}

/-- The tokens of a text in which no group is opened are no groups. -/
theorem isGroup_of_mem_tokensOf {text : Text} (h : IsGroupless text) :
    ∀ token ∈ tokensOf text, token.isGroup = false := by
  refine forall_mem_tokensOf ?_ h.1 h.2
  intro gap first kind run after hlexes hcells
  cases hlexes with
  | group hfirst body after hbody =>
    subst hfirst
    have hopen := hcells ⟨'(', deepen start⟩ (List.mem_cons_self ..)
    exact absurd hopen (by decide)
  | comma | quoted | word => rfl

/-- A group behind a balanced text is one token. -/
theorem exists_tokensOf_append_group (hstray : isBalanced stray = true)
    (hbody : isBalanced body = true) (tail : Text) :
    ∃ gap, tokensOf (stray ++ '(' :: (body ++ ')' :: tail)) =
      tokensOf stray ++ ⟨gap, .group, '(' :: (body ++ [')'])⟩ :: tokensOf tail := by
  have hbreak : ∀ c ∈ ('(' :: (body ++ ')' :: tail)).head?, isBreak c = true := by
    simp [isBreak]
  obtain ⟨gap, hgap, htokens⟩ := exists_tokensOf_append hstray hbreak
  have hgroup : Lexes '(' .group (body ++ [')']) tail := .group rfl body tail hbody
  have hread := tokensOf_of_lexes hgap (by decide) hgroup
  rw [List.append_assoc, List.singleton_append] at hread
  exact ⟨gap, by rw [htokens, hread]⟩

/-- The text after a name says what the table holds, and nothing else: blanks, then a body
of the table's clauses, then the table's options. -/
def IsWrittenAs (rest : Text) (table : Table) : Prop :=
  ∃ blanks body tail, rest = blanks ++ '(' :: (body ++ ')' :: tail) ∧
    (∀ c ∈ blanks, isBlank c = true) ∧ separateClauses body = .ok table.clauses ∧
    trailingOptions tail = table.options

/-- The text in front of the first group is determined. -/
theorem eq_of_append_group {other inside after : Text} (hstray : IsGroupless stray)
    (hbody : isBalanced body = true) (htail : isBalanced tail = true)
    (hother : IsGroupless other) (hinside : isBalanced inside = true)
    (h : stray ++ '(' :: (body ++ ')' :: tail) = other ++ '(' :: (inside ++ ')' :: after)) :
    stray = other := by
  have hafter : isBalanced after = true := by
    have hwhole := run_append_group hstray.1 hbody tail
    rw [h, run_append_group hother.1 hinside] at hwhole
    rwa [isBalanced, hwhole]
  have hgroup := parenthesized_append_group hstray hbody htail
  rw [h, parenthesized_append_group hother hinside hafter] at hgroup
  obtain ⟨rfl, rfl⟩ := Parenthesized.mk.inj (Option.some.inj (Except.ok.inj hgroup))
  exact List.append_cancel_right h

/-- A table keeps the first group after its name, clause by clause, and what follows it.
The tokens in front of the group are lost, and these are none exactly where the text
after the name says nothing but what the table holds. -/
theorem kept_of_readTable {statements : List Text} {table : Table}
    (h : readTable statements = .ok table) :
    ∃ definition stray gap body tail, tableStatements statements = [definition] ∧
      definition.header.name = some table.name ∧
      definition.header.ifNotExists = table.ifNotExists ∧
      definition.header.rest = stray ++ '(' :: (body ++ ')' :: tail) ∧
      tokensOf definition.header.rest =
        tokensOf stray ++ ⟨gap, .group, '(' :: (body ++ [')'])⟩ :: tokensOf tail ∧
      (∀ token ∈ tokensOf stray, token.isGroup = false) ∧
      separateClauses body = .ok table.clauses ∧
      table.clauses.map (fun clause => (tokensOf clause).map shape) =
        (clauseRuns (tokensOf body)).map (List.map tidyShape) ∧
      trailingOptions tail = table.options ∧
      (IsWrittenAs definition.header.rest table ↔ ∀ c ∈ stray, isBlank c = true) := by
  obtain ⟨definition, indexes, group, h⟩ := exists_isReadFrom h
  obtain ⟨stray, hrest, hstray, hbody, htail⟩ := exists_of_parenthesized h.body
  obtain ⟨gap, htokens⟩ := exists_tokensOf_append_group hstray.1 hbody group.tail
  have hclauses : pieces ',' group.body = table.clauses := (separate_eq_ok_iff.mp h.clauses).2
  have hshapes := map_shape_pieces hbody
  rw [hclauses] at hshapes
  refine ⟨definition, stray, gap, group.body, group.tail, tableStatements_of_isReadFrom h,
    h.name, h.ifNotExists, hrest, by rw [hrest, htokens], isGroup_of_mem_tokensOf hstray,
    h.clauses, hshapes, h.options, ?_⟩
  constructor
  · rintro ⟨blanks, inside, after, hwritten, hblanks, hinside, -⟩
    have hsame : stray = blanks :=
      eq_of_append_group hstray hbody htail (isGroupless_of_blank hblanks)
        (separate_eq_ok_iff.mp hinside).1 (hrest.symm.trans hwritten)
    rwa [hsame]
  · intro hblank
    exact ⟨stray, group.body, group.tail, hrest, hblank, h.clauses, h.options⟩

/-- A quoted name with a schema, whose second part is no part of the name. -/
def qualifiedBatch : List Text := ["CREATE TABLE \"main\".\"users\" (id int)".toList]

def qualifiedTable : Table where
  name := "\"main\"".toList
  ifNotExists := false
  clauses := ["id int".toList]
  columns := [
    ⟨"id".toList, "int".toList, "int".toList, .unsized, none, true, false, false, false, false⟩]
  options := none
  indexes := []

theorem kept_qualifiedTable :
    readTable qualifiedBatch = .ok qualifiedTable ∧
    ∃ definition stray gap body tail, tableStatements qualifiedBatch = [definition] ∧
      definition.header.name = some qualifiedTable.name ∧
      definition.header.ifNotExists = qualifiedTable.ifNotExists ∧
      definition.header.rest = stray ++ '(' :: (body ++ ')' :: tail) ∧
      tokensOf definition.header.rest =
        tokensOf stray ++ ⟨gap, .group, '(' :: (body ++ [')'])⟩ :: tokensOf tail ∧
      (∀ token ∈ tokensOf stray, token.isGroup = false) ∧
      separateClauses body = .ok qualifiedTable.clauses ∧
      qualifiedTable.clauses.map (fun clause => (tokensOf clause).map shape) =
        (clauseRuns (tokensOf body)).map (List.map tidyShape) ∧
      trailingOptions tail = qualifiedTable.options ∧
      (IsWrittenAs definition.header.rest qualifiedTable ↔ ∀ c ∈ stray, isBlank c = true) := by
  have hread : readTable qualifiedBatch = .ok qualifiedTable :=
    eq_ok_of_toOption (by decide +kernel)
  exact ⟨hread, kept_of_readTable hread⟩

/-- The table is written again under the name of its schema: what was between the first
name and the body is gone. -/
theorem not_isWrittenAs_qualifiedTable :
    readTable qualifiedBatch = .ok qualifiedTable ∧
      qualifiedTable.statement = "CREATE TABLE \"main\" (id int)".toList ∧
      (tableStatements qualifiedBatch).map (fun definition => definition.header.rest) =
        [".\"users\" (id int)".toList] ∧
      ¬ IsWrittenAs ".\"users\" (id int)".toList qualifiedTable := by
  have hread : readTable qualifiedBatch = .ok qualifiedTable :=
    eq_ok_of_toOption (by decide +kernel)
  refine ⟨hread, by decide +kernel, by decide +kernel, ?_⟩
  rintro ⟨blanks, body, tail, hrest, hblanks, -⟩
  cases blanks with
  | nil => exact absurd (List.cons.inj hrest).1 (by decide)
  | cons first rest =>
    have hfirst := hblanks first (List.mem_cons_self ..)
    rw [← (List.cons.inj hrest).1] at hfirst
    exact absurd hfirst (by decide)

end SqliteSchema.Proofs.StrayTexts
