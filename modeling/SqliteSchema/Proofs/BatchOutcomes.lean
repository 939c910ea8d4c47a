import SqliteSchema.Proofs.StatementBodies

/-!
What comes of a batch of statements. It is accepted exactly where each statement has a
header and a body, one of them is a table statement with a name, and its columns have
sizes that can be read. Otherwise the fault is that of the earliest statement that
cannot be taken, or else the first that the table statement has. Faults that only a
body taken out of its statement could have are never met.
-/
namespace SqliteSchema.Proofs.BatchOutcomes

open PlainText Quoting Faults ClauseSplitting ClauseTokens StatementHeaders ColumnDefinitions
  IndexDefinitions TableDefinitions FirstGroups TableReading StatementBodies

/-- Why a statement cannot be taken after others. -/
inductive Stops (before : List Text) (statement : Text) : Fault → Prop
  | unknown (h : readHeader? statement = none) :
      Stops before statement (.unknownStatement statement)
  | secondTable {header : TableHeading} (h : readHeader? statement = some (.table header))
      (hbefore : tableStatements before ≠ []) : Stops before statement .manyTables
  | index {header : IndexHeading} {fault : Fault}
      (h : readHeader? statement = some (.index header))
      (hbody : LacksBody statement header.rest fault) : Stops before statement fault

def IsAdmitted (statements : List Text) : Prop :=
  ∀ before statement after fault, statements = before ++ statement :: after →
    ¬ Stops before statement fault

variable {table found : Option TableStatement} {statements before after : List Text}
  {statement : Text} {indexes : List Index} {fault : Fault}

/-- Statements are gathered from the left. -/
theorem gather_append (h : gather table before = .ok (found, indexes)) (after : List Text) :
    gather table (before ++ after) =
      (gather found after).map fun part => (part.1, indexes ++ part.2) := by
  induction before generalizing table indexes with
  | nil =>
    obtain ⟨rfl, rfl⟩ := Prod.mk.inj (Except.ok.inj h)
    cases hafter : gather table after <;> simp [hafter, Except.map]
  | cons statement rest ih =>
    rw [List.cons_append, gather]
    rcases gather_cons_cases h with
      ⟨header, hheader, rfl, hrest⟩ | ⟨header, index, more, hheader, hindex, hmore, rfl⟩
    · rw [hheader]
      exact ih hrest
    · simp only [hheader, hindex, ih hmore]
      cases gather found after <;> rfl

/-- A statement that cannot be taken ends the reading. -/
theorem gather_of_stops (htable : table.toList = tableStatements before)
    (h : Stops before statement fault) (after : List Text) :
    gather table (statement :: after) = .error fault := by
  rw [gather]
  cases h with
  | unknown h => rw [h]
  | secondTable h hbefore =>
    rw [h]
    cases table with
    | none => exact absurd htable.symm hbefore
    | some other => rfl
  | index h hbody =>
    rw [h]
    simp only [readBody_of_lacksBody hbody]
    rfl

/-- A statement that can be taken is gathered. -/
theorem gather_singleton (htable : table.toList = tableStatements before)
    (h : ∀ fault, ¬ Stops before statement fault) :
    ∃ found indexes, gather table [statement] = .ok (found, indexes) := by
  rw [gather]
  cases hheader : readHeader? statement with
  | none => exact absurd (.unknown hheader) (h _)
  | some header =>
    cases header with
    | table header =>
      cases table with
      | none => exact ⟨_, _, rfl⟩
      | some other => exact absurd (.secondTable hheader (by simp [← htable])) (h _)
    | index header =>
      rcases hasBody_or_lacksBody statement header.rest with hbody | ⟨fault, hbody⟩
      · obtain ⟨index, hindex⟩ := readBody_of_hasBody hbody statement
        exact ⟨table, [index], bind_eq_ok.mpr ⟨index, hindex, rfl⟩⟩
      · exact absurd (.index hheader hbody) (h _)

theorem isAdmitted_concat :
    IsAdmitted (before ++ [statement]) ↔
      IsAdmitted before ∧ ∀ fault, ¬ Stops before statement fault := by
  constructor
  · intro h
    refine ⟨?_, fun fault => h before statement [] fault rfl⟩
    rintro left other right fault rfl
    exact h left other (right ++ [statement]) fault (by simp)
  · rintro ⟨hbefore, hstatement⟩ left other right fault hsplit
    rcases List.eq_nil_or_concat right with rfl | ⟨right, last, rfl⟩
    · obtain ⟨rfl, hlast⟩ := List.append_inj' hsplit rfl
      obtain rfl := (List.cons.inj hlast).1
      exact hstatement fault
    · have hsame : before ++ [statement] = (left ++ other :: right) ++ [last] := by
        rw [hsplit]
        simp
      obtain ⟨rfl, -⟩ := List.append_inj' hsame rfl
      exact hbefore left other right fault rfl

/-- Statements that can be taken are gathered, with the only table statement among them. -/
theorem gather_of_isAdmitted (h : IsAdmitted statements) :
    ∃ found indexes, gather none statements = .ok (found, indexes) ∧
      found.toList = tableStatements statements := by
  suffices hgather : ∃ found indexes, gather none statements = .ok (found, indexes) by
    obtain ⟨found, indexes, hgather⟩ := hgather
    exact ⟨found, indexes, hgather, (tableStatements_of_gather hgather).symm⟩
  induction statements using List.reverseRecOn with
  | nil => exact ⟨none, [], rfl⟩
  | append_singleton before statement ih =>
    obtain ⟨hbefore, hstatement⟩ := isAdmitted_concat.mp h
    obtain ⟨between, indexes, hgather⟩ := ih hbefore
    obtain ⟨found, more, hlast⟩ :=
      gather_singleton (tableStatements_of_gather hgather).symm hstatement
    exact ⟨found, indexes ++ more, by rw [gather_append hgather, hlast]; rfl⟩

/-- The earliest statement that cannot be taken decides the fault. -/
theorem gather_of_isAdmitted_of_stops (hbefore : IsAdmitted before)
    (h : Stops before statement fault) (after : List Text) :
    gather none (before ++ statement :: after) = .error fault := by
  obtain ⟨found, indexes, hgather, htable⟩ := gather_of_isAdmitted hbefore
  rw [gather_append hgather, gather_of_stops htable h]
  rfl

theorem isAdmitted_or_stops (statements : List Text) :
    IsAdmitted statements ∨ ∃ before statement after fault,
      statements = before ++ statement :: after ∧ IsAdmitted before ∧
        Stops before statement fault := by
  induction statements using List.reverseRecOn with
  | nil => exact .inl (by simp [IsAdmitted])
  | append_singleton before statement ih =>
    rcases ih with hbefore | ⟨left, other, right, fault, rfl, hleft, hstops⟩
    · by_cases hstops : ∃ fault, Stops before statement fault
      · obtain ⟨fault, hstops⟩ := hstops
        exact .inr ⟨before, statement, [], fault, rfl, hbefore, hstops⟩
      · exact .inl (isAdmitted_concat.mpr ⟨hbefore, not_exists.mp hstops⟩)
    · exact .inr ⟨left, other, right ++ [statement], fault, by simp, hleft, hstops⟩

/-- The first fault of the only table statement. -/
inductive Spoils (table : TableStatement) : Fault → Prop
  | body {fault : Fault} (hbody : LacksBody table.statement table.header.rest fault) :
      Spoils table fault
  | nameless (hbody : HasBody table.header.rest) (hname : table.header.name = none) :
      Spoils table (.badSyntax (.namelessTable table.statement))
  | badSize {left right : List Text} {clause : Text} {first group : Token} {rest : List Token}
      (hbody : HasBody table.header.rest) (hname : table.header.name ≠ none)
      (hsplit : columnClauses (bodyClauses table.header.rest) = left ++ clause :: right)
      (hleft : ∀ other ∈ left, hasTypeSize other = true)
      (hclause : tokensOf clause = first :: rest)
      (harguments : (typePart rest).arguments = some group)
      (hsize : isTypeSize group.inside = false) :
      Spoils table (.badTypeSize (bareText first.text) group.inside)

def IsSized (table : TableStatement) : Prop :=
  table.header.name ≠ none ∧
    ∀ clause ∈ columnClauses (bodyClauses table.header.rest), hasTypeSize clause = true

variable {definition : TableStatement}

theorem draft_of_hasBody (hbody : HasBody definition.header.rest) {name : Text}
    (hname : definition.header.name = some name) (indexes : List Index) :
    ∃ draft, definition.draft indexes = .ok draft ∧
      draft.clauses = bodyClauses definition.header.rest := by
  obtain ⟨group, hgroup, hclauses, -⟩ := exists_of_hasBody hbody
  exact ⟨_, draft_eq_ok definition hname hgroup hclauses indexes, rfl⟩

theorem complete_of_isSized (hbody : HasBody definition.header.rest) (h : IsSized definition)
    (indexes : List Index) :
    ∃ table, (definition.draft indexes >>= Draft.complete) = .ok table := by
  obtain ⟨hname, hsizes⟩ := h
  obtain ⟨name, hname⟩ := Option.ne_none_iff_exists'.mp hname
  obtain ⟨draft, hdraft, hclauses⟩ := draft_of_hasBody hbody hname indexes
  obtain ⟨-, -, -, htokens⟩ := exists_of_hasBody hbody
  rw [← hclauses] at htokens hsizes
  obtain ⟨columns, hcolumns⟩ := readColumns_eq_ok htokens hsizes draft.keptIndexes
  exact ⟨_, bind_eq_ok.mpr ⟨draft, hdraft, bind_eq_ok.mpr ⟨columns, hcolumns, rfl⟩⟩⟩

theorem complete_of_spoils (h : Spoils definition fault) (indexes : List Index) :
    (definition.draft indexes >>= Draft.complete) = .error fault := by
  cases h with
  | body hbody =>
    cases hbody with
    | unbalanced h =>
      rw [TableStatement.draft, parenthesized_of_unbalanced h]
      rfl
    | noBody h =>
      rw [TableStatement.draft, parenthesized_of_isGroupless h]
      rfl
  | nameless hbody hname =>
    obtain ⟨group, hgroup, -⟩ := exists_of_hasBody hbody
    rw [TableStatement.draft, hgroup]
    simp only [bind, Except.bind, hname]
  | badSize hbody hname hsplit hleft hclause harguments hsize =>
    obtain ⟨name, hname⟩ := Option.ne_none_iff_exists'.mp hname
    obtain ⟨draft, hdraft, hclauses⟩ := draft_of_hasBody hbody hname indexes
    obtain ⟨-, -, -, htokens⟩ := exists_of_hasBody hbody
    rw [← hclauses] at htokens hsplit
    have hcolumns := readColumns_eq_error htokens hsplit hleft hclause harguments hsize
      draft.keptIndexes
    rw [hdraft]
    change (readColumns draft.clauses draft.keptIndexes >>= _) = _
    rw [hcolumns]
    rfl

theorem isSized_or_spoils (definition : TableStatement) :
    (HasBody definition.header.rest ∧ IsSized definition) ∨
      ∃ fault, Spoils definition fault := by
  rcases hasBody_or_lacksBody definition.statement definition.header.rest with
    hbody | ⟨fault, hbody⟩
  · by_cases hname : definition.header.name = none
    · exact .inr ⟨_, .nameless hbody hname⟩
    cases hfind : (columnClauses (bodyClauses definition.header.rest)).find?
        fun clause => !hasTypeSize clause with
    | none => exact .inl ⟨hbody, hname, by simpa using hfind⟩
    | some clause =>
      obtain ⟨hclause, left, right, hsplit, hleft⟩ := List.find?_eq_some_iff_append.mp hfind
      have hsizes : ∀ other ∈ left, hasTypeSize other = true := by simpa using hleft
      cases htokens : tokensOf clause with
      | nil => simp [hasTypeSize, htokens, typePart] at hclause
      | cons first rest =>
        cases harguments : (typePart rest).arguments with
        | none => simp [hasTypeSize, htokens, harguments] at hclause
        | some group =>
          have hsize : isTypeSize group.inside = false := by
            simpa [hasTypeSize, htokens, harguments] using hclause
          exact .inr ⟨_, .badSize hbody hname hsplit hsizes htokens harguments hsize⟩
  · exact .inr ⟨fault, .body hbody⟩

def headerRest : Header → Text
  | .table header => header.rest
  | .index header => header.rest

/-- Each statement has a header and a body, and just one is a table statement, which has
a name and columns with sizes. -/
structure IsAcceptable (statements : List Text) : Prop where
  bodies : ∀ statement ∈ statements, ∃ header,
    readHeader? statement = some header ∧ HasBody (headerRest header)
  table : ∃ definition, tableStatements statements = [definition] ∧ IsSized definition

/-- The fault of a batch: that of the earliest statement that cannot be taken, or the
lack of a table statement, or the first fault of the table statement. -/
inductive IsRefused (statements : List Text) : Fault → Prop
  | stopped {before after : List Text} {statement : Text} {fault : Fault}
      (hsplit : statements = before ++ statement :: after) (hbefore : IsAdmitted before)
      (hstops : Stops before statement fault) : IsRefused statements fault
  | noTable (hadmitted : IsAdmitted statements) (hnone : tableStatements statements = []) :
      IsRefused statements .noTable
  | spoiled {definition : TableStatement} {fault : Fault} (hadmitted : IsAdmitted statements)
      (hdefinition : definition ∈ tableStatements statements)
      (hspoils : Spoils definition fault) : IsRefused statements fault

theorem isAdmitted_of_isAcceptable (h : IsAcceptable statements) : IsAdmitted statements := by
  rintro before statement after fault rfl hstops
  obtain ⟨definition, htable, -⟩ := h.table
  obtain ⟨header, hheader, hbody⟩ := h.bodies statement (by simp)
  cases hstops with
  | unknown hnone => simp [hheader] at hnone
  | secondTable htwo hbefore =>
    have hlength := congrArg List.length htable
    have hpos := List.length_pos_iff.mpr hbefore
    simp only [tableStatements, List.filterMap_append, List.filterMap_cons,
      tableStatement?_eq_some htwo, List.length_append, List.length_cons] at hlength hpos
    simp at hlength
    omega
  | index hindex hlacks =>
    obtain rfl := Option.some.inj (hheader.symm.trans hindex)
    exact not_hasBody_of_lacksBody hlacks hbody

/-- All the bodies but that of the table statement are known when the statements can be taken. -/
theorem bodies_of_isAdmitted (h : IsAdmitted statements)
    (htables : ∀ definition ∈ tableStatements statements, HasBody definition.header.rest) :
    ∀ statement ∈ statements, ∃ header,
      readHeader? statement = some header ∧ HasBody (headerRest header) := by
  intro statement hmem
  obtain ⟨before, after, hsplit⟩ := List.append_of_mem hmem
  cases hheader : readHeader? statement with
  | none => exact absurd (.unknown hheader) (h before statement after _ hsplit)
  | some header =>
    refine ⟨header, rfl, ?_⟩
    cases header with
    | table header => exact htables ⟨statement, header⟩ (mem_tableStatements.mpr ⟨hmem, hheader⟩)
    | index header =>
      rcases hasBody_or_lacksBody statement header.rest with hbody | ⟨fault, hbody⟩
      · exact hbody
      · exact absurd (.index hheader hbody) (h before statement after _ hsplit)

theorem readTable_of_gather {indexes : List Index}
    (h : gather none statements = .ok (some definition, indexes)) :
    readTable statements = (definition.draft indexes >>= Draft.complete) := by
  rw [readTable, readDraft, h]
  rfl

theorem exists_readTable (h : IsAcceptable statements) :
    ∃ table, readTable statements = .ok table := by
  obtain ⟨found, indexes, hgather, htable⟩ := gather_of_isAdmitted (isAdmitted_of_isAcceptable h)
  obtain ⟨definition, hone, hsized⟩ := h.table
  rw [hone, Option.toList_eq_singleton_iff] at htable
  subst htable
  obtain ⟨hmem, hheader⟩ :=
    mem_tableStatements.mp (show definition ∈ tableStatements statements by simp [hone])
  obtain ⟨header, hfound, hbody⟩ := h.bodies definition.statement hmem
  obtain rfl := Option.some.inj (hheader.symm.trans hfound)
  rw [readTable_of_gather hgather]
  exact complete_of_isSized hbody hsized indexes

theorem readTable_of_isRefused (h : IsRefused statements fault) :
    readTable statements = .error fault := by
  cases h with
  | stopped hsplit hbefore hstops =>
    rw [hsplit, readTable, readDraft, gather_of_isAdmitted_of_stops hbefore hstops]
    rfl
  | noTable hadmitted hnone =>
    obtain ⟨found, indexes, hgather, htable⟩ := gather_of_isAdmitted hadmitted
    rw [hnone, Option.toList_eq_nil_iff] at htable
    rw [readTable, readDraft, hgather, htable]
    rfl
  | spoiled hadmitted hdefinition hspoils =>
    obtain ⟨found, indexes, hgather, htable⟩ := gather_of_isAdmitted hadmitted
    rw [← htable, Option.mem_toList] at hdefinition
    subst hdefinition
    rw [readTable_of_gather hgather]
    exact complete_of_spoils hspoils indexes

theorem isAcceptable_or_isRefused (statements : List Text) :
    IsAcceptable statements ∨ ∃ fault, IsRefused statements fault := by
  rcases isAdmitted_or_stops statements with
    hadmitted | ⟨before, statement, after, fault, hsplit, hbefore, hstops⟩
  · obtain ⟨found, indexes, -, htable⟩ := gather_of_isAdmitted hadmitted
    cases found with
    | none => exact .inr ⟨_, .noTable hadmitted htable.symm⟩
    | some definition =>
      have hone : tableStatements statements = [definition] := htable.symm
      rcases isSized_or_spoils definition with ⟨hbody, hsized⟩ | ⟨fault, hspoils⟩
      · refine .inl ⟨bodies_of_isAdmitted hadmitted ?_, definition, hone, hsized⟩
        intro other hother
        rw [hone, List.mem_singleton] at hother
        rwa [hother]
      · exact .inr ⟨fault, .spoiled hadmitted (by simp [hone]) hspoils⟩
  · exact .inr ⟨fault, .stopped hsplit hbefore hstops⟩

/-- No statement lets a body be taken out that does not split, or a clause that has no
token; so neither of the two faults is met. -/
theorem ne_emptyColumn_of_isRefused {clause : Text}
    (h : IsRefused statements fault) : fault ≠ .badSyntax (.emptyColumn clause) := by
  rintro rfl
  cases h with
  | stopped _ _ hstops =>
    cases hstops with
    | index _ hbody => cases hbody
  | spoiled _ _ hspoils =>
    cases hspoils with
    | body hbody => cases hbody

/-- A batch is accepted exactly where its statements are, and refused with the fault
that is met first. A body that was taken out of a statement always splits into clauses
with tokens, so no fault comes from splitting it or from a clause without a name. -/
theorem readTable_outcome (statements : List Text) :
    ((∃ table, readTable statements = .ok table) ↔ IsAcceptable statements) ∧
    (∀ fault, readTable statements = .error fault ↔ IsRefused statements fault) ∧
    (∀ text group, parenthesized text = .ok (some group) →
      ∃ clauses, separateClauses group.body = .ok clauses ∧
        ∀ clause ∈ clauses, tokensOf clause ≠ []) ∧
    ∀ clause, readTable statements ≠ .error (.badSyntax (.emptyColumn clause)) := by
  have hrefused : ∀ fault, readTable statements = .error fault ↔ IsRefused statements fault := by
    intro fault
    refine ⟨?_, readTable_of_isRefused⟩
    intro herror
    rcases isAcceptable_or_isRefused statements with hacceptable | ⟨other, hother⟩
    · obtain ⟨table, htable⟩ := exists_readTable hacceptable
      simp [htable] at herror
    · have hsame := herror.symm.trans (readTable_of_isRefused hother)
      rwa [Except.error.inj hsame]
  refine ⟨⟨?_, exists_readTable⟩, hrefused, ?_, ?_⟩
  · rintro ⟨table, htable⟩
    rcases isAcceptable_or_isRefused statements with hacceptable | ⟨fault, hfault⟩
    · exact hacceptable
    · simp [readTable_of_isRefused hfault] at htable
  · intro text group hgroup
    exact ⟨_, separateClauses_of_parenthesized hgroup⟩
  · intro clause hclause
    exact ne_emptyColumn_of_isRefused ((hrefused _).mp hclause) rfl

def namelessBatch : List Text :=
  ["CREATE INDEX i ON u (a)".toList, "CREATE TABLE (x decimal(1,2,3), y int)".toList]

def oversizedBatch : List Text :=
  ["CREATE TABLE t (a char(9), ')' (x), b int(9223372036854775808))".toList]

theorem readTable_outcome_oversizedBatch :
    readTable namelessBatch =
        .error (.badSyntax (.namelessTable "CREATE TABLE (x decimal(1,2,3), y int)".toList)) ∧
      IsRefused namelessBatch
        (.badSyntax (.namelessTable "CREATE TABLE (x decimal(1,2,3), y int)".toList)) ∧
      IsRefused oversizedBatch (.badTypeSize ['b'] "9223372036854775808".toList) ∧
      ¬ IsAcceptable oversizedBatch ∧
      parenthesized " (a, ')' (b)) ".toList = .ok (some ⟨"a, ')' (b)".toList, [' ']⟩) ∧
      ∃ clauses, separateClauses "a, ')' (b)".toList = .ok clauses ∧
        ∀ clause ∈ clauses, tokensOf clause ≠ [] := by
  have hnameless : readTable namelessBatch =
      .error (.badSyntax (.namelessTable "CREATE TABLE (x decimal(1,2,3), y int)".toList)) := by
    decide +kernel
  have hoversized : readTable oversizedBatch =
      .error (.badTypeSize ['b'] "9223372036854775808".toList) := by decide +kernel
  have hgroup : parenthesized " (a, ')' (b)) ".toList =
      .ok (some ⟨"a, ')' (b)".toList, [' ']⟩) := by decide +kernel
  obtain ⟨-, hrefused, -, -⟩ := readTable_outcome namelessBatch
  obtain ⟨haccepted, hrefusedSize, hsplit, -⟩ := readTable_outcome oversizedBatch
  refine ⟨hnameless, (hrefused _).mp hnameless, (hrefusedSize _).mp hoversized, ?_, hgroup,
    hsplit _ _ hgroup⟩
  intro h
  obtain ⟨table, htable⟩ := haccepted.mpr h
  simp [hoversized] at htable

end SqliteSchema.Proofs.BatchOutcomes
