import SqliteSchema.Proofs.BodyLayouts
import SqliteSchema.Proofs.ConstraintSyntax
import SqliteSchema.Proofs.PieceTokens
import SqliteSchema.Proofs.RuleReading
import SqliteSchema.Proofs.TokenRows

/-!
Reading table constraints back from their texts. A constraint is told by its first tokens,
which are words of their own, and the columns it lists are the first tokens between the
commas of its group, so names that hold commas, parentheses, quotes or keywords come back
as they were. A clause that begins with a quoted run or any other word is a column.
-/
namespace SqliteSchema.Proofs.WrittenConstraints

open PlainText Quoting DelimiterScan ClauseSplitting ClauseTokens TableConstraints BalancedTexts
  NormalPieces QuotedRuns TokenReading BalancedTokens PieceTokens KeywordTokens ColumnSyntax
  RuleReading TokenRows BodyLayouts ConstraintSyntax

def leadingName? (shapes : List (TokenKind × Text)) : Option Text :=
  shapes.head?.map fun part => bareText part.2

/-- The entries of a list begin with the names that the tokens between its commas begin with. -/
theorem filterMap_entryName?_pieces {text : Text} (htext : isBalanced text = true) :
    (pieces ',' text).filterMap entryName? =
      ((clauseRuns (tokensOf text)).map (List.map tidyShape)).filterMap leadingName? := by
  have hentry : entryName? = leadingName? ∘ fun entry => (tokensOf entry).map shape := by
    funext entry
    rw [Function.comp_apply, leadingName?, List.head?_map, Option.map_map]
    rfl
  rw [← map_shape_pieces htext, List.filterMap_map, ← hentry]

theorem isBreak_of_isBlank {c : Char} (h : isBlank c = true) : isBreak c = true := by
  simp [isBreak, h]

/-- Blank characters end the token before them, and so does what ends it behind them. -/
theorem isBreak_head_blanks {blanks rest : Text} (hblanks : ∀ c ∈ blanks, isBlank c = true)
    (hrest : ∀ c ∈ rest.head?, isBreak c = true) :
    ∀ c ∈ (blanks ++ rest).head?, isBreak c = true := by
  cases blanks with
  | nil => exact hrest
  | cons first more =>
    intro c hc
    obtain rfl : first = c := by simpa using hc
    exact isBreak_of_isBlank (hblanks first (List.mem_cons_self ..))

theorem isBreak_head_gap (gap : Gap) (rest : Text) :
    ∀ c ∈ (gap.val ++ rest).head?, isBreak c = true := by
  obtain ⟨text, hne, hblank⟩ := gap
  cases text with
  | nil => exact absurd rfl hne
  | cons first more =>
    intro c hc
    obtain rfl : first = c := by simpa using hc
    exact isBreak_of_isBlank (hblank first (List.mem_cons_self ..))

theorem stands_quotedName {gap : Text} (hgap : ∀ c ∈ gap, isBlank c = true) (name : QuotedName) :
    Stands ⟨gap, .quoted, name.text⟩ :=
  stands_quotation hgap ⟨name.mark, name.mark, name.isMark, name.inside⟩

/-- A token behind a gap can stand in a row. -/
theorem follows_gap (gap : Gap) {kind : TokenKind} {text : Text}
    (h : Stands ⟨gap.val, kind, text⟩) : Follows ⟨gap.val, kind, text⟩ := by
  refine ⟨h, ?_⟩
  have hhead := isBreak_head_gap gap text
  cases hall : gap.val ++ text with
  | nil => exact absurd (List.append_eq_nil_iff.mp hall).1 gap.property.1
  | cons c more =>
    rw [hall] at hhead
    exact ⟨c, more, rfl, hhead c rfl⟩

def wordsBehind (column : ListedColumn) : List Token :=
  (column.collation.toList.flatMap fun collation =>
      [⟨collation.before, .word, collation.keyword⟩,
        ⟨collation.between, .word, collation.collation⟩]) ++
    column.direction.toList.map fun direction => ⟨direction.before, .word, direction.keyword⟩

theorem kind_of_mem_wordsBehind {column : ListedColumn} {token : Token}
    (h : token ∈ wordsBehind column) : token.kind = .word := by
  simp only [wordsBehind, List.mem_append, List.mem_flatMap, List.mem_map, List.mem_cons,
    List.not_mem_nil, or_false] at h
  rcases h with ⟨_, -, rfl | rfl⟩ | ⟨_, -, rfl⟩ <;> rfl

theorem follows_of_mem_wordsBehind (column : ListedColumn) :
    ∀ token ∈ wordsBehind column, Follows token := by
  intro token htoken
  rcases List.mem_append.mp htoken with h | h
  · obtain ⟨collation, -, h⟩ := List.mem_flatMap.mp h
    have hkeyword : Stands ⟨collation.before.val, .word, collation.keyword.val⟩ :=
      stands_keyword collation.before.property.2 rfl collation.keyword.property
    have hword : Stands ⟨collation.between.val, .word, collation.collation.val⟩ :=
      stands_word collation.between.property.2 collation.collation.property.1
        collation.collation.property.2
    rcases List.mem_pair.mp h with rfl | rfl
    · exact follows_gap _ hkeyword
    · exact follows_gap _ hword
  · obtain ⟨direction, -, rfl⟩ := List.mem_map.mp h
    have hcapital : isCapital direction.order.keyword = true := by cases direction.order <;> rfl
    exact follows_gap _
      (stands_keyword direction.before.property.2 hcapital direction.keyword.property)

/-- The tokens of a listed column are its name and the words behind it. -/
theorem tokensOf_listedColumn (column : ListedColumn) :
    tokensOf column.text =
      ⟨column.before, .quoted, column.name.text⟩ :: wordsBehind column := by
  have hafter : ∀ c ∈ column.after.val.head?, isBreak c = true := by
    intro c hc
    exact isBreak_of_isBlank (column.after.property c (List.mem_of_mem_head? hc))
  have htext : column.text = column.before ++
      (column.name.text ++ (written (wordsBehind column) ++ column.after.val)) := by
    rw [ListedColumn.text, written, wordsBehind]
    cases column.collation <;> cases column.direction <;>
      simp [Collation.text, Direction.text]
  have hfollows := follows_of_mem_wordsBehind column
  have hname := stands_quotedName column.before.property column.name _
    (isBreak_head_written_append hfollows hafter)
  rw [htext, hname, tokensOf_written_append hfollows hafter,
    tokensOf_of_blank column.after.property, List.append_nil]

theorem isSound_word (gap text : Text) : isSound ⟨gap, .word, text⟩ = true := by
  simp [isSound, isClosed, isStray]

theorem isSound_quotedName (gap : Text) (name : QuotedName) :
    isSound ⟨gap, .quoted, name.text⟩ = true := by
  have hclosed : isClosed ⟨gap, .quoted, name.text⟩ = true :=
    isClosed_quotedBy name.isMark gap name.inside
  simp [isSound, isStray, hclosed]

theorem isBalanced_listedColumn (column : ListedColumn) : isBalanced column.text = true := by
  rw [isBalanced_iff_isSound, tokensOf_listedColumn, List.forall_mem_cons]
  refine ⟨isSound_quotedName _ _, ?_⟩
  intro token htoken
  obtain ⟨gap, kind, text⟩ := token
  obtain rfl : kind = .word := kind_of_mem_wordsBehind htoken
  exact isSound_word gap text

/-- Whatever stands in a name, the column is one entry, and its name is found. -/
theorem entryName_listedColumn (column : ListedColumn) :
    (pieces ',' column.text).filterMap entryName? = [column.name.inside] := by
  have hfree : ∀ token ∈ tokensOf column.text, isComma token = false := by
    rw [tokensOf_listedColumn, List.forall_mem_cons]
    refine ⟨rfl, ?_⟩
    intro token htoken
    simp [isComma, kind_of_mem_wordsBehind htoken]
  have hname : bareText column.name.text = column.name.inside :=
    bareText_quotedBy column.name.isMark column.name.inside
  rw [filterMap_entryName?_pieces (isBalanced_listedColumn column), clauseRuns,
    List.splitOnP_eq_singleton hfree, tokensOf_listedColumn]
  simp [isFilled, leadingName?, tidyShape, Token.isGroup, hname]

/-- The columns of a list are found in their order. -/
theorem names_columnList (list : ColumnList) :
    isBalanced list.text = true ∧ (pieces ',' list.text).filterMap entryName? = list.names := by
  obtain ⟨before, columns⟩ := list
  suffices hcolumns : isBalanced ([','].intercalate (columns.map ListedColumn.text)) = true ∧
      (pieces ',' ([','].intercalate (columns.map ListedColumn.text))).filterMap entryName? =
        columns.map fun column => column.name.inside by
    obtain ⟨hbalanced, hnames⟩ := hcolumns
    refine ⟨by rw [ColumnList.text, (scan_of_blanks before.property _).2, hbalanced], ?_⟩
    rw [ColumnList.text, pieces_blanks_append isSeparating_comma hbalanced before.property, hnames]
    rfl
  induction columns with
  | nil => exact ⟨rfl, rfl⟩
  | cons column rest ih =>
    have hcolumn := isBalanced_listedColumn column
    have hname := entryName_listedColumn column
    cases rest with
    | nil => simpa using ⟨hcolumn, hname⟩
    | cons next more =>
      obtain ⟨hrest, hnames⟩ := ih
      rw [List.map_cons, List.map_cons, List.intercalate_cons_cons, ← List.map_cons,
        List.append_assoc, List.singleton_append, isBalanced_append_cons hcolumn (by decide),
        pieces_append_cons isSeparating_comma hcolumn, List.filterMap_append, hname, hnames]
      exact ⟨hrest, rfl⟩

/-- A group lists the columns that are written in it. -/
theorem listedColumns_parenthesize (list : ColumnList) (gap : Text) (rest : List Token) :
    listedColumns (⟨gap, .group, parenthesize list.text⟩ :: rest) = list.names := by
  obtain ⟨hbalanced, hnames⟩ := names_columnList list
  have hinside : Token.inside ⟨gap, .group, parenthesize list.text⟩ = list.text :=
    inside_of_group rfl rfl
  have hsplit : separateClauses list.text = .ok (pieces ',' list.text) :=
    separate_eq_ok_iff.mpr ⟨hbalanced, rfl⟩
  have hgroup : groupNames ⟨gap, .group, parenthesize list.text⟩ = list.names := by
    simp only [groupNames, hinside, hsplit, hnames]
  exact hgroup

/-- A keyword is told from every other, whatever the case of its letters. -/
theorem spells_spelling {keyword : String} (spelling : Spelling keyword) (gap : Text)
    (other : String) :
    Token.spells other ⟨gap, .word, spelling.val⟩ = sameLetters keyword.toList other.toList := by
  refine spells_eq ?_ other
  simp [Token.spells, spelling.property]

/-- A keyword in front of what does not go on with it. -/
theorem tokensOf_spelling {gap : Text} (hgap : ∀ c ∈ gap, isBlank c = true) {keyword : String}
    (hkeyword : isCapital keyword = true) (spelling : Spelling keyword) {rest : Text}
    (hrest : rest.head?.any isWordChar = false) :
    tokensOf (gap ++ (spelling ++ rest)) = ⟨gap, .word, spelling⟩ :: tokensOf rest := by
  obtain ⟨hfilled, hletters⟩ := isWord_of_sameLetters hkeyword spelling.property
  exact tokensOf_word hgap hfilled hletters hrest

/-- A group can stand right behind a word. -/
theorem isBreak_head_group (blanks : Blanks) (inside rest : Text) :
    ∀ c ∈ (blanks.val ++ (parenthesize inside ++ rest)).head?, isBreak c = true := by
  apply isBreak_head_blanks blanks.property
  intro c hc
  obtain rfl : '(' = c := by simpa [parenthesize] using hc
  decide

variable {first : Token} {rest : List Token}

theorem clauseOfTokens_of_kind {kind : ConstraintKind} (hfirst : first.spells "CONSTRAINT" = false)
    (hkind : constraintKind? first rest = some kind) :
    clauseOfTokens (first :: rest) = .constraint ⟨none, kind⟩ := by
  unfold clauseOfTokens
  simp [hfirst, hkind]

/-- A constraint without a name is read behind any blanks. -/
theorem clauseOfTokens_rule (rule : TableRule) {gap : Text} (hgap : ∀ c ∈ gap, isBlank c = true) :
    clauseOfTokens (tokensOf (gap ++ rule.text)) = .constraint ⟨none, rule.kind⟩ := by
  cases rule with
  | primaryKey primary between key before columns rest =>
    have hkey := any_isWordChar_of_isBreak (isBreak_head_group before columns.text rest)
    have hprimary := any_isWordChar_of_isBreak (isBreak_head_gap between
      (key ++ (before ++ (parenthesize columns.text ++ rest))))
    rw [TableRule.text, tokensOf_spelling hgap rfl primary hprimary,
      tokensOf_spelling between.property.2 rfl key hkey,
      tokensOf_group before.property ⟨columns.text, (names_columnList columns).1⟩]
    refine clauseOfTokens_of_kind (spells_spelling primary gap "CONSTRAINT") ?_
    simp only [constraintKind?, startsWith, List.head?_cons, Option.any_some, List.tail_cons,
      spells_spelling, listedColumns_parenthesize]
    rfl
  | unique keyword before columns rest =>
    have hkeyword := any_isWordChar_of_isBreak (isBreak_head_group before columns.text rest)
    rw [TableRule.text, tokensOf_spelling hgap rfl keyword hkeyword,
      tokensOf_group before.property ⟨columns.text, (names_columnList columns).1⟩]
    refine clauseOfTokens_of_kind (spells_spelling keyword gap "CONSTRAINT") ?_
    simp only [constraintKind?, startsWith, List.head?_cons, Option.any_some,
      spells_spelling, listedColumns_parenthesize]
    rfl
  | foreignKey foreign between key rest =>
    have hforeign := any_isWordChar_of_isBreak (isBreak_head_gap between (key ++ rest.val))
    rw [TableRule.text, tokensOf_spelling hgap rfl foreign hforeign,
      tokensOf_spelling between.property.2 rfl key rest.property]
    refine clauseOfTokens_of_kind (spells_spelling foreign gap "CONSTRAINT") ?_
    simp only [constraintKind?, startsWith, List.head?_cons, Option.any_some, spells_spelling]
    rfl
  | check keyword before condition rest =>
    have hkeyword := any_isWordChar_of_isBreak (isBreak_head_group before condition rest)
    rw [TableRule.text, tokensOf_spelling hgap rfl keyword hkeyword,
      tokensOf_group before.property condition]
    refine clauseOfTokens_of_kind (spells_spelling keyword gap "CONSTRAINT") ?_
    simp only [constraintKind?, startsWith, List.head?_cons, Option.any_some, spells_spelling]
    rfl

/-- Every constraint is read back from its text. -/
theorem readClause_text (written : TableConstraint) :
    readClause written.text = .constraint written.meaning := by
  obtain ⟨before, label, rule⟩ := written
  cases label with
  | none => exact clauseOfTokens_rule rule before.property
  | some label =>
    have htext : TableConstraint.text ⟨before, some label, rule⟩ = before ++
        (label.keyword ++ (label.gap ++ (label.name.text ++ (label.after ++ rule.text)))) := by
      simp [TableConstraint.text, Label.text]
    have hkeyword := any_isWordChar_of_isBreak (isBreak_head_gap label.gap
      (label.name.text ++ (label.after ++ rule.text)))
    have hname := stands_quotedName label.gap.property.2 label.name _
      (isBreak_head_gap label.after rule.text)
    have hbare : bareText label.name.text = label.name.inside :=
      bareText_quotedBy label.name.isMark label.name.inside
    have hspells : Token.spells "CONSTRAINT" ⟨before.val, .word, label.keyword.val⟩ = true :=
      spells_spelling label.keyword before.val "CONSTRAINT"
    have hisName : Token.isName ⟨label.gap.val, .quoted, label.name.text⟩ = true := rfl
    rw [readClause, htext, tokensOf_spelling before.property rfl label.keyword hkeyword, hname,
      clauseOfTokens, if_pos hspells]
    simp only [hisName, if_true, clauseOfTokens_rule rule label.after.property.2, hbare]
    rfl

def constraintWords : List String := ["CONSTRAINT", "PRIMARY", "FOREIGN", "CHECK", "UNIQUE"]

theorem clauseOfTokens_of_spells (h : ∀ keyword ∈ constraintWords, first.spells keyword = false)
    (rest : List Token) : clauseOfTokens (first :: rest) = .column := by
  simp only [constraintWords, List.forall_mem_cons] at h
  obtain ⟨hconstraint, hprimary, hforeign, hcheck, hunique, -⟩ := h
  unfold clauseOfTokens
  simp [constraintKind?, hconstraint, hprimary, hforeign, hcheck, hunique]

/-- Reading a clause undoes writing it. A constraint comes back with its name, its kind and
the columns it lists, however its blanks, its letters and its quotes are chosen. A clause that
begins with a quoted run, or with a word that is none of those that can begin a constraint, is
a column. -/
theorem readClause_written :
    (∀ written : TableConstraint, readClause written.text = .constraint written.meaning) ∧
      ∀ clause first rest, tokensOf clause = first :: rest →
        (first.kind = .quoted ∨ first.kind = .word ∧
          ∀ keyword ∈ constraintWords, sameLetters first.text keyword.toList = false) →
        readClause clause = .column := by
  refine ⟨readClause_text, ?_⟩
  intro clause first rest htokens hfirst
  rw [readClause, htokens]
  refine clauseOfTokens_of_spells ?_ rest
  intro keyword hkeyword
  rcases hfirst with hquoted | ⟨-, hletters⟩
  · exact spells_of_kind_ne (by simp [hquoted]) keyword
  · simp [Token.spells, hletters keyword hkeyword]

def crowdedConstraint : TableConstraint where
  before := ⟨"\n".toList, List.all_eq_true.mp rfl⟩
  label := some {
    keyword := ⟨"Constraint".toList, by decide +kernel⟩
    gap := ⟨" \t".toList, by decide, List.all_eq_true.mp rfl⟩
    name := ⟨'\x60', isQuoteMark_backtick, "primary key (`a`, b)".toList⟩
    after := ⟨"  ".toList, by decide, List.all_eq_true.mp rfl⟩ }
  rule := .unique ⟨"uNIQUE".toList, by decide +kernel⟩ ⟨[], List.forall_mem_nil _⟩
    { before := ⟨[], List.forall_mem_nil _⟩
      columns := [
        { before := ⟨[], List.forall_mem_nil _⟩
          name := ⟨'\x22', isQuoteMark_double, "a, \")".toList⟩
          collation := some {
            before := ⟨" ".toList, by decide, List.all_eq_true.mp rfl⟩
            keyword := ⟨"Collate".toList, by decide +kernel⟩
            between := ⟨"\t".toList, by decide, List.all_eq_true.mp rfl⟩
            collation := ⟨"nocase".toList, by decide, List.all_eq_true.mp rfl⟩ }
          direction := some {
            before := ⟨" ".toList, by decide, List.all_eq_true.mp rfl⟩
            order := .descending
            keyword := ⟨"desc".toList, by decide +kernel⟩ }
          after := ⟨" ".toList, List.all_eq_true.mp rfl⟩ },
        { before := ⟨" ".toList, List.all_eq_true.mp rfl⟩
          name := ⟨'\x60', isQuoteMark_backtick, "CHECK".toList⟩
          collation := none
          direction := none
          after := ⟨[], List.forall_mem_nil _⟩ }] }
    " ON CONFLICT IGNORE".toList

theorem readClause_crowdedConstraint :
    crowdedConstraint.text = "\nConstraint \t`primary key (``a``, b)`  uNIQUE".toList ++
        "(\"a, \"\")\" Collate\tnocase desc , `CHECK`) ON CONFLICT IGNORE".toList ∧
      readClause crowdedConstraint.text = .constraint ⟨some "primary key (`a`, b)".toList,
        .unique ["a, \")".toList, "CHECK".toList]⟩ ∧
      tokensOf "checksum (a > 0)".toList =
        [⟨[], .word, "checksum".toList⟩, ⟨[' '], .group, "(a > 0)".toList⟩] ∧
      readClause "checksum (a > 0)".toList = .column := by
  have htokens : tokensOf "checksum (a > 0)".toList =
      [⟨[], .word, "checksum".toList⟩, ⟨[' '], .group, "(a > 0)".toList⟩] := by decide +kernel
  obtain ⟨hread, hcolumn⟩ := readClause_written
  exact ⟨by decide +kernel, hread crowdedConstraint, htokens,
    hcolumn _ _ _ htokens (.inr ⟨rfl, by decide +kernel⟩)⟩

end SqliteSchema.Proofs.WrittenConstraints
