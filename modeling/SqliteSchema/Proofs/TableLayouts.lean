import SqliteSchema.Proofs.BatchOutcomes
import SqliteSchema.Proofs.BodyLayouts
import SqliteSchema.Proofs.HeaderScans
import SqliteSchema.Proofs.NestedTexts

/-!
Tables whose bodies differ in their layout only. What is read in front of a parenthesis
does not depend on what the parenthesis holds, so such a body can take the place of another
in any batch: the same table is read, or none is.
-/
namespace SqliteSchema.Proofs.TableLayouts

open PlainText Quoting DelimiterScan Faults ClauseSplitting ClauseTokens StatementHeaders
  IndexDefinitions TableDefinitions BalancedTexts QuotedRuns FirstGroups NormalPieces HeaderNames
  HeaderScans BalancedTokens TableReading StatementBodies BatchOutcomes NestedTexts BodyLayouts

def withBody (lead body tail : Text) : Text := lead ++ '(' :: (body ++ ')' :: tail)

/-- The parentheses are those of the body of a table statement: no other group is opened
between the heading and them, and the group that is cut out, if one is, holds the text. -/
def HoldsBody (lead body tail : Text) : Prop :=
  ∃ heading stray, readHeader? (withBody lead body tail) = some (.table heading) ∧
    heading.rest = withBody stray body tail ∧ IsGroupless stray ∧
    ∀ group, parenthesized heading.rest = .ok (some group) → group.body = body

theorem skipSpace_append_open (text inside : Text) :
    skipSpace (text ++ '(' :: inside) = skipSpace text ++ '(' :: inside := by
  induction text with
  | nil => exact skipSpace_of_head (by decide) inside
  | cons c rest ih =>
    cases hc : isHeaderSpace c with
    | true => rw [List.cons_append, skipSpace_cons hc, skipSpace_cons hc, ih]
    | false => rw [List.cons_append, skipSpace_of_head hc, skipSpace_of_head hc, List.cons_append]

/-- A keyword is sought in front of a parenthesis. -/
theorem keyword?_append_open {keyword : String}
    (hkeyword : keyword.toList.all Char.isUpper = true) (text inside : Text) :
    keyword? keyword (text ++ '(' :: inside) =
      (keyword? keyword text).map (· ++ '(' :: inside) := by
  simp only [keyword?, skipSpace_append_open]
  generalize skipSpace text = found
  by_cases hlong : keyword.toList.length ≤ found.length
  · have hends : (found.drop keyword.toList.length ++ '(' :: inside).head?.any extendsKeyword =
        (found.drop keyword.toList.length).head?.any extendsKeyword := by
      cases found.drop keyword.toList.length <;> rfl
    rw [List.take_append_of_le_length hlong, List.drop_append_of_le_length hlong, hends]
    split <;> rfl
  · rw [Nat.not_le] at hlong
    have hopen : sameLetters ((found ++ '(' :: inside).take keyword.toList.length)
        keyword.toList = false := by
      rw [Bool.eq_false_iff]
      intro hsame
      have hmem : '(' ∈ (found ++ '(' :: inside).take keyword.toList.length := by
        rw [List.mem_take_iff_getElem]
        exact ⟨found.length, by simp; omega, by simp⟩
      exact absurd (isInert_of_sameLetters hkeyword hsame '(' hmem) (by decide)
    have hshort : sameLetters (found.take keyword.toList.length) keyword.toList = false := by
      rw [Bool.eq_false_iff]
      intro hsame
      have hlength := congrArg List.length (eq_of_beq hsame)
      simp only [List.length_map, List.length_take] at hlength
      omega
    rw [hopen, hshort]
    rfl

theorem ifNotExists?_append_open (text inside : Text) :
    ifNotExists? (text ++ '(' :: inside) = (ifNotExists? text).map (· ++ '(' :: inside) := by
  unfold ifNotExists?
  rw [keyword?_append_open rfl]
  cases keyword? "IF" text with
  | none => rfl
  | some text =>
    simp only [Option.map_some, Option.bind_eq_bind, Option.bind_some]
    rw [keyword?_append_open rfl]
    cases keyword? "NOT" text with
    | none => rfl
    | some text => exact keyword?_append_open rfl text inside

theorem skipSpace_skipSpace (text : Text) : skipSpace (skipSpace text) = skipSpace text := by
  induction text with
  | nil => rfl
  | cons c rest ih =>
    cases hc : isHeaderSpace c with
    | true => rw [skipSpace_cons hc, ih]
    | false => rw [skipSpace_of_head hc, skipSpace_of_head hc]

theorem identifier?_skipSpace (text : Text) : identifier? (skipSpace text) = identifier? text := by
  rw [identifier?, identifier?, skipSpace_skipSpace]

theorem bracketName?_ne_none {text : Text} (h : ']' ∈ text) : bracketName? text ≠ none := by
  unfold bracketName?
  split
  · rename_i hdrop
    simpa using List.dropWhile_eq_nil_iff.mp hdrop ']' h
  · simp

/-- A run that a balanced text begins with ends in the text. -/
theorem exists_closeQuote? {opening close : Char} {rest : Text}
    (hclose : closingDelimiter? opening = some close) (hopen : close ≠ '(')
    (h : isBalanced (opening :: rest) = true) (inside : Text) :
    ∃ run after, closeQuote? close (rest ++ '(' :: inside) = some (run, after) := by
  obtain ⟨content, after, rfl, hend⟩ := exists_quoted_of_isBalanced hclose h
  have hends : (after ++ '(' :: inside).head? ≠ some close := by
    cases after with
    | nil => simpa using hopen.symm
    | cons c more => exact hend
  have hread := closeQuote?_double close content hends
  rw [List.append_assoc, List.cons_append]
  exact ⟨_, _, hread⟩

/-- Where a balanced text begins no name, none begins whatever the parenthesis behind it
holds. -/
theorem identifier?_append_open_eq_none {stray inside : Text} (hstray : isBalanced stray = true)
    (h : identifier? (stray ++ '(' :: inside) = none) (other : Text) :
    identifier? (stray ++ '(' :: other) = none := by
  have hfound : isBalanced (skipSpace stray) = true := by
    rw [skipSpace, isBalanced_dropWhile, hstray]
    intro c hc
    exact isNeutral_of_isHeaderSpace hc
  simp only [identifier?, skipSpace_append_open] at h ⊢
  cases hskip : skipSpace stray with
  | nil =>
    have hbare : isBareChar '(' = false := by decide +kernel
    simp [hbare]
  | cons first rest =>
    rw [hskip] at h hfound
    simp only [List.cons_append] at h ⊢
    split_ifs at h ⊢ with hbracket hquote hbare
    · subst hbracket
      obtain ⟨content, after, rfl, -⟩ := exists_quoted_of_isBalanced rfl hfound
      exact absurd h (bracketName?_ne_none (by simp))
    · have hclose : closingDelimiter? first = some first := by
        rcases hquote with rfl | rfl <;> rfl
      have hopen : first ≠ '(' := by rcases hquote with rfl | rfl <;> decide
      obtain ⟨run, after, hread⟩ := exists_closeQuote? hclose hopen hfound inside
      simp [hread] at h
    · rfl

/-- A name in front of a parenthesis is the same whatever the parenthesis holds, if what
stands between them is balanced. -/
theorem readsName_append_open {text stray inside : Text} {name : Option Text}
    (hstray : isBalanced stray = true)
    (h : ReadsName (text ++ '(' :: inside) name (stray ++ '(' :: inside)) (other : Text) :
    ReadsName (text ++ '(' :: other) name (stray ++ '(' :: other) := by
  cases name with
  | some name =>
    have hskip := skipSpace_of_identifier? h
    rw [skipSpace_append_open, ← List.append_assoc, List.append_left_inj] at hskip
    have hends : Ends name (stray ++ '(' :: other) := by
      have hread := ends_of_identifier? h
      have hhead : (stray ++ '(' :: other).head? = (stray ++ '(' :: inside).head? := by
        cases stray <;> rfl
      exact ⟨by rw [hhead]; exact hread.mark, by rw [hhead]; exact hread.bare⟩
    have hread := identifier?_append_of_ends (isIdentifier_of_identifier? h) hends
    rwa [← List.append_assoc, ← hskip, ← skipSpace_append_open, identifier?_skipSpace] at hread
  | none =>
    obtain ⟨hnone, hskip⟩ := h
    rw [skipSpace_append_open, List.append_left_inj] at hskip
    rw [← identifier?_skipSpace, skipSpace_append_open, hskip] at hnone
    refine ⟨?_, by rw [skipSpace_append_open, hskip]⟩
    rw [← identifier?_skipSpace, skipSpace_append_open, hskip]
    exact identifier?_append_open_eq_none hstray hnone other

/-- The heading of a table statement does not depend on its body. -/
theorem readHeader?_withBody {lead stray body tail : Text} {heading : TableHeading}
    (h : readHeader? (withBody lead body tail) = some (.table heading))
    (hrest : heading.rest = withBody stray body tail) (hstray : isBalanced stray = true)
    (other : Text) :
    readHeader? (withBody lead other tail) =
      some (.table ⟨heading.name, heading.ifNotExists, withBody stray other tail⟩) := by
  obtain ⟨create, table, hcreate, htable, hexists, hname⟩ := readHeader?_eq_table_iff.mp h
  rw [withBody, keyword?_append_open rfl, Option.map_eq_some_iff] at hcreate
  obtain ⟨create, hcreate, rfl⟩ := hcreate
  rw [keyword?_append_open rfl, Option.map_eq_some_iff] at htable
  obtain ⟨table, htable, rfl⟩ := htable
  have hoptional : ∀ inside, skipOptional ifNotExists? (table ++ '(' :: inside) =
      skipOptional ifNotExists? table ++ '(' :: inside := by
    intro inside
    rw [skipOptional, skipOptional, ifNotExists?_append_open]
    cases ifNotExists? table <;> rfl
  rw [hrest, hoptional] at hname
  refine readHeader?_eq_table_iff.mpr ⟨create ++ '(' :: (other ++ ')' :: tail),
    table ++ '(' :: (other ++ ')' :: tail), ?_, ?_, ?_, ?_⟩
  · rw [withBody, keyword?_append_open rfl, hcreate, Option.map_some]
  · rw [keyword?_append_open rfl, htable, Option.map_some]
  · rw [hexists, ifNotExists?_append_open, ifNotExists?_append_open, Option.isSome_map,
      Option.isSome_map]
  · rw [hoptional]
    exact readsName_append_open hstray hname _

/-- Every table statement that has a body is of this form. -/
theorem exists_holdsBody {statement : Text} {heading : TableHeading} {group : Parenthesized}
    (h : readHeader? statement = some (.table heading))
    (hgroup : parenthesized heading.rest = .ok (some group)) :
    ∃ lead, statement = withBody lead group.body group.tail ∧
      HoldsBody lead group.body group.tail := by
  obtain ⟨create, table, hcreate, htable, -, hname⟩ := readHeader?_eq_table_iff.mp h
  obtain ⟨stray, hrest, hstray, -, -⟩ := exists_of_parenthesized hgroup
  have hsought : ∃ name, skipSpace (skipOptional ifNotExists? table) = name ++ heading.rest := by
    cases hfound : heading.name with
    | none =>
      rw [hfound] at hname
      exact ⟨[], hname.2⟩
    | some name =>
      rw [hfound] at hname
      exact ⟨name, skipSpace_of_identifier? hname⟩
  obtain ⟨name, hsought⟩ := hsought
  have hskip := skipsTo_skipSpace (skipOptional ifNotExists? table)
  rw [hsought] at hskip
  obtain ⟨front, hstatement, -⟩ := (skipsTo_of_keyword? rfl hcreate).trans
    ((skipsTo_of_keyword? rfl htable).trans ((skipsTo_skipOptional table).trans hskip))
  have hform : statement = withBody (front ++ (name ++ stray)) group.body group.tail := by
    rw [hstatement, hrest, withBody]
    simp
  refine ⟨front ++ (name ++ stray), hform, heading, stray, hform ▸ h, hrest, hstray, ?_⟩
  intro other hother
  rw [hgroup] at hother
  rw [Option.some.inj (Except.ok.inj hother)]

theorem step_close_settle {scan : Scan} (h : IsReachable scan) :
    (settle scan).step ')' = scan.step ')' := by
  cases hmode : scan.mode with
  | plain => rw [settle_of_plain hmode]
  | quoted close => simp [settle, Scan.insideRun, hmode]
  | closed close =>
    have hsettled : settle scan = ⟨.plain, scan.depth⟩ := by simp [settle, Scan.insideRun, hmode]
    rw [step_close h (by rw [hsettled]), hsettled]
    rfl

variable {stray body other : Text}

theorem isBalanced_withBody (hstray : isBalanced stray = true) (h : SameLayout body other)
    (tail : Text) :
    isBalanced (withBody stray body tail) = isBalanced (withBody stray other tail) := by
  have hreachable : ∀ text, IsReachable ((deepen start).run text) :=
    fun text => isReachable_run (isReachable_of_plain rfl) text
  have hrun : ((deepen start).run body).step ')' = ((deepen start).run other).step ')' := by
    have hsettled : settle ((deepen start).run body) = settle ((deepen start).run other) :=
      settle_run_of_sameLayout h (some 1)
    rw [← step_close_settle (hreachable body), hsettled, step_close_settle (hreachable other)]
  simp only [isBalanced, withBody, run_append, run_cons,
    step_open_of_isBalanced (isReachable_run isReachable_start _) hstray, hrun]

/-- The body of a balanced statement is the text between its parentheses. -/
theorem isBalanced_of_holdsBody {tail : Text} (hstray : IsGroupless stray)
    (hwhole : ∀ group, parenthesized (withBody stray body tail) = .ok (some group) →
      group.body = body) (h : isBalanced (withBody stray body tail) = true) :
    isBalanced body = true ∧ isBalanced tail = true := by
  have hopen : ⟨'(', deepen start⟩ ∈ cells (withBody stray body tail) := by
    rw [withBody, cells, cellsFrom_append, cellsFrom,
      step_open_of_isBalanced (isReachable_run isReachable_start _) hstray.1]
    simp
  obtain ⟨group, hgroup, -⟩ := exists_of_hasBody ⟨h, _, hopen, rfl⟩
  have hbody : isBalanced body = true := by
    obtain ⟨-, -, -, hbody, -⟩ := exists_of_parenthesized hgroup
    rwa [hwhole group hgroup] at hbody
  rw [withBody, isBalanced, run_append_group hstray.1 hbody] at h
  exact ⟨hbody, h⟩

/-- Whatever the layout of its body is, a table statement is taken apart the same way. -/
theorem draft_of_sameLayout {tail : Text} (hstray : IsGroupless stray)
    (hwhole : ∀ group, parenthesized (withBody stray body tail) = .ok (some group) →
      group.body = body) (h : SameLayout body other) (left right : Text) (name : Option Text)
    (ifNotExists : Bool) (indexes : List Index) :
    (TableStatement.draft ⟨left, name, ifNotExists, withBody stray body tail⟩ indexes).toOption =
      (TableStatement.draft ⟨right, name, ifNotExists, withBody stray other tail⟩
        indexes).toOption := by
  have hsame := isBalanced_withBody hstray.1 h tail
  cases hbalanced : isBalanced (withBody stray body tail) with
  | false =>
    rw [TableStatement.draft, TableStatement.draft, parenthesized_of_unbalanced hbalanced,
      parenthesized_of_unbalanced (hsame ▸ hbalanced)]
    rfl
  | true =>
    obtain ⟨hbody, htail⟩ := isBalanced_of_holdsBody hstray hwhole hbalanced
    have hclauses : separateClauses body = .ok (pieces ',' body) :=
      separate_eq_ok_iff.mpr ⟨hbody, rfl⟩
    have hclauses' : separateClauses other = .ok (pieces ',' body) := by
      apply eq_ok_of_toOption
      rw [← separateClauses_of_sameLayout h, hclauses]
      rfl
    have hgroup : parenthesized (withBody stray body tail) = .ok (some ⟨body, tail⟩) :=
      parenthesized_append_group hstray hbody htail
    have hgroup' : parenthesized (withBody stray other tail) = .ok (some ⟨other, tail⟩) :=
      parenthesized_append_group hstray (separate_eq_ok_iff.mp hclauses').1 htail
    cases name with
    | none =>
      rw [TableStatement.draft, TableStatement.draft, hgroup, hgroup']
      rfl
    | some name =>
      rw [draft_eq_ok _ rfl hgroup hclauses, draft_eq_ok _ rfl hgroup' hclauses']

variable {definition replacement : TableStatement}

theorem gather_some_of_ok {after : List Text} {found : Option TableStatement}
    {indexes : List Index} (h : gather (some definition) after = .ok (found, indexes)) :
    found = some definition ∧
      ∀ replacement, gather (some replacement) after = .ok (some replacement, indexes) := by
  induction after generalizing indexes with
  | nil =>
    obtain ⟨rfl, rfl⟩ := Prod.mk.inj (Except.ok.inj h)
    exact ⟨rfl, fun _ => rfl⟩
  | cons statement rest ih =>
    rcases gather_cons_cases h with
      ⟨header, -, hnone, -⟩ | ⟨header, index, more, hheader, hindex, hmore, rfl⟩
    · simp at hnone
    · obtain ⟨rfl, hrest⟩ := ih hmore
      refine ⟨rfl, fun replacement => ?_⟩
      rw [gather, hheader]
      exact bind_eq_ok.mpr ⟨index, hindex, bind_eq_ok.mpr ⟨_, hrest replacement, rfl⟩⟩

/-- A table statement can be put in the place of another: the same indexes are gathered. -/
theorem gather_replaced (hdefinition : readHeader? definition.statement =
      some (.table definition.header))
    (hreplacement : readHeader? replacement.statement = some (.table replacement.header))
    {before after : List Text} {table found : Option TableStatement} {indexes : List Index}
    (h : gather table (before ++ definition.statement :: after) = .ok (found, indexes)) :
    found = some definition ∧
      gather table (before ++ replacement.statement :: after) =
        .ok (some replacement, indexes) := by
  induction before generalizing table indexes with
  | nil =>
    rw [List.nil_append] at h ⊢
    rcases gather_cons_cases h with
      ⟨header, hheader, rfl, hrest⟩ | ⟨header, -, -, hheader, -⟩
    · obtain rfl := Header.table.inj (Option.some.inj (hheader.symm.trans hdefinition))
      obtain ⟨rfl, hafter⟩ := gather_some_of_ok hrest
      rw [gather, hreplacement]
      exact ⟨rfl, hafter replacement⟩
    · simp [hdefinition] at hheader
  | cons statement rest ih =>
    rw [List.cons_append] at h ⊢
    rcases gather_cons_cases h with
      ⟨header, hheader, rfl, hrest⟩ | ⟨header, index, more, hheader, hindex, hmore, rfl⟩
    · rw [gather, hheader]
      exact ih hrest
    · obtain ⟨rfl, hrest⟩ := ih hmore
      rw [gather, hheader]
      exact ⟨rfl, bind_eq_ok.mpr ⟨index, hindex, bind_eq_ok.mpr ⟨_, hrest, rfl⟩⟩⟩

/-- A batch reads as the same table with either statement if both are taken apart alike. -/
theorem readTable_replaced (definition replacement : TableStatement)
    (hdefinition : readHeader? definition.statement = some (.table definition.header))
    (hreplacement : readHeader? replacement.statement = some (.table replacement.header))
    (hdraft : ∀ indexes, (definition.draft indexes).toOption =
      (replacement.draft indexes).toOption)
    {before after : List Text} {table : Table}
    (h : readTable (before ++ definition.statement :: after) = .ok table) :
    readTable (before ++ replacement.statement :: after) = .ok table := by
  obtain ⟨draft, hread, hcomplete⟩ := bind_eq_ok.mp h
  obtain ⟨⟨found, indexes⟩, hgather, -⟩ := bind_eq_ok.mp hread
  obtain ⟨rfl, hgather'⟩ := gather_replaced hdefinition hreplacement hgather
  rw [readTable_of_gather hgather] at h
  obtain ⟨draft, hread, hcomplete⟩ := bind_eq_ok.mp h
  rw [readTable_of_gather hgather']
  refine bind_eq_ok.mpr ⟨draft, ?_, hcomplete⟩
  apply eq_ok_of_toOption
  rw [← hdraft, hread]
  rfl

theorem toOption_eq_of_iff {α : Type} {left right : Except Fault α}
    (h : ∀ value, left = .ok value ↔ right = .ok value) : left.toOption = right.toOption := by
  cases hleft : left with
  | ok value => rw [(h value).mp hleft]
  | error fault =>
    cases hright : right with
    | ok value => simp [(h value).mpr hright] at hleft
    | error other => rfl

theorem readTable_withBody (h : SameLayout body other) {lead tail : Text}
    (hbody : HoldsBody lead body tail) (before after : List Text) :
    (readTable (before ++ withBody lead body tail :: after)).toOption =
      (readTable (before ++ withBody lead other tail :: after)).toOption := by
  obtain ⟨heading, stray, hheader, hrest, hstray, hwhole⟩ := hbody
  have hheader' := readHeader?_withBody hheader hrest hstray.1 other
  rw [hrest] at hwhole
  have hdraft := draft_of_sameLayout hstray hwhole h (withBody lead body tail)
    (withBody lead other tail) heading.name heading.ifNotExists
  rw [← hrest] at hdraft
  apply toOption_eq_of_iff
  intro table
  constructor
  · exact readTable_replaced ⟨_, heading⟩ ⟨_, _⟩ hheader hheader' hdraft
  · exact readTable_replaced ⟨_, _⟩ ⟨_, heading⟩ hheader' hheader
      fun indexes => (hdraft indexes).symm

/-- Layout does not matter. Two bodies that differ in it only are split into the same clauses
or are both refused. Every table statement with the one holds it between the parentheses of
its body, and in every batch the same table is read with the other there, or none is. -/
theorem readTable_of_sameLayout {body other : Text} (h : SameLayout body other) :
    (separateClauses body).toOption = (separateClauses other).toOption ∧
    (∀ statement heading tail, readHeader? statement = some (.table heading) →
      parenthesized heading.rest = .ok (some ⟨body, tail⟩) →
      ∃ lead, statement = withBody lead body tail ∧ HoldsBody lead body tail) ∧
    ∀ lead tail, HoldsBody lead body tail → ∀ before after,
      (readTable (before ++ withBody lead body tail :: after)).toOption =
        (readTable (before ++ withBody lead other tail :: after)).toOption := by
  refine ⟨separateClauses_of_sameLayout h, ?_, ?_⟩
  · intro statement heading tail hheader hgroup
    exact exists_holdsBody hheader hgroup
  · intro lead tail hbody before after
    exact readTable_withBody h hbody before after

def spacedBody : Text := "a text, [b ,] int ".toList

def crowdedBody : Text := "a\t\n text,[b ,] int \u3000".toList

theorem readTable_of_sameLayout_crowdedBody :
    SameLayout spacedBody crowdedBody ∧
    HoldsBody "CREATE TABLE t ".toList spacedBody " STRICT".toList ∧
    (separateClauses spacedBody).toOption = some ["a text".toList, "[b ,] int".toList] ∧
    (separateClauses spacedBody).toOption = (separateClauses crowdedBody).toOption ∧
    (readTable ["CREATE INDEX i ON t (a)".toList,
        withBody "CREATE TABLE t ".toList spacedBody " STRICT".toList]).toOption.isSome = true ∧
    (readTable ["CREATE INDEX i ON t (a)".toList,
        withBody "CREATE TABLE t ".toList spacedBody " STRICT".toList]).toOption =
      (readTable ["CREATE INDEX i ON t (a)".toList,
        withBody "CREATE TABLE t ".toList crowdedBody " STRICT".toList]).toOption := by
  have hreplace : LayoutEdit spacedBody "a\t\n text, [b ,] int ".toList :=
    @LayoutEdit.replace "a".toList " ".toList "\t\n ".toList rfl (by decide)
      (List.all_eq_true.mp rfl) (by decide) (List.all_eq_true.mp rfl) "text, [b ,] int ".toList
  have hzero : (start.run "a\t\n text".toList).depth = some 0 := by decide +kernel
  have htop : EndsTopLevel "a\t\n text".toList := by
    refine ⟨rfl, fun depth hdepth => ?_⟩
    rw [hzero] at hdepth
    exact (Option.some.inj hdepth).symm
  have hcomma : LayoutEdit "a\t\n text,[b ,] int ".toList "a\t\n text, [b ,] int ".toList :=
    @LayoutEdit.insert "a\t\n text,".toList " ".toList "[b ,] int ".toList
      (.afterComma htop _) (List.all_eq_true.mp rfl)
  have hend : LayoutEdit "a\t\n text,[b ,] int ".toList crowdedBody :=
    @LayoutEdit.insert "a\t\n text,[b ,] int ".toList "\u3000".toList [] (.back _)
      (List.all_eq_true.mp rfl)
  have hsame : SameLayout spacedBody crowdedBody :=
    .trans _ _ _ (.rel _ _ hreplace) (.trans _ _ _ (.symm _ _ (.rel _ _ hcomma)) (.rel _ _ hend))
  have hspace : IsGroupless " ".toList := isGroupless_of_blank (List.all_eq_true.mp rfl)
  have hgroup : parenthesized (withBody " ".toList spacedBody " STRICT".toList) =
      .ok (some ⟨spacedBody, " STRICT".toList⟩) :=
    parenthesized_append_group hspace (by decide +kernel) (by decide +kernel)
  have hheader : readHeader? (withBody "CREATE TABLE t ".toList spacedBody " STRICT".toList) =
      some (.table ⟨some "t".toList, false, withBody " ".toList spacedBody " STRICT".toList⟩) := by
    decide +kernel
  obtain ⟨hclauses, hform, htable⟩ := readTable_of_sameLayout hsame
  obtain ⟨lead, hlead, hbody⟩ := hform _ _ _ hheader hgroup
  rw [withBody, withBody, List.append_left_inj] at hlead
  subst hlead
  exact ⟨hsame, hbody, by decide +kernel, hclauses, by decide +kernel,
    htable _ _ hbody ["CREATE INDEX i ON t (a)".toList] []⟩

end SqliteSchema.Proofs.TableLayouts
