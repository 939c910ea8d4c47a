import SqliteSchema.Proofs.ConstraintSyntax
import SqliteSchema.Proofs.HeaderNames
import SqliteSchema.Proofs.TokenRows

/-!
Statement headers as data: the letters of their keywords, the spaces between their parts, the
parts that may be missing, and names of every form. Such a header is read back in front of
everything that goes on with a parenthesis, and reading stops right behind its last name. A
name may be spelled like any of the keywords.
-/
namespace SqliteSchema.Proofs.HeaderLayouts

open PlainText Quoting ClauseTokens StatementHeaders KeywordTokens QuotedRuns HeaderNames
  TokenReading ColumnSyntax TokenRows

open ConstraintSyntax (Spelling)

abbrev Space := { text : Text // ∀ c ∈ text, isHeaderSpace c = true }

abbrev Gap := { text : Text // text ≠ [] ∧ ∀ c ∈ text, isHeaderSpace c = true }

abbrev Name := { text : Text // IsIdentifier text }

def Gap.space (gap : Gap) : Space := ⟨gap.val, gap.property.2⟩

structure Condition where
  ifWord : Spelling "IF"
  afterIf : Gap
  notWord : Spelling "NOT"
  afterNot : Gap
  existsWord : Spelling "EXISTS"
  after : Gap

def Condition.text (condition : Condition) : Text :=
  condition.ifWord ++ (condition.afterIf ++ (condition.notWord ++ (condition.afterNot ++
    (condition.existsWord ++ condition.after.val))))

structure TableLayout where
  before : Space
  create : Spelling "CREATE"
  afterCreate : Gap
  table : Spelling "TABLE"
  afterTable : Gap
  condition : Option Condition
  name : Name

def TableLayout.text (layout : TableLayout) : Text :=
  layout.before ++ (layout.create ++ (layout.afterCreate ++ (layout.table ++
    (layout.afterTable ++ (layout.condition.toList.flatMap Condition.text ++ layout.name.val)))))

structure UniqueWord where
  word : Spelling "UNIQUE"
  after : Gap

def UniqueWord.text (unique : UniqueWord) : Text := unique.word ++ unique.after.val

structure IndexLayout where
  before : Space
  create : Spelling "CREATE"
  afterCreate : Gap
  unique : Option UniqueWord
  index : Spelling "INDEX"
  afterIndex : Gap
  condition : Option Condition
  name : Name
  afterName : Gap
  on : Spelling "ON"
  afterOn : Gap
  table : Name

def IndexLayout.text (layout : IndexLayout) : Text :=
  layout.before ++ (layout.create ++ (layout.afterCreate ++
    (layout.unique.toList.flatMap UniqueWord.text ++ (layout.index ++ (layout.afterIndex ++
      (layout.condition.toList.flatMap Condition.text ++ (layout.name ++ (layout.afterName ++
        (layout.on ++ (layout.afterOn ++ layout.table.val))))))))))

theorem skipSpace_append (before : Space) (text : Text) :
    skipSpace (before ++ text) = skipSpace text :=
  List.dropWhile_append_of_pos before.property

theorem keyword?_space (keyword : String) (before : Space) (text : Text) :
    keyword? keyword (before ++ text) = keyword? keyword text := by
  rw [keyword?, keyword?, skipSpace_append]

theorem identifier?_space (before : Space) (text : Text) :
    identifier? (before ++ text) = identifier? text := by
  rw [identifier?, identifier?, skipSpace_append]

theorem ifNotExists?_space (before : Space) (text : Text) :
    ifNotExists? (before ++ text) = ifNotExists? text := by
  rw [ifNotExists?, ifNotExists?, keyword?_space]

theorem isBlank_of_isHeaderSpace {c : Char} (h : isHeaderSpace c = true) : isBlank c = true := by
  simp only [isHeaderSpace, Bool.or_eq_true, beq_iff_eq] at h
  rcases h with ((rfl | rfl) | rfl) | rfl <;> decide

/-- What begins with a space goes on with no keyword. -/
theorem extendsKeyword_of_isHeaderSpace {c : Char} (h : isHeaderSpace c = true) :
    extendsKeyword c = false := by
  simp only [isHeaderSpace, Bool.or_eq_true, beq_iff_eq] at h
  rcases h with ((rfl | rfl) | rfl) | rfl <;> decide

theorem any_extendsKeyword_gap (gap : Gap) (rest : Text) :
    (gap ++ rest).head?.any extendsKeyword = false := by
  obtain ⟨text, hfilled, hspace⟩ := gap
  obtain ⟨c, more, rfl⟩ := List.exists_cons_of_ne_nil hfilled
  exact extendsKeyword_of_isHeaderSpace (hspace c (List.mem_cons_self ..))

/-- What begins with a space goes on with no name. -/
theorem not_extends_of_isHeaderSpace {c : Char} (h : isHeaderSpace c = true) :
    isBareChar c = false ∧ c ≠ '\x60' ∧ c ≠ '\x22' := by
  refine ⟨?_, ?_, ?_⟩
  · rw [Bool.eq_false_iff]
    intro hbare
    rw [isHeaderSpace_of_isBareChar hbare] at h
    exact Bool.noConfusion h
  · rintro rfl
    exact absurd h (by decide)
  · rintro rfl
    exact absurd h (by decide)

theorem endsName_gap (gap : Gap) (rest : Text) : EndsName (gap ++ rest) := by
  obtain ⟨text, hfilled, hspace⟩ := gap
  obtain ⟨first, more, rfl⟩ := List.exists_cons_of_ne_nil hfilled
  intro c hc
  obtain rfl : first = c := by simpa using hc
  exact not_extends_of_isHeaderSpace (hspace first (List.mem_cons_self ..))

/-- Spaces and a parenthesis behind a name end it, and NOT does not begin there. -/
theorem of_head_skipSpace {rest : Text} (h : (skipSpace rest).head? = some '(') :
    EndsName rest ∧ keyword? "NOT" rest = none := by
  obtain ⟨inside, hinside⟩ := List.head?_eq_some_iff.mp h
  constructor
  · intro c hc
    obtain ⟨more, rfl⟩ := List.head?_eq_some_iff.mp hc
    cases hspace : isHeaderSpace c with
    | true => exact not_extends_of_isHeaderSpace hspace
    | false =>
      rw [skipSpace_of_head hspace] at hinside
      obtain rfl := (List.cons.inj hinside).1
      exact ⟨by decide +kernel, by decide, by decide⟩
  · have hopen : keyword? "NOT" ('(' :: inside) = none :=
      keyword?_eq_none 'N' rfl rfl (by decide) inside
    rw [keyword?, skipSpace_of_head rfl] at hopen
    rw [keyword?, hinside]
    exact hopen

/-- A spelled keyword begins with the first letter of the keyword in either case. -/
theorem exists_first {keyword : String} (hkeyword : isCapital keyword = true)
    (spelling : Spelling keyword) :
    ∃ c more, spelling.val = c :: more ∧ isHeaderSpace c = false ∧
      some c.toLower = keyword.toList.head?.map Char.toLower := by
  obtain ⟨text, hsame⟩ := spelling
  obtain ⟨hfilled, hword⟩ := isWord_of_sameLetters hkeyword hsame
  obtain ⟨c, more, rfl⟩ := List.exists_cons_of_ne_nil hfilled
  refine ⟨c, more, rfl, ?_, ?_⟩
  · rw [Bool.eq_false_iff]
    intro hspace
    have hvisible := isBlank_of_isWordChar (hword c (List.mem_cons_self ..))
    rw [isBlank_of_isHeaderSpace hspace] at hvisible
    exact Bool.noConfusion hvisible
  · have hhead := congrArg List.head? (eq_of_beq hsame)
    rwa [List.head?_map, List.head?_map] at hhead

/-- A keyword is read in whatever letters it is spelled. -/
theorem keyword?_spelling {keyword : String} (hkeyword : isCapital keyword = true)
    (before : Space) (spelling : Spelling keyword) {rest : Text}
    (hrest : rest.head?.any extendsKeyword = false) :
    keyword? keyword (before ++ (spelling ++ rest)) = some rest := by
  obtain ⟨c, more, htext, hvisible, -⟩ := exists_first hkeyword spelling
  have hskip : skipSpace (spelling ++ rest) = spelling ++ rest := by
    rw [htext]
    exact skipSpace_of_head hvisible _
  have hlength : keyword.toList.length = spelling.val.length := by
    have hlengths := congrArg List.length (eq_of_beq spelling.property)
    simpa using hlengths.symm
  rw [keyword?_space, keyword?, hskip, hlength]
  simp [spelling.property, hrest]

/-- A keyword that begins with another letter is not read. -/
theorem keyword?_other {keyword other : String} (hother : isCapital other = true)
    (hne : keyword.toList.head?.map Char.toLower ≠ other.toList.head?.map Char.toLower)
    (hkeyword : keyword.toList ≠ []) (before : Space) (spelling : Spelling other) (rest : Text) :
    keyword? keyword (before ++ (spelling ++ rest)) = none := by
  obtain ⟨c, more, htext, hvisible, hfirst⟩ := exists_first hother spelling
  obtain ⟨letter, letters, hletters⟩ := List.exists_cons_of_ne_nil hkeyword
  rw [keyword?_space, htext, List.cons_append]
  apply keyword?_eq_none letter hletters hvisible
  intro hsame
  rw [← hfirst, hsame, hletters] at hne
  exact hne rfl

variable {keyword : String}

theorem keyword?_gap (hkeyword : isCapital keyword = true) (before : Space)
    (spelling : Spelling keyword) (gap : Gap) (rest : Text) :
    keyword? keyword (before ++ (spelling ++ (gap ++ rest))) = some (gap ++ rest) :=
  keyword?_spelling hkeyword before spelling (any_extendsKeyword_gap gap rest)

/-- Behind EXISTS the gap is left to the reader of the name. -/
theorem ifNotExists?_condition (before : Space) (condition : Condition) (rest : Text) :
    ifNotExists? (before ++ (condition.text ++ rest)) = some (condition.after ++ rest) := by
  have hif := keyword?_gap (by decide) before condition.ifWord condition.afterIf
  have hnot := keyword?_gap (by decide) condition.afterIf.space condition.notWord
    condition.afterNot
  have hexists := keyword?_gap (by decide) condition.afterNot.space condition.existsWord
    condition.after rest
  simp only [ifNotExists?, Condition.text, List.append_assoc, hif, Option.bind_eq_bind,
    Option.bind_some]
  exact (congrArg (Option.bind · (keyword? "EXISTS")) (hnot _)).trans hexists

/-- A name is found behind IF NOT EXISTS and without it, even a name that is spelled IF. -/
theorem identifier?_condition (before : Space) (condition : Option Condition) (name : Name)
    {rest : Text} (hrest : EndsName rest) (hnot : keyword? "NOT" rest = none) :
    let text := before ++ (condition.toList.flatMap Condition.text ++ (name ++ rest))
    (ifNotExists? text).isSome = condition.isSome ∧
      identifier? (skipOptional ifNotExists? text) = some (name.val, rest) := by
  have hname : identifier? (name ++ rest) = some (name.val, rest) :=
    identifier?_append name.property hrest
  cases condition with
  | none =>
    have hnone : ifNotExists? (before ++ (name ++ rest)) = none := by
      rw [ifNotExists?_space, ifNotExists?_identifier name.property hrest hnot]
    simp [skipOptional, hnone, identifier?_space, hname]
  | some condition =>
    have hsome := ifNotExists?_condition before condition (name ++ rest)
    have hfound : identifier? (condition.after ++ (name ++ rest)) = some (name.val, rest) :=
      (identifier?_space condition.after.space _).trans hname
    simp [skipOptional, hsome, hfound]

/-- A name IF could begin IF NOT EXISTS if the text behind it went on with NOT. -/
theorem readHeader?_tableLayout (layout : TableLayout) {rest : Text} (hrest : EndsName rest)
    (hnot : keyword? "NOT" rest = none) :
    readHeader? (layout.text ++ rest) =
      some (.table ⟨some layout.name.val, layout.condition.isSome, rest⟩) := by
  obtain ⟨before, create, afterCreate, table, afterTable, condition, name⟩ := layout
  have hcreate := keyword?_gap (by decide) before create afterCreate
  have htable := keyword?_gap (by decide) afterCreate.space table afterTable
  obtain ⟨hcondition, hname⟩ := identifier?_condition afterTable.space condition name hrest hnot
  simp only [TableLayout.text, List.append_assoc]
  exact readHeader?_eq_table_iff.mpr ⟨_, _, hcreate _, htable _, hcondition.symm, hname⟩

/-- The parts of an index header in their order. -/
theorem readHeader?_of_index {statement create index afterName on name table rest : Text}
    (hcreate : keyword? "CREATE" statement = some create)
    (htable : keyword? "TABLE" create = none)
    (hindex : keyword? "INDEX" (skipOptional (keyword? "UNIQUE") create) = some index)
    (hname : identifier? (skipOptional ifNotExists? index) = some (name, afterName))
    (hon : keyword? "ON" afterName = some on) (hends : identifier? on = some (table, rest)) :
    readHeader? statement =
      some (.index ⟨name, table, (keyword? "UNIQUE" create).isSome, rest⟩) := by
  simp only [readHeader?, tableHeader?, indexHeader?, hcreate, htable, hindex, hname, hon, hends,
    Option.bind_eq_bind, Option.bind_some, Option.bind_none]
  rfl

/-- Behind CREATE there is UNIQUE or not, and TABLE is not there. -/
theorem keyword?_unique (before : Gap) (unique : Option UniqueWord) (index : Spelling "INDEX")
    (after : Gap) (rest : Text) :
    let text := before ++ (unique.toList.flatMap UniqueWord.text ++ (index ++ (after ++ rest)))
    keyword? "TABLE" text = none ∧ (keyword? "UNIQUE" text).isSome = unique.isSome ∧
      keyword? "INDEX" (skipOptional (keyword? "UNIQUE") text) = some (after ++ rest) := by
  have hindex : ∀ before : Gap, keyword? "INDEX" (before ++ (index ++ (after ++ rest))) =
      some (after ++ rest) :=
    fun before => keyword?_gap (by decide) before.space index after rest
  cases unique with
  | none =>
    have hother : ∀ keyword ∈ ["TABLE", "UNIQUE"],
        keyword? keyword (before ++ (index ++ (after ++ rest))) = none := by
      intro keyword hkeyword
      refine keyword?_other (by decide) ?_ ?_ before.space index _ <;>
        · revert keyword
          decide
    have htable := hother "TABLE" (by decide)
    have hunique := hother "UNIQUE" (by decide)
    simp [skipOptional, htable, hunique, hindex]
  | some unique =>
    simp only [Option.toList_some, List.flatMap_cons, List.flatMap_nil, List.append_nil,
      UniqueWord.text, List.append_assoc]
    have hunique : keyword? "UNIQUE" (before ++ (unique.word ++ (unique.after ++
        (index ++ (after ++ rest))))) = some (unique.after.val ++ (index ++ (after ++ rest))) :=
      keyword?_gap (by decide) before.space unique.word unique.after _
    refine ⟨?_, by rw [hunique]; rfl, ?_⟩
    · exact keyword?_other (by decide) (by decide) (by decide) before.space unique.word _
    · simp only [skipOptional, hunique, Option.getD_some]
      exact hindex unique.after

theorem readHeader?_indexLayout (layout : IndexLayout) {rest : Text} (hrest : EndsName rest) :
    readHeader? (layout.text ++ rest) =
      some (.index ⟨layout.name.val, layout.table.val, layout.unique.isSome, rest⟩) := by
  obtain ⟨before, create, afterCreate, unique, index, afterIndex, condition, name, afterName, on,
    afterOn, table⟩ := layout
  have hcreate := keyword?_gap (by decide) before create afterCreate
  have hunique := keyword?_unique afterCreate unique index afterIndex
  have hon := keyword?_gap (by decide) afterName.space on afterOn (table.val ++ rest)
  have htable : identifier? (afterOn.val ++ (table.val ++ rest)) = some (table.val, rest) :=
    (identifier?_space afterOn.space _).trans (identifier?_append table.property hrest)
  -- What follows the name of the index is ON, so a name that is spelled IF stays a name.
  have hnot : keyword? "NOT" (afterName.val ++ (on.val ++ (afterOn.val ++ (table.val ++ rest)))) =
      none := keyword?_other (by decide) (by decide) (by decide) afterName.space on _
  obtain ⟨-, hname⟩ := identifier?_condition afterIndex.space condition name
    (endsName_gap afterName _) hnot
  have hread := readHeader?_of_index (hcreate _) (hunique _).1 (hunique _).2.2 hname hon htable
  rw [(hunique _).2.1] at hread
  simp only [IndexLayout.text, List.append_assoc]
  exact hread

/-- Every layout of a header is read back in front of a body, and reading stops right behind its
last name. The parenthesis that the body begins with is enough to end both headers. -/
theorem readHeader?_layout {rest : Text} (hrest : (skipSpace rest).head? = some '(') :
    (∀ layout : TableLayout, readHeader? (layout.text ++ rest) =
      some (.table ⟨some layout.name.val, layout.condition.isSome, rest⟩)) ∧
    (∀ layout : IndexLayout, readHeader? (layout.text ++ rest) =
      some (.index ⟨layout.name.val, layout.table.val, layout.unique.isSome, rest⟩)) := by
  obtain ⟨hends, hnot⟩ := of_head_skipSpace hrest
  constructor
  · intro layout
    exact readHeader?_tableLayout layout hends hnot
  · intro layout
    exact readHeader?_indexLayout layout hends

theorem readHeader?_layout_keywordNames :
    (skipSpace "\r\n(a)".toList).head? = some '(' ∧
    readHeader? "\n create\tTABLE\r\nif nOT  exists\tNOT\r\n(a)".toList =
      some (.table ⟨some "NOT".toList, true, "\r\n(a)".toList⟩) ∧
    readHeader? "CREATE unique\nIndex IF On\t\"a\"\"b\"\r\n(a)".toList =
      some (.index ⟨"IF".toList, "\"a\"\"b\"".toList, true, "\r\n(a)".toList⟩) := by
  have hrest : (skipSpace "\r\n(a)".toList).head? = some '(' := by decide
  have hnot : IsIdentifier "NOT".toList :=
    .bare 'N' "OT".toList (List.all_eq_true.mp (by decide +kernel))
  have hif : IsIdentifier "IF".toList :=
    .bare 'I' "F".toList (List.all_eq_true.mp (by decide +kernel))
  obtain ⟨htable, hindex⟩ := readHeader?_layout hrest
  refine ⟨hrest, ?_, ?_⟩
  · exact htable
      { before := ⟨"\n ".toList, List.all_eq_true.mp rfl⟩
        create := ⟨"create".toList, by decide⟩
        afterCreate := ⟨"\t".toList, by decide, List.all_eq_true.mp rfl⟩
        table := ⟨"TABLE".toList, by decide⟩
        afterTable := ⟨"\r\n".toList, by decide, List.all_eq_true.mp rfl⟩
        condition := some
          { ifWord := ⟨"if".toList, by decide⟩
            afterIf := ⟨" ".toList, by decide, List.all_eq_true.mp rfl⟩
            notWord := ⟨"nOT".toList, by decide⟩
            afterNot := ⟨"  ".toList, by decide, List.all_eq_true.mp rfl⟩
            existsWord := ⟨"exists".toList, by decide⟩
            after := ⟨"\t".toList, by decide, List.all_eq_true.mp rfl⟩ }
        name := ⟨"NOT".toList, hnot⟩ }
  · exact hindex
      { before := ⟨[], List.all_eq_true.mp rfl⟩
        create := ⟨"CREATE".toList, by decide⟩
        afterCreate := ⟨" ".toList, by decide, List.all_eq_true.mp rfl⟩
        unique := some ⟨⟨"unique".toList, by decide⟩,
          ⟨"\n".toList, by decide, List.all_eq_true.mp rfl⟩⟩
        index := ⟨"Index".toList, by decide⟩
        afterIndex := ⟨" ".toList, by decide, List.all_eq_true.mp rfl⟩
        condition := none
        name := ⟨"IF".toList, hif⟩
        afterName := ⟨" ".toList, by decide, List.all_eq_true.mp rfl⟩
        on := ⟨"On".toList, by decide⟩
        afterOn := ⟨"\t".toList, by decide, List.all_eq_true.mp rfl⟩
        table := ⟨"\"a\"\"b\"".toList, .doubleQuoted "a\"b".toList⟩ }

end SqliteSchema.Proofs.HeaderLayouts
