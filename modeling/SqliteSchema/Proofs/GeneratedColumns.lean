import SqliteSchema.Proofs.ModifierSteps
import SqliteSchema.Proofs.TableReading

/-!
Which columns can be written. A column clause is searched for a generated value
twice: once among all of its tokens, and once as its modifiers are read, which
passes over the name of a constraint. The two searches disagree exactly where a
constraint has a name that would state a generated value and nothing else does.
-/
namespace SqliteSchema.Proofs.GeneratedColumns

open PlainText Quoting ClauseTokens Faults ColumnModifiers ColumnDefinitions TableDefinitions
  KeywordTokens ModifierSteps TableReading

/-- Some token states a generated value at a place of the given kind: as the name
of a constraint or anywhere else. The flag says whether the first token is such a name. -/
def findsGenerated (asName named : Bool) : List Token → Bool
  | [] => false
  | token :: rest =>
      (named == asName && opensGenerated token rest) ||
        findsGenerated asName (!named && token.spells "CONSTRAINT") rest

/-- A column clause whose only token that states a generated value is the name of a constraint. -/
def isMistaken (clause : Text) : Bool :=
  match tokensOf clause with
  | [] => false
  | _ :: rest => findsGenerated true false rest && !findsGenerated false false rest

theorem mentionsGenerated_eq (named : Bool) (tokens : List Token) :
    mentionsGenerated tokens =
      (findsGenerated true named tokens || findsGenerated false named tokens) := by
  induction tokens generalizing named with
  | nil => rfl
  | cons token rest ih =>
    rw [mentionsGenerated, findsGenerated, findsGenerated,
      ih (!named && token.spells "CONSTRAINT")]
    cases named <;> simp <;> cases opensGenerated token rest <;> simp

def IsSilent (token : Token) : Prop :=
  token.spells "GENERATED" = false ∧ token.spells "AS" = false ∧
    token.spells "CONSTRAINT" = false

theorem isSilent_of_not_isReserved {token : Token} (h : isReserved token = false) :
    IsSilent token :=
  ⟨spells_of_not_isReserved h (by decide), spells_of_not_isReserved h (by decide),
    spells_of_not_isReserved h (by decide)⟩

theorem isSilent_of_isGroup {token : Token} (h : token.isGroup = true) : IsSilent token := by
  have hkind : token.kind ≠ .word := by
    rw [eq_of_beq h]
    decide
  exact ⟨spells_of_kind_ne hkind _, spells_of_kind_ne hkind _, spells_of_kind_ne hkind _⟩

def silentKeywords : List String :=
  ["NOT", "NULL", "PRIMARY", "KEY", "UNIQUE", "AUTOINCREMENT", "DEFAULT"]

theorem isSilent_of_spells {token : Token} {keyword : String} (h : token.spells keyword = true)
    (hkeyword : keyword ∈ silentKeywords) : IsSilent token := by
  have hall : ∀ keyword ∈ silentKeywords,
      sameLetters keyword.toList "GENERATED".toList = false ∧
        sameLetters keyword.toList "AS".toList = false ∧
        sameLetters keyword.toList "CONSTRAINT".toList = false := by
    decide +kernel
  obtain ⟨hgenerated, has, hconstraint⟩ := hall keyword hkeyword
  exact ⟨spells_of_spells h hgenerated, spells_of_spells h has, spells_of_spells h hconstraint⟩

theorem opensGenerated_of_isSilent {token : Token} (h : IsSilent token) (rest : List Token) :
    opensGenerated token rest = false := by
  simp [opensGenerated, h.1, h.2.1]

theorem findsGenerated_cons {token : Token} (h : IsSilent token) (asName : Bool)
    (rest : List Token) :
    findsGenerated asName false (token :: rest) = findsGenerated asName false rest := by
  rw [findsGenerated, opensGenerated_of_isSilent h, h.2.2]
  simp

theorem findsGenerated_append {tokens : List Token} (h : ∀ token ∈ tokens, IsSilent token)
    (asName : Bool) (rest : List Token) :
    findsGenerated asName false (tokens ++ rest) = findsGenerated asName false rest := by
  induction tokens with
  | nil => rfl
  | cons token more ih =>
    rw [List.cons_append, findsGenerated_cons (h token (List.mem_cons_self ..))]
    apply ih
    intro other hother
    exact h other (List.mem_cons_of_mem _ hother)

theorem findsGenerated_cons_keyword {token : Token} {keyword next : String} {rest : List Token}
    (htoken : token.spells keyword = true) (hkeyword : keyword ∈ silentKeywords)
    (hrest : startsWith next rest = true) (hnext : next ∈ silentKeywords) :
    findsGenerated false false (token :: rest) = findsGenerated false false rest.tail := by
  rw [findsGenerated_cons (isSilent_of_spells htoken hkeyword)]
  cases rest with
  | nil => rfl
  | cons second more =>
    have hsecond : second.spells next = true := by simpa [startsWith] using hrest
    exact findsGenerated_cons (isSilent_of_spells hsecond hnext) false more

theorem isSilent_of_mem_defaultTokens {tokens : List Token} {token : Token}
    (h : token ∈ defaultTokens tokens) : IsSilent token := by
  rcases spells_null_or_of_mem_defaultTokens h with hnull | hfree
  · exact isSilent_of_spells hnull (by decide)
  · exact isSilent_of_not_isReserved hfree

theorem findsGenerated_cons_default {token : Token} (h : token.spells "DEFAULT" = true)
    (rest : List Token) :
    findsGenerated false false (token :: rest) =
      findsGenerated false false (rest.drop (defaultTokens rest).length) := by
  rw [findsGenerated_cons (isSilent_of_spells h (by decide))]
  conv_lhs => rw [← defaultTokens_append_drop rest]
  exact findsGenerated_append (fun _ => isSilent_of_mem_defaultTokens) _ _

/-- Reading the modifiers finds a generated value wherever one is stated outside names. -/
theorem contains_modifiersAfter (previous : Option Token) (tokens : List Token) :
    (modifiersAfter previous tokens).contains .generated =
      findsGenerated false false tokens := by
  fun_induction modifiersAfter previous tokens with
  | case1 => rfl
  | case2 previous token rest h ih =>
    rw [Bool.and_eq_true] at h
    rw [findsGenerated_cons_keyword h.1 (by decide) h.2 (by decide), ← ih]
    rfl
  | case3 previous token rest hnot h ih =>
    rw [Bool.and_eq_true] at h
    rw [findsGenerated_cons_keyword h.1 (by decide) h.2 (by decide), ← ih]
    rfl
  | case4 previous token rest hnot hprimary h ih =>
    rw [findsGenerated_cons (isSilent_of_spells h (by decide)), ← ih]
    rfl
  | case5 previous token rest hnot hprimary hunique h ih =>
    rw [findsGenerated_cons (isSilent_of_spells h (by decide)), ← ih]
    rfl
  | case6 previous token rest hnot hprimary hunique hauto h ih =>
    simp [findsGenerated, h]
  | case7 previous token rest hnot hprimary hunique hauto hgenerated h ih =>
    rw [ih, findsGenerated, h]
    cases rest with
    | nil => simp [hgenerated, findsGenerated]
    | cons name tail => simp [hgenerated, findsGenerated]
  | case8 previous token rest hnot hprimary hunique hauto hgenerated hname h value left hempty ih =>
    rw [Bool.and_eq_true] at h
    rw [findsGenerated_cons_default h.1, ← ih]
  | case9 previous token rest hnot hprimary hunique hauto hgenerated hname h value left hempty ih =>
    rw [Bool.and_eq_true] at h
    rw [findsGenerated_cons_default h.1, ← ih]
    rfl
  | case10 previous token rest hnot hprimary hunique hauto hgenerated hname hdefault ih =>
    rw [ih]
    simp [findsGenerated, hgenerated, hname]

theorem isSilent_of_mem_typePart {tokens : List Token} {token : Token}
    (h : token ∈ (typePart tokens).words ++ (typePart tokens).arguments.toList) :
    IsSilent token := by
  rcases List.mem_append.mp h with hword | hargument
  · rw [words_typePart] at hword
    have hplain := List.mem_takeWhile_imp hword
    simp only [Bool.and_eq_true, Bool.not_eq_true'] at hplain
    exact isSilent_of_not_isReserved hplain.2
  · exact isSilent_of_isGroup (isGroup_of_arguments (Option.mem_toList.mp hargument))

/-- No word of a type and no argument of it states a generated value. -/
theorem findsGenerated_typePart (asName : Bool) (tokens : List Token) :
    findsGenerated asName false tokens = findsGenerated asName false (typePart tokens).rest := by
  conv_lhs => rw [← typePart_append tokens]
  exact findsGenerated_append (fun _ => isSilent_of_mem_typePart) _ _

def statedName? (clause : Text) : Option Text :=
  match tokensOf clause with
  | [] => none
  | first :: rest => if findsGenerated false false rest then none else some (bareText first.text)

def plainName? (column : Column) : Option Text :=
  if column.isGenerated then none else some column.name

theorem plainName?_of_readColumn {clause : Text} {column : Column}
    (h : readColumn clause = .ok column) : plainName? column = statedName? clause := by
  obtain ⟨first, rest, size, htokens, -, rfl⟩ := exists_of_readColumn h
  unfold statedName?
  simp only [htokens, findsGenerated_typePart false rest, ← contains_modifiersAfter none]
  rfl

/-- The clause-by-clause comparison of the two searches. -/
theorem writableName?_eq (clause : Text) :
    writableName? clause = if isMistaken clause then none else statedName? clause := by
  unfold writableName? isMistaken statedName?
  cases tokensOf clause with
  | nil => rfl
  | cons first rest =>
    simp only [mentionsGenerated_eq false]
    cases findsGenerated true false rest <;> cases findsGenerated false false rest <;> rfl

theorem statedName?_of_isMistaken {clause : Text} (h : isMistaken clause = true) :
    (statedName? clause).isSome = true := by
  unfold isMistaken at h
  unfold statedName?
  split at h
  · simp at h
  · simp_all

/-- As many clauses lose their name as are mistaken. -/
theorem length_filterMap_statedName? (clauses : List Text) :
    (clauses.filterMap statedName?).length =
      (clauses.filterMap writableName?).length + clauses.countP isMistaken := by
  induction clauses with
  | nil => rfl
  | cons clause rest ih =>
    have hclause := writableName?_eq clause
    cases hmistaken : isMistaken clause with
    | true =>
      obtain ⟨name, hname⟩ := Option.isSome_iff_exists.mp (statedName?_of_isMistaken hmistaken)
      rw [hmistaken, if_pos rfl] at hclause
      rw [List.filterMap_cons_some hname, List.filterMap_cons_none hclause,
        List.countP_cons_of_pos hmistaken, List.length_cons, ih]
      omega
    | false =>
      rw [hmistaken, if_neg (by simp)] at hclause
      have hcount : rest.countP isMistaken = (clause :: rest).countP isMistaken :=
        (List.countP_cons_of_neg (by simp [hmistaken])).symm
      rw [← hcount]
      cases hname : statedName? clause with
      | none =>
        rw [hname] at hclause
        rw [List.filterMap_cons_none hname, List.filterMap_cons_none hclause, ih]
      | some name =>
        rw [hname] at hclause
        rw [List.filterMap_cons_some hname, List.filterMap_cons_some hclause, List.length_cons,
          List.length_cons, ih]
        omega

theorem filterMap_of_mapM {α β γ : Type} {read : α → Except Fault β} {left : β → Option γ}
    {right : α → Option γ} (hread : ∀ item value, read item = .ok value → left value = right item)
    {items : List α} {values : List β} (h : items.mapM read = .ok values) :
    values.filterMap left = items.filterMap right := by
  induction mapM_eq_ok_iff.mp h with
  | nil => rfl
  | cons hitem hrest ih =>
    rw [List.filterMap_cons, List.filterMap_cons, hread _ _ hitem, ih (mapM_eq_ok_iff.mpr hrest)]

/-- The names of the columns that are not generated, in the order of their clauses. -/
theorem filterMap_plainName? {table : Table} (h : IsCurrent table) :
    table.columns.filterMap plainName? =
      (columnClauses table.clauses).filterMap statedName? := by
  obtain ⟨found, hfound, hmarked⟩ := readColumns_eq_ok_iff.mp h
  have hnames : found.filterMap plainName? =
      (columnClauses table.clauses).filterMap statedName? :=
    filterMap_of_mapM (fun _ _ => plainName?_of_readColumn) hfound
  rw [← hmarked, List.filterMap_map, ← hnames]
  rfl

theorem map_backticked_plainName? (columns : List Column) :
    (columns.filterMap plainName?).map backticked =
      (columns.filter fun column => !column.isGenerated).map fun column =>
        backticked column.name := by
  induction columns with
  | nil => rfl
  | cons column rest ih =>
    cases h : column.isGenerated <;> simp_all [plainName?]

theorem isNone_plainName? (column : Column) : (plainName? column).isNone = column.isGenerated := by
  unfold plainName?
  cases column.isGenerated <;> rfl

theorem isNone_writableName?_iff {clause : Text} {column : Column}
    (h : readColumn clause = .ok column) :
    (writableName? clause).isNone = column.isGenerated ↔ isMistaken clause = false := by
  rw [← isNone_plainName?, plainName?_of_readColumn h, writableName?_eq]
  cases hmistaken : isMistaken clause with
  | true =>
    have hstated := statedName?_of_isMistaken hmistaken
    simp [Option.isNone_eq_false_iff.mpr hstated]
  | false => simp

/-- Exactly the columns that are not generated can be written, in the order of their
clauses, if and only if no clause is mistaken; a clause is mistaken just when the
two searches disagree on it. -/
theorem writableColumns_eq_iff {statements : List Text} {table : Table}
    (h : readTable statements = .ok table) :
    (table.writableColumns =
        (table.columns.filter fun column => !column.isGenerated).map
          (fun column => backticked column.name) ↔
      ∀ clause ∈ columnClauses table.clauses, isMistaken clause = false) ∧
    ∀ clause ∈ columnClauses table.clauses, ∀ column, readColumn clause = .ok column →
      ((writableName? clause).isNone = column.isGenerated ↔ isMistaken clause = false) := by
  have hcurrent := (properties_of_readTable h).2.1
  refine ⟨?_, fun clause _ column hcolumn => isNone_writableName?_iff hcolumn⟩
  rw [← map_backticked_plainName?, filterMap_plainName? hcurrent, Table.writableColumns]
  constructor
  · intro heq
    have hlength := congrArg List.length heq
    rw [List.length_map, List.length_map, length_filterMap_statedName?] at hlength
    have hcount : (columnClauses table.clauses).countP isMistaken = 0 := by omega
    simpa [List.countP_eq_zero] using hcount
  · intro hclauses
    congr 1
    refine List.filterMap_congr ?_
    intro clause hclause
    rw [writableName?_eq, hclauses clause hclause]
    rfl

def computedBatch : List Text :=
  ["CREATE TABLE t (a int, b int GENERATED ALWAYS AS (a + 1), c text CONSTRAINT k UNIQUE)".toList]

def computedTable : Table where
  name := ['t']
  ifNotExists := false
  clauses := ["a int".toList, "b int GENERATED ALWAYS AS (a + 1)".toList,
    "c text CONSTRAINT k UNIQUE".toList]
  columns := [
    ⟨['a'], "int".toList, "int".toList, .unsized, none, true, false, false, false, false⟩,
    ⟨['b'], "int".toList, "int".toList, .unsized, none, true, false, false, false, true⟩,
    ⟨['c'], "text".toList, "text".toList, .unsized, none, true, false, true, false, false⟩]
  options := none
  indexes := []

theorem writableColumns_computedTable :
    readTable computedBatch = .ok computedTable ∧
    computedTable.writableColumns =
      (computedTable.columns.filter fun column => !column.isGenerated).map
        (fun column => backticked column.name) := by
  have hread : readTable computedBatch = .ok computedTable :=
    eq_ok_of_toOption (by decide +kernel)
  exact ⟨hread, (writableColumns_eq_iff hread).1.mpr (by decide +kernel)⟩

def namedBatch : List Text := ["CREATE TABLE t (a int CONSTRAINT generated NOT NULL)".toList]

def namedTable : Table where
  name := ['t']
  ifNotExists := false
  clauses := ["a int CONSTRAINT generated NOT NULL".toList]
  columns := [
    ⟨['a'], "int".toList, "int".toList, .unsized, none, false, false, false, false, false⟩]
  options := none
  indexes := []

/-- A constraint called generated hides a column that is not generated. -/
theorem writableColumns_namedTable :
    readTable namedBatch = .ok namedTable ∧
    namedTable.writableColumns ≠
      (namedTable.columns.filter fun column => !column.isGenerated).map
        (fun column => backticked column.name) :=
  ⟨eq_ok_of_toOption (by decide +kernel), by decide +kernel⟩

end SqliteSchema.Proofs.GeneratedColumns
