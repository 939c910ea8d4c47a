import Mathlib.Data.List.Forall2
import SqliteSchema.Proofs.TableReading
import SqliteSchema.Proofs.TokenSlices
import SqliteSchema.Proofs.WrittenConstraints

/-!
The columns that a constraint lists. A group of a balanced clause holds a balanced text, so
splitting it at its commas cannot fail and no list of columns is lost to a fault. Every entry
that is left between the commas has a first token, and the list has its bare name in the
place of the entry.
-/
namespace SqliteSchema.Proofs.ListedEntries

open PlainText Quoting DelimiterScan ClauseSplitting ClauseTokens TableConstraints
  TableDefinitions NormalPieces PieceTokens KeywordTokens TableReading WrittenConstraints
  TokenRows TokenSlices

def Begins (entry name : Text) : Prop :=
  ∃ first rest, tokensOf entry = first :: rest ∧ name = bareText first.text

/-- The inside of a group is split into entries, one for each run of tokens between the commas
that stand outside quotes and groups, and each entry has its name in the list. -/
def IsListOf (inside : Text) (names : List Text) : Prop :=
  ∃ entries, separateClauses inside = .ok entries ∧
    entries.map (fun entry => (tokensOf entry).map shape) =
      (clauseRuns (tokensOf inside)).map (List.map tidyShape) ∧
    List.Forall₂ Begins entries names

/-- The keywords of a constraint that lists columns, perhaps behind its name, with the group
right behind them and the kind that the constraint is with its list. -/
inductive ListsIn : List Token → (List Text → ConstraintKind) → Token → Prop
  | primaryKey {primary key group : Token} (hprimary : primary.spells "PRIMARY" = true)
      (hkey : key.spells "KEY" = true) (hgroup : group.isGroup = true) (rest : List Token) :
      ListsIn (primary :: key :: group :: rest) .primaryKey group
  | unique {keyword group : Token} (hkeyword : keyword.spells "UNIQUE" = true)
      (hgroup : group.isGroup = true) (rest : List Token) :
      ListsIn (keyword :: group :: rest) .unique group
  | named {keyword name group : Token} {tokens : List Token} {kind : List Text → ConstraintKind}
      (hkeyword : keyword.spells "CONSTRAINT" = true) (hname : name.isName = true)
      (h : ListsIn tokens kind group) : ListsIn (keyword :: name :: tokens) kind group

variable {clause inside : Text} {group : Token}

/-- No entry is left without a token. -/
theorem exists_tokensOf_of_mem_pieces (hinside : isBalanced inside = true) {entry : Text}
    (hentry : entry ∈ pieces ',' inside) : ∃ first rest, tokensOf entry = first :: rest := by
  have hrun : (tokensOf entry).map shape ∈
      (clauseRuns (tokensOf inside)).map (List.map tidyShape) := by
    rw [← map_shape_pieces hinside]
    exact List.mem_map_of_mem hentry
  obtain ⟨run, hmem, hshape⟩ := List.mem_map.mp hrun
  have hfilled : isFilled run = true := (List.mem_filter.mp hmem).2
  apply List.exists_cons_of_ne_nil
  intro hempty
  rw [hempty, List.map_nil, List.map_eq_nil_iff] at hshape
  rw [hshape] at hfilled
  exact Bool.noConfusion hfilled

theorem forall₂_entryName? {entries : List Text}
    (h : ∀ entry ∈ entries, ∃ first rest, tokensOf entry = first :: rest) :
    List.Forall₂ Begins entries (entries.filterMap entryName?) := by
  induction entries with
  | nil => exact .nil
  | cons entry more ih =>
    obtain ⟨⟨first, rest, htokens⟩, hmore⟩ := List.forall_mem_cons.mp h
    have hname : entryName? entry = some (bareText first.text) := by simp [entryName?, htokens]
    rw [List.filterMap_cons_some hname]
    exact .cons ⟨first, rest, htokens, rfl⟩ (ih hmore)

theorem isListOf_pieces (hinside : isBalanced inside = true) :
    IsListOf inside ((pieces ',' inside).filterMap entryName?) := by
  have hnames := forall₂_entryName? fun entry => exists_tokensOf_of_mem_pieces hinside
  exact ⟨_, separate_eq_ok_iff.mpr ⟨hinside, rfl⟩, map_shape_pieces hinside, hnames⟩

theorem isBalanced_inside (hclause : isBalanced clause = true) (hmem : group ∈ tokensOf clause)
    (hgroup : group.isGroup = true) : isBalanced group.inside = true := by
  have hkind : group.kind = .group := eq_of_beq hgroup
  obtain ⟨inside, hinside, htext⟩ := exists_parenthesize_of_mem hclause hmem hkind
  rw [inside_of_group hkind htext, hinside]

theorem isListOf_groupNames (hinside : isBalanced group.inside = true) :
    IsListOf group.inside (groupNames group) := by
  have hsplit : separateClauses group.inside = .ok (pieces ',' group.inside) :=
    separate_eq_ok_iff.mpr ⟨hinside, rfl⟩
  simp only [groupNames, hsplit]
  exact isListOf_pieces hinside

variable {tokens : List Token} {kind : List Text → ConstraintKind}

theorem mem_of_listsIn (h : ListsIn tokens kind group) : group ∈ tokens := by
  induction h with
  | primaryKey | unique => simp
  | named _ _ _ ih => exact List.mem_cons_of_mem _ (List.mem_cons_of_mem _ ih)

theorem isGroup_of_listsIn (h : ListsIn tokens kind group) : group.isGroup = true := by
  induction h with
  | primaryKey _ _ hgroup | unique _ hgroup => exact hgroup
  | named _ _ _ ih => exact ih

theorem listedColumns_cons (hgroup : group.isGroup = true) (rest : List Token) :
    listedColumns (group :: rest) = groupNames group := by
  simp [listedColumns, Option.filter, hgroup]

/-- A constraint that lists columns is read with the names of its group. -/
theorem exists_clauseOfTokens (h : ListsIn tokens kind group) :
    ∃ name, clauseOfTokens tokens = .constraint ⟨name, kind (groupNames group)⟩ := by
  induction h with
  | primaryKey hprimary hkey hgroup rest =>
    have hspells := spells_eq hprimary
    refine ⟨none, clauseOfTokens_of_kind (hspells "CONSTRAINT") ?_⟩
    simp only [constraintKind?, startsWith, List.head?_cons, Option.any_some, List.tail_cons,
      hspells, hkey, listedColumns_cons hgroup]
    rfl
  | unique hkeyword hgroup rest =>
    have hspells := spells_eq hkeyword
    refine ⟨none, clauseOfTokens_of_kind (hspells "CONSTRAINT") ?_⟩
    simp only [constraintKind?, List.head?_cons, Option.any_some, hspells, hgroup,
      listedColumns_cons hgroup]
    rfl
  | named hkeyword hname h ih =>
    obtain ⟨name, hread⟩ := ih
    unfold clauseOfTokens
    simp [hkeyword, hname, hread, Clause.constraint?]

/-- No list of columns is lost to a fault. The clauses of a body that is taken apart are
balanced, and in every balanced clause what a group holds is balanced and split without a
fault. A constraint that lists columns in a group then has one name for each entry between the
commas of the group, in their order, and it is the bare first token of the entry. -/
theorem lists_of_balanced :
    (∀ statements draft, readDraft statements = .ok draft → ∀ clause ∈ draft.clauses,
      ∃ parts, separateClauses clause = .ok parts) ∧
    ∀ clause, (∃ parts, separateClauses clause = .ok parts) →
      (∀ group ∈ tokensOf clause, group.isGroup = true →
        isBalanced group.inside = true ∧ IsListOf group.inside (groupNames group)) ∧
      ∀ kind group, ListsIn (tokensOf clause) kind group →
        ∃ name names, readClause clause = .constraint ⟨name, kind names⟩ ∧
          IsListOf group.inside names := by
  constructor
  · intro statements draft hdraft clause hclause
    exact ⟨_, separate_eq_ok_iff.mpr ⟨isBalanced_of_mem_clauses hdraft hclause, rfl⟩⟩
  · rintro clause ⟨parts, hparts⟩
    have hclause := (separate_eq_ok_iff.mp hparts).1
    have hgroups : ∀ group ∈ tokensOf clause, group.isGroup = true →
        isBalanced group.inside = true ∧ IsListOf group.inside (groupNames group) := by
      intro group hmem hgroup
      have hinside := isBalanced_inside hclause hmem hgroup
      exact ⟨hinside, isListOf_groupNames hinside⟩
    refine ⟨hgroups, ?_⟩
    intro kind group hlists
    obtain ⟨name, hread⟩ := exists_clauseOfTokens hlists
    obtain ⟨-, hlist⟩ := hgroups group (mem_of_listsIn hlists) (isGroup_of_listsIn hlists)
    exact ⟨name, groupNames group, hread, hlist⟩

/-- A table with a named key over two columns, an empty entry between them, and a pair of
entries of which the first is an expression. -/
def listedBatch : List Text :=
  ["CREATE TABLE t (\"a,)\", [c], CONSTRAINT k PRIMARY\nKEY ( \"a,)\" DESC, ,\t[c] ), ".toList ++
    "unique((b  || ','),[c]))".toList]

def listedDraft : Draft where
  name := ['t']
  ifNotExists := false
  clauses := ["\"a,)\"".toList, "[c]".toList,
    "CONSTRAINT k PRIMARY KEY ( \"a,)\" DESC, , [c] )".toList,
    "unique((b || ','),[c])".toList]
  options := none
  indexes := []

def keyClause : Text := "CONSTRAINT k PRIMARY KEY ( \"a,)\" DESC, , [c] )".toList

def keyGroup : Token := ⟨[' '], .group, "( \"a,)\" DESC, , [c] )".toList⟩

theorem listsIn_keyClause : ListsIn (tokensOf keyClause) .primaryKey keyGroup := by
  have htokens : tokensOf keyClause = [⟨[], .word, "CONSTRAINT".toList⟩, ⟨[' '], .word, ['k']⟩,
      ⟨[' '], .word, "PRIMARY".toList⟩, ⟨[' '], .word, "KEY".toList⟩, keyGroup] := by
    decide +kernel
  rw [htokens]
  exact .named (by decide +kernel) rfl (.primaryKey (by decide +kernel) (by decide +kernel) rfl [])

/-- The comma in a name is no separator, and the empty entry has no name. -/
theorem lists_of_balanced_listedBatch :
    readDraft listedBatch = .ok listedDraft ∧ keyClause ∈ listedDraft.clauses ∧
      ListsIn (tokensOf keyClause) .primaryKey keyGroup ∧
      readClause keyClause = .constraint ⟨some ['k'], .primaryKey ["a,)".toList, ['c']]⟩ ∧
      keyGroup.inside = " \"a,)\" DESC, , [c] ".toList ∧
      IsListOf keyGroup.inside ["a,)".toList, ['c']] := by
  have hdraft : readDraft listedBatch = .ok listedDraft := eq_ok_of_toOption (by decide +kernel)
  have hclause : keyClause ∈ listedDraft.clauses := by decide +kernel
  have hread : readClause keyClause =
      .constraint ⟨some ['k'], .primaryKey ["a,)".toList, ['c']]⟩ := by decide +kernel
  obtain ⟨hclauses, hlists⟩ := lists_of_balanced
  obtain ⟨-, hconstraints⟩ := hlists keyClause (hclauses _ _ hdraft keyClause hclause)
  obtain ⟨name, names, hnames, hlist⟩ := hconstraints _ _ listsIn_keyClause
  rw [hread] at hnames
  obtain ⟨-, rfl⟩ : some ['k'] = name ∧ ["a,)".toList, ['c']] = names := by simpa using hnames
  exact ⟨hdraft, hclause, listsIn_keyClause, hread, by decide +kernel, hlist⟩

end SqliteSchema.Proofs.ListedEntries
