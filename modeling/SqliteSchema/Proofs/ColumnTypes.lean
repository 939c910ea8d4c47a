import SqliteSchema.Proofs.ModifierSteps
import SqliteSchema.Proofs.TableReading
import SqliteSchema.Proofs.TokenSlices
import SqliteSchema.Proofs.TypeSizes

/-!
The type of a column. The words of a type are joined by single spaces, and the type as written
is these words and at most the group behind them, with at most a space between. The group
measures the type by one or two numbers; a definition whose group does not is refused.
-/
namespace SqliteSchema.Proofs.ColumnTypes

open PlainText Quoting DelimiterScan Faults ClauseSplitting ClauseTokens TypeArguments
  ColumnModifiers ColumnDefinitions TableDefinitions SqueezedPieces NormalPieces SpacedCells
  BalancedTokens TableReading ModifierSteps ColumnSyntax TokenRows TokenSlices TypeSizes

structure HasTypeWords (clause : Text) (name : Token) (words rest : List Token) : Prop where
  tokens : tokensOf clause = name :: (words ++ rest)
  words : ∀ word ∈ words, isTypeWord word = true
  rest : rest.head?.any isTypeWord = false

/-- The type of a column, given the tokens behind the name. -/
inductive IsTyped (column : Column) (words rest : List Token) : Prop
  | bare (hgroup : words = [] ∨ rest.head?.any Token.isGroup = false)
      (htype : column.columnType = column.dataType) (hlength : column.size.length? = none)
      (hdecimal : column.size.decimal? = none)
  | sized {group : Token} {after : List Token} {inside : Text} (hwords : words ≠ [])
      (hrest : rest = group :: after) (hkind : group.kind = .group)
      (hinside : isBalanced inside = true) (htext : group.text = parenthesize inside)
      (hgap : group.gap = [] ∨ group.gap = [' '])
      (htype : column.columnType = column.dataType ++ (group.gap ++ parenthesize inside))
      (hsize : Measures inside column.size.length? column.size.decimal?)

/-- The column of a clause, with the type that its tokens give. -/
def IsTypedBy (clause : Text) (column : Column) : Prop :=
  ∃ name words rest, HasTypeWords clause name words rest ∧ column.name = bareText name.text ∧
    column.dataType = [' '].intercalate (words.map Token.text) ∧ IsTyped column words rest

variable {clause : Text} {name : Token} {words rest tokens : List Token} {column : Column}

theorem exists_hasTypeWords (h : tokensOf clause = name :: tokens) :
    ∃ words rest, tokens = words ++ rest ∧ HasTypeWords clause name words rest := by
  have hsplit := (List.takeWhile_append_dropWhile (l := tokens) (p := isTypeWord)).symm
  exact ⟨_, _, hsplit, hsplit ▸ h, fun _ => List.mem_takeWhile_imp, any_head?_dropWhile _ _⟩

theorem HasTypeWords.mem_tokensOf (h : HasTypeWords clause name words rest) {token : Token}
    (htoken : token ∈ rest) : token ∈ tokensOf clause := by
  rw [h.tokens]
  exact List.mem_cons_of_mem _ (List.mem_append_right _ htoken)

theorem gap_of_isPiece (hclause : IsPiece ',' clause) :
    ∀ token ∈ tokensOf clause, token.gap = [] ∨ token.gap = [' '] :=
  gap_of_mem_tokensOf hclause.balanced (isSpaced_isGap_of_isTight hclause.tight)
    fun _ => char_of_isGap_of_isTight hclause.tight

/-- The words of a type stand one space apart. -/
theorem slice_typeWords (hclause : IsPiece ',' clause) (h : HasTypeWords clause name words rest) :
    slice words = [' '].intercalate (words.map Token.text) := by
  have hgaps := gap_of_isPiece hclause
  have hchain := isChain_tokensOf hclause.balanced
  rw [h.tokens] at hgaps hchain
  have hwords : words <:+: name :: (words ++ rest) := ⟨[name], rest, rfl⟩
  have hbetween := List.IsChain.infix hchain hwords
  refine slice_of_isChain (hbetween.imp_of_mem_imp ?_)
  intro left right hleft hright hapart
  have hkind : ∀ word ∈ words, word.kind = .word := by
    intro word hword
    have htype := h.words word hword
    simp only [isTypeWord, Bool.and_eq_true, beq_iff_eq] at htype
    exact htype.1
  rcases hgaps right (hwords.mem hright) with hnone | hspace
  · exact absurd hnone (hapart (hkind left hleft) (hkind right hright))
  · exact hspace

theorem isTypedBy_of_readColumn (hclause : IsPiece ',' clause)
    (h : readColumn clause = .ok column) : IsTypedBy clause column := by
  obtain ⟨name, tokens, size, htokens, hsize, rfl⟩ := exists_of_readColumn h
  obtain ⟨words, rest, rfl, hwords⟩ := exists_hasTypeWords htokens
  have hslice := slice_typeWords hclause hwords
  by_cases hgroup : words = [] ∨ rest.head?.any Token.isGroup = false
  · have hpart := typePart_bare hwords.words hwords.rest hgroup
    rw [hpart] at hsize ⊢
    obtain rfl : .unsized = size := Option.some.inj hsize
    refine ⟨name, words, rest, hwords, rfl, rfl, .bare hgroup ?_ rfl rfl⟩
    simp [describe, TypePart.columnType, TypePart.dataType, hslice]
  · rw [not_or, Bool.not_eq_false, Option.any_eq_true] at hgroup
    obtain ⟨hfilled, group, hhead, hkind⟩ := hgroup
    obtain ⟨after, rfl⟩ := List.head?_eq_some_iff.mp hhead
    have hpart : typePart (words ++ group :: after) = ⟨words, some group, after⟩ :=
      typePart_sized hwords.words hfilled hkind
    obtain ⟨inside, hinside, htext⟩ := exists_parenthesize_of_mem hclause.balanced
      (hwords.mem_tokensOf (List.mem_cons_self ..)) (eq_of_beq hkind)
    have hgap := gap_of_isPiece hclause group (hwords.mem_tokensOf (List.mem_cons_self ..))
    have hread : typeSize? inside = some size := by
      rw [← hsize, hpart, ← inside_of_group (eq_of_beq hkind) htext]
      rfl
    rw [hpart]
    refine ⟨name, words, _, hwords, rfl, rfl, .sized hfilled rfl (eq_of_beq hkind) hinside htext
      hgap ?_ (measures_of_typeSize? hread)⟩
    simp [describe, TypePart.columnType, TypePart.dataType, slice_append hfilled, hslice, written,
      htext]

/-- The flags that a column takes from outside leave its type as it is. -/
theorem isTypedBy_mark (h : IsTypedBy clause column) (primaryKeys uniques : List Text) :
    IsTypedBy clause (column.mark primaryKeys uniques) := by
  obtain ⟨name, words, rest, hwords, hname, htype, htyped⟩ := h
  refine ⟨name, words, rest, hwords, hname, htype, ?_⟩
  cases htyped with
  | bare hgroup htype hlength hdecimal => exact .bare hgroup htype hlength hdecimal
  | sized hwords hrest hkind hinside htext hgap htype hsize =>
    exact .sized hwords hrest hkind hinside htext hgap htype hsize

theorem forall₂_isTypedBy_of_readTable {statements : List Text} {table : Table}
    (h : readTable statements = .ok table) :
    List.Forall₂ IsTypedBy (columnClauses table.clauses) table.columns := by
  obtain ⟨definition, indexes, group, h⟩ := exists_isReadFrom h
  obtain ⟨found, hfound, hmarked⟩ := readColumns_eq_ok_iff.mp h.columns
  obtain ⟨hbalanced, hpieces⟩ := separate_eq_ok_iff.mp h.clauses
  have hclauses : ∀ clause ∈ columnClauses table.clauses, IsPiece ',' clause := by
    intro clause hclause
    have hmem := (List.mem_filter.mp hclause).1
    rw [← hpieces] at hmem
    exact isPiece_of_mem_pieces isSeparating_comma hbalanced hmem
  rw [← hmarked, List.forall₂_map_right_iff]
  refine ((List.forall₂_and_left _ _).mpr ⟨hclauses, mapM_eq_ok_iff.mp hfound⟩).imp ?_
  rintro clause stated ⟨hclause, hstated⟩
  exact isTypedBy_mark (isTypedBy_of_readColumn hclause hstated) _ _

/-- A definition whose words are followed by a group that measures nothing is refused. -/
theorem readColumn_of_not_measures {group : Token} {after : List Token} {inside : Text}
    (h : HasTypeWords clause name words (group :: after)) (hwords : words ≠ [])
    (hkind : group.kind = .group) (htext : group.text = parenthesize inside)
    (hsize : ∀ length? decimal?, ¬ Measures inside length? decimal?) :
    readColumn clause = .error (.badTypeSize (bareText name.text) inside) := by
  have hpart : typePart (words ++ group :: after) = ⟨words, some group, after⟩ :=
    typePart_sized h.words hwords (beq_iff_eq.mpr hkind)
  have hinside := inside_of_group hkind htext
  have hnone := typeSize?_eq_none_iff.mpr hsize
  simp only [readColumn, h.tokens, hpart, TypePart.size?, hinside, hnone, Option.map_some,
    Option.getD_some]

/-- In every table that is read the type of a column is its words, or its words and a group
that measures it, and it has a length, or a precision and a scale, or neither as the group
says. A definition with any other group behind the words of its type is refused with the name
of the column and what the group holds. -/
theorem column_types :
    (∀ statements table, readTable statements = .ok table →
      List.Forall₂ IsTypedBy (columnClauses table.clauses) table.columns) ∧
    ∀ clause name words group after inside, HasTypeWords clause name words (group :: after) →
      words ≠ [] → group.kind = .group → group.text = parenthesize inside →
      (∀ length? decimal?, ¬ Measures inside length? decimal?) →
      readColumn clause = .error (.badTypeSize (bareText name.text) inside) := by
  constructor
  · intro statements table htable
    exact forall₂_isTypedBy_of_readTable htable
  · intro clause name words group after inside h hwords hkind htext hsize
    exact readColumn_of_not_measures h hwords hkind htext hsize

def typedBatch : List Text :=
  ["CREATE TABLE t (a unsigned  BIG\tint ( -0 ) NOT NULL, b, [c] dec(+10 ,\n-02), d ('x'))".toList]

def typedTable : Table where
  name := ['t']
  ifNotExists := false
  clauses := ["a unsigned BIG int ( -0 ) NOT NULL".toList, ['b'], "[c] dec(+10 , -02)".toList,
    "d ('x')".toList]
  columns := [
    ⟨['a'], "unsigned BIG int".toList, "unsigned BIG int ( -0 )".toList, .length 0, none, false,
      false, false, false, false⟩,
    ⟨['b'], [], [], .unsized, none, true, false, false, false, false⟩,
    ⟨['c'], "dec".toList, "dec(+10 , -02)".toList, .decimal 10 (-2), none, true, false,
      false, false, false⟩,
    ⟨['d'], [], [], .unsized, none, true, false, false, false, false⟩]
  options := none
  indexes := []

/-- A number one too large for 64 bits. -/
def oversizedClause : Text := "`n``m` big int(9223372036854775808) UNIQUE".toList

theorem column_types_typedTable :
    readTable typedBatch = .ok typedTable ∧
      List.Forall₂ IsTypedBy (columnClauses typedTable.clauses) typedTable.columns ∧
      readColumn oversizedClause =
        .error (.badTypeSize "n`m".toList "9223372036854775808".toList) := by
  have hread : readTable typedBatch = .ok typedTable := eq_ok_of_toOption (by decide +kernel)
  have hwords : HasTypeWords oversizedClause ⟨[], .quoted, "`n``m`".toList⟩
      [⟨[' '], .word, "big".toList⟩, ⟨[' '], .word, "int".toList⟩]
      (⟨[], .group, "(9223372036854775808)".toList⟩ :: [⟨[' '], .word, "UNIQUE".toList⟩]) :=
    ⟨by decide +kernel, by decide +kernel, by decide +kernel⟩
  have hsize := typeSize?_eq_none_iff.mp
    (show typeSize? "9223372036854775808".toList = none by decide +kernel)
  obtain ⟨htypes, hrefused⟩ := column_types
  have hname : bareText "`n``m`".toList = "n`m".toList := by decide +kernel
  refine ⟨hread, htypes _ _ hread, ?_⟩
  rw [← hname]
  exact hrefused _ _ _ _ _ _ hwords (List.cons_ne_nil _ _) rfl rfl hsize

end SqliteSchema.Proofs.ColumnTypes
