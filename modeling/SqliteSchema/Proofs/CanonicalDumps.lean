import Mathlib.Data.List.DropRight
import SqliteSchema.SchemaDumps
import SqliteSchema.Proofs.BalancedTokens
import SqliteSchema.Proofs.BodyLayouts
import SqliteSchema.Proofs.HeaderScans
import SqliteSchema.Proofs.SpacedCells
import SqliteSchema.Proofs.StatementRoundTrip

/-!
The statement of a table as a dump of its own. The parts that a table keeps of a dump
come from text without comments that is squeezed already, and putting them together
with spaces, commas and parentheses brings in neither comments nor gaps nor separators.
So the statement is the only one of its dump, and the table is read from it again.
-/
namespace SqliteSchema.Proofs.CanonicalDumps

open PlainText DelimiterScan Faults ClauseSplitting StatementHeaders CommentStripping
  ColumnDefinitions TableDefinitions SchemaDumps BalancedTexts SqueezedPieces NormalPieces
  BodyLayouts SpacedCells HeaderNames HeaderScans FirstGroups BalancedTokens TableReading
  StatementRoundTrip

/-- A balanced text that neither squeezing nor removing comments changes. -/
structure IsTidy (text : Text) : Prop where
  filled : text ≠ []
  balanced : isBalanced text = true
  tight : IsTight (cells text)
  uncommented : IsSpaced isDash (cells text)

structure IsCanonical (text : Text) : Prop extends IsTidy text where
  undivided : ∀ cell ∈ cells text, isSeparator ';' cell = false

variable {left right body text : Text}

theorem isTidy_of_isPiece {separator : Char} (h : IsPiece separator text)
    (huncommented : IsSpaced isDash (cells text)) : IsTidy text :=
  ⟨h.filled, h.balanced, h.tight, huncommented⟩

theorem isTidy_append_space (hleft : IsTidy left) (hright : IsTidy right) :
    IsTidy (left ++ ' ' :: right) := by
  have hspace : isNeutral ' ' = true := by decide
  have hcells := cells_append_cons hleft.balanced hspace right
  refine ⟨by simp, by rw [isBalanced_append_cons hleft.balanced hspace, hright.balanced], ?_, ?_⟩
  · rw [hcells]
    exact isTight_append_space hleft.tight (cellsFrom_ne_nil hleft.filled start) hright.tight
      (cellsFrom_ne_nil hright.filled start) rfl
  · rw [hcells]
    exact isSpaced_append_cons hleft.uncommented (isDash_of_ne (by decide) start)
      hright.uncommented

theorem isTidy_snoc_comma (h : IsTidy text) : IsTidy (text ++ [',']) := by
  have hcomma : isNeutral ',' = true := by decide
  have hcells := cells_append_cons h.balanced hcomma []
  refine ⟨by simp, by rw [isBalanced_snoc hcomma, h.balanced], ?_, ?_⟩
  · rw [hcells]
    exact isTight_append h.tight
      (isTight_singleton (isGap_of_isBlank_eq_false (by decide) start))
  · rw [hcells]
    exact isSpaced_append_cons h.uncommented (isDash_of_ne (by decide) start) .nil

theorem isTidy_writtenBody {clauses : List Text} (hclauses : ∀ clause ∈ clauses, IsTidy clause)
    (hne : clauses ≠ []) : IsTidy (writtenBody clauses) := by
  induction clauses with
  | nil => exact absurd rfl hne
  | cons clause rest ih =>
    obtain ⟨hclause, hrest⟩ := List.forall_mem_cons.mp hclauses
    cases rest with
    | nil =>
      rw [writtenBody, List.intercalate_singleton]
      exact hclause
    | cons next more =>
      have hjoined := isTidy_append_space (isTidy_snoc_comma hclause)
        (ih hrest (List.cons_ne_nil _ _))
      rw [writtenBody, List.intercalate_cons_cons]
      simpa [writtenBody] using hjoined

theorem isSpaced_map_deepenCell {piece : List Cell} :
    IsSpaced isDash (piece.map deepenCell) ↔ IsSpaced isDash piece :=
  List.isChain_map deepenCell

/-- Inside a group nothing separates statements. -/
theorem isSeparator_deepenCell (cell : Cell) : isSeparator ';' (deepenCell cell) = false := by
  obtain ⟨c, mode, depth⟩ := cell
  cases depth <;> simp [isSeparator, deepenCell, deepen, Cell.isTopLevel]

theorem isCanonical_group (hbody : body = [] ∨ IsTidy body) :
    IsCanonical ('(' :: (body ++ [')'])) := by
  obtain ⟨hbalanced, htight, huncommented⟩ :
      isBalanced body = true ∧ IsTight (cells body) ∧ IsSpaced isDash (cells body) := by
    rcases hbody with rfl | hbody
    · exact ⟨rfl, rfl, .nil⟩
    · exact ⟨hbody.balanced, hbody.tight, hbody.uncommented⟩
  have hcells := cells_group hbalanced
  rw [List.cons_append] at hcells
  have hparen : ∀ c, isBlank c = false → ∀ scan, IsTight [⟨c, scan⟩] := by
    intro c hc scan
    exact isTight_singleton (isGap_of_isBlank_eq_false hc scan)
  refine ⟨⟨List.cons_ne_nil _ _, ?_, ?_, ?_⟩, ?_⟩
  · have hempty : isBalanced [] = true := rfl
    exact congrArg Scan.isBalanced (run_append_group hempty hbalanced [])
  · rw [hcells]
    exact isTight_append (hparen '(' (by decide) _)
      (isTight_append (isTight_map_deepenCell htight) (hparen ')' (by decide) _))
  · rw [hcells]
    exact isSpaced_cons (isDash_of_ne (by decide) _)
      (isSpaced_append_cons (isSpaced_map_deepenCell.mpr huncommented)
        (isDash_of_ne (by decide) _) .nil)
  · rw [hcells]
    intro cell hcell
    rcases List.mem_cons.mp hcell with rfl | hcell
    · rfl
    · rcases List.mem_append.mp hcell with hcell | hcell
      · obtain ⟨inner, -, rfl⟩ := List.mem_map.mp hcell
        exact isSeparator_deepenCell inner
      · rw [List.mem_singleton.mp hcell]
        rfl

theorem isCanonical_append_space (hleft : IsCanonical left) (hright : IsCanonical right) :
    IsCanonical (left ++ ' ' :: right) := by
  refine ⟨isTidy_append_space hleft.toIsTidy hright.toIsTidy, ?_⟩
  rw [cells_append_cons hleft.balanced (by decide)]
  refine List.forall_mem_append.mpr ⟨hleft.undivided, ?_⟩
  exact List.forall_mem_cons.mpr ⟨rfl, hright.undivided⟩

/-- A canonical text on a line of its own is a dump of one statement. -/
theorem dumpStatements_of_isCanonical (h : IsCanonical text) :
    dumpStatements (text ++ ['\n']) = .ok [text] := by
  have hcells : cells (text ++ ['\n']) = cells text ++ [⟨'\n', start⟩] :=
    cells_append_cons h.balanced (by decide) []
  have hspaced : IsSpaced isDash (cells (text ++ ['\n'])) := by
    rw [hcells]
    exact isSpaced_append_cons h.uncommented (isDash_of_ne (by decide) start) .nil
  rw [dumpStatements, withoutComments_eq_self_iff.mpr hspaced]
  exact separate_append_blanks isSeparating_semicolon (List.forall_mem_singleton.mpr (by decide))
    (isNormal_of_isPiece ⟨h.filled, h.balanced, h.undivided, h.tight⟩)

theorem isCanonical_of_isIdentifier {name : Text} (hname : IsIdentifier name)
    (hspaces : ∀ cell ∈ cells name, isGap cell = true → cell.char = ' ')
    (huncommented : IsSpaced isDash (cells name)) : IsCanonical name := by
  have hstart : start.mode = .plain := rfl
  obtain ⟨hrun, hcells⟩ := scan_of_isIdentifier hname hstart
  refine ⟨⟨?_, ?_, ?_, huncommented⟩, ?_⟩
  · cases hname <;> exact List.cons_ne_nil _ _
  · rw [isBalanced, hrun, nameMode]
    split <;> rfl
  · apply isTight_of_forall
    intro cell hcell
    rcases hcells cell hcell with hquoted | hbare
    · exact isGap_of_isQuoted hquoted
    · by_contra hgap
      rw [hspaces cell hcell (by simpa using hgap), isBareChar_space] at hbare
      simp at hbare
  · intro cell hcell
    rcases hcells cell hcell with hquoted | hbare
    · simp [isSeparator, Cell.isPlain, hquoted]
    · have hne : cell.char ≠ ';' := by
        intro h
        rw [h] at hbare
        revert hbare
        decide +kernel
      simp [isSeparator, Cell.isPlain, hne]

structure IsCanonicalTable (table : Table) : Prop where
  name : IsCanonical table.name
  clauses : ∀ clause ∈ table.clauses, IsTidy clause
  options : ∀ options ∈ table.options, IsCanonical options

def headerWords (ifNotExists : Bool) : Text :=
  "CREATE TABLE".toList ++ if ifNotExists then " IF NOT EXISTS".toList else []

theorem isCanonical_headerWords (ifNotExists : Bool) : IsCanonical (headerWords ifNotExists) := by
  have huncommented : IsSpaced isDash (cells (headerWords ifNotExists)) := by
    apply isSpaced_of_forall
    cases ifNotExists <;> decide
  have htight : squeezeCells (cells (headerWords ifNotExists)) =
      cells (headerWords ifNotExists) := by
    cases ifNotExists <;> decide
  refine ⟨⟨?_, ?_, htight, huncommented⟩, ?_⟩ <;> cases ifNotExists <;> decide

theorem headerWords_eq (ifNotExists : Bool) :
    "CREATE TABLE ".toList ++ (if ifNotExists then "IF NOT EXISTS ".toList else []) =
      headerWords ifNotExists ++ [' '] := by
  cases ifNotExists <;> rfl

theorem statement_eq_headerWords (table : Table) :
    table.statement = headerWords table.ifNotExists ++ ' ' :: (table.name ++ ' ' ::
      ('(' :: (writtenBody table.clauses ++ [')']) ++ writtenOptions table.options)) := by
  rw [statement_eq, ← List.append_assoc, headerWords_eq]
  simp

theorem isCanonical_statement {table : Table} (h : IsCanonicalTable table) :
    IsCanonical table.statement := by
  have hbody : writtenBody table.clauses = [] ∨ IsTidy (writtenBody table.clauses) := by
    cases hclauses : table.clauses with
    | nil => exact .inl rfl
    | cons clause rest =>
      rw [← hclauses]
      exact .inr (isTidy_writtenBody h.clauses (by simp [hclauses]))
  have hgroup := isCanonical_group hbody
  rw [statement_eq_headerWords]
  refine isCanonical_append_space (isCanonical_headerWords _) (isCanonical_append_space h.name ?_)
  cases hoptions : table.options with
  | none => simpa [writtenOptions] using hgroup
  | some options => exact isCanonical_append_space hgroup (h.options options hoptions)

theorem trimEnd_eq_self {drops : Char → Bool} (h : ∀ c ∈ text.getLast?, drops c = false) :
    trimEnd drops text = text := by
  refine List.rdropWhile_eq_self_iff.mpr ?_
  intro hne
  simp [h _ (List.getLast?_eq_some_getLast hne)]

/-- A text that ends neither with a blank nor with a semicolon loses only blanks in front. -/
theorem trailingOptions_eq (h : ∀ c ∈ text.getLast?, isBlank c = false ∧ c ≠ ';') :
    trailingOptions text =
      if text.dropWhile isBlank = [] then none else some (text.dropWhile isBlank) := by
  have hlast : ∀ c ∈ (text.dropWhile isBlank).getLast?, isBlank c = false ∧ c ≠ ';' := by
    intro c hc
    apply h
    have hsplit : text.takeWhile isBlank ++ text.dropWhile isBlank = text :=
      List.takeWhile_append_dropWhile
    rw [← hsplit]
    exact List.mem_getLast?_append_of_mem_getLast? hc
  have hblank : trimEnd isBlank (text.dropWhile isBlank) = text.dropWhile isBlank :=
    trimEnd_eq_self fun c hc => (hlast c hc).1
  have hsemicolon : trimEnd (· == ';') (text.dropWhile isBlank) = text.dropWhile isBlank :=
    trimEnd_eq_self fun c hc => by simpa using (hlast c hc).2
  have htrim : trim text = text.dropWhile isBlank := hblank
  have hagain : trim (text.dropWhile isBlank) = text.dropWhile isBlank := by
    rw [trim, List.dropWhile_idempotent, hblank]
  rw [trailingOptions, htrim, hsemicolon, hagain]
  simp

theorem isBlank_head_dropWhile (text : Text) :
    ∀ c ∈ (text.dropWhile isBlank).head?, isBlank c = false := by
  intro c hc
  have hfirst := List.head?_dropWhile_not isBlank text
  rw [hc] at hfirst
  simpa using hfirst

/-- Blanks in front of a text that is read as options do not change them. -/
theorem trailingOptions_cons_space (hfilled : text ≠ [])
    (hhead : ∀ c ∈ text.head?, isBlank c = false)
    (hlast : ∀ c ∈ text.getLast?, isBlank c = false ∧ c ≠ ';') :
    trailingOptions (' ' :: text) = some text := by
  obtain ⟨first, rest, rfl⟩ := List.exists_cons_of_ne_nil hfilled
  have hfirst := hhead first rfl
  have hdrop : (' ' :: first :: rest).dropWhile isBlank = first :: rest := by
    rw [List.dropWhile_cons_of_pos isBlank_space, List.dropWhile_cons_of_neg (by simp [hfirst])]
  rw [trailingOptions_eq (by rwa [List.getLast?_cons_cons]), hdrop, if_neg hfilled]

variable {statement : Text}

/-- The end of a canonical statement ends neither with a blank nor with a semicolon. -/
theorem last_of_isSuffix (hstatement : IsCanonical statement) (hbalanced : isBalanced text = true)
    (hsuffix : cells text <:+ cells statement) :
    ∀ c ∈ text.getLast?, isBlank c = false ∧ c ≠ ';' := by
  intro c hc
  obtain ⟨init, rfl⟩ := List.getLast?_eq_some_iff.mp hc
  obtain ⟨before, hbefore⟩ := hsuffix
  have hcells : isNeutral c = true → cells statement = (before ++ cells init) ++ [⟨c, start⟩] := by
    intro hneutral
    rw [isBalanced_snoc hneutral] at hbalanced
    rw [← hbefore, cells_append_cons hbalanced hneutral, List.append_assoc]
    rfl
  constructor
  · by_contra hblank
    rw [Bool.not_eq_false] at hblank
    have hend : (cells statement).getLast? = some ⟨c, start⟩ := by
      rw [hcells (isNeutral_of_isBlank hblank), List.getLast?_concat]
    have hgap := isGap_getLast_of_isTight hstatement.tight hend
    simp [isGap, Cell.isQuoted, start, hblank] at hgap
  · rintro rfl
    have hfree := hstatement.undivided ⟨';', start⟩ (by simp [hcells (by decide)])
    rw [isSeparator_of_start] at hfree
    simp at hfree

/-- The end of a canonical statement is canonical where it begins with a word. -/
theorem isCanonical_of_isSuffix (hstatement : IsCanonical statement) (hfilled : text ≠ [])
    (hbalanced : isBalanced text = true) (hsuffix : cells text <:+ cells statement)
    (hhead : ∀ c ∈ text.head?, isBlank c = false) : IsCanonical text := by
  obtain ⟨before, hbefore⟩ := hsuffix
  refine ⟨⟨hfilled, hbalanced, ?_, ?_⟩, ?_⟩
  · have htight := hstatement.tight
    rw [← hbefore] at htight
    apply isTight_of_append htight
    intro cell hcell
    exact isGap_of_isBlank_eq_false (hhead cell.char (head?_cellsFrom hcell)) cell.scan
  · exact isSpaced_of_isInfix hstatement.uncommented (List.IsSuffix.isInfix ⟨before, hbefore⟩)
  · intro cell hcell
    apply hstatement.undivided
    rw [← hbefore]
    exact List.mem_append_right before hcell

/-- The options at the end of a canonical statement are canonical, and they are read again
where they are put behind a space. -/
theorem isCanonical_options {tail options : Text} (hstatement : IsCanonical statement)
    (htail : isBalanced tail = true) (hsuffix : cells tail <:+ cells statement)
    (h : trailingOptions tail = some options) :
    IsCanonical options ∧ trailingOptions (' ' :: options) = some options := by
  rw [trailingOptions_eq (last_of_isSuffix hstatement htail hsuffix)] at h
  split_ifs at h with hempty
  obtain rfl := Option.some.inj h
  have hblanks : ∀ c ∈ tail.takeWhile isBlank, isBlank c = true :=
    fun c hc => List.mem_takeWhile_imp hc
  obtain ⟨hcells, hbalanced⟩ := scan_of_blanks hblanks (tail.dropWhile isBlank)
  rw [List.takeWhile_append_dropWhile] at hcells hbalanced
  have hoptions : isBalanced (tail.dropWhile isBlank) = true := by rw [← hbalanced, htail]
  have hend : cells (tail.dropWhile isBlank) <:+ cells statement := by
    rw [hcells] at hsuffix
    exact (List.suffix_append ..).trans hsuffix
  have hhead := isBlank_head_dropWhile tail
  exact ⟨isCanonical_of_isSuffix hstatement hempty hoptions hend hhead,
    trailingOptions_cons_space hempty hhead (last_of_isSuffix hstatement hoptions hend)⟩

variable {source : Text} {statements : List Text}

theorem isCanonical_of_dumpStatements (h : dumpStatements source = .ok statements)
    (hstatement : statement ∈ statements) : IsCanonical statement := by
  obtain ⟨hbalanced, rfl⟩ := separate_eq_ok_iff.mp h
  have hpiece := isPiece_of_mem_pieces isSeparating_semicolon hbalanced hstatement
  have huncommented : IsSpaced isDash (cells (withoutComments source)) :=
    isSpaced_commentsDropped isReachable_start false source
  exact ⟨isTidy_of_isPiece hpiece (isSpaced_of_mem_pieces (fun _ => isDash_of_isGap)
    isSeparating_semicolon hbalanced huncommented hstatement), hpiece.undivided⟩

/-- No step from a dump to its statements brings two closing brackets together. -/
theorem not_isInfix_of_dumpStatements (hsource : ¬ [']', ']'] <:+: source)
    (h : dumpStatements source = .ok statements) (hstatement : statement ∈ statements) :
    ¬ [']', ']'] <:+: statement := by
  obtain ⟨hbalanced, rfl⟩ := separate_eq_ok_iff.mp h
  have hgap : ∀ cell, isGap cell = true → isOf ']' cell = false := by
    rintro ⟨c, scan⟩ hcell
    have hneutral := (isNeutral_iff c).mp (isNeutral_of_isGap hcell)
    simp [isOf, hneutral]
  rw [← isSpaced_isOf_iff start]
  refine isSpaced_of_mem_pieces hgap isSeparating_semicolon hbalanced ?_ hstatement
  exact (isSpaced_isOf_iff start).mpr (not_isInfix_commentsDropped (by decide) hsource start false)

variable {table : Table} {definition : TableStatement} {indexes : List IndexDefinitions.Index}
  {group : Parenthesized}

/-- Every part of a table is canonical where its statement is. -/
theorem isCanonicalTable_of_isReadFrom (h : IsReadFrom statements table definition indexes group)
    (hstatement : IsCanonical definition.statement)
    (hbrackets : ¬ [']', ']'] <:+: definition.statement) :
    IsCanonicalTable table ∧ trailingOptions (writtenOptions table.options) = table.options := by
  have hmem : definition ∈ tableStatements statements := by
    simp [tableStatements_of_isReadFrom h]
  obtain ⟨-, hheader⟩ := mem_tableStatements.mp hmem
  obtain ⟨front, hcells⟩ := cells_of_readHeader? hheader h.name hbrackets
  obtain ⟨stray, hrest, hstray, hbody, htail⟩ := exists_of_parenthesized h.body
  rw [hrest, cells_append_group hstray.1 hbody] at hcells
  have huncommented := hstatement.uncommented
  rw [hcells] at huncommented
  -- Each part of the table is a stretch of the statement, scanned as it is by itself.
  have hname : cells table.name <:+: cells definition.statement := by
    rw [hcells]
    exact ⟨cells front, _, by rw [List.append_assoc]⟩
  have hspaces : ∀ cell ∈ cells table.name, isGap cell = true → cell.char = ' ' := by
    intro cell hcell
    exact char_of_isGap_of_isTight hstatement.tight (hname.subset hcell)
  have hinside : IsSpaced isDash (cells group.body) := by
    refine isSpaced_map_deepenCell.mp (isSpaced_of_isInfix huncommented ?_)
    exact ⟨cells front ++ (cells table.name ++ (cells stray ++ [⟨'(', deepen start⟩])),
      ⟨')', start⟩ :: cells group.tail, by simp⟩
  have hsuffix : cells group.tail <:+ cells definition.statement := by
    rw [hcells]
    exact ⟨cells front ++ (cells table.name ++ (cells stray ++ ⟨'(', deepen start⟩ ::
      ((cells group.body).map deepenCell ++ [⟨')', start⟩]))), by simp⟩
  have hoptions : ∀ options, table.options = some options →
      IsCanonical options ∧ trailingOptions (' ' :: options) = some options := by
    intro options hsome
    exact isCanonical_options hstatement htail hsuffix (by rw [h.options, hsome])
  refine ⟨⟨isCanonical_of_isIdentifier (isIdentifier_of_readHeader? hheader h.name) hspaces
    (isSpaced_of_isInfix hstatement.uncommented hname), ?_,
    fun options hsome => (hoptions options hsome).1⟩, ?_⟩
  · intro clause hclause
    obtain ⟨-, hpieces⟩ := separate_eq_ok_iff.mp h.clauses
    rw [← hpieces] at hclause
    exact isTidy_of_isPiece (isPiece_of_mem_pieces isSeparating_comma hbody hclause)
      (isSpaced_of_mem_pieces (fun _ => isDash_of_isGap) isSeparating_comma hbody hinside hclause)
  · cases hsome : table.options with
    | none => rfl
    | some options => exact (hoptions options hsome).2

/-- A table is read from its statement alone, without the indexes of its batch. -/
theorem readTable_singleton_statement {columns : List Column} (htable : IsWritable table)
    (hcolumns : readColumns table.clauses [] = .ok columns) :
    readTable [table.statement] = .ok { table with
      columns := columns
      options := trailingOptions (writtenOptions table.options)
      indexes := [] } := by
  have halone : ∀ found, gather (some found) [] = .ok (some found, []) := fun _ => rfl
  rw [readTable_statement htable halone]
  simp only [Draft.complete, Draft.keptIndexes, List.filter_nil, hcolumns]
  rfl

theorem exists_readColumns_alone (h : readTable statements = .ok table) :
    ∃ columns, readColumns table.clauses [] = .ok columns := by
  obtain ⟨-, hcurrent, -⟩ := properties_of_readTable h
  obtain ⟨found, hfound, -⟩ := readColumns_eq_ok_iff.mp hcurrent
  exact ⟨_, readColumns_eq_ok_iff.mpr ⟨found, hfound, rfl⟩⟩

theorem exists_readTable_statement (h : readTable statements = .ok table) :
    ∃ columns, readTable [table.statement] = .ok { table with
      columns := columns
      options := trailingOptions (writtenOptions table.options)
      indexes := [] } := by
  obtain ⟨columns, hcolumns⟩ := exists_readColumns_alone h
  exact ⟨columns, readTable_singleton_statement (properties_of_readTable h).1 hcolumns⟩

/-- A table that its statement, on a line of its own, is a dump of. -/
structure IsDumpable (table : Table) : Prop extends IsCanonicalTable table where
  writable : IsWritable table
  settled : trailingOptions (writtenOptions table.options) = table.options
  readable : ∃ columns, readColumns table.clauses [] = .ok columns

theorem isDumpable_of_readDump (hsource : ¬ [']', ']'] <:+: source)
    (h : readDump source = .ok table) : IsDumpable table := by
  obtain ⟨statements, hdump, hread⟩ := bind_eq_ok.mp h
  obtain ⟨definition, indexes, group, hparts⟩ := exists_isReadFrom hread
  have hmem : definition ∈ tableStatements statements := by
    simp [tableStatements_of_isReadFrom hparts]
  obtain ⟨hstatement, -⟩ := mem_tableStatements.mp hmem
  obtain ⟨hcanonical, hoptions⟩ := isCanonicalTable_of_isReadFrom hparts
    (isCanonical_of_dumpStatements hdump hstatement)
    (not_isInfix_of_dumpStatements hsource hdump hstatement)
  exact ⟨hcanonical, (properties_of_readTable hread).1, hoptions, exists_readColumns_alone hread⟩

theorem dumpStatements_of_isDumpable (h : IsDumpable table) :
    dumpStatements (table.statement ++ ['\n']) = .ok [table.statement] :=
  dumpStatements_of_isCanonical (isCanonical_statement h.toIsCanonicalTable)

theorem readTable_of_isDumpable {columns : List Column} (h : IsDumpable table)
    (hcolumns : readColumns table.clauses [] = .ok columns) :
    readTable [table.statement] = .ok { table with columns := columns, indexes := [] } := by
  rw [readTable_singleton_statement h.writable hcolumns, h.settled]

/-- The statement of a table that was read from a dump is a dump of that statement, and
the table read from it has the same parts and the same statement. -/
theorem dumpStatements_statement (hsource : ¬ [']', ']'] <:+: source)
    (h : readDump source = .ok table) :
    dumpStatements (table.statement ++ ['\n']) = .ok [table.statement] ∧
      ∃ again, readTable [table.statement] = .ok again ∧ again.name = table.name ∧
        again.ifNotExists = table.ifNotExists ∧ again.clauses = table.clauses ∧
        again.options = table.options ∧ again.statement = table.statement := by
  have htable := isDumpable_of_readDump hsource h
  obtain ⟨columns, hcolumns⟩ := htable.readable
  exact ⟨dumpStatements_of_isDumpable htable, _, readTable_of_isDumpable htable hcolumns, rfl, rfl,
    rfl, rfl, rfl⟩

def commentedDump : Text :=
  "create table [a--b;]-- (\n(x int DEFAULT '--;',  y  text) STRICT ;;\n".toList ++
    "CREATE UNIQUE INDEX i ON \"a--b;\" (y);".toList

def commentedTable : Table where
  name := "[a--b;]".toList
  ifNotExists := false
  clauses := ["x int DEFAULT '--;'".toList, "y text".toList]
  columns := [
    ⟨"x".toList, "int".toList, "int".toList, .unsized, some "--;".toList, true, false, false,
      false, false⟩,
    ⟨"y".toList, "text".toList, "text".toList, .unsized, none, true, false, true, false, false⟩]
  options := some "STRICT".toList
  indexes := [⟨"i".toList, "a--b;".toList, true, ["y".toList], false⟩]

theorem dumpStatements_statement_commentedTable :
    ¬ [']', ']'] <:+: commentedDump ∧ readDump commentedDump = .ok commentedTable ∧
      dumpStatements (commentedTable.statement ++ ['\n']) = .ok [commentedTable.statement] ∧
      ∃ again, readTable [commentedTable.statement] = .ok again ∧
        again.name = commentedTable.name ∧ again.ifNotExists = commentedTable.ifNotExists ∧
        again.clauses = commentedTable.clauses ∧ again.options = commentedTable.options ∧
        again.statement = commentedTable.statement := by
  have hsource : ¬ [']', ']'] <:+: commentedDump := by decide +kernel
  have hread : readDump commentedDump = .ok commentedTable :=
    eq_ok_of_toOption (by decide +kernel)
  exact ⟨hsource, hread, dumpStatements_statement hsource hread⟩

end SqliteSchema.Proofs.CanonicalDumps
