import SqliteSchema.Proofs.SqueezedPieces

/-!
Splitting undoes joining. A piece of a balanced text splits into itself alone,
and texts that do so come back from their join, whatever blank characters follow
the separators.
-/
namespace SqliteSchema.Proofs.NormalPieces

open PlainText DelimiterScan ClauseSplitting BalancedTexts SqueezedPieces

/-- A character at which a text can be split: nothing else is said with it. -/
def IsSeparating (separator : Char) : Prop :=
  isNeutral separator = true ∧ isBlank separator = false

theorem isSeparating_comma : IsSeparating ',' := ⟨by decide, by decide⟩

theorem isSeparating_semicolon : IsSeparating ';' := ⟨by decide, by decide⟩

def IsNormal (separator : Char) (text : Text) : Prop := separate separator text = .ok [text]

theorem separate_eq_ok_iff {separator : Char} {text : Text} {parts : List Text} :
    separate separator text = .ok parts ↔
      isBalanced text = true ∧ pieces separator text = parts := by
  unfold separate
  by_cases h : isBalanced text = true <;> simp [h]

theorem isSeparator_of_start (separator : Char) :
    isSeparator separator ⟨separator, start⟩ = true := by
  simp [isSeparator, Cell.isPlain, Cell.isQuoted, Cell.isTopLevel, start]

theorem eq_of_isSeparator {separator : Char} {cell : Cell}
    (h : isSeparator separator cell = true) : cell = ⟨separator, start⟩ := by
  obtain ⟨c, mode, depth⟩ := cell
  simp only [isSeparator, Cell.isPlain, Cell.isQuoted, Cell.isTopLevel, Bool.and_eq_true,
    Bool.not_eq_true', bne_eq_false_iff_eq, beq_iff_eq] at h
  obtain ⟨⟨rfl, rfl⟩, rfl⟩ := h
  rfl

variable {separator : Char}

theorem pieces_append_cons (hsep : IsSeparating separator) {left : Text}
    (hleft : isBalanced left = true) (right : Text) :
    pieces separator (left ++ separator :: right) =
      pieces separator left ++ pieces separator right := by
  unfold pieces
  rw [cells_append_cons hleft hsep.1,
    List.splitOnP_append_cons _ _ (isSeparator_of_start separator), List.map_append,
    List.filter_append]

theorem separate_append_cons (hsep : IsSeparating separator) {left right : Text}
    {leftParts rightParts : List Text} (hleft : separate separator left = .ok leftParts)
    (hright : separate separator right = .ok rightParts) :
    separate separator (left ++ separator :: right) = .ok (leftParts ++ rightParts) := by
  rw [separate_eq_ok_iff] at *
  obtain ⟨hleftBalanced, rfl⟩ := hleft
  obtain ⟨hrightBalanced, rfl⟩ := hright
  exact ⟨by rw [isBalanced_append_cons hleftBalanced hsep.1, hrightBalanced],
    pieces_append_cons hsep hleftBalanced right⟩

/-- A blank character in front of a text is lost. -/
theorem separate_cons_blank (hsep : IsSeparating separator) {c : Char}
    (hc : isBlank c = true) {text : Text} {parts : List Text}
    (h : separate separator text = .ok parts) : separate separator (c :: text) = .ok parts := by
  have hneutral := isNeutral_of_isBlank hc
  rw [separate_eq_ok_iff] at *
  obtain ⟨hbalanced, rfl⟩ := h
  refine ⟨by rw [isBalanced_cons hneutral, hbalanced], ?_⟩
  have hne : c ≠ separator := by
    rintro rfl
    exact absurd hc (by simp [hsep.2])
  have hcell : isSeparator separator ⟨c, start⟩ = false := by
    simp [isSeparator, Cell.isPlain, hne]
  have hgap : isGap ⟨c, start⟩ = true := by simp [isGap, Cell.isQuoted, start, hc]
  obtain ⟨first, more, hsplit⟩ :=
    List.exists_cons_of_ne_nil (List.splitOnP_ne_nil (isSeparator separator) (cells text))
  unfold pieces
  simp [cells_cons hneutral, List.splitOnP_cons_eq_if_modifyHead, hcell, hsplit,
    squeeze_cons_gap hgap]

theorem separate_blanks_append (hsep : IsSeparating separator) {blanks text : Text}
    {parts : List Text} (hblanks : ∀ c ∈ blanks, isBlank c = true)
    (h : separate separator text = .ok parts) :
    separate separator (blanks ++ text) = .ok parts := by
  induction blanks with
  | nil => exact h
  | cons c rest ih =>
    apply separate_cons_blank hsep (hblanks c (List.mem_cons_self ..))
    apply ih
    intro d hd
    exact hblanks d (List.mem_cons_of_mem _ hd)

/-- Texts that split into themselves come back from their join. -/
theorem separate_intercalate (hsep : IsSeparating separator) {blanks : Text}
    (hblanks : ∀ c ∈ blanks, isBlank c = true) {parts : List Text}
    (hparts : ∀ part ∈ parts, IsNormal separator part) :
    separate separator ((separator :: blanks).intercalate parts) = .ok parts := by
  induction parts with
  | nil => rfl
  | cons part more ih =>
    have hpart := hparts part (List.mem_cons_self ..)
    have hmore : separate separator ((separator :: blanks).intercalate more) = .ok more := by
      apply ih
      intro other hother
      exact hparts other (List.mem_cons_of_mem _ hother)
    cases more with
    | nil => rwa [List.intercalate_singleton]
    | cons next rest =>
      rw [List.intercalate_cons_cons, List.append_assoc, List.cons_append]
      exact separate_append_cons hsep hpart (separate_blanks_append hsep hblanks hmore)

/-- A separator outside quotes and groups leaves balanced texts on both sides. -/
theorem balanced_of_cells_eq_append (hsep : IsSeparating separator) {text : Text}
    {left right : List Cell} (htext : isBalanced text = true)
    (h : cells text = left ++ ⟨separator, start⟩ :: right) :
    left = cells (left.map Cell.char) ∧ isBalanced (left.map Cell.char) = true ∧
      right = cells (right.map Cell.char) ∧ isBalanced (right.map Cell.char) = true ∧
      text = left.map Cell.char ++ separator :: right.map Cell.char := by
  obtain ⟨hleft, hstep, hright, hsplit⟩ := cellsFrom_eq_append_cons h
  have hbalanced : isBalanced (left.map Cell.char) = true := by
    rw [step_of_isNeutral (isReachable_run isReachable_start _) hsep.1] at hstep
    unfold isBalanced
    rw [← isBalanced_settle, ← hstep]
    rfl
  refine ⟨hleft, hbalanced, hright, ?_, hsplit⟩
  rwa [hsplit, isBalanced_append_cons hbalanced hsep.1] at htext

/-- What stands between two separators of a balanced text is itself a balanced
text, scanned from the start, without a separator. -/
theorem exists_text_of_mem_splitOnP (hsep : IsSeparating separator) {text : Text}
    (htext : isBalanced text = true) {part : List Cell}
    (hpart : part ∈ (cells text).splitOnP (isSeparator separator)) :
    ∃ inside, part = cells inside ∧ isBalanced inside = true ∧
      ∀ cell ∈ part, isSeparator separator cell = false := by
  induction hlen : text.length using Nat.strongRecOn generalizing text with
  | ind len ih =>
    cases hfind : (cells text).find? (isSeparator separator) with
    | none =>
      have hnone : ∀ cell ∈ cells text, isSeparator separator cell = false := by
        simpa using hfind
      rw [List.splitOnP_eq_singleton hnone, List.mem_singleton] at hpart
      subst hpart
      exact ⟨text, rfl, htext, hnone⟩
    | some cell =>
      obtain ⟨hcell, left, right, hcells, hleft⟩ := List.find?_eq_some_iff_append.mp hfind
      obtain rfl := eq_of_isSeparator hcell
      obtain ⟨hleftCells, hleftBalanced, hrightCells, hrightBalanced, hsplit⟩ :=
        balanced_of_cells_eq_append hsep htext hcells
      have hfree : ∀ cell ∈ left, isSeparator separator cell = false := by simpa using hleft
      rw [hcells, List.splitOnP_append_cons_of_forall_mem hfree _ hcell] at hpart
      rcases List.mem_cons.mp hpart with rfl | hmem
      · exact ⟨part.map Cell.char, hleftCells, hleftBalanced, hfree⟩
      · rw [hrightCells] at hmem
        refine ih _ ?_ hrightBalanced hmem rfl
        have hlength := congrArg List.length hsplit
        simp only [List.length_append, List.length_cons] at hlength
        omega

/-- What a text is that splits into itself: nothing in it is a separator, and squeezing
does not change it. -/
structure IsPiece (separator : Char) (text : Text) : Prop where
  filled : text ≠ []
  balanced : isBalanced text = true
  undivided : ∀ cell ∈ cells text, isSeparator separator cell = false
  tight : IsTight (cells text)

theorem isNormal_of_isPiece {text : Text} (h : IsPiece separator text) :
    IsNormal separator text := by
  refine separate_eq_ok_iff.mpr ⟨h.balanced, ?_⟩
  have hsqueezed : squeeze (cells text) = text := by
    rw [squeeze_eq_map, h.tight]
    exact map_char_cellsFrom start text
  rw [pieces, List.splitOnP_eq_singleton h.undivided]
  simp [hsqueezed, isFilled, h.filled]

theorem isPiece_of_mem_pieces (hsep : IsSeparating separator) {text : Text}
    (htext : isBalanced text = true) {piece : Text} (h : piece ∈ pieces separator text) :
    IsPiece separator piece := by
  obtain ⟨hmem, hfilled⟩ := List.mem_filter.mp h
  obtain ⟨part, hpart, rfl⟩ := List.mem_map.mp hmem
  obtain ⟨inside, rfl, hinside, hfree⟩ := exists_text_of_mem_splitOnP hsep htext hpart
  refine ⟨by simpa [isFilled] using hfilled, by rw [isBalanced_squeeze, hinside], ?_, ?_⟩
  · intro cell hcell
    rw [cells_squeeze] at hcell
    rcases mem_squeezeCells hcell with hmem | hspace
    · exact hfree cell hmem
    · have hne : ' ' ≠ separator := by
        rintro rfl
        exact absurd isBlank_space (by simp [hsep.2])
      simp [isSeparator, Cell.isPlain, hspace, hne]
  · rw [cells_squeeze]
    exact squeezeCells_squeezeCells _

/-- Every piece of a balanced text is normal. -/
theorem isNormal_of_mem_pieces (hsep : IsSeparating separator) {text : Text}
    (htext : isBalanced text = true) {piece : Text} (h : piece ∈ pieces separator text) :
    IsNormal separator piece := isNormal_of_isPiece (isPiece_of_mem_pieces hsep htext h)

theorem isNormal_of_mem (hsep : IsSeparating separator) {text : Text} {parts : List Text}
    (hparts : separate separator text = .ok parts) {part : Text} (h : part ∈ parts) :
    IsNormal separator part := by
  obtain ⟨hbalanced, rfl⟩ := separate_eq_ok_iff.mp hparts
  exact isNormal_of_mem_pieces hsep hbalanced h

/-- Splitting at a comma, and at a semicolon, undoes joining. Every piece splits into itself
alone, and texts that split into themselves come back from their join, with a space behind
each separator or without one. -/
theorem separate_joined :
    ((∀ body clauses, separateClauses body = .ok clauses →
        ∀ clause ∈ clauses, separateClauses clause = .ok [clause]) ∧
      ∀ clauses, (∀ clause ∈ clauses, separateClauses clause = .ok [clause]) →
        separateClauses (", ".toList.intercalate clauses) = .ok clauses ∧
        separateClauses (",".toList.intercalate clauses) = .ok clauses) ∧
    (∀ batch statements, separateStatements batch = .ok statements →
        ∀ statement ∈ statements, separateStatements statement = .ok [statement]) ∧
      ∀ statements, (∀ statement ∈ statements, separateStatements statement = .ok [statement]) →
        separateStatements ("; ".toList.intercalate statements) = .ok statements ∧
        separateStatements (";".toList.intercalate statements) = .ok statements := by
  have hnone : ∀ c ∈ ([] : Text), isBlank c = true := by simp
  have hspace : ∀ c ∈ [' '], isBlank c = true := List.forall_mem_singleton.mpr isBlank_space
  refine ⟨⟨?_, ?_⟩, ?_, ?_⟩
  · intro body clauses hclauses clause hclause
    exact isNormal_of_mem isSeparating_comma hclauses hclause
  · intro clauses hclauses
    exact ⟨separate_intercalate isSeparating_comma hspace hclauses,
      separate_intercalate isSeparating_comma hnone hclauses⟩
  · intro batch statements hstatements statement hstatement
    exact isNormal_of_mem isSeparating_semicolon hstatements hstatement
  · intro statements hstatements
    exact ⟨separate_intercalate isSeparating_semicolon hspace hstatements,
      separate_intercalate isSeparating_semicolon hnone hstatements⟩

def markedClauses : List Text :=
  ["`b``,` text DEFAULT 'x, ''y'".toList, "[c]".toList, "CHECK (a > (1, ';'))".toList]

def markedStatements : List Text := ["CREATE [a]".toList, "] (';', \";\")".toList]

theorem separate_joined_marked :
    (separateClauses " `b``,`\ttext  DEFAULT 'x, ''y',,[c] ,\nCHECK (a  > (1, ';'))".toList =
        .ok markedClauses ∧
      (∀ clause ∈ markedClauses, separateClauses clause = .ok [clause]) ∧
      separateClauses (", ".toList.intercalate markedClauses) = .ok markedClauses ∧
      separateClauses (",".toList.intercalate markedClauses) = .ok markedClauses) ∧
    separateStatements "CREATE [a] ;; ] (';',  \";\");".toList = .ok markedStatements ∧
      (∀ statement ∈ markedStatements, separateStatements statement = .ok [statement]) ∧
      separateStatements ("; ".toList.intercalate markedStatements) = .ok markedStatements ∧
      separateStatements (";".toList.intercalate markedStatements) = .ok markedStatements := by
  have hclauses : separateClauses
      " `b``,`\ttext  DEFAULT 'x, ''y',,[c] ,\nCHECK (a  > (1, ';'))".toList =
        .ok markedClauses := separate_eq_ok_iff.mpr (by decide +kernel)
  have hstatements : separateStatements "CREATE [a] ;; ] (';',  \";\");".toList =
      .ok markedStatements := separate_eq_ok_iff.mpr (by decide +kernel)
  obtain ⟨⟨hpiece, hjoin⟩, hpiece', hjoin'⟩ := separate_joined
  exact ⟨⟨hclauses, hpiece _ _ hclauses, hjoin _ (hpiece _ _ hclauses)⟩,
    hstatements, hpiece' _ _ hstatements, hjoin' _ (hpiece' _ _ hstatements)⟩

end SqliteSchema.Proofs.NormalPieces
