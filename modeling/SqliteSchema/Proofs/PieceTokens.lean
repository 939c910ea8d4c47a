import SqliteSchema.Proofs.BalancedTokens
import SqliteSchema.Proofs.NormalPieces

/-!
The tokens of the pieces of a text. Squeezing a balanced text changes none of its
tokens but the blanks inside groups, and a comma outside quotes and groups is a token
of its own. So the clauses of a body are, in their order, the runs of tokens that its
comma tokens leave between them.
-/
namespace SqliteSchema.Proofs.PieceTokens

open PlainText Quoting DelimiterScan ClauseSplitting ClauseTokens BalancedTexts SqueezedPieces
  NormalPieces QuotedRuns FirstGroups TokenScans TokenReading BalancedTokens

def shape (token : Token) : TokenKind × Text := (token.kind, token.text)

/-- The shape of a token with the blanks inside a group squeezed. -/
def tidyShape (token : Token) : TokenKind × Text :=
  (token.kind, if token.isGroup then squeeze (cells token.text) else token.text)

def isComma (token : Token) : Bool := token.kind == .symbol && token.text == [',']

def clauseRuns (tokens : List Token) : List (List Token) :=
  (tokens.splitOnP isComma).filter isFilled

theorem squeeze_cells_of_forall {text : Text} (h : ∀ cell ∈ cells text, isGap cell = false) :
    squeeze (cells text) = text := by
  rw [squeeze_eq_map, show squeezeCells (cells text) = cells text from isTight_of_forall h]
  exact map_char_cellsFrom start text

/-- A squeezed group is a group. -/
theorem exists_squeeze_group {body : Text} (hbody : isBalanced body = true) :
    ∃ inside, isBalanced inside = true ∧
      squeeze (cells ('(' :: (body ++ [')']))) = '(' :: (inside ++ [')']) := by
  have hopen : isGap ⟨'(', deepen start⟩ = false := rfl
  have hclose : isGap ⟨')', start⟩ = false := rfl
  have hcells := cells_group hbody
  obtain ⟨front, hfront, hmem⟩ := exists_squeezeCells_append hclose
    (⟨'(', deepen start⟩ :: (cells body).map deepenCell)
  have hsqueezed : squeezeCells (cells ('(' :: (body ++ [')']))) = front ++ [⟨')', start⟩] := by
    rw [hcells, hfront, squeezeCells, if_neg (by simp [hclose])]
  obtain ⟨tail, htail⟩ := exists_squeezeCells_cons hopen
    ((cells body).map deepenCell ++ [⟨')', start⟩])
  rw [hcells, List.cons_append, htail] at hsqueezed
  cases front with
  | nil => simp at hsqueezed
  | cons first inner =>
    obtain ⟨rfl, rfl⟩ := List.cons.inj hsqueezed
    have hrescan : cells (squeeze (cells ('(' :: (body ++ [')'])))) =
        ⟨'(', deepen start⟩ :: (inner ++ [⟨')', start⟩]) := by
      rw [cells_squeeze, hcells, List.cons_append, htail]
      rfl
    have htext : squeeze (cells ('(' :: (body ++ [')']))) =
        '(' :: (inner.map Cell.char ++ [')']) := by
      rw [squeeze_eq_map, hcells, List.cons_append, htail]
      simp
    have hinner : cellsFrom (deepen start) (inner.map Cell.char ++ [')']) =
        inner ++ [⟨')', start⟩] := by
      rw [htext] at hrescan
      exact (List.cons.inj hrescan).2
    obtain ⟨hcellsInner, hscan, -, -⟩ := cellsFrom_eq_append_cons hinner
    refine ⟨inner.map Cell.char, isBalanced_of_step_close ?_ hscan.symm, htext⟩
    rw [← hcellsInner]
    intro cell hcell
    rcases hmem cell (List.mem_cons_of_mem _ hcell) with hin | hspace
    · rcases List.mem_cons.mp hin with rfl | hin
      · rfl
      · obtain ⟨other, -, rfl⟩ := List.mem_map.mp hin
        exact closesGroup_deepenCell other
    · obtain ⟨c, scan⟩ := cell
      obtain rfl : c = ' ' := hspace
      exact closesGroup_of_ne (by decide) scan

variable {first : Char} {kind : TokenKind} {run after : Text}

/-- Only a group has gaps inside. -/
theorem isGap_of_mem_lexes (h : Lexes first kind run after) (hkind : kind ≠ .group) :
    ∀ cell ∈ cells (first :: run), isGap cell = false := by
  cases h with
  | group => exact absurd rfl hkind
  | comma hfirst =>
    subst hfirst
    intro cell hcell
    rw [List.mem_singleton.mp hcell]
    decide
  | quoted hclose run after hread =>
    intro cell hcell
    rw [cells, cellsFrom, step_opening rfl hclose] at hcell
    rcases List.mem_cons.mp hcell with rfl | hcell
    · rfl
    · exact isGap_of_isQuoted ((scan_closeQuote? hread _).2 cell hcell)
  | word hfirst run after hrun hafter =>
    have hletters : ∀ c ∈ first :: run, isWordChar c = true :=
      List.forall_mem_cons.mpr ⟨hfirst, hrun⟩
    intro cell hcell
    rw [(cells_of_wordChars hletters).2] at hcell
    obtain ⟨c, hc, rfl⟩ := List.mem_map.mp hcell
    exact isGap_of_isBlank_eq_false (of_isWordChar (hletters c hc)).1 start

/-- Squeezing a token of a balanced text gives a token of its kind, which differs from
it only if it is a group. -/
theorem exists_squeeze_of_lexes (h : Lexes first kind run after) (gap : Text) :
    ∃ tidy, (kind, first :: tidy) = tidyShape ⟨gap, kind, first :: run⟩ ∧
      squeeze (cells (first :: run)) = first :: tidy ∧ Lexes first kind tidy after := by
  by_cases hkind : kind = .group
  · subst hkind
    cases h with
    | group hfirst body after hbody =>
      subst hfirst
      obtain ⟨inside, hinside, htext⟩ := exists_squeeze_group hbody
      refine ⟨inside ++ [')'], ?_, htext, .group rfl inside after hinside⟩
      rw [← htext]
      rfl
  · have hgroup : Token.isGroup ⟨gap, kind, first :: run⟩ = false := by
      simpa [Token.isGroup] using hkind
    refine ⟨run, ?_, squeeze_cells_of_forall (isGap_of_mem_lexes h hkind), h⟩
    simp [tidyShape, hgroup]

/-- A token of a balanced text ends with a character that is no gap. -/
theorem exists_cells_of_lexes (h : Lexes first kind run after) :
    ∃ left cell, cells (first :: run) = left ++ [cell] ∧ isGap cell = false := by
  by_cases hkind : kind = .group
  · subst hkind
    cases h with
    | group hfirst body after hbody =>
      subst hfirst
      exact ⟨_, _, cells_group hbody, rfl⟩
  · have hne : cells (first :: run) ≠ [] := List.cons_ne_nil _ _
    refine ⟨_, _, (List.dropLast_concat_getLast hne).symm, ?_⟩
    exact isGap_of_mem_lexes h hkind _ (List.getLast_mem hne)

theorem cells_of_lexes (h : Lexes first kind run after) :
    cells (first :: (run ++ after)) = cells (first :: run) ++ cells after := by
  rw [← List.cons_append, cells, cellsFrom_append, (scan_of_lexes h).1]
  rfl

/-- What holds of a token wherever it holds of its cells holds of the tokens of a text. -/
theorem forall_mem_tokensOf {onCell : Cell → Prop} {onToken : Token → Prop}
    (htoken : ∀ gap first kind run after, Lexes first kind run after →
      (∀ cell ∈ cells (first :: run), onCell cell) → onToken ⟨gap, kind, first :: run⟩)
    {text : Text} (htext : isBalanced text = true) (hcells : ∀ cell ∈ cells text, onCell cell) :
    ∀ token ∈ tokensOf text, onToken token := by
  induction text, htext using balanced_induction with
  | blank text _ h => simp [tokensOf_of_blank h]
  | token gap first kind run after _ hgap hblank hlexes _ ih =>
    rw [(scan_of_blanks hgap _).1, cells_of_lexes hlexes] at hcells
    obtain ⟨-, hboth⟩ := List.forall_mem_append.mp hcells
    obtain ⟨hfirst, hafter⟩ := List.forall_mem_append.mp hboth
    rw [tokensOf_of_lexes hgap hblank hlexes, List.forall_mem_cons]
    exact ⟨htoken gap first kind run after hlexes hfirst, ih hafter⟩

theorem squeeze_of_blank {text : Text} (h : ∀ c ∈ text, isBlank c = true) :
    squeeze (cells text) = [] := by
  have hgaps := squeeze_append_of_gaps (isGap_of_mem_blanks isReachable_start rfl h) []
  rwa [List.append_nil] at hgaps

/-- Blanks in front of a text change the gap of its first token alone. -/
theorem map_shape_blanks_append {blanks : Text} (hblanks : ∀ c ∈ blanks, isBlank c = true)
    (text : Text) :
    (tokensOf (blanks ++ text)).map shape = (tokensOf text).map shape := by
  induction text using token_induction with
  | blank text h =>
    have hboth : ∀ c ∈ blanks ++ text, isBlank c = true := by
      intro c hc
      rcases List.mem_append.mp hc with hc | hc
      · exact hblanks c hc
      · exact h c hc
    rw [tokensOf_of_blank h, tokensOf_of_blank hboth]
  | token gap first rest hgap hblank =>
    have hboth : ∀ c ∈ blanks ++ gap, isBlank c = true := by
      intro c hc
      rcases List.mem_append.mp hc with hc | hc
      · exact hblanks c hc
      · exact hgap c hc
    rw [← List.append_assoc, tokensOf_append hboth hblank, tokensOf_append hgap hblank]
    rfl

/-- A squeezed text has the tokens of the text it comes from. -/
theorem map_shape_squeeze {text : Text} (htext : isBalanced text = true) :
    (tokensOf (squeeze (cells text))).map shape = (tokensOf text).map tidyShape := by
  induction text, htext using balanced_induction with
  | blank text _ h => rw [squeeze_of_blank h, tokensOf_of_blank h, tokensOf_nil]; rfl
  | token gap first kind run after _ hgap hblank hlexes hafter ih =>
    obtain ⟨tidy, htidy, hsqueeze, hlexesTidy⟩ := exists_squeeze_of_lexes hlexes gap
    obtain ⟨left, cell, hcells, hcell⟩ := exists_cells_of_lexes hlexes
    obtain ⟨space, hspace, hjoined, hhead⟩ := exists_squeeze_append hcell left (cells after)
    have hscan : cells (first :: (run ++ after)) = left ++ cell :: cells after := by
      rw [cells_of_lexes hlexes, hcells, List.append_assoc]
      rfl
    have hgaps : ∀ cell ∈ cells gap, isGap cell = true :=
      isGap_of_mem_blanks isReachable_start rfl hgap
    have hwhole : squeeze (cells (gap ++ first :: (run ++ after))) =
        first :: (tidy ++ (space ++ squeeze (cells after))) := by
      rw [(scan_of_blanks hgap _).1, squeeze_append_of_gaps hgaps, hscan,
        hjoined, ← hcells, hsqueeze]
      rfl
    have hnext : Lexes first kind tidy (space ++ squeeze (cells after)) := by
      apply lexes_of_head? hlexesTidy
      intro c hc
      have hchars : (cells after).head?.map Cell.char = after.head? := by
        rw [← List.head?_map, cells, map_char_cellsFrom]
      rcases hhead c hc with hsame | hbreak
      · exact .inl (by rw [← hchars, hsame])
      · exact .inr (by simp [isBreak, hbreak])
    have hempty : ∀ c ∈ ([] : Text), isBlank c = true := by simp
    have hread := tokensOf_of_lexes hempty hblank hnext
    rw [List.nil_append] at hread
    rw [hwhole, hread, tokensOf_of_lexes hgap hblank hlexes, List.map_cons, List.map_cons,
      map_shape_blanks_append hspace, ih, ← htidy]
    rfl

/-- Without a comma outside quotes and groups there is no comma token. -/
theorem isComma_of_mem_tokensOf {text : Text} (htext : isBalanced text = true)
    (hfree : ∀ cell ∈ cells text, isSeparator ',' cell = false) :
    ∀ token ∈ tokensOf text, isComma token = false := by
  refine forall_mem_tokensOf ?_ htext hfree
  intro gap first kind run after hlexes hcells
  cases hlexes with
  | comma hfirst =>
    subst hfirst
    have hcomma := hcells ⟨',', start⟩ (List.mem_cons_self ..)
    rw [isSeparator_of_start] at hcomma
    simp at hcomma
  | group | quoted | word => rfl

theorem clauseRuns_append_cons (left right : List Token) {comma : Token}
    (hcomma : isComma comma = true) :
    clauseRuns (left ++ comma :: right) = clauseRuns left ++ clauseRuns right := by
  rw [clauseRuns, List.splitOnP_append_cons _ _ hcomma, List.filter_append]
  rfl

theorem isBlank_of_tokensOf_eq_nil {text : Text} (h : tokensOf text = []) :
    ∀ c ∈ text, isBlank c = true := by
  induction text using token_induction with
  | blank text hblank => exact hblank
  | token gap first rest hgap hblank =>
    rw [tokensOf_append hgap hblank] at h
    simp at h

/-- A text without a separating comma is at most one piece, of all its tokens. -/
theorem map_shape_pieces_of_free {text : Text} (htext : isBalanced text = true)
    (hfree : ∀ cell ∈ cells text, isSeparator ',' cell = false) :
    (pieces ',' text).map (fun piece => (tokensOf piece).map shape) =
      (clauseRuns (tokensOf text)).map (List.map tidyShape) := by
  have htokens := map_shape_squeeze htext
  rw [pieces, clauseRuns, List.splitOnP_eq_singleton hfree,
    List.splitOnP_eq_singleton (isComma_of_mem_tokensOf htext hfree)]
  cases hempty : tokensOf text with
  | nil => simp [squeeze_of_blank (isBlank_of_tokensOf_eq_nil hempty), isFilled]
  | cons token rest =>
    rw [hempty] at htokens
    have hfilled : isFilled (squeeze (cells text)) = true := by
      cases hsqueeze : squeeze (cells text) with
      | nil => simp [hsqueeze, tokensOf_nil] at htokens
      | cons => rfl
    have hrun : isFilled (token :: rest) = true := rfl
    simp only [List.map_cons, List.map_nil, List.filter_cons_of_pos hfilled,
      List.filter_cons_of_pos hrun, List.filter_nil, htokens]

/-- The pieces of a balanced text have the tokens that its comma tokens leave between them. -/
theorem map_shape_pieces {text : Text} (htext : isBalanced text = true) :
    (pieces ',' text).map (fun piece => (tokensOf piece).map shape) =
      (clauseRuns (tokensOf text)).map (List.map tidyShape) := by
  induction hlen : text.length using Nat.strongRecOn generalizing text with
  | ind len ih =>
    cases hfind : (cells text).find? (isSeparator ',') with
    | none => exact map_shape_pieces_of_free htext (by simpa using hfind)
    | some cell =>
      obtain ⟨hcell, left, right, hcells, hleft⟩ := List.find?_eq_some_iff_append.mp hfind
      obtain rfl := eq_of_isSeparator hcell
      obtain ⟨hleftCells, hleftBalanced, -, hrightBalanced, hsplit⟩ :=
        balanced_of_cells_eq_append isSeparating_comma htext hcells
      have hfree : ∀ cell ∈ cells (left.map Cell.char), isSeparator ',' cell = false := by
        rw [← hleftCells]
        simpa using hleft
      generalize left.map Cell.char = before at hleftBalanced hsplit hfree
      generalize right.map Cell.char = after at hrightBalanced hsplit
      have hbreak : ∀ c ∈ (',' :: after).head?, isBreak c = true := by simp [isBreak]
      obtain ⟨gap, hgap, htokens⟩ := exists_tokensOf_append hleftBalanced hbreak
      have hcomma : Lexes ',' .symbol [] after := .comma rfl after
      have hread := tokensOf_of_lexes hgap (by decide) hcomma
      rw [List.nil_append] at hread
      have hright := ih after.length (by simp [← hlen, hsplit]; omega) hrightBalanced rfl
      rw [hsplit, pieces_append_cons isSeparating_comma hleftBalanced, htokens, hread,
        clauseRuns_append_cons _ _ rfl, List.map_append, List.map_append,
        map_shape_pieces_of_free hleftBalanced hfree, hright]

/-- A body is split exactly where every quoted run and group is closed by its own
delimiter and no closing parenthesis stands alone. The clauses then have the tokens of
the body between its commas, each run of them in its place, with the blanks inside a
group squeezed; only the empty runs are gone. -/
theorem separateClauses_tokens (body : Text) :
    ((∃ clauses, separateClauses body = .ok clauses) ↔
      ∀ token ∈ tokensOf body, isClosed token = true ∧ isStray token = false) ∧
    ∀ clauses, separateClauses body = .ok clauses →
      clauses.map (fun clause => (tokensOf clause).map shape) =
        (clauseRuns (tokensOf body)).map (List.map tidyShape) := by
  have hsound : isBalanced body = true ↔
      ∀ token ∈ tokensOf body, isClosed token = true ∧ isStray token = false := by
    simpa [isSound] using isBalanced_iff_isSound body
  constructor
  · rw [← hsound]
    constructor
    · rintro ⟨clauses, h⟩
      exact (separate_eq_ok_iff.mp h).1
    · intro hbalanced
      exact ⟨pieces ',' body, separate_eq_ok_iff.mpr ⟨hbalanced, rfl⟩⟩
  · intro clauses h
    obtain ⟨hbalanced, rfl⟩ := separate_eq_ok_iff.mp h
    exact map_shape_pieces hbalanced

def unevenBody : Text := " a\tint(  1 ,( '  ''('  ) ),,\n[b ( ]\"c\"\"\" ,`,` ".toList

/-- Three commas separate clauses, one of them empty; two more are quoted or in a group. -/
theorem separateClauses_unevenBody :
    separateClauses unevenBody =
        .ok ["a int( 1 ,( '  ''(' ) )".toList, "[b ( ]\"c\"\"\"".toList, "`,`".toList] ∧
      (tokensOf "a int( 1 ,( '  ''(' ) )".toList).map shape =
        [(.word, ['a']), (.word, "int".toList), (.group, "( 1 ,( '  ''(' ) )".toList)] ∧
      (clauseRuns (tokensOf unevenBody)).length = 3 := by
  have hsplit : separateClauses unevenBody =
      .ok ["a int( 1 ,( '  ''(' ) )".toList, "[b ( ]\"c\"\"\"".toList, "`,`".toList] :=
    separate_eq_ok_iff.mpr (by decide +kernel)
  have hshapes := (separateClauses_tokens unevenBody).2 _ hsplit
  refine ⟨hsplit, by decide +kernel, ?_⟩
  simpa using (congrArg List.length hshapes).symm

end SqliteSchema.Proofs.PieceTokens
