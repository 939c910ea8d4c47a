import SqliteSchema.Proofs.BalancedTokens
import SqliteSchema.Proofs.NormalPieces

/-!
The texts that can be split, as a grammar. Such a text is a sequence of plain characters,
of quoted runs, which end at the first delimiter that is not doubled, and of parentheses
around another such text. Splitting one keeps every character in its place: only the blanks
outside quotes and the separators outside quotes and groups are lost.
-/
namespace SqliteSchema.Proofs.NestedTexts

open PlainText Quoting DelimiterScan Faults ClauseSplitting ClauseTokens BalancedTexts
  SqueezedPieces NormalPieces QuotedRuns FirstGroups TokenScans BalancedTokens

/-- A text in which every quoted run and every group ends. In a run the delimiter that ends
it is written twice where it is content, and does not follow the end of the run. -/
inductive IsNested : Text → Prop
  | nil : IsNested []
  | plain {c : Char} {rest : Text} (hc : isInert c = true) (hrest : IsNested rest) :
      IsNested (c :: rest)
  | quoted {opening close : Char} (hclose : closingDelimiter? opening = some close)
      (inside : Text) {rest : Text} (hend : rest.head? ≠ some close) (hrest : IsNested rest) :
      IsNested (opening :: (double close inside ++ close :: rest))
  | group {body rest : Text} (hbody : IsNested body) (hrest : IsNested rest) :
      IsNested ('(' :: (body ++ ')' :: rest))

theorem isBalanced_cons_of_isInert {c : Char} (hc : isInert c = true) (rest : Text) :
    isBalanced (c :: rest) = isBalanced rest := by
  rw [isBalanced, run_cons, step_of_isInert rfl hc]
  rfl

theorem isBalanced_cons_quoted {opening close : Char}
    (hclose : closingDelimiter? opening = some close) (inside : Text) {rest : Text}
    (hend : rest.head? ≠ some close) :
    isBalanced (opening :: (double close inside ++ close :: rest)) = isBalanced rest := by
  rw [isBalanced, run_cons, step_opening rfl hclose, run_append, run_double, run_cons,
    step_quoted_self, isBalanced_run_closed hend]
  rfl

theorem isBalanced_cons_group {body : Text} (hbody : isBalanced body = true) (rest : Text) :
    isBalanced ('(' :: (body ++ ')' :: rest)) = isBalanced rest := by
  have hempty : isBalanced [] = true := rfl
  have hrun := run_append_group hempty hbody rest
  rw [List.nil_append] at hrun
  rw [isBalanced, hrun]
  rfl

theorem isBalanced_of_isNested {text : Text} (h : IsNested text) : isBalanced text = true := by
  induction h with
  | nil => rfl
  | plain hc _ ih => rw [isBalanced_cons_of_isInert hc, ih]
  | quoted hclose inside hend _ ih => rw [isBalanced_cons_quoted hclose inside hend, ih]
  | group _ _ ihBody ihRest => rw [isBalanced_cons_group ihBody, ihRest]

/-- A quote at the front of a balanced text begins a run that ends. -/
theorem exists_quoted_of_isBalanced {opening close : Char} {rest : Text}
    (hclose : closingDelimiter? opening = some close)
    (h : isBalanced (opening :: rest) = true) :
    ∃ inside after, rest = double close inside ++ close :: after ∧ after.head? ≠ some close := by
  cases hread : closeQuote? close rest with
  | none =>
    rw [isBalanced_of_closeQuote?_eq_none hclose hread] at h
    simp at h
  | some part =>
    obtain ⟨run, after⟩ := part
    have hrest := closeQuote?_append hread
    obtain ⟨inside, rfl⟩ := exists_double_of_closeQuote? hread
    exact ⟨inside, after, by simp [← hrest], head?_of_closeQuote? hread⟩

/-- A parenthesis at the front of a balanced text opens a group that ends. -/
theorem exists_group_of_isBalanced {rest : Text} (h : isBalanced ('(' :: rest) = true) :
    ∃ body after, rest = body ++ ')' :: after ∧ isBalanced body = true := by
  cases hread : closeGroup? 0 rest with
  | none =>
    have hopen : ((deepen start).run rest).isBalanced = true := h
    rw [isBalanced_of_closeGroup?_eq_none hread] at hopen
    simp at hopen
  | some part =>
    obtain ⟨run, after⟩ := part
    obtain ⟨body, hbody, rfl, hrest⟩ := closeGroup?_eq_some_iff.mp hread
    exact ⟨body, after, by simp [hrest], hbody⟩

theorem isInert_or_opens (c : Char) :
    isInert c = true ∨ (∃ close, closingDelimiter? c = some close) ∨ c = '(' ∨ c = ')' := by
  cases hclose : closingDelimiter? c with
  | some close => exact .inr (.inl ⟨close, rfl⟩)
  | none =>
    by_cases hopen : c = '('
    · exact .inr (.inr (.inl hopen))
    by_cases hend : c = ')'
    · exact .inr (.inr (.inr hend))
    exact .inl (by simp [isInert, hclose, hopen, hend])

-- The body of a group is shorter than the text, so the induction is on the length.
/-- A balanced text begins with an inert character, a closed run or a closed group, and what is
left behind it is balanced again. -/
theorem isNested_of_isBalanced {text : Text} (h : isBalanced text = true) : IsNested text := by
  induction hlen : text.length using Nat.strongRecOn generalizing text with
  | ind len ih =>
    cases text with
    | nil => exact .nil
    | cons first rest =>
      rcases isInert_or_opens first with hinert | ⟨close, hclose⟩ | rfl | rfl
      · rw [isBalanced_cons_of_isInert hinert] at h
        exact .plain hinert (ih rest.length (by simp [← hlen]) h rfl)
      · obtain ⟨inside, after, rfl, hend⟩ := exists_quoted_of_isBalanced hclose h
        rw [isBalanced_cons_quoted hclose inside hend] at h
        have hafter : after.length < len := by
          simp only [← hlen, List.length_cons, List.length_append]
          omega
        exact .quoted hclose inside hend (ih after.length hafter h rfl)
      · obtain ⟨body, after, rfl, hbody⟩ := exists_group_of_isBalanced h
        rw [isBalanced_cons_group hbody] at h
        have hshorter : body.length < len ∧ after.length < len := by
          simp only [← hlen, List.length_cons, List.length_append]
          omega
        exact .group (ih body.length hshorter.1 hbody rfl) (ih after.length hshorter.2 h rfl)
      · rw [isBalanced_cons_close] at h
        simp at h

/-- The scan accepts the texts of the grammar and no others. -/
theorem isBalanced_iff_isNested (text : Text) : isBalanced text = true ↔ IsNested text :=
  ⟨isNested_of_isBalanced, isBalanced_of_isNested⟩

def withoutGaps (text : Text) : Text :=
  ((cells text).filter fun cell => !isGap cell).map Cell.char

/-- A text without its blanks outside quotes and its separators outside quotes and groups. -/
def withoutSeparators (separator : Char) (text : Text) : Text :=
  ((cells text).filter fun cell => !isGap cell && !isSeparator separator cell).map Cell.char

theorem filter_squeezeCells (piece : List Cell) :
    (squeezeCells piece).filter (fun cell => !isGap cell) =
      piece.filter fun cell => !isGap cell := by
  fun_induction squeezeCells piece with
  | case1 => rfl
  | case2 cell hcell => simp [hcell]
  | case3 cell hcell => rfl
  | case4 cell next rest hcell ih =>
    have hdrop : (cell :: next :: rest).filter (fun cell => !isGap cell) =
        (next :: rest).filter fun cell => !isGap cell :=
      List.filter_cons_of_neg (by simp [hcell])
    rw [ih, hdrop]
  | case5 cell next rest hcell hnext ih =>
    have hspace := isGap_space (plain_of_isGap hnext)
    have hrest : (if squeezeCells rest = [] then []
        else ⟨' ', next.scan⟩ :: squeezeCells rest).filter (fun cell => !isGap cell) =
          rest.filter fun cell => !isGap cell := by
      rw [← ih]
      split_ifs with hempty
      · rw [hempty]
      · rw [List.filter_cons_of_neg (by simp [hspace])]
    rw [List.filter_cons_of_pos (by simp [hcell]), hrest,
      List.filter_cons_of_pos (by simp [hcell]), List.filter_cons_of_neg (by simp [hnext])]
  | case6 cell next rest hcell hnext ih =>
    have hkeep : ∀ more : List Cell, (cell :: more).filter (fun cell => !isGap cell) =
        cell :: more.filter fun cell => !isGap cell :=
      fun _ => List.filter_cons_of_pos (by simp [hcell])
    rw [hkeep, hkeep, ih]

theorem withoutGaps_squeeze (text : Text) :
    withoutGaps (squeeze (cells text)) = withoutGaps text := by
  rw [withoutGaps, cells_squeeze, filter_squeezeCells, withoutGaps]

theorem flatten_splitOnP {α : Type} (stops : α → Bool) (items : List α) :
    (items.splitOnP stops).flatten = items.filter fun item => !stops item := by
  induction items with
  | nil => rfl
  | cons item rest ih =>
    rw [List.splitOnP_cons_eq_if_modifyHead]
    cases hitem : stops item with
    | true => simp [hitem, ih]
    | false =>
      obtain ⟨first, more, hsplit⟩ := List.exists_cons_of_ne_nil (List.splitOnP_ne_nil stops rest)
      rw [hsplit, List.flatten_cons] at ih
      simp [hitem, hsplit, ← ih]

theorem flatMap_withoutGaps_filter (texts : List Text) :
    (texts.filter isFilled).flatMap withoutGaps = texts.flatMap withoutGaps := by
  induction texts with
  | nil => rfl
  | cons text rest ih =>
    cases text with
    | nil =>
      have hempty : withoutGaps [] = [] := rfl
      rw [List.filter_cons_of_neg (by simp [isFilled]), ih, List.flatMap_cons, hempty,
        List.nil_append]
    | cons c more =>
      rw [List.filter_cons_of_pos rfl, List.flatMap_cons, List.flatMap_cons, ih]

/-- The pieces of a balanced text hold its characters in their order, but for the blanks
outside quotes and the separators at which it is split. -/
theorem flatMap_withoutGaps_pieces {separator : Char} (hsep : IsSeparating separator)
    {text : Text} (htext : isBalanced text = true) :
    (pieces separator text).flatMap withoutGaps = withoutSeparators separator text := by
  have hpart : ∀ part ∈ (cells text).splitOnP (isSeparator separator),
      withoutGaps (squeeze part) = (part.filter fun cell => !isGap cell).map Cell.char := by
    intro part hmem
    obtain ⟨inside, rfl, -, -⟩ := exists_text_of_mem_splitOnP hsep htext hmem
    exact withoutGaps_squeeze inside
  calc
    _ = ((cells text).splitOnP (isSeparator separator)).flatMap
        fun part => withoutGaps (squeeze part) := by
      rw [pieces, flatMap_withoutGaps_filter, List.flatMap_map]
    _ = ((cells text).splitOnP (isSeparator separator)).flatMap
        fun part => (part.filter fun cell => !isGap cell).map Cell.char := by
      rw [List.flatMap_def, List.flatMap_def, List.map_congr_left hpart]
    _ = ((((cells text).splitOnP (isSeparator separator)).flatten).filter
        fun cell => !isGap cell).map Cell.char := by
      rw [List.filter_flatten, List.map_flatten, List.map_map, List.flatMap_def]
      rfl
    _ = _ := by rw [flatten_splitOnP, List.filter_filter, withoutSeparators]

/-- The text is split exactly where it is nested, and otherwise it is refused whole. No clause
is empty or has a gap at either end, and together the clauses hold the text but for its gaps
and its separating commas. -/
theorem separateClauses_isNested (text : Text) :
    ((∃ clauses, separateClauses text = .ok clauses) ↔ IsNested text) ∧
    (¬ IsNested text → separateClauses text = .error (.unbalanced text)) ∧
    ∀ clauses, separateClauses text = .ok clauses →
      (∀ clause ∈ clauses, clause ≠ [] ∧
        (∀ cell ∈ (cells clause).head?, isGap cell = false) ∧
        ∀ cell ∈ (cells clause).getLast?, isGap cell = false) ∧
      clauses.flatMap withoutGaps = withoutSeparators ',' text := by
  refine ⟨?_, ?_, ?_⟩
  · rw [← isBalanced_iff_isNested]
    constructor
    · rintro ⟨clauses, hclauses⟩
      exact (separate_eq_ok_iff.mp hclauses).1
    · intro htext
      exact ⟨_, separate_eq_ok_iff.mpr ⟨htext, rfl⟩⟩
  · intro hnested
    rw [← isBalanced_iff_isNested] at hnested
    rw [separateClauses, separate, if_neg hnested]
  · intro clauses hclauses
    obtain ⟨htext, rfl⟩ := separate_eq_ok_iff.mp hclauses
    refine ⟨?_, flatMap_withoutGaps_pieces isSeparating_comma htext⟩
    intro clause hclause
    have hpiece := isPiece_of_mem_pieces isSeparating_comma htext hclause
    exact ⟨hpiece.filled, fun cell => isGap_head_of_isTight hpiece.tight,
      fun cell => isGap_getLast_of_isTight hpiece.tight⟩

def quotedBody : Text := " `a``` int ( [b]](] , ( 'it''s  )' ) ),,\"c\"\ttext ".toList

theorem separateClauses_quotedBody :
    (∃ clauses, separateClauses quotedBody = .ok clauses) ∧ IsNested quotedBody ∧
      (¬ IsNested "a, b)".toList ∧
        separateClauses "a, b)".toList = .error (.unbalanced "a, b)".toList)) ∧
      ∃ clauses, separateClauses quotedBody = .ok clauses ∧
        (∀ clause ∈ clauses, clause ≠ [] ∧
          (∀ cell ∈ (cells clause).head?, isGap cell = false) ∧
          ∀ cell ∈ (cells clause).getLast?, isGap cell = false) ∧
        clauses.flatMap withoutGaps = "`a```int([b]](],('it''s  )'))\"c\"text".toList := by
  have hquoted : separateClauses quotedBody =
      .ok ["`a``` int ( [b]](] , ( 'it''s  )' ) )".toList, "\"c\" text".toList] :=
    separate_eq_ok_iff.mpr (by decide +kernel)
  have hkept : withoutSeparators ',' quotedBody =
      "`a```int([b]](],('it''s  )'))\"c\"text".toList := by decide +kernel
  have hstray : ¬ IsNested "a, b)".toList := by
    rw [← isBalanced_iff_isNested]
    decide +kernel
  obtain ⟨hsplit, -, hclauses⟩ := separateClauses_isNested quotedBody
  obtain ⟨hends, hsame⟩ := hclauses _ hquoted
  exact ⟨⟨_, hquoted⟩, hsplit.mp ⟨_, hquoted⟩,
    ⟨hstray, (separateClauses_isNested "a, b)".toList).2.1 hstray⟩,
    _, hquoted, hends, hsame.trans hkept⟩

end SqliteSchema.Proofs.NestedTexts
