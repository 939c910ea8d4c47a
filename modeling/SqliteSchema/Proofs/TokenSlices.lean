import SqliteSchema.Proofs.PieceTokens
import SqliteSchema.Proofs.SpacedCells
import SqliteSchema.Proofs.TokenRows

/-!
Stretches of the tokens of a text. Where a token ends depends on nothing but the character
behind it, so a stretch of the tokens of a text, written out by itself, has these tokens
again. A stretch of the tokens of a balanced text is balanced. In a squeezed text a space at
most stands in front of a token, and one space between two words.
-/
namespace SqliteSchema.Proofs.TokenSlices

open PlainText Quoting DelimiterScan ClauseSplitting ClauseTokens BalancedTexts SqueezedPieces
  SpacedCells QuotedRuns TokenScans TokenReading ColumnSyntax BalancedTokens PieceTokens TokenRows

theorem closeQuote?_cut {close : Char} {run left right : Text}
    (h : closeQuote? close (run ++ (left ++ right)) = some (run, left ++ right)) :
    closeQuote? close (run ++ left) = some (run, left) := by
  obtain ⟨inside, rfl⟩ := exists_double_of_closeQuote? h
  have hafter := head?_of_closeQuote? h
  rw [List.append_assoc]
  refine closeQuote?_double close inside ?_
  cases left with
  | nil => simp
  | cons c more => exact hafter

theorem closeGroup?_cut {run left right : Text}
    (h : closeGroup? 0 (run ++ (left ++ right)) = some (run, left ++ right)) :
    closeGroup? 0 (run ++ left) = some (run, left) := by
  obtain ⟨body, hbody, hrun, -⟩ := closeGroup?_eq_some_iff.mp h
  exact closeGroup?_eq_some_iff.mpr ⟨body, hbody, hrun, rfl⟩

/-- A reader that takes the whole text where it finds no end finds the same end in a text
that is cut off behind it. -/
theorem getD_cut {read : Text → Option (Text × Text)}
    (hread : ∀ run left right, read (run ++ (left ++ right)) = some (run, left ++ right) →
      read (run ++ left) = some (run, left))
    {run left right : Text}
    (h : (read (run ++ (left ++ right))).getD (run ++ (left ++ right), []) = (run, left ++ right)) :
    (read (run ++ left)).getD (run ++ left, []) = (run, left) := by
  cases hpart : read (run ++ (left ++ right)) with
  | some part =>
    obtain rfl : part = (run, left ++ right) := by rwa [hpart] at h
    rw [hread run left right hpart]
    rfl
  | none =>
    rw [hpart] at h
    have hempty := (List.append_eq_nil_iff.mp (Prod.mk.inj h).2.symm)
    rw [hempty.1, hempty.2, List.append_nil, List.append_nil] at hpart
    rw [hempty.1, List.append_nil, hpart]
    rfl

theorem span_cut {run left right : Text}
    (htake : (run ++ (left ++ right)).takeWhile isWordChar = run)
    (hdrop : (run ++ (left ++ right)).dropWhile isWordChar = left ++ right) :
    (run ++ left).takeWhile isWordChar = run ∧ (run ++ left).dropWhile isWordChar = left := by
  have hrun : ∀ c ∈ run, isWordChar c = true := by
    rw [← htake]
    exact fun c hc => List.mem_takeWhile_imp hc
  rw [List.takeWhile_append_of_pos hrun, List.dropWhile_append_of_pos hrun]
  cases left with
  | nil => simp
  | cons c more =>
    have hc := List.head?_dropWhile_not isWordChar (run ++ (c :: more ++ right))
    rw [hdrop] at hc
    have hends : isWordChar c = false := by simpa using hc
    simp [hends]

/-- A token is read as it is in a text that is cut off somewhere behind it. -/
theorem lexeme_cut {first : Char} {kind : TokenKind} {run left right : Text}
    (h : lexeme first (run ++ (left ++ right)) = (kind, run, left ++ right)) :
    lexeme first (run ++ left) = (kind, run, left) := by
  unfold lexeme at h ⊢
  split at h
  · obtain ⟨hkind, hpart⟩ := Prod.mk.inj h
    rw [if_pos ‹_›, getD_cut (fun _ _ _ => closeGroup?_cut) hpart, hkind]
  rw [if_neg ‹_›]
  split at h
  · obtain ⟨hkind, hpart⟩ := Prod.mk.inj h
    obtain ⟨hrun, -⟩ := Prod.mk.inj hpart
    rw [if_pos ‹_›, hkind, ← hrun, List.nil_append]
  rw [if_neg ‹_›]
  split at h
  · obtain ⟨hkind, hpart⟩ := Prod.mk.inj h
    rw [getD_cut (fun _ _ _ => closeQuote?_cut) hpart, hkind]
  · obtain ⟨hkind, hpart⟩ := Prod.mk.inj h
    obtain ⟨htake, hdrop⟩ := Prod.mk.inj hpart
    obtain ⟨htake', hdrop'⟩ := span_cut htake hdrop
    rw [hkind, htake', hdrop']

/-- A group of a balanced text holds a balanced text. -/
theorem exists_parenthesize_of_mem {text : Text} (htext : isBalanced text = true) {token : Token}
    (h : token ∈ tokensOf text) (hgroup : token.kind = .group) :
    ∃ inside, isBalanced inside = true ∧ token.text = parenthesize inside := by
  induction text, htext using balanced_induction with
  | blank text _ hblank => simp [tokensOf_of_blank hblank] at h
  | token gap first kind run after _ hgap hblank hlexes _ ih =>
    rw [tokensOf_of_lexes hgap hblank hlexes, List.mem_cons] at h
    rcases h with rfl | hafter
    · cases hlexes with
      | group hfirst body after hbody =>
        subst hfirst
        exact ⟨body, hbody, rfl⟩
      | _ => simp at hgroup
    · exact ih hafter

/-- The tokens of a text up to one of them are the tokens of the text up to its end. -/
theorem exists_of_tokensOf_eq_append {text : Text} {front back : List Token}
    (h : tokensOf text = front ++ back) :
    ∃ right, text = written front ++ right ∧ tokensOf right = back ∧
      tokensOf (written front) = front := by
  induction front generalizing text with
  | nil => exact ⟨text, rfl, h, tokensOf_nil⟩
  | cons token more ih =>
    obtain ⟨first, run, after, hgap, hblank, htext, hlexeme, hrest, rfl⟩ :=
      exists_of_tokensOf_eq_cons h
    obtain ⟨right, rfl, hright, hmore⟩ := ih hrest
    have hwritten : written (token :: more) = token.gap ++ first :: (run ++ written more) := by
      simp [written, htext]
    refine ⟨right, by simp [hwritten], hright, ?_⟩
    rw [hwritten, tokensOf_append hgap hblank, lexeme_cut hlexeme, hmore, ← htext]

/-- The tokens of a stretch written out are the tokens of the stretch. -/
theorem tokensOf_written_of_append {text : Text} {front middle back : List Token}
    (h : tokensOf text = front ++ (middle ++ back)) : tokensOf (written middle) = middle := by
  obtain ⟨right, -, hright, -⟩ := exists_of_tokensOf_eq_append h
  obtain ⟨-, -, -, hmiddle⟩ := exists_of_tokensOf_eq_append hright
  exact hmiddle

theorem written_cons (first : Token) (rest : List Token) :
    written (first :: rest) = first.gap ++ slice (first :: rest) := by
  simp [written, slice]

/-- A stretch of the tokens of a balanced text is balanced. -/
theorem isBalanced_slice {text : Text} {front middle back : List Token}
    (htext : isBalanced text = true) (h : tokensOf text = front ++ (middle ++ back)) :
    isBalanced (slice middle) = true := by
  have hsound := (isBalanced_iff_isSound text).mp htext
  have htokens := tokensOf_written_of_append h
  have hwritten : isBalanced (written middle) = true := by
    rw [isBalanced_iff_isSound, htokens]
    intro token htoken
    apply hsound
    rw [h]
    simp [htoken]
  cases middle with
  | nil => rfl
  | cons first rest =>
    obtain ⟨-, -, -, hgap, -⟩ := exists_of_tokensOf_eq_cons htokens
    rwa [written_cons, (scan_of_blanks hgap _).2] at hwritten

theorem slice_append {front : List Token} (hfront : front ≠ []) (back : List Token) :
    slice (front ++ back) = slice front ++ written back := by
  obtain ⟨first, rest, rfl⟩ := List.exists_cons_of_ne_nil hfront
  simp [slice, written]

theorem eq_space_of_isSpaced {gap : Text} (hgap : ∀ c ∈ gap, isBlank c = true)
    (hspaced : IsSpaced isGap (cells gap))
    (hspace : ∀ cell ∈ cells gap, isGap cell = true → cell.char = ' ') :
    gap = [] ∨ gap = [' '] := by
  have hgaps := isGap_of_mem_blanks isReachable_start rfl hgap
  match gap with
  | [] => exact .inl rfl
  | [c] =>
    have hfirst : ⟨c, start.step c⟩ ∈ cells [c] := List.mem_cons_self ..
    exact .inr (congrArg (fun c => [c]) (hspace _ hfirst (hgaps _ hfirst)))
  | c :: d :: more =>
    have hpair := (List.isChain_cons_cons.mp hspaced).1
    have hfirst := hgaps ⟨c, start.step c⟩ (List.mem_cons_self ..)
    have hsecond := hgaps ⟨d, (start.step c).step d⟩
      (List.mem_cons_of_mem _ (List.mem_cons_self ..))
    exact absurd ⟨hfirst, hsecond⟩ hpair

/-- Where gaps are single spaces every token has at most a space in front of it. -/
theorem gap_of_mem_tokensOf {text : Text} (htext : isBalanced text = true)
    (hspaced : IsSpaced isGap (cells text))
    (hspace : ∀ cell ∈ cells text, isGap cell = true → cell.char = ' ') :
    ∀ token ∈ tokensOf text, token.gap = [] ∨ token.gap = [' '] := by
  induction text, htext using balanced_induction with
  | blank text _ hblank => simp [tokensOf_of_blank hblank]
  | token gap first kind run after _ hgap hblank hlexes _ ih =>
    rw [(scan_of_blanks hgap _).1, cells_of_lexes hlexes] at hspaced hspace
    have hsuffix : cells after <:+ cells gap ++ (cells (first :: run) ++ cells after) :=
      (List.suffix_append _ _).trans (List.suffix_append _ _)
    rw [tokensOf_of_lexes hgap hblank hlexes, List.forall_mem_cons]
    constructor
    · apply eq_space_of_isSpaced hgap (isSpaced_of_isInfix hspaced (List.prefix_append _ _).isInfix)
      intro cell hcell
      exact hspace cell (List.mem_append_left _ hcell)
    · apply ih (isSpaced_of_isInfix hspaced hsuffix.isInfix)
      intro cell hcell
      exact hspace cell (hsuffix.mem hcell)

/-- Between two words of a text there is a gap. -/
theorem isChain_tokensOf {text : Text} (htext : isBalanced text = true) :
    (tokensOf text).IsChain fun left right =>
      left.kind = .word → right.kind = .word → right.gap ≠ [] := by
  induction text, htext using balanced_induction with
  | blank text _ hblank => simp [tokensOf_of_blank hblank]
  | token gap first kind run after _ hgap hblank hlexes hafter ih =>
    rw [tokensOf_of_lexes hgap hblank hlexes]
    refine List.isChain_cons.mpr ⟨?_, ih⟩
    intro next hnext hkind hword hempty
    obtain ⟨rest, hrest⟩ := List.head?_eq_some_iff.mp hnext
    obtain ⟨c, more, behind, -, -, -, hlexesNext, -, hsplit⟩ :=
      exists_lexes_of_tokensOf_eq_cons hafter hrest
    rw [hword] at hlexesNext
    rw [hempty, List.nil_append] at hsplit
    cases hlexesNext with
    | word hc =>
      cases hlexes with
      | word _ _ _ _ hends =>
        rw [hsplit, List.head?_cons, Option.any_some, hc] at hends
        exact Bool.noConfusion hends
      | _ => simp at hkind

/-- Words with a space in front of each but the first are joined by spaces. -/
theorem slice_of_isChain {words : List Token}
    (h : words.IsChain fun _ right => right.gap = [' ']) :
    slice words = [' '].intercalate (words.map Token.text) := by
  induction words with
  | nil => rfl
  | cons word rest ih =>
    cases rest with
    | nil => simp [slice]
    | cons next more =>
      obtain ⟨hgap, hmore⟩ := List.isChain_cons_cons.mp h
      have hslice : slice (word :: next :: more) =
          word.text ++ (next.gap ++ slice (next :: more)) := by simp [slice]
      rw [hslice, ih hmore, hgap]
      simp [List.intercalate_cons_cons]

end SqliteSchema.Proofs.TokenSlices
