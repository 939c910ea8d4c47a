import SqliteSchema.Proofs.SqueezedPieces
import SqliteSchema.Proofs.TokenReading
import SqliteSchema.Proofs.TokenScans

/-!
The tokens of a balanced text. A token that is closed by its own delimiter brings the
scan back to where it began, and any other token leaves the text unbalanced. So a text
is balanced exactly where all of its tokens are sound, and then its tokens and what
follows them are read independently of each other.
-/
namespace SqliteSchema.Proofs.BalancedTokens

open PlainText Quoting DelimiterScan ClauseSplitting ClauseTokens BalancedTexts SqueezedPieces
  QuotedRuns FirstGroups TokenScans TokenReading

/-- The delimiter that closes a quoted run or a group stands at the end of the token,
so the token did not merely end with the text. -/
def isClosed (token : Token) : Bool :=
  match token.kind, token.text with
  | .quoted, opening :: rest =>
      (closingDelimiter? opening).any fun close => closeQuote? close rest == some (rest, [])
  | .group, _ :: rest => closeGroup? 0 rest == some (rest, [])
  | _, _ => true

theorem isClosed_quotedBy {mark : Char} (hmark : IsQuoteMark mark) (gap inside : Text) :
    isClosed ⟨gap, .quoted, quotedBy mark inside⟩ = true := by
  have hclose : closingDelimiter? mark = some mark := hmark
  have hread : closeQuote? mark (double mark inside ++ mark :: []) =
      some (double mark inside ++ [mark], []) := closeQuote?_double mark inside (by simp)
  simp [isClosed, quotedBy, hclose, hread]

/-- A closing parenthesis that no group has taken. -/
def isStray (token : Token) : Bool := token.kind == .symbol && token.text == [')']

def isSound (token : Token) : Bool := isClosed token && !isStray token

def isBreak (c : Char) : Bool := isBlank c || c == '(' || c == ')' || c == ','

theorem isCloser_of_isBreak {c : Char} (h : isBreak c = true) : isCloser c = false := by
  simp only [isBreak, Bool.or_eq_true, beq_iff_eq] at h
  rcases h with ((hblank | rfl) | rfl) | rfl
  · exact isCloser_of_isNeutral (isNeutral_of_isBlank hblank)
  all_goals rfl

theorem isWordChar_of_isBreak {c : Char} (h : isBreak c = true) : isWordChar c = false := by
  simp only [isBreak, Bool.or_eq_true] at h
  rcases h with ((h | h) | h) | h <;> simp [isWordChar, h]

inductive Lexes (first : Char) : TokenKind → Text → Text → Prop
  | group (hfirst : first = '(') (body after : Text) (hbody : isBalanced body = true) :
      Lexes first .group (body ++ [')']) after
  | comma (hfirst : first = ',') (after : Text) : Lexes first .symbol [] after
  | quoted {close : Char} (hclose : closingDelimiter? first = some close) (run after : Text)
      (hread : closeQuote? close (run ++ after) = some (run, after)) :
      Lexes first .quoted run after
  | word (hfirst : isWordChar first = true) (run after : Text)
      (hrun : ∀ c ∈ run, isWordChar c = true) (hafter : after.head?.any isWordChar = false) :
      Lexes first .word run after

theorem of_isWordChar {c : Char} (h : isWordChar c = true) :
    isBlank c = false ∧ c ≠ '(' ∧ c ≠ ')' ∧ c ≠ ',' ∧ closingDelimiter? c = none := by
  simpa [isWordChar, and_assoc] using h

theorem isSymbolFree_of_closingDelimiter? {first close : Char}
    (h : closingDelimiter? first = some close) : first ≠ '(' ∧ ¬(first = ')' ∨ first = ',') := by
  refine ⟨?_, ?_⟩
  · rintro rfl
    simp [closingDelimiter?] at h
  · rintro (rfl | rfl) <;> simp [closingDelimiter?] at h

variable {first : Char} {kind : TokenKind} {run after : Text}

theorem lexeme_of_lexes (h : Lexes first kind run after) :
    lexeme first (run ++ after) = (kind, run, after) := by
  cases h with
  | group hfirst body after hbody =>
    have hread : closeGroup? 0 (body ++ [')'] ++ after) = some (body ++ [')'], after) :=
      closeGroup?_eq_some_iff.mpr ⟨body, hbody, rfl, rfl⟩
    rw [lexeme, if_pos hfirst, hread]
    rfl
  | comma hfirst after =>
    subst hfirst
    rfl
  | quoted hclose run after hread =>
    obtain ⟨hopen, hsymbol⟩ := isSymbolFree_of_closingDelimiter? hclose
    simp only [lexeme, if_neg hopen, if_neg hsymbol, hclose, hread, Option.getD_some]
  | word hfirst run after hrun hafter => exact lexeme_word hfirst hrun hafter

/-- A run without an end leaves the text unbalanced. -/
theorem isBalanced_of_closeQuote?_eq_none {close : Char}
    (hclose : closingDelimiter? first = some close) {rest : Text}
    (h : closeQuote? close rest = none) : isBalanced (first :: rest) = false := by
  rw [isBalanced, run_cons, step_opening rfl hclose, (scan_closeQuote?_eq_none h _).1]
  rfl

theorem isBalanced_cons_close (rest : Text) : isBalanced (')' :: rest) = false := by
  have hstep : start.step ')' = ⟨.plain, none⟩ := rfl
  rw [isBalanced, run_cons, hstep]
  simp [Scan.isBalanced, depth_run_none]

theorem any_head?_dropWhile {α : Type} (p : α → Bool) (items : List α) :
    (items.dropWhile p).head?.any p = false := by
  have hhead := List.head?_dropWhile_not p items
  cases hdrop : (items.dropWhile p).head? with
  | none => rfl
  | some item =>
    rw [hdrop] at hhead
    simpa using hhead

/-- A token is sound, or it leaves every text that it begins unbalanced. -/
theorem lexes_or_unbalanced (hblank : isBlank first = false) (rest gap : Text) :
    (isSound ⟨gap, (lexeme first rest).1, first :: (lexeme first rest).2.1⟩ = true ∧
        Lexes first (lexeme first rest).1 (lexeme first rest).2.1 (lexeme first rest).2.2) ∨
      (isSound ⟨gap, (lexeme first rest).1, first :: (lexeme first rest).2.1⟩ = false ∧
        isBalanced (first :: rest) = false) := by
  by_cases hopen : first = '('
  · subst hopen
    cases hread : closeGroup? 0 rest with
    | none =>
      right
      refine ⟨?_, isBalanced_of_closeGroup?_eq_none hread⟩
      simp [lexeme, hread, isSound, isClosed]
    | some part =>
      obtain ⟨run, after⟩ := part
      obtain ⟨body, hbody, rfl, rfl⟩ := closeGroup?_eq_some_iff.mp hread
      left
      have hclosed : closeGroup? 0 (body ++ [')']) = some (body ++ [')'], []) :=
        closeGroup?_eq_some_iff.mpr ⟨body, hbody, rfl, by simp⟩
      simp only [lexeme, if_true, hread, Option.getD_some]
      exact ⟨by simp [isSound, isClosed, isStray, hclosed], .group rfl body after hbody⟩
  by_cases hsymbol : first = ')' ∨ first = ','
  · rcases hsymbol with rfl | rfl
    · exact .inr ⟨rfl, isBalanced_cons_close rest⟩
    · exact .inl ⟨rfl, .comma rfl rest⟩
  cases hclose : closingDelimiter? first with
  | some close =>
    cases hread : closeQuote? close rest with
    | none =>
      right
      refine ⟨?_, isBalanced_of_closeQuote?_eq_none hclose hread⟩
      simp [lexeme, hopen, hsymbol, hclose, hread, isSound, isClosed]
    | some part =>
      obtain ⟨run, after⟩ := part
      obtain rfl := closeQuote?_append hread
      obtain ⟨inside, rfl⟩ := exists_double_of_closeQuote? hread
      left
      have hclosed : closeQuote? close (double close inside ++ [close]) =
          some (double close inside ++ [close], []) := closeQuote?_double close inside (by simp)
      simp only [lexeme, if_neg hopen, if_neg hsymbol, hclose, hread, Option.getD_some]
      exact ⟨by simp [isSound, isClosed, isStray, hclose, hclosed], .quoted hclose _ after hread⟩
  | none =>
    left
    have hfirst : isWordChar first = true := by
      rw [not_or] at hsymbol
      simp [isWordChar, hblank, hopen, hsymbol, hclose]
    have hafter := any_head?_dropWhile isWordChar rest
    simp only [lexeme, if_neg hopen, if_neg hsymbol, hclose]
    exact ⟨rfl, .word hfirst _ _ (fun c hc => List.mem_takeWhile_imp hc) hafter⟩

theorem isInert_of_isWordChar {c : Char} (h : isWordChar c = true) : isInert c = true := by
  obtain ⟨-, hopen, hclose, -, hquote⟩ := of_isWordChar h
  simp [isInert, hopen, hclose, hquote]

theorem cells_of_wordChars {word : Text} (hword : ∀ c ∈ word, isWordChar c = true) :
    start.run word = start ∧ cells word = word.map fun c => ⟨c, start⟩ := by
  apply cellsFrom_word rfl
  intro c hc
  exact isInert_of_isWordChar (hword c hc)

/-- A sound token in front of a text does not change how the text is scanned. -/
theorem scan_of_lexes (h : Lexes first kind run after) :
    cellsFrom (start.run (first :: run)) after = cells after ∧
      isBalanced (first :: (run ++ after)) = isBalanced after := by
  have happend : ∀ text : Text, isBalanced (first :: (run ++ text)) =
      ((start.run (first :: run)).run text).isBalanced := by
    intro text
    rw [isBalanced, ← List.cons_append, run_append]
  rw [happend]
  cases h with
  | group hfirst body after hbody =>
    have hrun : start.run (first :: (body ++ [')'])) = start := by
      subst hfirst
      exact run_group hbody []
    rw [hrun]
    exact ⟨rfl, rfl⟩
  | comma hfirst after =>
    subst hfirst
    exact ⟨rfl, rfl⟩
  | quoted hclose run after hread =>
    have hafter := head?_of_closeQuote? hread
    rw [run_cons, step_opening rfl hclose, (scan_closeQuote? hread _).1]
    exact ⟨cellsFrom_closed hafter _, isBalanced_run_closed hafter _⟩
  | word hfirst run after hrun hafter =>
    rw [(cells_of_wordChars (List.forall_mem_cons.mpr ⟨hfirst, hrun⟩)).1]
    exact ⟨rfl, rfl⟩

theorem cells_of_blanks {gap : Text} (hgap : ∀ c ∈ gap, isBlank c = true) :
    start.run gap = start ∧ cells gap = gap.map fun c => ⟨c, start⟩ := by
  apply cellsFrom_word rfl
  intro c hc
  exact isInert_of_isNeutral (isNeutral_of_isBlank (hgap c hc))

theorem isGroupless_of_blank {text : Text} (h : ∀ c ∈ text, isBlank c = true) :
    IsGroupless text := by
  obtain ⟨hrun, hcells⟩ := cells_of_blanks h
  refine ⟨by rw [isBalanced, hrun]; rfl, ?_⟩
  intro cell hcell
  rw [hcells] at hcell
  obtain ⟨c, hc, rfl⟩ := List.mem_map.mp hcell
  have hne : c ≠ '(' := by
    rintro rfl
    exact absurd (h _ hc) (by decide)
  simp [opensGroup, Cell.isPlain, hne]

/-- A blank text in front of another does not change how the other is scanned. -/
theorem scan_of_blanks {gap : Text} (hgap : ∀ c ∈ gap, isBlank c = true) (text : Text) :
    cells (gap ++ text) = cells gap ++ cells text ∧ isBalanced (gap ++ text) = isBalanced text := by
  obtain ⟨hrun, -⟩ := cells_of_blanks hgap
  constructor
  · rw [cells, cellsFrom_append, hrun]
    rfl
  · rw [isBalanced, run_append, hrun]
    rfl

theorem tokensOf_of_blank {text : Text} (h : ∀ c ∈ text, isBlank c = true) :
    tokensOf text = [] := by
  have hdrop : text.dropWhile isBlank = [] := List.dropWhile_eq_nil_iff.mpr h
  rw [tokensOf]
  split
  · rfl
  · rename_i hcons
    rw [hdrop] at hcons
    simp at hcons

theorem tokensOf_of_lexes {gap : Text} (hgap : ∀ c ∈ gap, isBlank c = true)
    (hblank : isBlank first = false) (h : Lexes first kind run after) :
    tokensOf (gap ++ first :: (run ++ after)) = ⟨gap, kind, first :: run⟩ :: tokensOf after := by
  rw [tokensOf_append hgap hblank, lexeme_of_lexes h]

/-- A text is blank, or it is a token behind a gap and a shorter text. -/
theorem token_induction {motive : Text → Prop}
    (blank : ∀ text, (∀ c ∈ text, isBlank c = true) → motive text)
    (token : ∀ gap first rest, (∀ c ∈ gap, isBlank c = true) → isBlank first = false →
      motive (lexeme first rest).2.2 → motive (gap ++ first :: rest))
    (text : Text) : motive text := by
  fun_induction tokensOf text with
  | case1 text h => exact blank text (List.dropWhile_eq_nil_iff.mp h)
  | case2 text first rest h part ih =>
    have hfirst : isBlank first = false := by
      have hhead := List.head?_dropWhile_not isBlank text
      rw [h] at hhead
      simpa using hhead
    have hsplit : text.takeWhile isBlank ++ first :: rest = text := by
      rw [← h, List.takeWhile_append_dropWhile]
    have hstep := token (text.takeWhile isBlank) first rest
      (fun c hc => List.mem_takeWhile_imp hc) hfirst ih
    rwa [hsplit] at hstep

/-- The first of the tokens of a text, and the text behind it. -/
theorem exists_of_tokensOf_eq_cons {text : Text} {token : Token} {rest : List Token}
    (h : tokensOf text = token :: rest) :
    ∃ first run after, (∀ c ∈ token.gap, isBlank c = true) ∧ isBlank first = false ∧
      token.text = first :: run ∧ lexeme first (run ++ after) = (token.kind, run, after) ∧
      tokensOf after = rest ∧ text = token.gap ++ first :: (run ++ after) := by
  induction text using token_induction with
  | blank text hblank => simp [tokensOf_of_blank hblank] at h
  | token gap first more hgap hblank =>
    rw [tokensOf_append hgap hblank] at h
    obtain ⟨rfl, hrest⟩ := List.cons.inj h
    have happend := lexeme_append first more
    refine ⟨first, _, _, hgap, hblank, rfl, ?_, hrest, ?_⟩
    · rw [happend]
    · rw [happend]

/-- A text is balanced exactly where each of its tokens is closed by its own delimiter
and no closing parenthesis stands alone. -/
theorem isBalanced_iff_isSound (text : Text) :
    isBalanced text = true ↔ ∀ token ∈ tokensOf text, isSound token = true := by
  induction text using token_induction with
  | blank text h =>
    have hbalanced := (scan_of_blanks h []).2
    rw [List.append_nil] at hbalanced
    rw [hbalanced, tokensOf_of_blank h]
    simp
    rfl
  | token gap first rest hgap hblank ih =>
    rw [(scan_of_blanks hgap _).2, tokensOf_append hgap hblank, List.forall_mem_cons, ← ih]
    have hrest := lexeme_append first rest
    rcases lexes_or_unbalanced hblank rest gap with ⟨hsound, hlexes⟩ | ⟨hsound, hbalanced⟩
    · have hscan := (scan_of_lexes hlexes).2
      rw [hrest] at hscan
      simp [hsound, hscan]
    · simp [hsound, hbalanced]

/-- Induction on the tokens of a balanced text, which are all sound. -/
theorem balanced_induction {motive : (text : Text) → isBalanced text = true → Prop}
    (blank : ∀ text htext, (∀ c ∈ text, isBlank c = true) → motive text htext)
    (token : ∀ gap first kind run after htext, (∀ c ∈ gap, isBlank c = true) →
      isBlank first = false → Lexes first kind run after → ∀ hafter, motive after hafter →
      motive (gap ++ first :: (run ++ after)) htext)
    (text : Text) (htext : isBalanced text = true) : motive text htext := by
  induction text using token_induction with
  | blank text h => exact blank text htext h
  | token gap first rest hgap hblank ih =>
    have hrest := lexeme_append first rest
    have hfirst := htext
    rw [(scan_of_blanks hgap _).2] at hfirst
    rcases lexes_or_unbalanced hblank rest gap with ⟨-, hlexes⟩ | ⟨-, hbalanced⟩
    · have hafter := (scan_of_lexes hlexes).2
      rw [hrest, hfirst] at hafter
      generalize (lexeme first rest).1 = kind at hlexes
      generalize (lexeme first rest).2.1 = run at hlexes hrest
      generalize (lexeme first rest).2.2 = after at hlexes hrest hafter ih
      subst hrest
      exact token gap first kind run after htext hgap hblank hlexes hafter.symm (ih hafter.symm)
    · rw [hbalanced] at hfirst
      simp at hfirst

/-- The first token of a balanced text is sound, and the text behind it is balanced. -/
theorem exists_lexes_of_tokensOf_eq_cons {text : Text} (htext : isBalanced text = true)
    {token : Token} {rest : List Token} (h : tokensOf text = token :: rest) :
    ∃ first run after, (∀ c ∈ token.gap, isBlank c = true) ∧ isBlank first = false ∧
      token.text = first :: run ∧ Lexes first token.kind run after ∧ tokensOf after = rest ∧
      text = token.gap ++ first :: (run ++ after) := by
  induction text, htext using balanced_induction with
  | blank text _ hblank => simp [tokensOf_of_blank hblank] at h
  | token gap first kind run after _ hgap hblank hlexes =>
    rw [tokensOf_of_lexes hgap hblank hlexes] at h
    obtain ⟨rfl, hrest⟩ := List.cons.inj h
    exact ⟨first, run, after, hgap, hblank, rfl, hlexes, hrest, rfl⟩

/-- A token is read the same way in front of anything that begins alike or ends it. -/
theorem lexes_of_head? (h : Lexes first kind run after) {next : Text}
    (hnext : ∀ c ∈ next.head?, after.head? = some c ∨ isBreak c = true) :
    Lexes first kind run next := by
  cases h with
  | group hfirst body after hbody => exact .group hfirst body next hbody
  | comma hfirst after => exact .comma hfirst next
  | quoted hclose run after hread =>
    refine .quoted hclose run next ?_
    obtain ⟨inside, rfl⟩ := exists_double_of_closeQuote? hread
    rw [List.append_assoc]
    refine closeQuote?_double _ inside ?_
    intro hhead
    rcases hnext _ hhead with hsame | hbreak
    · exact head?_of_closeQuote? hread hsame
    · have hcloser := isCloser_of_closingDelimiter? hclose
      rw [isCloser_of_isBreak hbreak] at hcloser
      simp at hcloser
  | word hfirst run after hrun hafter =>
    refine .word hfirst run next hrun ?_
    cases hhead : next.head? with
    | none => rfl
    | some c =>
      rcases hnext c hhead with hsame | hbreak
      · rwa [hsame] at hafter
      · exact isWordChar_of_isBreak hbreak

/-- The tokens of a balanced text stay as they are in front of a text that begins with
a character that ends a token; blanks at the end of the first go to the second. -/
theorem exists_tokensOf_append {left right : Text} (hleft : isBalanced left = true)
    (hright : ∀ c ∈ right.head?, isBreak c = true) :
    ∃ gap, (∀ c ∈ gap, isBlank c = true) ∧
      tokensOf (left ++ right) = tokensOf left ++ tokensOf (gap ++ right) := by
  induction left, hleft using balanced_induction with
  | blank text _ h => exact ⟨text, h, by rw [tokensOf_of_blank h, List.nil_append]⟩
  | token gap first kind run after _ hgap hblank hlexes _ ih =>
    obtain ⟨ending, hending, htokens⟩ := ih
    have hnext : Lexes first kind run (after ++ right) := by
      apply lexes_of_head? hlexes
      intro c hc
      cases after with
      | nil => exact .inr (hright c hc)
      | cons d more => exact .inl hc
    refine ⟨ending, hending, ?_⟩
    rw [tokensOf_of_lexes hgap hblank hlexes, List.append_assoc, List.cons_append,
      List.append_assoc, tokensOf_of_lexes hgap hblank hnext, htokens, List.cons_append]

end SqliteSchema.Proofs.BalancedTokens
