import SqliteSchema.ColumnModifiers
import SqliteSchema.Proofs.QuotedRuns

/-!
Reading tokens off the front of a text. A word is read where something follows
that cannot be part of it, and a quoted run is read whole if the text after it
does not begin with its mark. A default value that is one quoted run gives back
what was quoted.
-/
namespace SqliteSchema.Proofs.TokenReading

open PlainText Quoting ClauseTokens ColumnModifiers QuotedRuns

theorem tokensOf_nil : tokensOf [] = [] := by
  rw [tokensOf]
  rfl

/-- Blanks before a token become its gap. -/
theorem tokensOf_append {gap : Text} (hgap : ∀ c ∈ gap, isBlank c = true) {first : Char}
    (hfirst : isBlank first = false) (rest : Text) :
    tokensOf (gap ++ first :: rest) =
      ⟨gap, (lexeme first rest).1, first :: (lexeme first rest).2.1⟩ ::
        tokensOf (lexeme first rest).2.2 := by
  have hdrop : (gap ++ first :: rest).dropWhile isBlank = first :: rest := by
    rw [List.dropWhile_append_of_pos hgap, List.dropWhile_cons_of_neg (by simp [hfirst])]
  have htake : (gap ++ first :: rest).takeWhile isBlank = gap := by
    rw [List.takeWhile_append_of_pos hgap, List.takeWhile_cons_of_neg (by simp [hfirst]),
      List.append_nil]
  rw [tokensOf]
  split
  · rename_i hempty
    rw [hdrop] at hempty
    simp at hempty
  · rename_i found more hfound
    rw [hdrop, List.cons.injEq] at hfound
    obtain ⟨rfl, rfl⟩ := hfound
    rw [htake]

theorem lexeme_word {first : Char} (hfirst : isWordChar first = true) {word rest : Text}
    (hword : ∀ c ∈ word, isWordChar c = true) (hrest : rest.head?.any isWordChar = false) :
    lexeme first (word ++ rest) = (.word, word, rest) := by
  simp only [isWordChar, Bool.not_eq_true', Bool.or_eq_false_iff, beq_eq_false_iff_ne, ne_eq,
    Option.isSome_eq_false_iff, Option.isNone_iff_eq_none] at hfirst
  have hsplit : (word ++ rest).takeWhile isWordChar = word ∧
      (word ++ rest).dropWhile isWordChar = rest := by
    rw [List.takeWhile_append_of_pos hword, List.dropWhile_append_of_pos hword]
    cases rest with
    | nil => simp
    | cons c more =>
      have hc : isWordChar c = false := hrest
      simp [hc]
  simp [lexeme, hfirst, hsplit]

theorem isBlank_of_isWordChar {c : Char} (h : isWordChar c = true) : isBlank c = false := by
  simp only [isWordChar, Bool.not_eq_true', Bool.or_eq_false_iff] at h
  exact h.1.1.1.1

theorem tokensOf_word {gap : Text} (hgap : ∀ c ∈ gap, isBlank c = true) {word rest : Text}
    (hne : word ≠ []) (hword : ∀ c ∈ word, isWordChar c = true)
    (hrest : rest.head?.any isWordChar = false) :
    tokensOf (gap ++ (word ++ rest)) = ⟨gap, .word, word⟩ :: tokensOf rest := by
  cases word with
  | nil => exact absurd rfl hne
  | cons first more =>
    have hfirst := hword first (List.mem_cons_self ..)
    have hmore : ∀ c ∈ more, isWordChar c = true := by
      intro c hc
      exact hword c (List.mem_cons_of_mem _ hc)
    have hlexeme := lexeme_word hfirst hmore hrest
    rw [List.cons_append, tokensOf_append hgap (isBlank_of_isWordChar hfirst), hlexeme]

theorem lexeme_quoted {mark : Char} (hmark : IsQuoteMark mark) (inside : Text) {rest : Text}
    (hrest : rest.head? ≠ some mark) :
    lexeme mark (double mark inside ++ mark :: rest) =
      (.quoted, double mark inside ++ [mark], rest) := by
  have hclose : closingDelimiter? mark = some mark := hmark
  have hsymbols : mark ≠ '(' ∧ ¬(mark = ')' ∨ mark = ',') := by
    rcases eq_of_isQuoteMark hmark with rfl | rfl | rfl <;> decide
  rw [lexeme, if_neg hsymbols.1, if_neg hsymbols.2]
  simp only [hclose, closeQuote?_double mark inside hrest, Option.getD_some]

theorem isBlank_of_isQuoteMark {mark : Char} (hmark : IsQuoteMark mark) : isBlank mark = false := by
  rcases eq_of_isQuoteMark hmark with rfl | rfl | rfl <;> decide

theorem tokensOf_quotedBy {gap : Text} (hgap : ∀ c ∈ gap, isBlank c = true) {mark : Char}
    (hmark : IsQuoteMark mark) (inside : Text) {rest : Text} (hrest : rest.head? ≠ some mark) :
    tokensOf (gap ++ (quotedBy mark inside ++ rest)) =
      ⟨gap, .quoted, quotedBy mark inside⟩ :: tokensOf rest := by
  have hshape : quotedBy mark inside ++ rest = mark :: (double mark inside ++ mark :: rest) := by
    simp [quotedBy]
  rw [hshape, tokensOf_append hgap (isBlank_of_isQuoteMark hmark), lexeme_quoted hmark inside hrest]
  rfl

/-- A quoted text is one token. -/
theorem tokensOf_quotedBy_alone {mark : Char} (hmark : IsQuoteMark mark) (inside : Text) :
    tokensOf (quotedBy mark inside) = [⟨[], .quoted, quotedBy mark inside⟩] := by
  have htokens : tokensOf ([] ++ (quotedBy mark inside ++ [])) = _ :=
    tokensOf_quotedBy (by simp) hmark inside (by simp)
  rwa [List.nil_append, List.append_nil, tokensOf_nil] at htokens

theorem bareValue_quotedBy {mark : Char} (hmark : IsQuoteMark mark) (inside : Text) :
    bareValue (quotedBy mark inside) = inside := by
  rw [bareValue, tokensOf_quotedBy_alone hmark]
  exact bareText_quotedBy hmark inside

end SqliteSchema.Proofs.TokenReading
