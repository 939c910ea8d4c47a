import SqliteSchema.Proofs.BalancedTokens
import SqliteSchema.Proofs.ColumnSyntax
import SqliteSchema.Proofs.KeywordTokens

/-!
Texts put together from tokens. Where every token begins with a character that ends the
token before it, the tokens of the text are those it was put together from. Words,
quotations and groups behind a space can stand in such a row.
-/
namespace SqliteSchema.Proofs.TokenRows

open PlainText Quoting ClauseTokens QuotedRuns TokenReading BalancedTokens KeywordTokens
  ColumnSyntax

def written (tokens : List Token) : Text := tokens.flatMap fun token => token.gap ++ token.text

/-- A token that is read as it is in front of every character that ends a token. -/
def Stands (token : Token) : Prop :=
  ∀ rest, (∀ c ∈ rest.head?, isBreak c = true) →
    tokensOf (token.gap ++ (token.text ++ rest)) = token :: tokensOf rest

def Follows (token : Token) : Prop :=
  Stands token ∧ ∃ c more, token.gap ++ token.text = c :: more ∧ isBreak c = true

variable {tokens : List Token} {rest : Text}

theorem isBreak_head_written_append (h : ∀ token ∈ tokens, Follows token)
    (hrest : ∀ c ∈ rest.head?, isBreak c = true) :
    ∀ c ∈ (written tokens ++ rest).head?, isBreak c = true := by
  cases tokens with
  | nil => exact hrest
  | cons token more =>
    obtain ⟨-, first, tail, htext, hfirst⟩ := h token (List.mem_cons_self ..)
    intro c hc
    rw [written, List.flatMap_cons, htext] at hc
    obtain rfl : first = c := by simpa using hc
    exact hfirst

theorem isBreak_head_written (h : ∀ token ∈ tokens, Follows token) :
    ∀ c ∈ (written tokens).head?, isBreak c = true := by
  have hempty : ∀ c ∈ ([] : Text).head?, isBreak c = true := by simp
  have hhead := isBreak_head_written_append h hempty
  rwa [List.append_nil] at hhead

/-- The tokens of a row in front of a text that ends the last of them. -/
theorem tokensOf_written_append (h : ∀ token ∈ tokens, Follows token)
    (hrest : ∀ c ∈ rest.head?, isBreak c = true) :
    tokensOf (written tokens ++ rest) = tokens ++ tokensOf rest := by
  induction tokens with
  | nil => rfl
  | cons token more ih =>
    have hmore : ∀ other ∈ more, Follows other := fun other hother =>
      h other (List.mem_cons_of_mem _ hother)
    have htoken := (h token (List.mem_cons_self ..)).1 _ (isBreak_head_written_append hmore hrest)
    rw [written, List.flatMap_cons, List.append_assoc, List.append_assoc]
    exact htoken.trans (congrArg _ (ih hmore))

theorem tokensOf_written (h : ∀ token ∈ tokens, Follows token) :
    tokensOf (written tokens) = tokens := by
  have hempty : ∀ c ∈ ([] : Text).head?, isBreak c = true := by simp
  have hread := tokensOf_written_append h hempty
  rwa [List.append_nil, tokensOf_nil, List.append_nil] at hread

theorem stands_of_lexes {gap : Text} (hgap : ∀ c ∈ gap, isBlank c = true) {first : Char}
    {kind : TokenKind} {run : Text} (hfirst : isBlank first = false)
    (h : Lexes first kind run []) : Stands ⟨gap, kind, first :: run⟩ := by
  intro rest hrest
  exact tokensOf_of_lexes hgap hfirst (lexes_of_head? h fun c hc => .inr (hrest c hc))

theorem follows_of_space {kind : TokenKind} {text : Text} (h : Stands ⟨[' '], kind, text⟩) :
    Follows ⟨[' '], kind, text⟩ :=
  ⟨h, ' ', text, rfl, by decide⟩

variable {gap : Text}

theorem any_isWordChar_of_isBreak {rest : Text} (h : ∀ c ∈ rest.head?, isBreak c = true) :
    rest.head?.any isWordChar = false := by
  cases hhead : rest.head? with
  | none => rfl
  | some c => exact isWordChar_of_isBreak (h c hhead)

theorem stands_word (hgap : ∀ c ∈ gap, isBlank c = true) {word : Text} (hfilled : word ≠ [])
    (hword : ∀ c ∈ word, isWordChar c = true) : Stands ⟨gap, .word, word⟩ := by
  intro rest hrest
  exact tokensOf_word hgap hfilled hword (any_isWordChar_of_isBreak hrest)

theorem isBlank_of_closes {opening close : Char} (h : closingDelimiter? opening = some close) :
    isBlank opening = false := by
  cases hblank : isBlank opening with
  | false => rfl
  | true =>
    have hnone := BalancedTexts.closingDelimiter?_of_isNeutral
      (SqueezedPieces.isNeutral_of_isBlank hblank)
    rw [h] at hnone
    simp at hnone

theorem stands_quotation (hgap : ∀ c ∈ gap, isBlank c = true) (name : Quotation) :
    Stands ⟨gap, .quoted, name.text⟩ := by
  have hread : closeQuote? name.close (double name.close name.inside ++ [name.close] ++ []) =
      some (double name.close name.inside ++ [name.close], []) := by
    rw [List.append_nil]
    exact closeQuote?_double _ _ (by simp)
  exact stands_of_lexes hgap (isBlank_of_closes name.closes) (.quoted name.closes _ [] hread)

theorem inside_of_group {token : Token} {inside : Text} (hkind : token.kind = .group)
    (htext : token.text = parenthesize inside) : token.inside = inside := by
  simp [Token.inside, hkind, htext, parenthesize]

/-- A group is read as it is in front of any text. -/
theorem tokensOf_group (hgap : ∀ c ∈ gap, isBlank c = true) (inside : BalancedText)
    (rest : Text) :
    tokensOf (gap ++ (parenthesize inside ++ rest)) =
      ⟨gap, .group, parenthesize inside⟩ :: tokensOf rest :=
  tokensOf_of_lexes hgap (by decide) (.group rfl inside.val rest inside.property)

theorem stands_group (hgap : ∀ c ∈ gap, isBlank c = true) (inside : BalancedText) :
    Stands ⟨gap, .group, parenthesize inside⟩ := fun rest _ => tokensOf_group hgap inside rest

theorem isWordChar_of_isAlpha {c : Char} (hc : c.isAlpha = true) : isWordChar c = true :=
  forall_of_isAlpha (fun c => isWordChar c = true) (by decide +kernel) hc

/-- A capital letter of a keyword can stand in a word in either case. -/
theorem isWordChar_of_toLower_eq {c letter : Char} (h : c.toLower = letter.toLower)
    (hletter : letter.isUpper = true) : isWordChar c = true := by
  cases hc : c.isUpper with
  | true => exact isWordChar_of_isAlpha (Bool.or_eq_true_iff.mpr (.inl hc))
  | false =>
    rw [toLower_of_isUpper_eq_false hc] at h
    rw [h]
    exact forall_of_isAlpha (fun c => isWordChar c.toLower = true) (by decide +kernel)
      (Bool.or_eq_true_iff.mpr (.inl hletter))

theorem isWordChar_of_sameLetters {word text : Text} (h : sameLetters text word = true)
    (hword : word.all Char.isUpper = true) : ∀ c ∈ text, isWordChar c = true := by
  intro c hc
  simp only [sameLetters, beq_iff_eq] at h
  have hmem : c.toLower ∈ word.map Char.toLower := h ▸ List.mem_map_of_mem hc
  obtain ⟨letter, hletter, hlower⟩ := List.mem_map.mp hmem
  exact isWordChar_of_toLower_eq hlower.symm (List.all_eq_true.mp hword letter hletter)

/-- A keyword is a word in letters of either case. -/
theorem isWord_of_sameLetters {word : String} {text : Text} (hword : isCapital word = true)
    (h : sameLetters text word.toList = true) :
    text ≠ [] ∧ ∀ c ∈ text, isWordChar c = true := by
  simp only [isCapital, Bool.and_eq_true, Bool.not_eq_true'] at hword
  refine ⟨?_, isWordChar_of_sameLetters h hword.2⟩
  rintro rfl
  have hempty : word.toList = [] := by simpa [sameLetters] using h
  rw [hempty] at hword
  simp at hword

theorem stands_keyword (hgap : ∀ c ∈ gap, isBlank c = true) {word : String} {text : Text}
    (hword : isCapital word = true) (h : sameLetters text word.toList = true) :
    Stands ⟨gap, .word, text⟩ := by
  obtain ⟨hfilled, hletters⟩ := isWord_of_sameLetters hword h
  exact stands_word hgap hfilled hletters

end SqliteSchema.Proofs.TokenRows
