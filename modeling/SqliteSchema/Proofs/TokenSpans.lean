import SqliteSchema.Proofs.TokenSlices

/-!
Where the tokens of a text stand in it. Tokens keep the blanks before them instead of
positions, and the positions follow: each token begins behind its gap and ends before the
next. Cut out at these positions, the text of a token is the token's text, and nothing but
blanks is left between the cuts. A stretch of a text that begins and ends with a token has
the same tokens as it has in the text, at positions counted from its own beginning.
-/
namespace SqliteSchema.Proofs.TokenSpans

open PlainText Quoting ClauseTokens BalancedTokens TokenReading TokenRows TokenSlices

/-- A token with the numbers of characters before its beginning and before its end. -/
structure Span where
  kind : TokenKind
  text : Text
  start : Nat
  stop : Nat
  deriving DecidableEq

def spansFrom (offset : Nat) : List Token → List Span
  | [] => []
  | token :: rest =>
      let start := offset + token.gap.length
      let stop := start + token.text.length
      ⟨token.kind, token.text, start, stop⟩ :: spansFrom stop rest

def spans (text : Text) : List Span := spansFrom 0 (tokensOf text)

def Span.since (origin : Nat) (span : Span) : Span :=
  { span with start := span.start - origin, stop := span.stop - origin }

def Span.holds (span : Span) (position : Nat) : Prop :=
  span.start ≤ position ∧ position < span.stop

structure IsSpanOf (text : Text) (span : Span) : Prop where
  filled : span.start < span.stop
  within : span.stop ≤ text.length
  cut : span.text = text.extract span.start span.stop
  word : span.kind = .word → ∀ c ∈ span.text,
    isBlank c = false ∧ c ≠ '(' ∧ c ≠ ')' ∧ c ≠ ',' ∧ closingDelimiter? c = none
  symbol : span.kind = .symbol → span.text = [')'] ∨ span.text = [',']

/-- Tokens in the order in which they stand, with only blanks outside of them. -/
structure Covers (text : Text) (found : List Span) : Prop where
  each : ∀ span ∈ found, IsSpanOf text span
  ordered : found.Pairwise fun left right => left.stop ≤ right.start
  blank : ∀ position c, text[position]? = some c →
    (∀ span ∈ found, ¬ span.holds position) → isBlank c = true

variable {offset : Nat} {tokens : List Token} {text : Text}

/-- Spans cut in two come from tokens cut in two. -/
theorem exists_of_spansFrom_eq_append {left right : List Span}
    (h : spansFrom offset tokens = left ++ right) :
    ∃ front back, tokens = front ++ back ∧ left = spansFrom offset front ∧
      right = spansFrom (offset + (written front).length) back := by
  induction left generalizing offset tokens with
  | nil => exact ⟨[], tokens, rfl, rfl, h.symm⟩
  | cons span more ih =>
    cases tokens with
    | nil => simp [spansFrom] at h
    | cons token rest =>
      obtain ⟨rfl, hrest⟩ := List.cons.inj h
      obtain ⟨front, back, rfl, rfl, rfl⟩ := ih hrest
      refine ⟨token :: front, back, rfl, rfl, ?_⟩
      simp only [written, List.flatMap_cons, List.length_append, Nat.add_assoc]

theorem le_start_of_mem {span : Span} (h : span ∈ spansFrom offset tokens) :
    offset ≤ span.start := by
  induction tokens generalizing offset with
  | nil => simp [spansFrom] at h
  | cons token rest ih =>
    rcases List.mem_cons.mp h with rfl | hrest
    · exact Nat.le_add_right _ _
    · have hle := ih hrest
      omega

theorem pairwise_spansFrom (offset : Nat) (tokens : List Token) :
    (spansFrom offset tokens).Pairwise fun left right => left.stop ≤ right.start := by
  induction tokens generalizing offset with
  | nil => exact List.Pairwise.nil
  | cons token rest ih => exact List.pairwise_cons.mpr ⟨fun _ => le_start_of_mem, ih _⟩

/-- Tokens end where the text that they are written as ends. -/
theorem stop_of_getLast? {last : Span} (h : (spansFrom offset tokens).getLast? = some last) :
    last.stop = offset + (written tokens).length := by
  induction tokens generalizing offset with
  | nil => simp [spansFrom] at h
  | cons token rest ih =>
    cases rest with
    | nil =>
      obtain rfl : _ = last := by simpa [spansFrom] using h
      simp [written, Nat.add_assoc]
    | cons next more =>
      rw [spansFrom, spansFrom, List.getLast?_cons_cons] at h
      rw [ih h]
      simp only [written, List.flatMap_cons, List.length_append]
      omega

theorem map_since_spansFrom (origin offset : Nat) (tokens : List Token) :
    (spansFrom (origin + offset) tokens).map (Span.since origin) = spansFrom offset tokens := by
  induction tokens generalizing offset with
  | nil => rfl
  | cons token rest ih =>
    have hstart : origin + offset + token.gap.length - origin = offset + token.gap.length := by
      omega
    have hstop : origin + offset + token.gap.length + token.text.length =
        origin + (offset + token.gap.length + token.text.length) := by omega
    simp only [spansFrom, List.map_cons, Span.since, hstart]
    rw [hstop, ih, Nat.add_sub_cancel_left]

theorem extract_append (before middle after : Text) :
    (before ++ (middle ++ after)).extract before.length (before.length + middle.length) =
      middle := by
  simp [List.extract_eq_take_drop]

/-- The characters of a span, and how the token was read there. -/
theorem exists_of_mem_spans {span : Span} (h : span ∈ spans text) :
    ∃ before first run after, text = before ++ (first :: run ++ after) ∧ isBlank first = false ∧
      lexeme first (run ++ after) = (span.kind, run, after) ∧ span.text = first :: run ∧
      span.start = before.length ∧ span.stop = before.length + (first :: run).length := by
  obtain ⟨left, right, hsplit⟩ := List.append_of_mem h
  obtain ⟨front, back, htokens, -, hback⟩ := exists_of_spansFrom_eq_append hsplit
  cases back with
  | nil => simp [spansFrom] at hback
  | cons token rest =>
    obtain ⟨rfl, -⟩ := List.cons.inj hback
    obtain ⟨behind, htext, hbehind, -⟩ := exists_of_tokensOf_eq_append htokens
    obtain ⟨first, run, after, -, hblank, hrun, hlexeme, -, rfl⟩ :=
      exists_of_tokensOf_eq_cons hbehind
    refine ⟨written front ++ token.gap, first, run, after, ?_, hblank, hlexeme, hrun, ?_, ?_⟩
    · rw [htext, List.append_assoc]
      rfl
    · simp
    · simp [hrun]

/-- A word or a symbol is told by its characters. -/
theorem characters_of_lexeme {first : Char} (hblank : isBlank first = false) {kind : TokenKind}
    {run after : Text} (h : lexeme first (run ++ after) = (kind, run, after)) :
    (kind = .word → ∀ c ∈ first :: run, isWordChar c = true) ∧
      (kind = .symbol → first :: run = [')'] ∨ first :: run = [',']) := by
  have hread := lexes_or_unbalanced hblank (run ++ after) []
  rw [h] at hread
  constructor
  · rintro rfl
    rcases hread with ⟨-, hlexes⟩ | ⟨hsound, -⟩
    · cases hlexes with
      | word hfirst run after hrun => exact List.forall_mem_cons.mpr ⟨hfirst, hrun⟩
    · simp [isSound, isClosed, isStray] at hsound
  · rintro rfl
    rcases hread with ⟨-, hlexes⟩ | ⟨hsound, -⟩
    · cases hlexes with
      | comma hfirst => exact .inr (by rw [hfirst])
    · exact .inl (by simpa [isSound, isClosed, isStray] using hsound)

theorem isSpanOf_of_mem_spans {span : Span} (h : span ∈ spans text) : IsSpanOf text span := by
  obtain ⟨before, first, run, after, rfl, hblank, hlexeme, htext, hstart, hstop⟩ :=
    exists_of_mem_spans h
  obtain ⟨hword, hsymbol⟩ := characters_of_lexeme hblank hlexeme
  refine ⟨?_, ?_, ?_, ?_, ?_⟩
  · simp [hstart, hstop]
  · simp [hstop]
  · rw [hstart, hstop, extract_append, htext]
  · intro hkind c hc
    rw [htext] at hc
    exact of_isWordChar (hword hkind c hc)
  · rw [htext]
    exact hsymbol

/-- What no token holds is a blank: the gap of a token, or the end of the text. -/
theorem isBlank_of_outside (offset : Nat) {position : Nat} {c : Char}
    (hc : text[position]? = some c)
    (h : ∀ span ∈ spansFrom offset (tokensOf text), ¬ span.holds (offset + position)) :
    isBlank c = true := by
  induction text using token_induction generalizing offset position with
  | blank text hblank => exact hblank c (List.mem_of_getElem? hc)
  | token gap first rest hgap hblank ih =>
    rw [tokensOf_append hgap hblank, spansFrom, List.forall_mem_cons] at h
    obtain ⟨hfirst, hafter⟩ := h
    generalize hrun : (lexeme first rest).2.1 = run at hfirst hafter
    generalize hbehind : (lexeme first rest).2.2 = after at hafter ih
    obtain rfl : run ++ after = rest := by rw [← hrun, ← hbehind, lexeme_append]
    simp only [Span.holds, List.length_cons] at hfirst
    by_cases hbefore : position < gap.length
    · rw [List.getElem?_append_left hbefore] at hc
      exact hgap c (List.mem_of_getElem? hc)
    · have hlength : (gap ++ first :: run).length = gap.length + (first :: run).length := by simp
      have hpast : (gap ++ first :: run).length ≤ position := by
        rw [hlength, List.length_cons]
        omega
      have hsplit : gap ++ first :: (run ++ after) = (gap ++ first :: run) ++ after := by simp
      rw [hsplit, List.getElem?_append_right hpast] at hc
      refine ih (offset + gap.length + (first :: run).length) hc ?_
      intro span hspan
      have houtside := hafter span hspan
      have hposition : offset + gap.length + (first :: run).length +
          (position - (gap ++ first :: run).length) = offset + position := by omega
      rwa [hposition]

theorem covers_spans (text : Text) : Covers text (spans text) := by
  refine ⟨fun span => isSpanOf_of_mem_spans, pairwise_spansFrom 0 _, ?_⟩
  intro position c hc houtside
  apply isBlank_of_outside 0 hc
  rw [Nat.zero_add]
  exact houtside

/-- Without the gap before it a stretch of tokens is read as it was. -/
theorem tokensOf_slice {token : Token} {rest : List Token}
    (h : tokensOf (written (token :: rest)) = token :: rest) :
    tokensOf (slice (token :: rest)) = ⟨[], token.kind, token.text⟩ :: rest := by
  obtain ⟨first, run, after, -, hblank, htext, hlexeme, hrest, hwritten⟩ :=
    exists_of_tokensOf_eq_cons h
  rw [written_cons, List.append_cancel_left_eq] at hwritten
  have hempty : ∀ c ∈ ([] : Text), isBlank c = true := by simp
  have hread := tokensOf_append hempty hblank (run ++ after)
  rw [List.nil_append] at hread
  rw [hwritten, hread, hlexeme, htext, hrest]

/-- The spans of a stretch that is read by itself. -/
theorem spans_slice {token : Token} {rest : List Token}
    (h : tokensOf (written (token :: rest)) = token :: rest) (offset : Nat) :
    spans (slice (token :: rest)) = (spansFrom offset (token :: rest)).map
      (Span.since (offset + token.gap.length)) := by
  have hlater := map_since_spansFrom (offset + token.gap.length) token.text.length rest
  rw [spans, tokensOf_slice h]
  simp [spansFrom, Span.since, hlater]

/-- No token is lost. The tokens of a text stand in their order without a common character,
each is the text between its two positions, and whatever they leave out is blank. No end of a
token depends on what is behind it: the text from the beginning of a token to the end of the
same or a later one has just the tokens from the one to the other. -/
theorem spans_of_text (text : Text) :
    Covers text (spans text) ∧
      ∀ front middle back, spans text = front ++ (middle ++ back) →
        ∀ first ∈ middle.head?, ∀ last ∈ middle.getLast?,
          spans (text.extract first.start last.stop) = middle.map (Span.since first.start) := by
  refine ⟨covers_spans text, ?_⟩
  intro front middle back h first hfirst last hlast
  obtain ⟨before, tail, htokens, -, htail⟩ := exists_of_spansFrom_eq_append h
  obtain ⟨inner, behind, rfl, rfl, -⟩ := exists_of_spansFrom_eq_append htail.symm
  obtain ⟨right, rfl, hright, -⟩ := exists_of_tokensOf_eq_append htokens
  obtain ⟨after, rfl, -, hinner⟩ := exists_of_tokensOf_eq_append hright
  have hstop := stop_of_getLast? hlast
  cases inner with
  | nil => simp [spansFrom] at hfirst
  | cons token rest =>
    obtain rfl := Option.some.inj hfirst
    have hcut := extract_append (written before ++ token.gap) (slice (token :: rest)) after
    have htext : written before ++ (written (token :: rest) ++ after) =
        (written before ++ token.gap) ++ (slice (token :: rest) ++ after) := by
      simp [written_cons]
    have hend : last.stop =
        (written before ++ token.gap).length + (slice (token :: rest)).length := by
      rw [hstop, written_cons]
      simp only [List.length_append]
      omega
    have hstart : 0 + (written before).length + token.gap.length =
        (written before ++ token.gap).length := by simp
    rw [htext, hend, hstart, hcut, spans_slice hinner (0 + (written before).length), hstart]

/-- A text with a parenthesis in a quoted run, a doubled quote, tokens without a gap between
them, and a group that it cuts off. -/
def unevenText : Text := " int(1, ')') \t'it''s'NOT,)(a".toList

/-- The stretch from the first group to the end of the quoted run. -/
theorem spans_of_text_unevenText :
    spans unevenText = [⟨.word, "int".toList, 1, 4⟩] ++
      ([⟨.group, "(1, ')')".toList, 4, 12⟩, ⟨.quoted, "'it''s'".toList, 14, 21⟩] ++
        [⟨.word, "NOT".toList, 21, 24⟩, ⟨.symbol, [','], 24, 25⟩, ⟨.symbol, [')'], 25, 26⟩,
          ⟨.group, "(a".toList, 26, 28⟩]) ∧
      spans (unevenText.extract 4 21) =
        [⟨.group, "(1, ')')".toList, 0, 8⟩, ⟨.quoted, "'it''s'".toList, 10, 17⟩] := by
  have hspans : spans unevenText = [⟨.word, "int".toList, 1, 4⟩] ++
      ([⟨.group, "(1, ')')".toList, 4, 12⟩, ⟨.quoted, "'it''s'".toList, 14, 21⟩] ++
        [⟨.word, "NOT".toList, 21, 24⟩, ⟨.symbol, [','], 24, 25⟩, ⟨.symbol, [')'], 25, 26⟩,
          ⟨.group, "(a".toList, 26, 28⟩]) := by decide +kernel
  obtain ⟨-, hstretch⟩ := spans_of_text unevenText
  exact ⟨hspans, hstretch _ _ _ hspans _ rfl _ rfl⟩

end SqliteSchema.Proofs.TokenSpans
