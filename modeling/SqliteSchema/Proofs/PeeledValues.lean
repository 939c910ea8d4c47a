import Mathlib.Data.List.DropRight
import SqliteSchema.Proofs.ModifierSteps
import SqliteSchema.Proofs.PieceTokens
import SqliteSchema.Proofs.TableReading
import SqliteSchema.Proofs.TokenSlices

/-!
How deep the parentheses of a default value are taken off. Reading a value that is one group
goes on with what the group holds. The text of a value is a stretch of the tokens of a clause,
so it is balanced and its group is closed, and what is read next is balanced again and shorter.
In the end all parentheses that enclose the value are gone, and a quoted run loses its quotes.
-/
namespace SqliteSchema.Proofs.PeeledValues

open PlainText Quoting DelimiterScan Faults ClauseSplitting ClauseTokens ColumnModifiers
  ColumnDefinitions TableDefinitions NormalPieces BalancedTokens PieceTokens TableReading
  KeywordTokens ColumnSyntax TokenReading TokenRows ModifierSteps TokenSlices

/-- The text that reading a value goes on with, where the value is one group. -/
def unwrapped? (raw : Text) : Option Text :=
  match tokensOf raw with
  | [token] => if token.isGroup then some (trim token.inside) else none
  | _ => none

inductive Arrives (raw : Text) : Text → Prop
  | start : Arrives raw raw
  | unwrap {outer inner : Text} (h : Arrives raw outer) (hinner : unwrapped? outer = some inner) :
      Arrives raw inner

/-- A text behind DEFAULT in a clause, up to the next modifier. -/
def IsRawDefault (clause raw : Text) : Prop :=
  ∃ front keyword rest, tokensOf clause = front ++ keyword :: rest ∧
    keyword.spells "DEFAULT" = true ∧ defaultTokens rest ≠ [] ∧ raw = slice (defaultTokens rest)

def foundIn (clause : Text) : List Modifier :=
  modifiers (typePart (tokensOf clause).tail).rest

def IsPadded (part text : Text) : Prop :=
  ∃ before after, (∀ c ∈ before, isBlank c = true) ∧ (∀ c ∈ after, isBlank c = true) ∧
    text = before ++ (part ++ after)

def Encloses (outer inside : Text) : Prop :=
  isBalanced inside = true ∧ IsPadded (parenthesize inside) outer

/-- What is left of a text without the parentheses that enclose it and the blanks inside them. -/
inductive PeelsTo : Text → Text → Prop
  | bare {core : Text} (h : ∀ inside, ¬ Encloses core inside) : PeelsTo core core
  | layer {outer inside core : Text} (h : Encloses outer inside)
      (hcore : PeelsTo (trim inside) core) : PeelsTo outer core

/-- The value of a text that no parentheses enclose. -/
inductive Means : Text → Text → Prop
  | quotation {core : Text} (quotation : Quotation) (h : IsPadded quotation.text core) :
      Means core (bareText quotation.text)
  | verbatim {core : Text} (h : ∀ quotation : Quotation, ¬ IsPadded quotation.text core) :
      Means core core

theorem isBreak_head_of_blank {after : Text} (h : ∀ c ∈ after, isBlank c = true) :
    ∀ c ∈ after.head?, isBreak c = true := by
  intro c hc
  simp [isBreak, h c (List.mem_of_mem_head? hc)]

variable {raw outer inner inside : Text}

theorem unwrapped?_of_encloses (h : Encloses outer inside) :
    unwrapped? outer = some (trim inside) := by
  obtain ⟨hinside, before, after, hbefore, hafter, rfl⟩ := h
  have htokens := tokensOf_group hbefore ⟨inside, hinside⟩ after
  rw [tokensOf_of_blank hafter] at htokens
  rw [unwrapped?, htokens]
  exact congrArg (some ∘ trim) (inside_of_group rfl rfl)

theorem tokensOf_of_isPadded {quotation : Quotation} (h : IsPadded quotation.text raw) :
    ∃ gap, tokensOf raw = [⟨gap, .quoted, quotation.text⟩] := by
  obtain ⟨before, after, hbefore, hafter, rfl⟩ := h
  have htokens := stands_quotation hbefore quotation after (isBreak_head_of_blank hafter)
  rw [tokensOf_of_blank hafter] at htokens
  exact ⟨before, htokens⟩

/-- The one token of a balanced text has only blanks around it. -/
theorem exists_lexes_of_tokensOf_eq_singleton (hraw : isBalanced raw = true) {token : Token}
    (h : tokensOf raw = [token]) :
    ∃ first run after, token.text = first :: run ∧ Lexes first token.kind run after ∧
      IsPadded token.text raw := by
  obtain ⟨first, run, after, hgap, -, htext, hlexes, hafter, hsplit⟩ :=
    exists_lexes_of_tokensOf_eq_cons hraw h
  refine ⟨first, run, after, htext, hlexes, token.gap, after, hgap,
    isBlank_of_tokensOf_eq_nil hafter, ?_⟩
  rw [hsplit, htext]
  rfl

theorem exists_encloses_of_unwrapped? (hraw : isBalanced raw = true)
    (h : unwrapped? raw = some inner) : ∃ inside, Encloses raw inside ∧ inner = trim inside := by
  unfold unwrapped? at h
  split at h
  · rename_i token htokens
    simp only [Token.isGroup, Option.ite_none_right_eq_some, beq_iff_eq, Option.some.injEq] at h
    obtain ⟨hgroup, rfl⟩ := h
    obtain ⟨first, run, after, htext, hlexes, hpadded⟩ :=
      exists_lexes_of_tokensOf_eq_singleton hraw htokens
    rw [hgroup] at hlexes
    cases hlexes with
    | group hfirst body after hbody =>
      subst hfirst
      have hinside : token.inside = body := inside_of_group hgroup htext
      rw [htext] at hpadded
      exact ⟨body, ⟨hbody, hpadded⟩, congrArg trim hinside⟩
  · simp at h

/-- The one quoted token of a balanced text is a quotation. -/
theorem exists_quotation (hraw : isBalanced raw = true) {token : Token}
    (h : tokensOf raw = [token]) (hkind : token.kind = .quoted) :
    ∃ quotation : Quotation, IsPadded quotation.text raw := by
  obtain ⟨first, run, after, htext, hlexes, hpadded⟩ :=
    exists_lexes_of_tokensOf_eq_singleton hraw h
  rw [hkind] at hlexes
  cases hlexes with
  | @quoted close hclose run after hread =>
    obtain ⟨body, rfl⟩ := QuotedRuns.exists_double_of_closeQuote? hread
    rw [htext] at hpadded
    exact ⟨⟨first, close, hclose, body⟩, hpadded⟩

theorem length_trim_le (text : Text) : (trim text).length ≤ text.length :=
  (List.rdropWhile_prefix isBlank _).length_le.trans (List.dropWhile_suffix isBlank).length_le

/-- What is read next is balanced and shorter, and it gives the value. -/
theorem of_unwrapped? (hraw : isBalanced raw = true) (h : unwrapped? raw = some inner) :
    isBalanced inner = true ∧ inner.length < raw.length ∧ bareValue raw = bareValue inner := by
  obtain ⟨inside, ⟨hinside, before, after, hbefore, hafter, rfl⟩, rfl⟩ :=
    exists_encloses_of_unwrapped? hraw h
  have hlength : (trim inside).length < (before ++ (parenthesize inside ++ after)).length := by
    have hle := length_trim_le inside
    simp only [parenthesize, List.length_append, List.length_cons]
    omega
  have htokens := tokensOf_group hbefore ⟨inside, hinside⟩ after
  rw [tokensOf_of_blank hafter] at htokens
  refine ⟨by rw [isBalanced_trim, hinside], hlength, ?_⟩
  have hgroup : Token.inside ⟨before, .group, parenthesize inside⟩ = inside :=
    inside_of_group rfl rfl
  rw [bareValue, htokens]
  simp only [hgroup, if_pos hlength]

/-- Reading a balanced value arrives at balanced texts only. -/
theorem isBalanced_of_arrives (hraw : isBalanced raw = true) (h : Arrives raw outer) :
    isBalanced outer = true := by
  induction h with
  | start => exact hraw
  | unwrap _ hinner ih => exact (of_unwrapped? ih hinner).1

/-- Reading a balanced value comes to an end. -/
theorem acc_of_isBalanced (hraw : isBalanced raw = true) :
    Acc (fun inner outer => unwrapped? outer = some inner) raw := by
  induction hlength : raw.length using Nat.strongRecOn generalizing raw with
  | ind length ih =>
    refine Acc.intro raw fun inner hinner => ?_
    obtain ⟨hbalanced, hless, -⟩ := of_unwrapped? hraw hinner
    exact ih inner.length (hlength ▸ hless) hbalanced rfl

/-- Where no parentheses enclose a balanced text, its value is what the text means. -/
theorem bareValue_of_means {core value : Text} (hcore : isBalanced core = true)
    (hbare : ∀ inside, ¬ Encloses core inside) (h : Means core value) :
    bareValue core = value := by
  cases h with
  | quotation quotation h =>
    obtain ⟨gap, htokens⟩ := tokensOf_of_isPadded h
    rw [bareValue, htokens]
  | verbatim h =>
    rw [bareValue]
    split
    · rename_i token htokens
      split
      · rename_i hkind
        obtain ⟨quotation, hquotation⟩ := exists_quotation hcore htokens hkind
        exact absurd hquotation (h quotation)
      · rename_i hkind
        have hinner : unwrapped? core = some (trim token.inside) := by
          simp [unwrapped?, htokens, Token.isGroup, hkind]
        obtain ⟨inside, hinside, -⟩ := exists_encloses_of_unwrapped? hcore hinner
        exact absurd hinside (hbare inside)
      · rfl
    · rfl

theorem exists_means (core : Text) : ∃ value, Means core value := by
  by_cases h : ∃ quotation : Quotation, IsPadded quotation.text core
  · obtain ⟨quotation, hquotation⟩ := h
    exact ⟨_, .quotation quotation hquotation⟩
  · exact ⟨core, .verbatim (not_exists.mp h)⟩

theorem exists_peelsTo (hraw : isBalanced raw = true) :
    ∃ core, PeelsTo raw core := by
  induction acc_of_isBalanced hraw with
  | intro raw _ ih =>
    by_cases h : ∃ inside, Encloses raw inside
    · obtain ⟨inside, hinside⟩ := h
      have hinner := unwrapped?_of_encloses hinside
      obtain ⟨core, hcore⟩ := ih _ hinner (of_unwrapped? hraw hinner).1
      exact ⟨core, .layer hinside hcore⟩
    · exact ⟨raw, .bare (not_exists.mp h)⟩

theorem bareValue_of_peelsTo {core value : Text} (hraw : isBalanced raw = true)
    (hcore : PeelsTo raw core) (h : Means core value) : bareValue raw = value := by
  induction hcore with
  | bare hbare => exact bareValue_of_means hraw hbare h
  | layer hencloses _ ih =>
    obtain ⟨hinner, -, hvalue⟩ := of_unwrapped? hraw (unwrapped?_of_encloses hencloses)
    rw [hvalue, ih hinner h]

/-- The value is what is meant by the text without its enclosing parentheses. -/
theorem bareValue_eq_iff (hraw : isBalanced raw = true) (value : Text) :
    bareValue raw = value ↔ ∃ core, PeelsTo raw core ∧ Means core value := by
  constructor
  · rintro rfl
    obtain ⟨core, hcore⟩ := exists_peelsTo hraw
    obtain ⟨value, hvalue⟩ := exists_means core
    rw [bareValue_of_peelsTo hraw hcore hvalue]
    exact ⟨core, hcore, hvalue⟩
  · rintro ⟨core, hcore, hvalue⟩
    exact bareValue_of_peelsTo hraw hcore hvalue

variable {statements : List Text} {draft : Draft} {clause value : Text}

theorem spells_of_mem_stated {previous : Option Token} {token : Token} {rest : List Token}
    (h : .defaultValue value ∈ (advance previous token rest).stated) :
    token.spells "DEFAULT" = true ∧ defaultTokens rest ≠ [] ∧
      value = bareValue (slice (defaultTokens rest)) := by
  simp only [advance] at h
  split_ifs at h with _ _ _ _ _ _ hdefault hempty <;> simp_all

/-- Every default value that is found stands behind DEFAULT. -/
theorem exists_of_mem_modifiersAfter {previous : Option Token} {tokens : List Token}
    (h : .defaultValue value ∈ modifiersAfter previous tokens) :
    ∃ front keyword rest, tokens = front ++ keyword :: rest ∧ keyword.spells "DEFAULT" = true ∧
      defaultTokens rest ≠ [] ∧ value = bareValue (slice (defaultTokens rest)) := by
  induction hlength : tokens.length using Nat.strongRecOn generalizing previous tokens with
  | ind length ih =>
    cases tokens with
    | nil => simp [modifiersAfter] at h
    | cons token rest =>
      rw [modifiersAfter_cons, Step.modifiers, List.mem_append] at h
      rcases h with hstated | hleft
      · exact ⟨[], token, rest, rfl, spells_of_mem_stated hstated⟩
      · have hsuffix := left_suffix previous token rest
        have hless : (advance previous token rest).left.length < length :=
          hlength ▸ Nat.lt_succ_of_le hsuffix.length_le
        obtain ⟨read, hread⟩ := hsuffix
        obtain ⟨front, keyword, after, hsplit, hvalue⟩ := ih _ hless hleft rfl
        refine ⟨token :: (read ++ front), keyword, after, ?_, hvalue⟩
        rw [← hread, hsplit]
        simp

theorem typePart_rest_suffix (tokens : List Token) : (typePart tokens).rest <:+ tokens :=
  ⟨_, typePart_append tokens⟩

theorem exists_isRawDefault (h : .defaultValue value ∈ foundIn clause) :
    ∃ raw, IsRawDefault clause raw ∧ value = bareValue raw := by
  obtain ⟨front, keyword, rest, hsplit, hspells, hfilled, hvalue⟩ := exists_of_mem_modifiersAfter h
  have hsuffix := (typePart_rest_suffix (tokensOf clause).tail).trans (List.tail_suffix _)
  obtain ⟨before, hbefore⟩ := hsuffix
  refine ⟨_, ⟨before ++ front, keyword, rest, ?_, hspells, hfilled, rfl⟩, hvalue⟩
  rw [← hbefore, hsplit, List.append_assoc]

theorem isBalanced_of_isRawDefault (hclause : isBalanced clause = true)
    (h : IsRawDefault clause raw) : isBalanced raw = true := by
  obtain ⟨front, keyword, rest, htokens, -, -, rfl⟩ := h
  have hsplit : tokensOf clause = (front ++ [keyword]) ++
      (defaultTokens rest ++ rest.drop (defaultTokens rest).length) := by
    rw [defaultTokens_append_drop, htokens]
    simp
  exact isBalanced_slice hclause hsplit

/-- Reading the default values of a batch goes from balanced texts to shorter balanced texts
and ends, and for every balanced text it finds what the text means without the parentheses
that enclose it. -/
theorem bareValue_peeled :
    (∀ statements draft, readDraft statements = .ok draft →
      ∀ clause ∈ columnClauses draft.clauses,
        (∀ value, .defaultValue value ∈ foundIn clause →
          ∃ raw, IsRawDefault clause raw ∧ value = bareValue raw) ∧
        ∀ raw, IsRawDefault clause raw → isBalanced raw = true ∧
          Acc (fun inner outer => unwrapped? outer = some inner) raw ∧
          ∀ outer inner, Arrives raw outer → unwrapped? outer = some inner →
            isBalanced inner = true ∧ inner.length < outer.length ∧
              bareValue outer = bareValue inner) ∧
    ∀ raw value, isBalanced raw = true →
      (bareValue raw = value ↔ ∃ core, PeelsTo raw core ∧ Means core value) := by
  constructor
  · intro statements draft hdraft clause hclause
    refine ⟨fun value hvalue => exists_isRawDefault hvalue, fun raw hraw => ?_⟩
    have hbalanced := isBalanced_of_isRawDefault
      (isBalanced_of_mem_clauses hdraft (List.mem_filter.mp hclause).1) hraw
    refine ⟨hbalanced, acc_of_isBalanced hbalanced, fun outer inner houter hinner => ?_⟩
    exact of_unwrapped? (isBalanced_of_arrives hbalanced houter) hinner
  · intro raw value hraw
    exact bareValue_eq_iff hraw value

def layeredBatch : List Text :=
  ["CREATE TABLE t (a text DEFAULT (\n( 'it''s (' )) NOT NULL, b int)".toList]

def layeredDraft : Draft where
  name := ['t']
  ifNotExists := false
  clauses := ["a text DEFAULT ( ( 'it''s (' )) NOT NULL".toList, "b int".toList]
  options := none
  indexes := []

theorem bareValue_peeled_layeredBatch :
    readDraft layeredBatch = .ok layeredDraft ∧
      IsRawDefault "a text DEFAULT ( ( 'it''s (' )) NOT NULL".toList "( ( 'it''s (' ))".toList ∧
      isBalanced "( ( 'it''s (' ))".toList = true ∧
      Acc (fun inner outer => unwrapped? outer = some inner) "( ( 'it''s (' ))".toList ∧
      bareValue "( ( 'it''s (' ))".toList = "it's (".toList := by
  have hdraft : readDraft layeredBatch = .ok layeredDraft := eq_ok_of_toOption (by decide +kernel)
  have hclause : "a text DEFAULT ( ( 'it''s (' )) NOT NULL".toList ∈
      columnClauses layeredDraft.clauses := by decide +kernel
  have hraw : IsRawDefault "a text DEFAULT ( ( 'it''s (' )) NOT NULL".toList
      "( ( 'it''s (' ))".toList :=
    ⟨(tokensOf "a text DEFAULT ( ( 'it''s (' )) NOT NULL".toList).take 2,
      ⟨[' '], .word, "DEFAULT".toList⟩,
      (tokensOf "a text DEFAULT ( ( 'it''s (' )) NOT NULL".toList).drop 3,
      by decide +kernel, by decide, by decide +kernel, by decide +kernel⟩
  have hbare : ∀ inside, ¬ Encloses "'it''s ('".toList inside := by
    intro inside h
    have hnone : unwrapped? "'it''s ('".toList = none := by decide +kernel
    rw [unwrapped?_of_encloses h] at hnone
    simp at hnone
  have hpadded : ∀ part : Text, IsPadded part part := fun part =>
    ⟨[], [], by simp, by simp, by simp⟩
  have hpeels : PeelsTo "( ( 'it''s (' ))".toList "'it''s ('".toList :=
    .layer ⟨by decide +kernel, hpadded (parenthesize " ( 'it''s (' )".toList)⟩
      (.layer ⟨by decide +kernel, hpadded (parenthesize " 'it''s (' ".toList)⟩ (.bare hbare))
  obtain ⟨hvalues, hmeans⟩ := bareValue_peeled
  obtain ⟨hbalanced, hends, -⟩ := (hvalues _ _ hdraft _ hclause).2 _ hraw
  exact ⟨hdraft, hraw, hbalanced, hends, (hmeans _ _ hbalanced).mpr
    ⟨_, hpeels, .quotation ⟨'\x27', '\x27', rfl, "it's (".toList⟩ (hpadded _)⟩⟩

end SqliteSchema.Proofs.PeeledValues
