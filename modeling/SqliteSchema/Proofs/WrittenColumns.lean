import SqliteSchema.Proofs.RuleReading
import SqliteSchema.Proofs.TokenRows

/-!
A column definition is read from every text that it is written as. The text is the row of
its tokens: the name, the type, which ends at the first rule, and the rules, which state
what they state in any order.
-/
namespace SqliteSchema.Proofs.WrittenColumns

open PlainText Quoting ClauseTokens TypeArguments ColumnModifiers ColumnDefinitions QuotedRuns
  TypeSizes ColumnSyntax TokenRows ModifierSteps RuleReading

theorem follows_part {part : Part} (hpart : IsLexical part) {text : Text}
    (h : part.IsWrittenAs text) : Follows ⟨[' '], part.kind, text⟩ := by
  have hgap : ∀ c ∈ [' '], isBlank c = true := List.forall_mem_singleton.mpr (by decide)
  apply follows_of_space
  cases part with
  | keyword word => exact stands_keyword hgap hpart h
  | quoted name =>
    rw [show text = name.text from h]
    exact stands_quotation hgap name
  | group inside =>
    rw [show text = parenthesize inside from h]
    exact stands_group hgap inside
  | value given =>
    rw [show text = given.text from h]
    cases given with
    | literal mark isMark inside => exact stands_quotation hgap ⟨mark, mark, isMark, inside⟩
    | bare word => exact stands_word hgap word.ne_nil word.isWordChar_of_mem

/-- The parts of a definition are read from what they are written as. -/
theorem exists_tokens_of_forall₂ {parts : List Part} (hparts : ∀ part ∈ parts, IsLexical part)
    {spellings : List Text} (h : List.Forall₂ Part.IsWrittenAs parts spellings) :
    ∃ tokens, List.Forall₂ Part.IsReadAs parts tokens ∧ (∀ token ∈ tokens, Follows token) ∧
      written tokens = spellings.flatMap (' ' :: ·) := by
  induction h with
  | nil => exact ⟨[], .nil, by simp, rfl⟩
  | @cons part text parts texts hpart _ ih =>
    rw [List.forall_mem_cons] at hparts
    obtain ⟨tokens, htokens, hfollows, htext⟩ := ih hparts.2
    refine ⟨⟨[' '], part.kind, text⟩ :: tokens, .cons ⟨rfl, hpart⟩ htokens, ?_, ?_⟩
    · exact List.forall_mem_cons.mpr ⟨follows_part hparts.1 hpart, hfollows⟩
    · rw [written, List.flatMap_cons, List.flatMap_cons]
      exact congrArg (' ' :: text ++ ·) htext

def wordToken (word : BareWord) : Token := ⟨[' '], .word, word.text⟩

def argumentsToken (spaced : Bool) (arguments : SizeArguments) : Token :=
  ⟨if spaced then [' '] else [], .group, parenthesize arguments.text⟩

def readType (type : DeclaredType) (rest : List Token) : TypePart where
  words := type.words.map wordToken
  arguments := type.arguments.map (argumentsToken type.spaced)
  rest := rest

def typeTokens (type : DeclaredType) : List Token :=
  type.words.map wordToken ++ (type.arguments.map (argumentsToken type.spaced)).toList

theorem follows_argumentsToken (spaced : Bool) (arguments : SizeArguments) :
    Follows (argumentsToken spaced arguments) := by
  have hgap : ∀ c ∈ (if spaced then [' '] else []), isBlank c = true := by
    cases spaced with
    | false => simp
    | true => exact List.forall_mem_singleton.mpr (by decide)
  refine ⟨stands_group hgap ⟨arguments.text, isBalanced_text arguments⟩, ?_⟩
  cases spaced with
  | false => exact ⟨'(', _, rfl, by decide⟩
  | true => exact ⟨' ', _, rfl, by decide⟩

theorem follows_of_mem_typeTokens {type : DeclaredType} :
    ∀ token ∈ typeTokens type, Follows token := by
  intro token htoken
  rcases List.mem_append.mp htoken with h | h
  · obtain ⟨word, -, rfl⟩ := List.mem_map.mp h
    exact follows_of_space (stands_word (List.forall_mem_singleton.mpr (by decide)) word.ne_nil
      word.isWordChar_of_mem)
  · obtain ⟨arguments, -, rfl⟩ := Option.map_eq_some_iff.mp (Option.mem_toList.mp h)
    exact follows_argumentsToken type.spaced arguments

theorem written_words {words : List BareWord} (h : words ≠ []) :
    written (words.map wordToken) = ' ' :: [' '].intercalate (words.map BareWord.text) := by
  induction words with
  | nil => exact absurd rfl h
  | cons word rest ih =>
    cases rest with
    | nil => simp [written, wordToken]
    | cons other more =>
      have hrest := ih (List.cons_ne_nil _ _)
      rw [List.map_cons, written, List.flatMap_cons, ← written, hrest]
      simp [List.intercalate_cons_cons, wordToken]

/-- A type is written as its tokens. -/
theorem written_typeTokens (type : DeclaredType) :
    written (typeTokens type) = ' ' :: type.text := by
  have hwords := written_words type.ne_nil
  have harguments : written (type.arguments.map (argumentsToken type.spaced)).toList =
      type.argumentsText := by
    cases h : type.arguments <;>
      simp [DeclaredType.argumentsText, h, written, argumentsToken]
  rw [written] at hwords harguments
  rw [typeTokens, written, List.flatMap_append, hwords, harguments]
  rfl

theorem slice_typeTokens (type : DeclaredType) : slice (typeTokens type) = type.text := by
  have hwritten := written_typeTokens type
  obtain ⟨words, hfilled, spaced, arguments⟩ := type
  cases words with
  | nil => exact absurd rfl hfilled
  | cons word rest => exact List.cons.inj hwritten |>.2

theorem isTypeWord_of_mem {words : List BareWord} :
    ∀ token ∈ words.map wordToken, isTypeWord token = true := by
  intro token htoken
  obtain ⟨word, -, rfl⟩ := List.mem_map.mp htoken
  have hfree : isReserved (wordToken word) = false := word.isReserved_eq
  rw [isTypeWord, hfree]
  rfl

theorem typePart_words (words : List BareWord) {rest : List Token}
    (hrest : ∀ next ∈ rest.head?, isReserved next = true) :
    typePart (words.map wordToken ++ rest) = ⟨words.map wordToken, none, rest⟩ := by
  cases rest with
  | nil => exact typePart_bare isTypeWord_of_mem rfl (.inr rfl)
  | cons next after =>
    have hnext := hrest next rfl
    have hkind : (next.kind == .word) = true := (Bool.and_eq_true_iff.mp hnext).1
    have hword : isTypeWord next = false := by simp [isTypeWord, hnext]
    have hgroup : next.isGroup = false := by simp [Token.isGroup, eq_of_beq hkind]
    exact typePart_bare isTypeWord_of_mem hword (.inr hgroup)

/-- A type ends at its arguments or at a reserved word, and the tokens after it are left. -/
theorem typePart_typeTokens (type : DeclaredType) {rest : List Token}
    (hrest : ∀ next ∈ rest.head?, isReserved next = true) :
    typePart (typeTokens type ++ rest) = readType type rest := by
  obtain ⟨words, hfilled, spaced, arguments⟩ := type
  cases arguments with
  | none =>
    simp only [typeTokens, readType, Option.map_none, Option.toList_none, List.append_nil]
    exact typePart_words words hrest
  | some arguments =>
    have hwords : words.map wordToken ≠ [] := by simpa using hfilled
    simp only [typeTokens, readType, Option.map_some, Option.toList_some, List.append_assoc,
      List.singleton_append]
    exact typePart_sized isTypeWord_of_mem hwords rfl

theorem size?_readType (type : DeclaredType) (rest : List Token) :
    (readType type rest).size? = some type.size := by
  cases h : type.arguments with
  | none => simp [readType, TypePart.size?, DeclaredType.size, h]
  | some arguments =>
    have hinside : (argumentsToken type.spaced arguments).inside = arguments.text :=
      inside_of_group rfl rfl
    simp [readType, TypePart.size?, DeclaredType.size, h, hinside, typeSize?_text]

def readOptional (type : Option DeclaredType) (rest : List Token) : TypePart :=
  match type with
  | none => ⟨[], none, rest⟩
  | some type => readType type rest

theorem typePart_optional (type : Option DeclaredType) {rest : List Token}
    (hrest : ∀ next ∈ rest.head?, isReserved next = true) :
    typePart (type.toList.flatMap typeTokens ++ rest) = readOptional type rest := by
  cases type with
  | none => exact typePart_words [] hrest
  | some type =>
    rw [Option.toList_some, List.flatMap_singleton]
    exact typePart_typeTokens type hrest

theorem size?_readOptional (type : Option DeclaredType) (rest : List Token) :
    (readOptional type rest).size? = some ((type.map DeclaredType.size).getD .unsized) := by
  cases type with
  | none => rfl
  | some type => exact size?_readType type rest

theorem dataType_readOptional (type : Option DeclaredType) (rest : List Token) :
    (readOptional type rest).dataType = (type.map DeclaredType.dataType).getD [] := by
  cases type with
  | none => rfl
  | some type =>
    rw [readOptional, TypePart.dataType, readType, List.map_map]
    rfl

theorem columnType_readOptional (type : Option DeclaredType) (rest : List Token) :
    (readOptional type rest).columnType = (type.map DeclaredType.text).getD [] := by
  cases type with
  | none => rfl
  | some type => exact slice_typeTokens type

theorem rest_readOptional (type : Option DeclaredType) (rest : List Token) :
    (readOptional type rest).rest = rest := by
  cases type <;> rfl

def stated (definition : Definition) : List Modifier :=
  definition.rules.flatMap fun named => named.rule.stated

/-- A modifier is found where some rule states it. -/
theorem contains_stated (definition : Definition) (modifier : Modifier) (states : Rule → Bool)
    (h : ∀ rule : Rule, rule.stated.contains modifier = states rule) :
    (stated definition).contains modifier = definition.states states := by
  rw [stated, Definition.states, List.contains_eq_any_beq, List.any_flatMap]
  refine congrArg definition.rules.any (funext fun named => ?_)
  rw [← h, List.contains_eq_any_beq]

theorem filterMap_stated (rules : List NamedRule) :
    (rules.flatMap fun named => named.rule.stated).filterMap Modifier.default? =
      (defaults rules).map Default.value := by
  induction rules with
  | nil => rfl
  | cons named rest ih =>
    have hrule : named.rule.stated.filterMap Modifier.default? =
        named.rule.default?.toList.map Default.value := by
      cases named.rule with
      | generated always expression => cases always <;> rfl
      | _ => rfl
    rw [List.flatMap_cons, List.filterMap_append, hrule, ih]
    cases hdefault : named.rule.default? with
    | none => simp [defaults, hdefault]
    | some value => simp [defaults, hdefault]

theorem defaultValue?_stated (definition : Definition) :
    defaultValue? (stated definition) = (defaults definition.rules).head?.map Default.value := by
  have hsole := definition.soleDefault
  rw [defaultValue?, stated, filterMap_stated]
  cases hvalues : defaults definition.rules with
  | nil => rfl
  | cons value rest =>
    rw [hvalues, List.length_cons] at hsole
    obtain rfl := List.length_eq_zero_iff.mp (show rest.length = 0 by omega)
    rfl

theorem describe_stated (definition : Definition) (rest : List Token) :
    describe definition.name (readOptional definition.type rest)
        ((definition.type.map DeclaredType.size).getD .unsized) (stated definition) =
      definition.column := by
  have hnull := contains_stated definition .notNull _ fun rule => (contains_stated_rule rule).1
  have hprimary := contains_stated definition .primaryKey _ fun rule =>
    (contains_stated_rule rule).2.1
  have hunique := contains_stated definition .unique _ fun rule =>
    (contains_stated_rule rule).2.2.1
  have hauto := contains_stated definition .autoIncrement _ fun rule =>
    (contains_stated_rule rule).2.2.2.1
  have hgenerated := contains_stated definition .generated _ fun rule =>
    (contains_stated_rule rule).2.2.2.2
  rw [describe, Definition.column, dataType_readOptional, columnType_readOptional,
    defaultValue?_stated, hnull, hprimary, hunique, hauto, hgenerated]

/-- The tokens of a definition: its name, the tokens of its type and those of its rules. -/
theorem exists_tokensOf {definition : Definition} {text : Text}
    (h : definition.IsWrittenAs text) :
    ∃ rules, List.Forall₂ Part.IsReadAs definition.parts rules ∧
      tokensOf text = ⟨[], .quoted, backticked definition.name⟩ ::
        (definition.type.toList.flatMap typeTokens ++ rules) := by
  obtain ⟨spellings, hspellings, rfl⟩ := h
  have hlexical : ∀ part ∈ definition.parts, IsLexical part := by
    intro part hpart
    obtain ⟨named, -, hpart⟩ := List.mem_flatMap.mp hpart
    exact isLexical_of_mem_parts part hpart
  obtain ⟨rules, hrules, hfollows, hwritten⟩ := exists_tokens_of_forall₂ hlexical hspellings
  refine ⟨rules, hrules, ?_⟩
  have htokens : ∀ token ∈ definition.type.toList.flatMap typeTokens ++ rules, Follows token := by
    intro token htoken
    rcases List.mem_append.mp htoken with h | h
    · obtain ⟨type, -, htype⟩ := List.mem_flatMap.mp h
      exact follows_of_mem_typeTokens token htype
    · exact hfollows token h
  have htype : written (definition.type.toList.flatMap typeTokens) =
      (definition.type.toList.map DeclaredType.text).flatMap (' ' :: ·) := by
    cases definition.type with
    | none => rfl
    | some type => simpa using written_typeTokens type
  have htext : (definition.type.toList.map DeclaredType.text ++ spellings).flatMap (' ' :: ·) =
      written (definition.type.toList.flatMap typeTokens ++ rules) := by
    rw [List.flatMap_append, ← htype, ← hwritten, written, written, written, List.flatMap_append]
  have hname : Stands ⟨[], .quoted, backticked definition.name⟩ :=
    stands_quotation (by simp) ⟨'\x60', '\x60', rfl, definition.name⟩
  rw [Definition.textWith, htext]
  exact (hname _ (isBreak_head_written htokens)).trans (congrArg _ (tokensOf_written htokens))

/-- A definition has a text, and is read from every text that it is written as, whatever
the order of its rules and the case of their words: the column found is the column that
the definition means. -/
theorem readColumn_definition (definition : Definition) :
    definition.IsWrittenAs definition.text ∧
      ∀ text, definition.IsWrittenAs text → readColumn text = .ok definition.column := by
  refine ⟨isWrittenAs_definition definition, fun text h => ?_⟩
  obtain ⟨rules, hrules, htokens⟩ := exists_tokensOf h
  have hname : bareText (backticked definition.name) = definition.name :=
    bareText_quotedBy isQuoteMark_backtick definition.name
  have hpart := typePart_optional definition.type (isReserved_head hrules)
  have hfound : modifiers rules = stated definition :=
    modifiersAfter_rules hrules definition.soleDefault (by simp)
  rw [readColumn, htokens]
  simp only [hpart, size?_readOptional, hname, rest_readOptional, hfound, describe_stated]

def crowdedDefinition : Definition where
  name := "a`b, (c".toList
  type := some {
    words := [⟨"Double".toList, by decide, List.all_eq_true.mp rfl, by decide +kernel⟩,
      ⟨"set".toList, by decide, List.all_eq_true.mp rfl, by decide +kernel⟩]
    ne_nil := by decide
    spaced := true
    arguments := some (.decimal true ⟨10, rfl⟩ ⟨-2, rfl⟩) }
  rules := [
    ⟨some ⟨'[', ']', rfl, "PRIMARY KEY".toList⟩,
      .references ⟨'\x22', '\x22', rfl, "t(".toList⟩ ⟨"x, ')'".toList, by decide +kernel⟩
        [(.delete, .setDefault), (.update, .noAction), (.delete, .setNull)]⟩,
    ⟨some ⟨'\x22', '\x22', rfl, "SET".toList⟩,
      .default (.literal '\x27' rfl "it's UNIQUE".toList)⟩,
    ⟨none, .generated true ⟨"x || '('".toList, by decide +kernel⟩⟩,
    ⟨none, .null⟩,
    ⟨none, .primaryKey (some .descending)⟩,
    ⟨none, .notNull⟩]
  soleDefault := by decide

def crowdedParts : List Text :=
  ["constraint", "[PRIMARY KEY]", "References", "\x22t(\x22", "(x, ')')",
    "ON", "delete", "SET", "Default", "on", "update", "no", "action", "on", "DELETE", "set", "null",
    "CONSTRAINT", "\x22SET\x22", "default", "'it''s UNIQUE'",
    "generated", "Always", "aS", "(x || '(')", "Null", "primary", "key", "desc",
    "not", "NULL"].map String.toList

def crowdedText : Text :=
  "`a``b, (c` Double set (10, -2)".toList ++ crowdedParts.flatMap (' ' :: ·)

theorem readColumn_crowdedText :
    crowdedDefinition.IsWrittenAs crowdedText ∧
      readColumn crowdedText = .ok {
        name := "a`b, (c".toList
        dataType := "Double set".toList
        columnType := "Double set (10, -2)".toList
        size := .decimal 10 (-2)
        defaultValue := some "it's UNIQUE".toList
        isNullable := false
        isPrimaryKey := true
        isUnique := false
        isAutoIncrement := false
        isGenerated := true } := by
  have hwritten : crowdedDefinition.IsWrittenAs crowdedText := by
    refine ⟨crowdedParts, ?_, by decide +kernel⟩
    repeat' constructor
  exact ⟨hwritten, ((readColumn_definition crowdedDefinition).2 _ hwritten).trans
    (by decide +kernel)⟩

end SqliteSchema.Proofs.WrittenColumns
