import SqliteSchema.Proofs.ColumnSyntax
import SqliteSchema.Proofs.ModifierSteps

/-!
Reading the rules of a definition off their tokens. A rule that gives no default value is
read the same way in front of any tokens and behind any token, and its last token is never
SET, so a DEFAULT behind it counts. A default value ends at the next rule, since every rule
begins with a reserved word. So the rules can stand in any order.
-/
namespace SqliteSchema.Proofs.RuleReading

open PlainText Quoting ClauseTokens ColumnModifiers QuotedRuns TokenReading KeywordTokens
  ModifierSteps ColumnSyntax

variable {token : Token} {part : Part} {keyword : String}

theorem spells_of_isReadAs (h : (Part.keyword keyword).IsReadAs token) :
    token.spells keyword = true := by
  have hkind : token.kind = .word := h.1
  have htext : sameLetters token.text keyword.toList = true := h.2
  simp [Token.spells, hkind, htext]

/-- The words that the reader of modifiers acts on, and SET, which disarms a DEFAULT. -/
def tellingWords : List String :=
  ["NOT", "PRIMARY", "UNIQUE", "AUTOINCREMENT", "GENERATED", "AS", "CONSTRAINT", "DEFAULT", "SET"]

def IsPassed (token : Token) : Prop := ∀ word ∈ tellingWords, token.spells word = false

theorem isPassed_of_kind_ne (h : token.kind ≠ .word) : IsPassed token :=
  fun word _ => spells_of_kind_ne h word

def passedWords : List String :=
  ["NULL", "ASC", "DESC", "CHECK", "COLLATE", "REFERENCES", "ON", "DELETE", "UPDATE", "CASCADE",
   "RESTRICT", "NO", "ACTION", "ALWAYS"]

theorem isPassed_of_spells (h : token.spells keyword = true) (hkeyword : keyword ∈ passedWords) :
    IsPassed token := by
  have hall : ∀ word ∈ passedWords, ∀ other ∈ tellingWords,
      sameLetters word.toList other.toList = false := by decide +kernel
  intro other hother
  exact spells_of_spells h (hall keyword hkeyword other hother)

theorem modifiersAfter_of_isPassed (h : IsPassed token) (previous : Option Token)
    (rest : List Token) :
    modifiersAfter previous (token :: rest) = modifiersAfter (some token) rest := by
  have htelling : steppingWords ⊆ tellingWords := by decide
  exact modifiersAfter_of_isSteppedOver (fun word hword => h word (htelling hword)) previous rest

/-- The parts state the given modifiers wherever they stand, and do not end with SET. -/
def Reads (parts : List Part) (found : List Modifier) : Prop :=
  ∀ tokens, List.Forall₂ Part.IsReadAs parts tokens →
    (∀ last ∈ tokens.getLast?, last.spells "SET" = false) ∧
      ∀ previous rest, modifiersAfter previous (tokens ++ rest) =
        found ++ modifiersAfter (tokens.getLast?.or previous) rest

variable {parts left right : List Part} {found before after : List Modifier}

theorem reads_nil : Reads [] [] := by
  intro tokens h
  obtain rfl := List.forall₂_nil_left_iff.mp h
  exact ⟨by simp, fun _ _ => rfl⟩

theorem exists_append_of_forall₂ {tokens : List Token}
    (h : List.Forall₂ Part.IsReadAs (left ++ right) tokens) :
    ∃ front back, tokens = front ++ back ∧ List.Forall₂ Part.IsReadAs left front ∧
      List.Forall₂ Part.IsReadAs right back := by
  induction left generalizing tokens with
  | nil => exact ⟨[], tokens, rfl, .nil, h⟩
  | cons part more ih =>
    obtain ⟨token, rest, hpart, hrest, rfl⟩ := List.forall₂_cons_left_iff.mp h
    obtain ⟨front, back, rfl, hfront, hback⟩ := ih hrest
    exact ⟨token :: front, back, rfl, .cons hpart hfront, hback⟩

theorem reads_append (hleft : Reads left before) (hright : Reads right after) :
    Reads (left ++ right) (before ++ after) := by
  intro tokens h
  obtain ⟨front, back, rfl, hfront, hback⟩ := exists_append_of_forall₂ h
  obtain ⟨hlast, hread⟩ := hleft front hfront
  obtain ⟨hend, hmore⟩ := hright back hback
  refine ⟨?_, ?_⟩
  · intro last h
    rw [List.getLast?_append] at h
    cases hback : back.getLast? with
    | none =>
      rw [hback, Option.none_or] at h
      exact hlast last h
    | some other =>
      rw [hback, Option.some_or] at h
      obtain rfl := Option.some.inj h
      exact hend other hback
  · intro previous rest
    rw [List.append_assoc, hread, hmore, List.getLast?_append, Option.or_assoc,
      List.append_assoc]

theorem reads_one (h : ∀ token, part.IsReadAs token → token.spells "SET" = false ∧
    ∀ previous rest, modifiersAfter previous (token :: rest) =
      found ++ modifiersAfter (some token) rest) : Reads [part] found := by
  intro tokens htokens
  obtain ⟨token, rest, hpart, hrest, rfl⟩ := List.forall₂_cons_left_iff.mp htokens
  obtain rfl := List.forall₂_nil_left_iff.mp hrest
  obtain ⟨hset, hread⟩ := h token hpart
  refine ⟨?_, hread⟩
  intro last hlast
  obtain rfl : token = last := by simpa using hlast
  exact hset

theorem reads_two {first second : Part}
    (h : ∀ one two, first.IsReadAs one → second.IsReadAs two → two.spells "SET" = false ∧
      ∀ previous rest, modifiersAfter previous (one :: two :: rest) =
        found ++ modifiersAfter (some two) rest) : Reads [first, second] found := by
  intro tokens htokens
  obtain ⟨one, rest, hone, hrest, rfl⟩ := List.forall₂_cons_left_iff.mp htokens
  obtain ⟨two, more, htwo, hmore, rfl⟩ := List.forall₂_cons_left_iff.mp hrest
  obtain rfl := List.forall₂_nil_left_iff.mp hmore
  obtain ⟨hset, hread⟩ := h one two hone htwo
  refine ⟨?_, hread⟩
  intro last hlast
  obtain rfl : two = last := by simpa using hlast
  exact hset

theorem reads_passed (h : ∀ token, part.IsReadAs token → IsPassed token) : Reads [part] [] := by
  refine reads_one fun token htoken => ⟨?_, fun previous rest => ?_⟩
  · exact h token htoken "SET" (by simp [tellingWords])
  · exact modifiersAfter_of_isPassed (h token htoken) previous rest

theorem reads_keyword (h : keyword ∈ passedWords) : Reads [.keyword keyword] [] :=
  reads_passed fun _ htoken => isPassed_of_spells (spells_of_isReadAs htoken) h

theorem isPassed_of_isQuoted {name : Quotation} (h : (Part.quoted name).IsReadAs token) :
    IsPassed token := by
  have hkind : token.kind = .quoted := h.1
  exact isPassed_of_kind_ne (by simp [hkind])

theorem isPassed_of_isGroup {inside : BalancedText} (h : (Part.group inside).IsReadAs token) :
    IsPassed token := by
  have hkind : token.kind = .group := h.1
  exact isPassed_of_kind_ne (by simp [hkind])

theorem reads_quoted (name : Quotation) : Reads [.quoted name] [] :=
  reads_passed fun _ => isPassed_of_isQuoted

theorem reads_group (inside : BalancedText) : Reads [.group inside] [] :=
  reads_passed fun _ => isPassed_of_isGroup

/-- A part that is passed over can stand in front of anything. -/
theorem reads_cons (hpart : Reads [part] []) (hparts : Reads parts found) :
    Reads (part :: parts) found := reads_append hpart hparts

def flagWords : List (String × Modifier) :=
  [("UNIQUE", .unique), ("AUTOINCREMENT", .autoIncrement), ("GENERATED", .generated)]

theorem reads_flag {modifier : Modifier} (h : (keyword, modifier) ∈ flagWords) :
    Reads [.keyword keyword] [modifier] := by
  refine reads_one fun token htoken => ?_
  have hspells := spells_eq (spells_of_isReadAs htoken)
  simp only [flagWords, List.mem_cons, Prod.mk.injEq, List.not_mem_nil, or_false] at h
  refine ⟨?_, fun previous rest => ?_⟩
  · rcases h with ⟨rfl, -⟩ | ⟨rfl, -⟩ | ⟨rfl, -⟩ <;> exact hspells "SET"
  · rw [modifiersAfter]
    simp only [opensGenerated, hspells]
    rcases h with ⟨rfl, rfl⟩ | ⟨rfl, rfl⟩ | ⟨rfl, rfl⟩ <;> rfl

def flagPhrases : List (String × String × Modifier) :=
  [("NOT", "NULL", .notNull), ("PRIMARY", "KEY", .primaryKey)]

theorem reads_phrase {next : String} {modifier : Modifier}
    (h : (keyword, next, modifier) ∈ flagPhrases) :
    Reads [.keyword keyword, .keyword next] [modifier] := by
  refine reads_two fun one two hone htwo => ?_
  have hspells := spells_eq (spells_of_isReadAs hone)
  have hnext := spells_eq (spells_of_isReadAs htwo)
  simp only [flagPhrases, List.mem_cons, Prod.mk.injEq, List.not_mem_nil, or_false] at h
  refine ⟨?_, fun previous rest => ?_⟩
  · rcases h with ⟨-, rfl, -⟩ | ⟨-, rfl, -⟩ <;> exact hnext "SET"
  · rw [modifiersAfter]
    simp only [startsWith, List.head?_cons, Option.any_some, List.tail_cons, hspells, hnext]
    rcases h with ⟨rfl, rfl, rfl⟩ | ⟨rfl, rfl, rfl⟩ <;> rfl

theorem reads_expression (expression : BalancedText) :
    Reads [.keyword "AS", .group expression] [.generated] := by
  refine reads_two fun one two hone htwo => ?_
  have hspells := spells_eq (spells_of_isReadAs hone)
  have hpassed := isPassed_of_isGroup htwo
  have hgroup : two.isGroup = true := by simp [Token.isGroup, htwo.1, Part.kind]
  refine ⟨hpassed "SET" (by simp [tellingWords]), fun previous rest => ?_⟩
  rw [modifiersAfter]
  simp only [opensGenerated, startsWith, List.head?_cons, Option.any_some, hspells, hgroup,
    modifiersAfter_of_isPassed hpassed]
  rfl

theorem reads_constraintName (name : Quotation) :
    Reads [.keyword "CONSTRAINT", .quoted name] [] := by
  refine reads_two fun one two hone htwo => ?_
  refine ⟨isPassed_of_isQuoted htwo "SET" (by simp [tellingWords]), fun previous rest => ?_⟩
  exact modifiersAfter_cons_constraint (spells_of_isReadAs hone) previous two rest

/-- The action SET NULL or SET DEFAULT; neither word is read as a rule of its own. -/
theorem reads_set (h : keyword = "NULL" ∨ keyword = "DEFAULT") :
    Reads [.keyword "SET", .keyword keyword] [] := by
  refine reads_two fun one two hone htwo => ?_
  have hspells := spells_eq (spells_of_isReadAs hone)
  have hnext := spells_eq (spells_of_isReadAs htwo)
  have hset : two.spells "SET" = false := by rcases h with rfl | rfl <;> exact hnext "SET"
  refine ⟨hset, fun previous rest => ?_⟩
  rw [modifiersAfter]
  simp only [opensGenerated, hspells]
  change modifiersAfter (some one) (two :: rest) = _
  rw [modifiersAfter]
  simp only [opensGenerated, hnext, Option.any_some, hspells]
  rcases h with rfl | rfl <;> rfl

theorem reads_actions (actions : List (Event × Action)) :
    Reads (actions.flatMap actionParts) [] := by
  induction actions with
  | nil => exact reads_nil
  | cons action rest ih =>
    obtain ⟨event, action⟩ := action
    have hon : Reads [.keyword "ON"] [] := reads_keyword (by simp [passedWords])
    have hevent : Reads [.keyword event.keyword] [] := by
      cases event <;> exact reads_keyword (by simp [passedWords, Event.keyword])
    have haction : Reads (action.keywords.map Part.keyword) [] := by
      cases action with
      | cascade => exact reads_keyword (by simp [passedWords])
      | restrict => exact reads_keyword (by simp [passedWords])
      | noAction =>
        exact reads_cons (reads_keyword (by simp [passedWords]))
          (reads_keyword (by simp [passedWords]))
      | setNull => exact reads_set (.inl rfl)
      | setDefault => exact reads_set (.inr rfl)
    exact reads_append (reads_cons hon (reads_cons hevent haction)) ih

/-- A rule without a default value states its modifiers wherever it stands. -/
theorem reads_rule {rule : Rule} (h : rule.default? = none) : Reads rule.parts rule.stated := by
  cases rule with
  | notNull => exact reads_phrase (by simp [flagPhrases])
  | null => exact reads_keyword (by simp [passedWords])
  | primaryKey order =>
    have horder : Reads (order.toList.map fun order => .keyword order.keyword) [] := by
      cases order with
      | none => exact reads_nil
      | some order => cases order <;> exact reads_keyword (by simp [passedWords, Order.keyword])
    exact reads_append (reads_phrase (by simp [flagPhrases])) horder
  | unique => exact reads_flag (by simp [flagWords])
  | autoIncrement => exact reads_flag (by simp [flagWords])
  | check condition => exact reads_cons (reads_keyword (by simp [passedWords])) (reads_group _)
  | collate collation =>
    exact reads_cons (reads_keyword (by simp [passedWords])) (reads_quoted _)
  | references table columns actions =>
    exact reads_cons (reads_keyword (by simp [passedWords]))
      (reads_cons (reads_quoted _) (reads_cons (reads_group _) (reads_actions actions)))
  | generated always expression =>
    have halways : Reads (if always then [.keyword "GENERATED", .keyword "ALWAYS"] else [])
        (if always then [.generated] else []) := by
      cases always with
      | false => exact reads_nil
      | true =>
        exact reads_append (reads_flag (by simp [flagWords]))
          (reads_keyword (by simp [passedWords]))
    exact reads_append halways (reads_expression expression)
  | default value => simp [Rule.default?] at h

theorem reads_name (named : NamedRule) :
    Reads (named.name.toList.flatMap fun name => [.keyword "CONSTRAINT", .quoted name]) [] := by
  cases named.name with
  | none => exact reads_nil
  | some name => exact reads_constraintName name

theorem isReserved_of_isValue {value : Default} (h : (Part.value value).IsReadAs token) :
    isReserved token = false := by
  cases value with
  | literal mark isMark inside =>
    have hkind : token.kind = .quoted := h.1
    simp [isReserved, hkind]
  | bare word =>
    have hkind : token.kind = .word := h.1
    have htext : token.text = word.text := h.2
    have hword := word.isReserved_eq
    simpa [isReserved, hkind, htext] using hword

theorem bareValue_slice {value : Default} (h : (Part.value value).IsReadAs token) :
    bareValue (slice [token]) = value.value := by
  have htext : slice [token] = value.text := by
    rw [slice, List.flatMap_nil, List.append_nil]
    exact h.2
  rw [htext]
  cases value with
  | literal mark isMark inside => exact bareValue_quotedBy isMark inside
  | bare word =>
    have htokens : tokensOf ([] ++ (word.text ++ [])) = ⟨[], .word, word.text⟩ :: tokensOf [] :=
      tokensOf_word (by simp) word.ne_nil word.isWordChar_of_mem rfl
    rw [List.nil_append, List.append_nil, tokensOf_nil] at htokens
    rw [Default.text, bareValue, htokens]
    rfl

theorem defaultTokens_cons {value : Token} (hvalue : isReserved value = false)
    {rest : List Token} (hrest : ∀ next ∈ rest.head?, isReserved next = true) :
    defaultTokens (value :: rest) = [value] := by
  have hnone : rest.takeWhile (fun token => !isReserved token) = [] := by
    cases rest with
    | nil => rfl
    | cons next more => simp [hrest next rfl]
  simp [defaultTokens, hvalue, hnone]

/-- A default value counts unless it stands behind SET, and ends at the next rule. -/
theorem modifiersAfter_default {one two : Token} {value : Default}
    (hone : (Part.keyword "DEFAULT").IsReadAs one) (htwo : (Part.value value).IsReadAs two)
    {previous : Option Token} (hprevious : previous.any (Token.spells "SET") = false)
    {rest : List Token} (hrest : ∀ next ∈ rest.head?, isReserved next = true) :
    modifiersAfter previous (one :: two :: rest) =
      .defaultValue value.value :: modifiersAfter (some two) rest := by
  have hspells := spells_eq (spells_of_isReadAs hone)
  have hvalue := defaultTokens_cons (isReserved_of_isValue htwo) hrest
  rw [modifiersAfter]
  simp only [opensGenerated, hspells, hprevious, hvalue, bareValue_slice htwo]
  rfl

theorem isReserved_head {rules : List NamedRule} {tokens : List Token}
    (h : List.Forall₂ Part.IsReadAs (rules.flatMap NamedRule.parts) tokens) :
    ∀ next ∈ tokens.head?, isReserved next = true := by
  cases rules with
  | nil =>
    obtain rfl := List.forall₂_nil_left_iff.mp h
    simp
  | cons named rest =>
    obtain ⟨keyword, more, hparts, hkeyword⟩ := exists_parts_eq named
    rw [List.flatMap_cons, hparts, List.cons_append] at h
    obtain ⟨token, tokens, htoken, -, rfl⟩ := List.forall₂_cons_left_iff.mp h
    intro next hnext
    obtain rfl : token = next := by simpa using hnext
    exact isReserved_of_spells hkeyword (spells_of_isReadAs htoken)

/-- A named rule states its modifiers in front of other rules, unless it gives a default
value behind SET. -/
theorem modifiersAfter_named {named : NamedRule} {front back : List Token}
    (hfront : List.Forall₂ Part.IsReadAs named.parts front) {previous : Option Token}
    (hprevious : previous.any (Token.spells "SET") = true → named.rule.default? = none)
    (hback : ∀ next ∈ back.head?, isReserved next = true) :
    modifiersAfter previous (front ++ back) =
      named.rule.stated ++ modifiersAfter (front.getLast?.or previous) back := by
  cases hdefault : named.rule.default? with
  | none => exact (reads_append (reads_name named) (reads_rule hdefault) front hfront).2 _ _
  | some value =>
    have hrule : named.rule = .default value := by
      cases hrule : named.rule <;> simp_all [Rule.default?]
    obtain ⟨opening, body, rfl, hopening, hbody⟩ := exists_append_of_forall₂ hfront
    obtain ⟨hlast, hread⟩ := reads_name named opening hopening
    have hset : (opening.getLast?.or previous).any (Token.spells "SET") = false := by
      cases hend : opening.getLast? with
      | none =>
        rw [Option.none_or, Bool.eq_false_iff]
        intro hset
        rw [hprevious hset] at hdefault
        simp at hdefault
      | some last => rw [Option.some_or, Option.any_some, hlast last hend]
    rw [hrule] at hbody ⊢
    obtain ⟨one, more, hone, hmore, rfl⟩ := List.forall₂_cons_left_iff.mp hbody
    obtain ⟨two, nothing, htwo, hnothing, rfl⟩ := List.forall₂_cons_left_iff.mp hmore
    obtain rfl := List.forall₂_nil_left_iff.mp hnothing
    rw [List.append_assoc, hread, List.nil_append, List.cons_append, List.cons_append,
      List.nil_append, modifiersAfter_default hone htwo hset hback, List.getLast?_append]
    rfl

/-- What stands in front of a rule without a default value stands in front of the next one,
as far as SET goes. -/
theorem any_spells_of_named {named : NamedRule} {front : List Token}
    (hfront : List.Forall₂ Part.IsReadAs named.parts front)
    (hdefault : named.rule.default? = none) {previous : Option Token}
    (h : (front.getLast?.or previous).any (Token.spells "SET") = true) :
    previous.any (Token.spells "SET") = true := by
  have hlast := (reads_append (reads_name named) (reads_rule hdefault) front hfront).1
  cases hend : front.getLast? with
  | none => rwa [hend, Option.none_or] at h
  | some last =>
    rw [hend, Option.some_or, Option.any_some, hlast last hend] at h
    simp at h

/-- The rules state their modifiers one after another. A token SET may only stand in front
of them if they give no default value. -/
theorem modifiersAfter_rules {rules : List NamedRule} {tokens : List Token}
    (htokens : List.Forall₂ Part.IsReadAs (rules.flatMap NamedRule.parts) tokens)
    (hsole : (defaults rules).length ≤ 1) {previous : Option Token}
    (hprevious : previous.any (Token.spells "SET") = true → defaults rules = []) :
    modifiersAfter previous tokens = rules.flatMap fun named => named.rule.stated := by
  induction rules generalizing tokens previous with
  | nil =>
    obtain rfl := List.forall₂_nil_left_iff.mp htokens
    rw [modifiersAfter, List.flatMap_nil]
  | cons named rest ih =>
    obtain ⟨front, back, rfl, hfront, hback⟩ := exists_append_of_forall₂ htokens
    -- A bare default value may itself be SET, but then no rule behind it gives another.
    cases hdefault : named.rule.default? with
    | none =>
      have hrest : defaults (named :: rest) = defaults rest := List.filterMap_cons_none hdefault
      rw [hrest] at hsole hprevious
      rw [modifiersAfter_named hfront (fun _ => hdefault) (isReserved_head hback),
        ih hback hsole fun h => hprevious (any_spells_of_named hfront hdefault h),
        List.flatMap_cons]
    | some value =>
      have hrest : defaults (named :: rest) = value :: defaults rest :=
        List.filterMap_cons_some hdefault
      rw [hrest] at hsole hprevious
      have hnone : defaults rest = [] := by
        rw [List.length_cons] at hsole
        exact List.length_eq_zero_iff.mp (by omega)
      have hfree : previous.any (Token.spells "SET") = true → named.rule.default? = none :=
        fun h => absurd (hprevious h) (List.cons_ne_nil _ _)
      rw [modifiersAfter_named hfront hfree (isReserved_head hback),
        ih hback (by simp [hnone]) fun _ => hnone, List.flatMap_cons]

end SqliteSchema.Proofs.RuleReading
