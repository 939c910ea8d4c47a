import Mathlib.Data.List.Infix
import Mathlib.Data.List.TakeWhile
import SqliteSchema.ColumnDefinitions
import SqliteSchema.Proofs.KeywordTokens

/-!
Reading the modifiers of a column step by step. A step reads tokens from the front, states at
most one modifier, and asks of the token that it stands behind only whether that is SET. So a
default value is stepped over where it does not count, and so is the name of a constraint. No
step looks past a token CONSTRAINT: the steps in front of one are the same whatever follows it.
-/
namespace SqliteSchema.Proofs.ModifierSteps

open PlainText ClauseTokens ColumnModifiers ColumnDefinitions KeywordTokens

variable {previous other : Option Token} {token keyword : Token}
  {tokens rest front target tail : List Token} {found : List Modifier}

/-- The tokens of a default value are not reserved, unless NULL is the value. -/
theorem spells_null_or_of_mem_defaultTokens (h : token ∈ defaultTokens tokens) :
    token.spells "NULL" = true ∨ isReserved token = false := by
  simp only [defaultTokens] at h
  split at h
  · rename_i hnull
    cases tokens with
    | nil => simp at h
    | cons first rest =>
      obtain rfl : token = first := by simpa using h
      simp only [startsWith, List.head?_cons, Option.any_some, Bool.and_eq_true] at hnull
      exact .inl hnull.2
  · exact .inr (by simpa using List.mem_takeWhile_imp h)

theorem defaultTokens_append_drop (tokens : List Token) :
    defaultTokens tokens ++ tokens.drop (defaultTokens tokens).length = tokens := by
  have hprefix : defaultTokens tokens <+: tokens := by
    simp only [defaultTokens]
    split
    · exact List.take_prefix 1 tokens
    · exact List.takeWhile_prefix _
  exact List.prefix_iff_eq_append.mp hprefix

structure Step where
  stated : List Modifier
  passed : Option Token
  left : List Token
  deriving DecidableEq

def advance (previous : Option Token) (token : Token) (rest : List Token) : Step :=
  if token.spells "NOT" && startsWith "NULL" rest then ⟨[.notNull], rest.head?, rest.tail⟩
  else if token.spells "PRIMARY" && startsWith "KEY" rest then
    ⟨[.primaryKey], rest.head?, rest.tail⟩
  else if token.spells "UNIQUE" then ⟨[.unique], some token, rest⟩
  else if token.spells "AUTOINCREMENT" then ⟨[.autoIncrement], some token, rest⟩
  else if opensGenerated token rest then ⟨[.generated], some token, rest⟩
  else if token.spells "CONSTRAINT" then ⟨[], rest.head?, rest.tail⟩
  else if token.spells "DEFAULT" && !previous.any (Token.spells "SET") then
    let value := defaultTokens rest
    let passed := (token :: value).getLast?
    let left := rest.drop value.length
    if value.isEmpty then ⟨[], passed, left⟩
    else ⟨[.defaultValue (bareValue (slice value))], passed, left⟩
  else ⟨[], some token, rest⟩

def Step.modifiers (step : Step) : List Modifier :=
  step.stated ++ modifiersAfter step.passed step.left

def Step.before (tail : List Token) (step : Step) : Step :=
  { step with left := step.left ++ tail }

theorem modifiersAfter_cons (previous : Option Token) (token : Token) (rest : List Token) :
    modifiersAfter previous (token :: rest) = (advance previous token rest).modifiers := by
  rw [modifiersAfter]
  simp only [advance, apply_ite Step.modifiers]
  rfl

/-- Of the token passed last it matters only whether it is SET. -/
theorem modifiersAfter_of_any
    (h : previous.any (Token.spells "SET") = other.any (Token.spells "SET"))
    (tokens : List Token) : modifiersAfter previous tokens = modifiersAfter other tokens := by
  cases tokens with
  | nil => rw [modifiersAfter, modifiersAfter]
  | cons token rest => rw [modifiersAfter, modifiersAfter, h]

def steppingWords : List String :=
  ["NOT", "PRIMARY", "UNIQUE", "AUTOINCREMENT", "GENERATED", "AS", "CONSTRAINT", "DEFAULT"]

def IsSteppedOver (token : Token) : Prop := ∀ word ∈ steppingWords, token.spells word = false

theorem modifiersAfter_of_isSteppedOver (h : IsSteppedOver token) (previous : Option Token)
    (rest : List Token) :
    modifiersAfter previous (token :: rest) = modifiersAfter (some token) rest := by
  simp only [IsSteppedOver, steppingWords, List.forall_mem_cons] at h
  rw [modifiersAfter]
  simp [h, opensGenerated]

theorem modifiersAfter_append (h : ∀ token ∈ front, IsSteppedOver token) (previous : Option Token)
    (rest : List Token) :
    modifiersAfter previous (front ++ rest) =
      modifiersAfter (front.getLast?.or previous) rest := by
  induction front generalizing previous with
  | nil => rfl
  | cons token more ih =>
    obtain ⟨htoken, hmore⟩ := List.forall_mem_cons.mp h
    rw [List.cons_append, modifiersAfter_of_isSteppedOver htoken, ih hmore, List.getLast?_cons]
    cases more.getLast? <;> rfl

/-- The tokens of a default value are stepped over where they are not read as one. -/
theorem isSteppedOver_of_mem_defaultTokens (h : token ∈ defaultTokens tokens) :
    IsSteppedOver token := by
  have hreserved : ∀ word ∈ steppingWords, word ∈ reservedWords ∧
      sameLetters "NULL".toList word.toList = false := by decide +kernel
  intro word hword
  obtain ⟨hmem, hnull⟩ := hreserved word hword
  rcases spells_null_or_of_mem_defaultTokens h with hspells | hfree
  · exact spells_of_spells hspells hnull
  · exact spells_of_not_isReserved hfree hmem

def nextDefault? : List Token → Option Text
  | [] => none
  | token :: rest =>
      if token.spells "DEFAULT" && !(defaultTokens rest).isEmpty then
        some (bareValue (slice (defaultTokens rest)))
      else none

theorem modifiersAfter_value (token : Token) (rest : List Token) :
    modifiersAfter (some token) rest =
      modifiersAfter (token :: defaultTokens rest).getLast?
        (rest.drop (defaultTokens rest).length) := by
  conv_lhs => rw [← defaultTokens_append_drop rest]
  rw [modifiersAfter_append fun _ => isSteppedOver_of_mem_defaultTokens, List.getLast?_cons]
  cases (defaultTokens rest).getLast? <;> rfl

/-- A DEFAULT behind SET is stepped over, and so is its value. -/
theorem modifiersAfter_cons_default (h : token.spells "DEFAULT" = true) (previous : Option Token)
    (rest : List Token) :
    modifiersAfter previous (token :: rest) =
      (if previous.any (Token.spells "SET") then []
        else (nextDefault? (token :: rest)).toList.map .defaultValue) ++
        modifiersAfter (some token) rest := by
  have hspells := spells_eq h
  rw [modifiersAfter]
  simp only [opensGenerated, hspells, ← modifiersAfter_value, nextDefault?]
  cases previous.any (Token.spells "SET") <;> cases (defaultTokens rest).isEmpty <;> rfl

/-- The token behind CONSTRAINT is stepped over, whatever it is. -/
theorem modifiersAfter_cons_constraint (h : keyword.spells "CONSTRAINT" = true)
    (previous : Option Token) (name : Token) (after : List Token) :
    modifiersAfter previous (keyword :: name :: after) = modifiersAfter (some name) after := by
  have hspells := spells_eq h
  rw [modifiersAfter]
  simp only [opensGenerated, hspells]
  rfl

/-- Reading reaches some tokens behind others, and has found modifiers on the way. -/
inductive Reaches (target : List Token) : List Modifier → Option Token → List Token → Prop where
  | here (previous : Option Token) : Reaches target [] previous target
  | later {previous passed : Option Token} {token : Token} {rest left : List Token}
      {stated found : List Modifier} (hstep : advance previous token rest = ⟨stated, passed, left⟩)
      (hmore : Reaches target found passed left) :
      Reaches target (stated ++ found) previous (token :: rest)

theorem modifiersAfter_of_reaches (h : Reaches target found previous tokens) :
    ∃ before, modifiersAfter previous tokens = found ++ modifiersAfter before target := by
  induction h with
  | here previous => exact ⟨previous, rfl⟩
  | later hstep _ ih =>
    obtain ⟨before, hbefore⟩ := ih
    refine ⟨before, ?_⟩
    rw [modifiersAfter_cons, hstep, Step.modifiers, hbefore, List.append_assoc]

theorem left_suffix (previous : Option Token) (token : Token) (rest : List Token) :
    (advance previous token rest).left <:+ rest := by
  simp only [advance]
  split_ifs
  any_goals exact List.tail_suffix rest
  any_goals exact List.drop_suffix _ rest
  all_goals exact List.suffix_refl rest

theorem length_le_of_reaches (h : Reaches target found previous tokens) :
    target.length ≤ tokens.length := by
  induction h with
  | here => exact Nat.le_refl _
  | @later previous passed token rest left stated found hstep _ ih =>
    have hleft := (left_suffix previous token rest).length_le
    rw [hstep] at hleft
    rw [List.length_cons]
    exact Nat.le_succ_of_le (Nat.le_trans ih hleft)

theorem startsWith_append (word : String) (hfront : front ≠ []) (tail : List Token) :
    startsWith word (front ++ tail) = startsWith word front := by
  obtain ⟨first, rest, rfl⟩ := List.exists_cons_of_ne_nil hfront
  rfl

theorem opensGenerated_append (token : Token) (hfront : front ≠ []) (tail : List Token) :
    opensGenerated token (front ++ tail) = opensGenerated token front := by
  obtain ⟨first, rest, rfl⟩ := List.exists_cons_of_ne_nil hfront
  rfl

theorem takeWhile_append_cons (p : Token → Bool) (keyword : Token) (hkeyword : p keyword = false)
    (front tail : List Token) :
    (front ++ keyword :: tail).takeWhile p = front.takeWhile p ∧
      (front ++ keyword :: tail).dropWhile p = front.dropWhile p ++ keyword :: tail := by
  induction front with
  | nil => simp [hkeyword]
  | cons first rest ih => cases hfirst : p first <;> simp [hfirst, ih]

theorem isReserved_constraint (hkeyword : keyword.spells "CONSTRAINT" = true) :
    isReserved keyword = true := isReserved_of_spells (by decide) hkeyword

theorem defaultTokens_append_keyword (hkeyword : keyword.spells "CONSTRAINT" = true)
    (front tail : List Token) : defaultTokens (front ++ keyword :: tail) = defaultTokens front := by
  have htake := (takeWhile_append_cons (fun token => !isReserved token) keyword
    (by simp [isReserved_constraint hkeyword]) front tail).1
  have hnull : keyword.spells "NULL" = false := spells_of_spells hkeyword (by decide)
  simp only [defaultTokens, htake]
  cases front with
  | nil => simp [startsWith, hnull]
  | cons first rest => rfl

/-- A step does not look past CONSTRAINT. -/
theorem advance_append_keyword (hkeyword : keyword.spells "CONSTRAINT" = true)
    (previous : Option Token) (token : Token) (front tail : List Token) :
    advance previous token (front ++ keyword :: tail) =
      (advance previous token (front ++ [keyword])).before tail := by
  have hne : front ++ [keyword] ≠ [] := by simp
  have hsplit : front ++ keyword :: tail = front ++ [keyword] ++ tail := by simp
  have hvalue : defaultTokens (front ++ keyword :: tail) = defaultTokens (front ++ [keyword]) := by
    rw [defaultTokens_append_keyword hkeyword, defaultTokens_append_keyword hkeyword]
  have hlength : (defaultTokens (front ++ [keyword])).length ≤ (front ++ [keyword]).length := by
    have happend := congrArg List.length (defaultTokens_append_drop (front ++ [keyword]))
    rw [List.length_append] at happend
    omega
  have hdrop : (front ++ [keyword] ++ tail).drop (defaultTokens (front ++ [keyword])).length =
      (front ++ [keyword]).drop (defaultTokens (front ++ [keyword])).length ++ tail :=
    List.drop_append_of_le_length hlength
  rw [hsplit] at hvalue ⊢
  simp only [advance, startsWith_append _ hne, opensGenerated_append _ hne, hvalue, hdrop,
    List.head?_append_of_ne_nil _ hne, List.tail_append_of_ne_nil hne,
    apply_ite (Step.before tail)]
  rfl

/-- Whether CONSTRAINT is reached, and what is found on the way, does not depend on the tokens
behind it. -/
theorem reaches_append_keyword (hkeyword : keyword.spells "CONSTRAINT" = true)
    (h : Reaches (keyword :: tail) found previous (front ++ keyword :: tail))
    (other : List Token) :
    Reaches (keyword :: other) found previous (front ++ keyword :: other) := by
  generalize htokens : front ++ keyword :: tail = tokens at h
  induction h generalizing front with
  | here =>
    obtain rfl : front = [] := by simpa using htokens
    exact .here _
  | @later previous passed token rest left stated found hstep hmore ih =>
    cases front with
    | nil =>
      obtain ⟨rfl, rfl⟩ := List.cons.inj htokens
      have hleft := (left_suffix previous keyword tail).length_le
      have hlong := length_le_of_reaches hmore
      rw [hstep] at hleft
      simp only [List.length_cons] at hleft hlong
      omega
    | cons first more =>
      rw [List.cons_append] at htokens
      obtain ⟨rfl, rfl⟩ := List.cons.inj htokens
      rw [advance_append_keyword hkeyword] at hstep
      obtain ⟨hstated, hpassed, hleft⟩ := Step.mk.inj hstep
      rcases List.suffix_concat_iff.mp (left_suffix previous first (more ++ [keyword])) with
        hnil | ⟨back, hback, -⟩
      · -- The name of another constraint is spelled CONSTRAINT, and reading steps over it.
        have hlong := length_le_of_reaches hmore
        rw [← hleft, hnil, List.nil_append, List.length_cons] at hlong
        omega
      · have hagain : back ++ keyword :: tail = left := by
          rw [← hleft, hback, List.append_assoc]
          rfl
        rw [List.cons_append]
        refine .later ?_ (ih hagain)
        rw [advance_append_keyword hkeyword, Step.before, hback, hstated, hpassed,
          List.append_assoc]
        rfl

theorem typePart_append (tokens : List Token) :
    (typePart tokens).words ++ (typePart tokens).arguments.toList ++ (typePart tokens).rest =
      tokens := by
  have hsplit := List.takeWhile_append_dropWhile (l := tokens)
    (p := fun token : Token => token.kind == .word && !isReserved token)
  simp only [typePart]
  split
  · rename_i hempty
    simpa [List.isEmpty_iff.mp hempty] using hsplit
  · split
    · rename_i hrest
      simpa [hrest] using hsplit
    · rename_i next after hrest
      rw [hrest] at hsplit
      split <;> simp [hsplit]

theorem words_typePart (tokens : List Token) :
    (typePart tokens).words =
      tokens.takeWhile fun token => token.kind == .word && !isReserved token := by
  simp only [typePart]
  split
  · rename_i hempty
    exact (List.isEmpty_iff.mp hempty).symm
  · split
    · rfl
    · split <;> rfl

theorem isGroup_of_arguments {tokens : List Token} {group : Token}
    (h : (typePart tokens).arguments = some group) : group.isGroup = true := by
  simp only [typePart] at h
  split at h
  · simp at h
  · split at h
    · simp at h
    · split at h
      · rename_i hgroup
        rwa [← Option.some.inj h]
      · simp at h

def isTypeWord (token : Token) : Bool := token.kind == .word && !isReserved token

theorem span_typeWords {words : List Token} (hwords : ∀ word ∈ words, isTypeWord word = true)
    (hrest : rest.head?.any isTypeWord = false) :
    (words ++ rest).takeWhile isTypeWord = words ∧ (words ++ rest).dropWhile isTypeWord = rest := by
  rw [List.takeWhile_append_of_pos hwords, List.dropWhile_append_of_pos hwords]
  cases rest with
  | nil => simp
  | cons next more =>
    have hnext : isTypeWord next = false := hrest
    simp [hnext]

/-- The words in front of anything but a group are a type without arguments. -/
theorem typePart_bare {words : List Token} (hwords : ∀ word ∈ words, isTypeWord word = true)
    (hrest : rest.head?.any isTypeWord = false)
    (hgroup : words = [] ∨ rest.head?.any Token.isGroup = false) :
    typePart (words ++ rest) = ⟨words, none, rest⟩ := by
  obtain ⟨htake, hdrop⟩ := span_typeWords hwords hrest
  unfold isTypeWord at htake hdrop
  simp only [typePart, htake, hdrop]
  cases words with
  | nil => rfl
  | cons word more =>
    cases rest with
    | nil => rfl
    | cons next after =>
      have hnext : next.isGroup = false := by simpa using hgroup
      simp [hnext]

/-- The words in front of a group are a type with arguments. -/
theorem typePart_sized {words after : List Token} {group : Token}
    (hwords : ∀ word ∈ words, isTypeWord word = true) (hfilled : words ≠ [])
    (hgroup : group.isGroup = true) :
    typePart (words ++ group :: after) = ⟨words, some group, after⟩ := by
  have hrest : (group :: after).head?.any isTypeWord = false := by
    simp [isTypeWord, eq_of_beq hgroup]
  obtain ⟨htake, hdrop⟩ := span_typeWords hwords hrest
  unfold isTypeWord at htake hdrop
  simp only [typePart, htake, hdrop]
  cases words with
  | nil => exact absurd rfl hfilled
  | cons word more => simp [hgroup]

/-- No type goes past CONSTRAINT. -/
theorem typePart_append_keyword (hkeyword : keyword.spells "CONSTRAINT" = true)
    (front tail : List Token) :
    typePart (front ++ keyword :: tail) =
      { typePart front with rest := (typePart front).rest ++ keyword :: tail } := by
  have hkind : keyword.isGroup = false := by
    simp only [Token.spells, Bool.and_eq_true, beq_iff_eq] at hkeyword
    simp [Token.isGroup, hkeyword.1]
  obtain ⟨htake, hdrop⟩ := takeWhile_append_cons
    (fun token => token.kind == .word && !isReserved token) keyword
    (by simp [isReserved_constraint hkeyword]) front tail
  simp only [typePart, htake, hdrop]
  cases (front.takeWhile fun token => token.kind == .word && !isReserved token).isEmpty with
  | true => rfl
  | false =>
    cases front.dropWhile fun token => token.kind == .word && !isReserved token with
    | nil => simp [hkind]
    | cons next after => cases hnext : next.isGroup <;> simp [hnext]

end SqliteSchema.Proofs.ModifierSteps
