import Mathlib.Data.List.Forall2
import SqliteSchema.TableConstraints
import SqliteSchema.Proofs.TableReading
import SqliteSchema.Proofs.KeywordTokens

/-!
What a clause says through its keywords. A token is outlined by its kind and, where it is a
word, by the letters of the word in lower case; names, literals and groups leave no trace.
The readers of columns and constraints look at the outline only, except where they take a
text over into their result, so clauses of the same outline have the same flags and are
constraints of the same kind. A clause that breaks off within a group behind DEFAULT is no
clause of a table body: unwrapping such a value has no end, and what is said here of its clause
means nothing. No proof here looks into how a value is unwrapped.
-/
namespace SqliteSchema.Proofs.TokenOutlines

open PlainText Quoting LetterCase ClauseTokens ColumnModifiers ColumnDefinitions TableConstraints
  KeywordTokens TableReading

def AreAlike (left right : Token) : Prop :=
  left.kind = right.kind ∧ (left.kind = .word → sameLetters left.text right.text = true)

/-- What keywords can be told from. -/
def outline (token : Token) : Token :=
  ⟨[], token.kind, if token.kind = .word then token.text.map Char.toLower else []⟩

/-- Two tokens have one outline just where no keyword tells them apart. -/
theorem outline_eq_iff {left right : Token} :
    outline left = outline right ↔ AreAlike left right := by
  unfold outline AreAlike sameLetters
  rw [Token.mk.injEq, beq_iff_eq]
  constructor
  · rintro ⟨-, hkind, htext⟩
    refine ⟨hkind, ?_⟩
    intro hword
    rwa [if_pos hword, if_pos (hkind ▸ hword)] at htext
  · rintro ⟨hkind, htext⟩
    refine ⟨rfl, hkind, ?_⟩
    rw [← hkind]
    split_ifs with hword
    · exact htext hword
    · rfl

theorem map_outline_of_forall₂ {left right : List Token} (h : List.Forall₂ AreAlike left right) :
    left.map outline = right.map outline := by
  induction h with
  | nil => rfl
  | cons hfirst _ ih => rw [List.map_cons, List.map_cons, outline_eq_iff.mpr hfirst, ih]

theorem toLower_toLower (c : Char) : c.toLower.toLower = c.toLower := by
  cases hc : c.isUpper with
  | true =>
    exact forall_of_isAlpha (fun c => c.toLower.toLower = c.toLower) (by decide +kernel)
      (Bool.or_eq_true_iff.mpr (.inl hc))
  | false => rw [toLower_of_isUpper_eq_false hc, toLower_of_isUpper_eq_false hc]

theorem sameLetters_map_toLower (text word : Text) :
    sameLetters (text.map Char.toLower) word = sameLetters text word := by
  have hlower : (text.map Char.toLower).map Char.toLower = text.map Char.toLower := by
    rw [List.map_map]
    exact List.map_congr_left fun c _ => toLower_toLower c
  rw [sameLetters, hlower, sameLetters]

theorem capitalsOf_toLower (c : Char) : capitalsOf c.toLower = capitalsOf c := by
  cases hc : c.isUpper with
  | true => rw [(capitalsOf_of_isUpper hc).1, (capitalsOf_of_isUpper hc).2]
  | false => rw [toLower_of_isUpper_eq_false hc]

/-- A letter and its lower case have the same capital. -/
theorem capitals_map_toLower (text : Text) : capitals (text.map Char.toLower) = capitals text := by
  rw [capitals, List.flatMap_map, capitals]
  exact congrArg (text.flatMap ·) (funext capitalsOf_toLower)

variable (token : Token) (tokens : List Token)

theorem spells_outline (keyword : String) :
    (outline token).spells keyword = token.spells keyword := by
  by_cases hword : token.kind = .word
  · simp [outline, Token.spells, hword, sameLetters_map_toLower]
  · have hkind : (outline token).kind ≠ .word := hword
    rw [spells_of_kind_ne hword, spells_of_kind_ne hkind]

theorem isReserved_outline : isReserved (outline token) = isReserved token := by
  by_cases hword : token.kind = .word
  · simp [outline, isReserved, hword, capitals_map_toLower]
  · simp [outline, isReserved, beq_eq_false_iff_ne.mpr hword]

theorem isGroup_outline : (outline token).isGroup = token.isGroup := rfl

theorem isName_outline : (outline token).isName = token.isName := rfl

theorem startsWith_outline (keyword : String) :
    startsWith keyword (tokens.map outline) = startsWith keyword tokens := by
  cases tokens with
  | nil => rfl
  | cons token rest => exact spells_outline token keyword

theorem headIsGroup_outline :
    (tokens.map outline).head?.any Token.isGroup = tokens.head?.any Token.isGroup := by
  cases tokens <;> rfl

theorem opensGenerated_outline :
    opensGenerated (outline token) (tokens.map outline) = opensGenerated token tokens := by
  rw [opensGenerated, opensGenerated, spells_outline, spells_outline, headIsGroup_outline]

theorem defaultTokens_outline :
    defaultTokens (tokens.map outline) = (defaultTokens tokens).map outline := by
  have htake : (tokens.map outline).takeWhile (fun token => !isReserved token) =
      (tokens.takeWhile fun token => !isReserved token).map outline := by
    rw [List.takeWhile_map]
    congr 2
    funext token
    exact congrArg not (isReserved_outline token)
  simp only [defaultTokens, htake, startsWith_outline, List.isEmpty_map, ← List.map_take]
  split <;> rfl

theorem any_spells_outline (previous : Option Token) (keyword : String) :
    (previous.map outline).any (Token.spells keyword) = previous.any (Token.spells keyword) := by
  cases previous with
  | none => rfl
  | some token => exact spells_outline token keyword

def withoutValue : Modifier → Modifier
  | .defaultValue _ => .defaultValue []
  | found => found

theorem map_withoutValue_ite {condition : Prop} [Decidable condition]
    {left right left' right' : List Modifier}
    (h : left.map withoutValue = right.map withoutValue)
    (h' : left'.map withoutValue = right'.map withoutValue) :
    (if condition then left else left').map withoutValue =
      (if condition then right else right').map withoutValue := by
  split
  · exact h
  · exact h'

/-- The modifiers of a clause can be told from the outlines of its tokens, but for the values
of its defaults. -/
theorem modifiersAfter_outline (previous : Option Token) (tokens : List Token) :
    (modifiersAfter (previous.map outline) (tokens.map outline)).map withoutValue =
      (modifiersAfter previous tokens).map withoutValue := by
  -- A step passes over more than one token in places, so the induction is on the length.
  induction hlen : tokens.length using Nat.strongRecOn generalizing previous tokens with
  | ind len ih =>
    cases tokens with
    | nil => simp [modifiersAfter]
    | cons token rest =>
      have hrest : ∀ previous left, left.length ≤ rest.length →
          (modifiersAfter (previous.map outline) (left.map outline)).map withoutValue =
            (modifiersAfter previous left).map withoutValue := by
        intro previous left hleft
        exact ih left.length (by simp only [← hlen, List.length_cons]; omega) previous left rfl
      have hnext := hrest (some token) rest (Nat.le_refl _)
      have hskip := hrest rest.head? rest.tail (by simp)
      have hdefault := hrest (token :: defaultTokens rest).getLast?
        (rest.drop (defaultTokens rest).length) (by simp)
      rw [List.map_cons, modifiersAfter, modifiersAfter]
      simp only [spells_outline, startsWith_outline, opensGenerated_outline, defaultTokens_outline,
        any_spells_outline, List.isEmpty_map, List.length_map, List.head?_map, ← List.map_tail,
        ← List.map_drop, ← List.map_cons, List.getLast?_map, ← Option.map_some]
      refine map_withoutValue_ite (congrArg (Modifier.notNull :: ·) hskip) ?_
      refine map_withoutValue_ite (congrArg (Modifier.primaryKey :: ·) hskip) ?_
      refine map_withoutValue_ite (congrArg (Modifier.unique :: ·) hnext) ?_
      refine map_withoutValue_ite (congrArg (Modifier.autoIncrement :: ·) hnext) ?_
      refine map_withoutValue_ite (congrArg (Modifier.generated :: ·) hnext) ?_
      refine map_withoutValue_ite hskip ?_
      refine map_withoutValue_ite ?_ hnext
      exact map_withoutValue_ite hdefault (congrArg (Modifier.defaultValue [] :: ·) hdefault)

theorem contains_map_withoutValue {flag : Modifier} (hflag : flag.default? = none)
    (found : List Modifier) : (found.map withoutValue).contains flag = found.contains flag := by
  induction found with
  | nil => rfl
  | cons first rest ih =>
    have hfirst : (flag == withoutValue first) = (flag == first) := by
      cases first <;> cases flag <;> simp_all [withoutValue, Modifier.default?]
    rw [List.map_cons, List.contains_cons, List.contains_cons, hfirst, ih]

theorem isSome_defaultValue? (found : List Modifier) :
    (defaultValue? found).isSome = (found.map withoutValue).contains (.defaultValue []) := by
  have hlast : ∀ values : List Text, values.getLast?.isSome = !values.isEmpty := by
    intro values
    cases values <;> simp
  rw [defaultValue?, hlast]
  induction found with
  | nil => rfl
  | cons first rest ih =>
    rw [List.map_cons, List.contains_cons]
    cases first with
    | defaultValue value => rfl
    | notNull | primaryKey | unique | autoIncrement | generated =>
      rw [List.filterMap_cons_none rfl, ih]
      rfl

theorem typePart_outline (tokens : List Token) :
    (typePart (tokens.map outline)).rest = (typePart tokens).rest.map outline := by
  have hword : ∀ token, ((outline token).kind == .word && !isReserved (outline token)) =
      (token.kind == .word && !isReserved token) := by
    intro token
    rw [isReserved_outline]
    rfl
  have hsplit : (fun token : Token => token.kind == .word && !isReserved token) ∘ outline =
      fun token => token.kind == .word && !isReserved token := funext hword
  simp only [typePart, List.takeWhile_map, List.dropWhile_map, hsplit, List.isEmpty_map]
  split
  · rfl
  · cases tokens.dropWhile fun token => token.kind == .word && !isReserved token with
    | nil => rfl
    | cons next after =>
      simp only [List.map_cons, isGroup_outline]
      split <;> rfl

structure SameFlags (left right : Column) : Prop where
  isNullable : left.isNullable = right.isNullable
  isPrimaryKey : left.isPrimaryKey = right.isPrimaryKey
  isUnique : left.isUnique = right.isUnique
  isAutoIncrement : left.isAutoIncrement = right.isAutoIncrement
  isGenerated : left.isGenerated = right.isGenerated
  hasDefault : left.defaultValue.isSome = right.defaultValue.isSome

/-- Flags are told by the modifiers found, whatever values their defaults have. -/
theorem sameFlags_describe {found other : List Modifier}
    (h : found.map withoutValue = other.map withoutValue) (name name' : Text)
    (part part' : TypePart) (size size' : TypeArguments.TypeSize) :
    SameFlags (describe name part size found) (describe name' part' size' other) := by
  have hflag : ∀ flag : Modifier, flag.default? = none →
      found.contains flag = other.contains flag := by
    intro flag hflag
    rw [← contains_map_withoutValue hflag, h, contains_map_withoutValue hflag]
  refine ⟨?_, hflag .primaryKey rfl, hflag .unique rfl, hflag .autoIncrement rfl,
    hflag .generated rfl, ?_⟩
  · exact congrArg not (hflag .notNull rfl)
  · change (defaultValue? found).isSome = (defaultValue? other).isSome
    rw [isSome_defaultValue?, h, isSome_defaultValue?]

def withoutColumns : ConstraintKind → ConstraintKind
  | .primaryKey _ => .primaryKey []
  | .unique _ => .unique []
  | kind => kind

/-- A clause with every name in it left blank: a column, or a constraint of some kind that has
a name or has none. -/
def withoutNames : Clause → Clause
  | .column => .column
  | .constraint found => .constraint ⟨found.name.map fun _ => [], withoutColumns found.kind⟩

theorem constraintKind?_outline (first : Token) (rest : List Token) :
    (constraintKind? (outline first) (rest.map outline)).map withoutColumns =
      (constraintKind? first rest).map withoutColumns := by
  unfold constraintKind?
  simp only [spells_outline, startsWith_outline, headIsGroup_outline]
  split_ifs <;> rfl

theorem map_kind_withoutNames (clause : Clause) :
    (withoutNames clause).constraint?.map (·.kind) =
      (clause.constraint?.map (·.kind)).map withoutColumns := by
  cases clause <;> rfl

/-- Whether a clause is a column or a constraint, and which, can be told from the outlines of
its tokens. -/
theorem clauseOfTokens_outline (tokens : List Token) :
    withoutNames (clauseOfTokens (tokens.map outline)) = withoutNames (clauseOfTokens tokens) := by
  fun_induction clauseOfTokens tokens with
  | case1 => rfl
  | case2 first h =>
    unfold clauseOfTokens
    simp only [List.map_cons, List.map_nil, spells_outline, h, if_true]
  | case3 first h name tail hname kind ih =>
    have hkind : ((clauseOfTokens (tail.map outline)).constraint?.map (·.kind)).map
        withoutColumns = kind.map withoutColumns := by
      rw [← map_kind_withoutNames, ih, map_kind_withoutNames]
    have hgetD : ∀ found : Option ConstraintKind,
        withoutColumns (found.getD .other) = (found.map withoutColumns).getD .other := by
      intro found
      cases found <;> rfl
    rw [List.map_cons, List.map_cons, clauseOfTokens, if_pos (by rwa [spells_outline])]
    simp only [isName_outline, hname, if_true, withoutNames, Option.map_some]
    rw [hgetD, hkind, ← hgetD]
  | case4 first h name tail hname =>
    rw [List.map_cons, List.map_cons, clauseOfTokens, if_pos (by rwa [spells_outline])]
    simp only [isName_outline, hname]
    rfl
  | case5 first rest h kind hkind =>
    have hmap := constraintKind?_outline first rest
    rw [hkind, Option.map_some, Option.map_eq_some_iff] at hmap
    obtain ⟨outlined, houtlined, hsame⟩ := hmap
    unfold clauseOfTokens
    simp only [List.map_cons, spells_outline, h, houtlined]
    exact congrArg (Clause.constraint ⟨none, ·⟩) hsame
  | case6 first rest h hkind =>
    have hmap := constraintKind?_outline first rest
    rw [hkind, Option.map_none, Option.map_eq_none_iff] at hmap
    unfold clauseOfTokens
    simp only [List.map_cons, spells_outline, h, hmap]
    rfl

/-- What is quoted or in parentheses sets no flag and makes no constraint. -/
theorem flags_of_areAlike {left right : Text}
    (h : List.Forall₂ AreAlike (tokensOf left) (tokensOf right)) :
    withoutNames (readClause left) = withoutNames (readClause right) ∧
      ∀ column other, readColumn left = .ok column → readColumn right = .ok other →
        SameFlags column other := by
  have houtlines := map_outline_of_forall₂ h
  constructor
  · rw [readClause, readClause, ← clauseOfTokens_outline, houtlines, clauseOfTokens_outline]
  · intro column other hleft hright
    obtain ⟨first, rest, size, htokens, -, rfl⟩ := exists_of_readColumn hleft
    obtain ⟨first', rest', size', htokens', -, rfl⟩ := exists_of_readColumn hright
    refine sameFlags_describe ?_ _ _ _ _ _ _
    rw [htokens, htokens', List.map_cons, List.map_cons, List.cons.injEq] at houtlines
    have hrest : (typePart rest).rest.map outline = (typePart rest').rest.map outline := by
      rw [← typePart_outline, houtlines.2, typePart_outline]
    rw [modifiers, modifiers, ← modifiersAfter_outline none, Option.map_none, hrest]
    exact modifiersAfter_outline none _

def keywordClause : Text :=
  "'not null' Char(2) Default 'unique' primary Key CHECK (x = 'null')".toList

def blandClause : Text := "[] char(20) DEFAULT `` PRIMARY KEY Check ((y))".toList

theorem flags_keywordClause : ∃ column other,
    List.Forall₂ AreAlike (tokensOf keywordClause) (tokensOf blandClause) ∧
      readColumn keywordClause = .ok column ∧ readColumn blandClause = .ok other ∧
      withoutNames (readClause keywordClause) = withoutNames (readClause blandClause) ∧
      SameFlags column other := by
  have halike : List.Forall₂ AreAlike (tokensOf keywordClause) (tokensOf blandClause) := by
    unfold AreAlike
    decide +kernel
  have hleft : readColumn keywordClause = .ok ⟨"not null".toList, "Char".toList,
      "Char(2)".toList, .length 2, some "unique".toList, true, true, false, false, false⟩ :=
    eq_ok_of_toOption (by decide +kernel)
  have hright : readColumn blandClause = .ok ⟨[], "char".toList, "char(20)".toList, .length 20,
      some [], true, true, false, false, false⟩ := eq_ok_of_toOption (by decide +kernel)
  obtain ⟨hclauses, hflags⟩ := flags_of_areAlike halike
  exact ⟨_, _, halike, hleft, hright, hclauses, hflags _ _ hleft hright⟩

end SqliteSchema.Proofs.TokenOutlines
