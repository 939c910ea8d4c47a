import SqliteSchema.Proofs.ModifierSteps

/-!
The name of a constraint inside a column definition. Reading steps over the token behind
CONSTRAINT, and the only step that looks back is the one from DEFAULT. So any name can stand in
the place of any other, except that a name SET in front of a default value hides the value.
The clauses of a table body are balanced. A clause read by itself may break off within a group
behind DEFAULT; such a value has no end of unwrapping, and what is said here of its clause means
nothing. No proof here looks into how a value is unwrapped.
-/
namespace SqliteSchema.Proofs.ConstraintNames

open PlainText Quoting Faults TypeArguments ClauseTokens ColumnModifiers ColumnDefinitions
  KeywordTokens ModifierSteps

variable {keyword name : Token} {front after : List Token} {found : List Modifier}

def readBehindSet (tokens : List Token) : List Modifier :=
  modifiersAfter (some ⟨[], .word, "SET".toList⟩) tokens

/-- Behind a name the modifiers are those read behind SET, and in front of them a default value
that stands right behind the name, unless the name is SET itself. -/
theorem modifiersAfter_name (name : Token) (after : List Token) :
    modifiersAfter (some name) after =
      (if name.spells "SET" then [] else (nextDefault? after).toList.map .defaultValue) ++
        readBehindSet after := by
  have hset : Option.any (Token.spells "SET") (some ⟨[], .word, "SET".toList⟩) = true := by
    decide +kernel
  cases after with
  | nil => simp [readBehindSet, nextDefault?, modifiersAfter]
  | cons token rest =>
    cases hdefault : token.spells "DEFAULT" with
    | false => simp [readBehindSet, nextDefault?, modifiersAfter, hdefault]
    | true =>
      rw [readBehindSet, modifiersAfter_cons_default hdefault, modifiersAfter_cons_default hdefault,
        hset]
      simp

def withoutGap : List Token → List Token
  | [] => []
  | token :: rest => { token with gap := [] } :: rest

theorem modifiersAfter_withoutGap (previous : Option Token) (tokens : List Token) :
    modifiersAfter previous (withoutGap tokens) = modifiersAfter previous tokens := by
  cases tokens with
  | nil => rfl
  | cons token rest =>
    have hspells : ∀ keyword, Token.spells keyword { token with gap := [] } =
        token.spells keyword := fun _ => rfl
    have hnext : modifiersAfter (some { token with gap := [] }) rest =
        modifiersAfter (some token) rest := by
      apply modifiersAfter_of_any
      rfl
    rw [withoutGap, modifiersAfter, modifiersAfter]
    simp only [hspells, opensGenerated, ← modifiersAfter_value, hnext]

theorem defaultValue?_append (left right : List Modifier) :
    defaultValue? (left ++ right) = (defaultValue? right).or (defaultValue? left) := by
  rw [defaultValue?, List.filterMap_append, List.getLast?_append]
  rfl

theorem defaultValue?_toList (value : Option Text) :
    defaultValue? (value.toList.map .defaultValue) = value := by
  cases value <;> rfl

def foundAround (found : List Modifier) (hidden : Bool) (after : List Token) : List Modifier :=
  found ++ ((if hidden then [] else (nextDefault? after).toList.map .defaultValue) ++
    readBehindSet after)

theorem foundAround_withoutGap (found : List Modifier) (hidden : Bool) (after : List Token) :
    foundAround found hidden (withoutGap after) = foundAround found hidden after := by
  have hnext : nextDefault? (withoutGap after) = nextDefault? after := by cases after <;> rfl
  rw [foundAround, foundAround, readBehindSet, readBehindSet, modifiersAfter_withoutGap, hnext]

/-- The tokens behind a name begin with a default value that counts: no other is given behind
it, and it is not the one that was given before. -/
def HidesDefault (found : List Modifier) (after : List Token) : Prop :=
  ∃ value, nextDefault? after = some value ∧ defaultValue? (readBehindSet after) = none ∧
    defaultValue? found ≠ some value

theorem defaultValue?_foundAround_iff (found : List Modifier) (after : List Token) :
    defaultValue? (foundAround found true after) = defaultValue? (foundAround found false after) ↔
      ¬HidesDefault found after := by
  simp only [foundAround, defaultValue?_append, HidesDefault, if_true, Bool.false_eq_true, if_false,
    List.nil_append, defaultValue?_toList]
  cases nextDefault? after <;> cases defaultValue? (readBehindSet after) <;> simp

theorem contains_foundAround {flag : Modifier} (hflag : flag.default? = none)
    (found : List Modifier) (hidden : Bool) (after : List Token) :
    (foundAround found hidden after).contains flag =
      (found ++ readBehindSet after).contains flag := by
  have hne : ∀ value, Modifier.defaultValue value ≠ flag := by
    rintro value rfl
    simp [Modifier.default?] at hflag
  cases hidden <;> simp [foundAround, hne]

variable {clause left right : Text} {column : Token}

def withoutDefault (column : Column) : Column := { column with defaultValue := none }

/-- What is read from a definition in which the scan reaches a named constraint. -/
theorem readColumn_of_reaches
    (hclause : tokensOf clause = column :: (front ++ keyword :: name :: after))
    (hkeyword : keyword.spells "CONSTRAINT" = true)
    (hreaches : Reaches (keyword :: name :: after) found none
      (typePart (front ++ keyword :: name :: after)).rest) :
    readColumn clause =
      match (typePart front).size? with
      | some size => .ok (describe (bareText column.text) (typePart front) size
          (foundAround found (name.spells "SET") after))
      | none => .error (.badTypeSize (bareText column.text)
          (((typePart front).arguments.map Token.inside).getD [])) := by
  obtain ⟨before, hread⟩ := modifiersAfter_of_reaches hreaches
  rw [modifiersAfter_cons_constraint hkeyword, modifiersAfter_name] at hread
  simp only [readColumn, hclause, modifiers, hread]
  rw [typePart_append_keyword hkeyword]
  rfl

/-- Flags do not depend on whether a default value is hidden. -/
theorem withoutDefault_describe (name : Text) (part : TypePart) (size : TypeSize)
    (found : List Modifier) (hidden shown : Bool) (after : List Token) :
    withoutDefault (describe name part size (foundAround found hidden after)) =
      withoutDefault (describe name part size (foundAround found shown after)) := by
  have hflag : ∀ flag : Modifier, flag.default? = none →
      (foundAround found hidden after).contains flag =
        (foundAround found shown after).contains flag := fun flag hflag =>
    (contains_foundAround hflag found hidden after).trans
      (contains_foundAround hflag found shown after).symm
  simp only [withoutDefault, describe, hflag .notNull rfl, hflag .primaryKey rfl,
    hflag .unique rfl, hflag .autoIncrement rfl, hflag .generated rfl]

theorem describe_foundAround_iff (name : Text) (part : TypePart) (size : TypeSize)
    (found : List Modifier) (hidden shown : Bool) (after : List Token) :
    describe name part size (foundAround found hidden after) =
        describe name part size (foundAround found shown after) ↔
      hidden = shown ∨ ¬HidesDefault found after := by
  have hparts : describe name part size (foundAround found hidden after) =
      describe name part size (foundAround found shown after) ↔
      defaultValue? (foundAround found hidden after) =
        defaultValue? (foundAround found shown after) := by
    have hflags := withoutDefault_describe name part size found hidden shown after
    refine ⟨congrArg Column.defaultValue, fun hvalue => ?_⟩
    have hback := congrArg (fun column : Column =>
      { column with defaultValue := defaultValue? (foundAround found hidden after) }) hflags
    exact hback.trans (by rw [hvalue]; rfl)
  rw [hparts]
  cases hidden <;> cases shown
  · simp
  · rw [eq_comm, defaultValue?_foundAround_iff]
    simp
  · rw [defaultValue?_foundAround_iff]
    simp
  · simp

/-- Another token in the place of a constraint's name leaves everything that is read as it was,
the default value apart. It changes that if and only if one of the two names is SET and hides a
default value that counts. -/
theorem readColumn_renamed {replacement : Token} {afterwards : List Token}
    (hleft : tokensOf left = column :: (front ++ keyword :: name :: after))
    (hright : tokensOf right = column :: (front ++ keyword :: replacement :: afterwards))
    (hafter : withoutGap after = withoutGap afterwards)
    (hkeyword : keyword.spells "CONSTRAINT" = true)
    (hreaches : Reaches (keyword :: name :: after) found none
      (typePart (front ++ keyword :: name :: after)).rest) :
    (readColumn left).map withoutDefault = (readColumn right).map withoutDefault ∧
      (readColumn left = readColumn right ↔
        name.spells "SET" = replacement.spells "SET" ∨
          (∃ fault, readColumn left = .error fault) ∨ ¬HidesDefault found after) := by
  have hmoved : Reaches (keyword :: replacement :: afterwards) found none
      (typePart (front ++ keyword :: replacement :: afterwards)).rest := by
    rw [typePart_append_keyword hkeyword] at hreaches ⊢
    exact reaches_append_keyword hkeyword hreaches _
  have hbehind : ∀ hidden, foundAround found hidden afterwards = foundAround found hidden after :=
    fun hidden => by rw [← foundAround_withoutGap, ← hafter, foundAround_withoutGap]
  rw [readColumn_of_reaches hleft hkeyword hreaches, readColumn_of_reaches hright hkeyword hmoved,
    hbehind]
  cases (typePart front).size? with
  | none => simp [Except.map]
  | some size =>
    simp [Except.map, withoutDefault_describe _ _ _ found _ (replacement.spells "SET"),
      describe_foundAround_iff]

def flaggedClause (name : String) : Text :=
  "a int NOT NULL CONSTRAINT ".toList ++ name.toList ++ " DEFAULT 'x' CHECK (a)".toList

def spaced (kind : TokenKind) (text : String) : Token := ⟨[' '], kind, text.toList⟩

def typeAndFlag : List Token := [spaced .word "int", spaced .word "NOT", spaced .word "NULL"]

def namedConstraint (name : Token) : List Token :=
  [spaced .word "CONSTRAINT", name, spaced .word "DEFAULT", spaced .quoted "'x'",
    spaced .word "CHECK", spaced .group "(a)"]

theorem readColumn_renamed_flaggedClause :
    (readColumn (flaggedClause "unique")).map withoutDefault =
        (readColumn (flaggedClause "[set]")).map withoutDefault ∧
      readColumn (flaggedClause "unique") = readColumn (flaggedClause "[set]") := by
  have hunique : tokensOf (flaggedClause "unique") =
      ⟨[], .word, ['a']⟩ :: (typeAndFlag ++ namedConstraint (spaced .word "unique")) := by
    decide +kernel
  have hquoted : tokensOf (flaggedClause "[set]") =
      ⟨[], .word, ['a']⟩ :: (typeAndFlag ++ namedConstraint (spaced .quoted "[set]")) := by
    decide +kernel
  have hrest : (typePart (typeAndFlag ++ namedConstraint (spaced .word "unique"))).rest =
      spaced .word "NOT" :: spaced .word "NULL" :: namedConstraint (spaced .word "unique") := by
    decide +kernel
  have hstep : advance none (spaced .word "NOT")
        (spaced .word "NULL" :: namedConstraint (spaced .word "unique")) =
      ⟨[.notNull], some (spaced .word "NULL"), namedConstraint (spaced .word "unique")⟩ := by
    decide +kernel
  have hreaches : Reaches (namedConstraint (spaced .word "unique")) [.notNull] none
      (typePart (typeAndFlag ++ namedConstraint (spaced .word "unique"))).rest := by
    rw [hrest]
    exact .later hstep (.here _)
  obtain ⟨hflags, hsame⟩ := readColumn_renamed hunique hquoted rfl (by decide +kernel) hreaches
  exact ⟨hflags, hsame.mpr (.inl (by decide +kernel))⟩

def hiddenClause (name : String) : Text :=
  "a int CONSTRAINT ".toList ++ name.toList ++ " DEFAULT 1".toList

def hiddenTokens (name : String) : List Token :=
  [spaced .word "CONSTRAINT", spaced .word name, spaced .word "DEFAULT", spaced .word "1"]

/-- A default value behind a constraint named SET is not read. -/
theorem readColumn_hiddenClause :
    (∀ name ∈ ["SET", "k"], tokensOf (hiddenClause name) =
        ⟨[], .word, ['a']⟩ :: spaced .word "int" :: hiddenTokens name) ∧
      Reaches (hiddenTokens "SET") [] none
        (typePart (spaced .word "int" :: hiddenTokens "SET")).rest ∧
      (readColumn (hiddenClause "SET")).toOption.map (·.defaultValue) = some none ∧
      (readColumn (hiddenClause "k")).toOption.map (·.defaultValue) = some (some ['1']) := by
  have hrest : (typePart (spaced .word "int" :: hiddenTokens "SET")).rest =
      hiddenTokens "SET" := by decide +kernel
  refine ⟨by decide +kernel, ?_, by decide +kernel, by decide +kernel⟩
  rw [hrest]
  exact .here none

end SqliteSchema.Proofs.ConstraintNames
