import Mathlib.Data.List.Nodup
import SqliteSchema.Proofs.EditRuns

/-!
Laws of constraint edits. Of two clauses put in under one name the second stays, a constraint put
in under a new name can be taken out again without a trace, and distinct names stay distinct.
Removing a name again and again takes out its constraints from the front, one at a time, and is
refused from the moment that none is left.
-/
namespace SqliteSchema.Proofs.EditLaws

open PlainText Quoting ClauseTokens TableConstraints TableDefinitions ConstraintEdits EditRuns

variable {name other first : Text} {clauses : List Text}

def constraintNames (clauses : List Text) : List Text :=
  clauses.filterMap fun clause => (readClause clause).name?

theorem isNamed_iff {clause : Text} :
    isNamed name clause = true ↔ (readClause clause).name? = some name := beq_iff_eq

theorem isNamedLike_of_sameLetters (h : sameLetters other name = true) (clause : Text) :
    isNamedLike other clause = isNamedLike name clause := by
  have hletters : ∀ found, sameLetters found other = sameLetters found name := by
    intro found
    rw [sameLetters, eq_of_beq h, sameLetters]
  simp only [isNamedLike, hletters]

theorem isNamedLike_of_isNamed {clause : Text} (h : isNamed name clause = true) :
    isNamedLike name clause = true := by
  rw [isNamedLike, isNamed_iff.mp h, Option.any_some]
  exact beq_self_eq_true _

/-- A clause has a name where it begins with CONSTRAINT and a name. -/
theorem name?_eq_some_iff {clause : Text} :
    (readClause clause).name? = some name ↔
      ∃ keyword word rest, tokensOf clause = keyword :: word :: rest ∧
        keyword.spells "CONSTRAINT" = true ∧ word.isName = true ∧ bareText word.text = name := by
  unfold readClause
  constructor
  · intro h
    generalize tokensOf clause = tokens at h ⊢
    fun_cases clauseOfTokens tokens with
    | case3 keyword hkeyword word rest hword kind =>
      simp only [clauseOfTokens, hkeyword, hword, if_true] at h
      exact ⟨keyword, word, rest, rfl, hkeyword, hword, Option.some.inj h⟩
    | case1 | case2 | case4 | case5 | case6 =>
      unfold clauseOfTokens at h
      simp_all [Clause.name?, Clause.constraint?]
  · rintro ⟨keyword, word, rest, htokens, hkeyword, hword, rfl⟩
    rw [htokens, clauseOfTokens, if_pos hkeyword]
    simp only [hword, if_true]
    rfl

/-- A constraint is found by its name in any layout, in any quotes and in letters of any case. -/
theorem isNamedLike_iff {clause : Text} :
    isNamedLike name clause = true ↔
      ∃ keyword word rest, tokensOf clause = keyword :: word :: rest ∧
        keyword.spells "CONSTRAINT" = true ∧ word.isName = true ∧
        sameLetters (bareText word.text) name = true := by
  rw [isNamedLike, Option.any_eq_true]
  constructor
  · rintro ⟨found, hfound, hletters⟩
    obtain ⟨keyword, word, rest, htokens, hkeyword, hword, rfl⟩ := name?_eq_some_iff.mp hfound
    exact ⟨keyword, word, rest, htokens, hkeyword, hword, hletters⟩
  · rintro ⟨keyword, word, rest, htokens, hkeyword, hword, hletters⟩
    exact ⟨_, name?_eq_some_iff.mpr ⟨keyword, word, rest, htokens, hkeyword, hword, rfl⟩, hletters⟩

/-- Either no clause is of a kind, or one is the first of it. -/
theorem forall_or_exists_first (finds : Text → Bool) (clauses : List Text) :
    (∀ clause ∈ clauses, finds clause = false) ∨
      ∃ left old right, clauses = left ++ old :: right ∧
        (∀ clause ∈ left, finds clause = false) ∧ finds old = true := by
  cases hfind : clauses.find? finds with
  | none => exact .inl (by simpa using hfind)
  | some old =>
    obtain ⟨hold, left, right, hclauses, hleft⟩ := List.find?_eq_some_iff_append.mp hfind
    exact .inr ⟨left, old, right, hclauses, by simpa using hleft, hold⟩

theorem putClause_putClause (hfirst : isNamed name first = true) (second : Text)
    (clauses : List Text) :
    putClause name second (putClause name first clauses) = putClause name second clauses := by
  obtain hnone | ⟨left, old, right, rfl, hleft, hold⟩ :=
    forall_or_exists_first (isNamed name) clauses
  · rw [putClause_of_not_named hnone, putClause_of_not_named hnone,
      putClause_append_cons hnone hfirst]
  · rw [putClause_append_cons hleft hold, putClause_append_cons hleft hold,
      putClause_append_cons hleft hfirst]

/-- A name that is put in is added at the end unless it is there already. -/
theorem constraintNames_putClause (hfirst : isNamed name first = true) (clauses : List Text) :
    constraintNames (putClause name first clauses) =
      if name ∈ constraintNames clauses then constraintNames clauses
      else constraintNames clauses ++ [name] := by
  have hname := isNamed_iff.mp hfirst
  obtain hnone | ⟨left, old, right, rfl, hleft, hold⟩ :=
    forall_or_exists_first (isNamed name) clauses
  · have hnew : name ∉ constraintNames clauses := by
      intro hmem
      obtain ⟨old, hold, hsome⟩ := List.mem_filterMap.mp hmem
      rw [← isNamed_iff, hnone old hold] at hsome
      simp at hsome
    rw [putClause_of_not_named hnone, if_neg hnew]
    simp [constraintNames, hname]
  · rw [putClause_append_cons hleft hold, if_pos]
    · simp [constraintNames, hname, isNamed_iff.mp hold]
    · exact List.mem_filterMap.mpr ⟨old, by simp, isNamed_iff.mp hold⟩

/-- A name takes out the first clause that it finds. -/
theorem dropConstraint?_of_append_cons {table : Table} {left right : List Text} {old : Text}
    (hclauses : table.clauses = left ++ old :: right)
    (hleft : ∀ clause ∈ left, isNamedLike name clause = false)
    (hold : isNamedLike name old = true) :
    dropConstraint? name table = some { table with clauses := left ++ right } := by
  have hkept : ∀ clause ∈ left, ¬isNamedLike name clause = true := by simpa using hleft
  rw [dropConstraint?, hclauses, if_pos (by simp [hold]), List.eraseP_append_right _ hkept,
    List.eraseP_cons_of_pos hold]

/-- The clause put in last is the first that a name finds where nothing had the name before. -/
theorem dropConstraint?_putConstraint {table : Table} (hfirst : isNamed name first = true)
    (hnew : ∀ clause ∈ table.clauses, isNamedLike name clause = false) :
    dropConstraint? name (putConstraint name first table) = some table := by
  have hnone : ∀ old ∈ table.clauses, isNamed name old = false := by
    intro old hold
    by_contra h
    have hlike := isNamedLike_of_isNamed (Bool.not_eq_false _ ▸ h)
    simp [hnew old hold] at hlike
  have hput : (putConstraint name first table).clauses = table.clauses ++ [first] :=
    putClause_of_not_named hnone
  rw [dropConstraint?_of_append_cons hput hnew (isNamedLike_of_isNamed hfirst), List.append_nil]
  rfl

/-- Of two clauses put in under a name the second stays. A clause put in under a new name is
taken out again by that name in any letters, and distinct names stay distinct. -/
theorem laws_of_putConstraint (table : Table) (hfirst : isNamed name first = true) :
    (∀ second, putConstraint name second (putConstraint name first table) =
        putConstraint name second table) ∧
      ((∀ clause ∈ table.clauses, isNamedLike name clause = false) →
        ∀ other, sameLetters other name = true →
          dropConstraint? other (putConstraint name first table) = some table) ∧
      ((constraintNames table.clauses).Nodup →
        (constraintNames (putConstraint name first table).clauses).Nodup) := by
  refine ⟨?_, ?_, ?_⟩
  · intro second
    simp only [putConstraint, putClause_putClause hfirst]
  · intro hnew other hother
    have hsame : isNamedLike other = isNamedLike name :=
      funext (isNamedLike_of_sameLetters hother)
    have hdrop : dropConstraint? other = dropConstraint? name := by
      funext table
      rw [dropConstraint?, hsame, dropConstraint?]
    rw [hdrop]
    exact dropConstraint?_putConstraint hfirst hnew
  · intro hdistinct
    change (constraintNames (putClause name first table.clauses)).Nodup
    rw [constraintNames_putClause hfirst]
    split
    · exact hdistinct
    · rename_i hname
      exact hdistinct.append (List.nodup_singleton name) (by simpa using hname)

def namesakeTable : Table :=
  Table.ofClauses ['t'] ["c int".toList, "CONSTRAINT a CHECK (c > 0)".toList,
    "UNIQUE (c)".toList, "CONSTRAINT [A] CHECK (c < 9)".toList]

theorem laws_of_putConstraint_namesake :
    isNamed ['b'] "constraint `b` FOREIGN KEY (c) REFERENCES u".toList = true ∧
      putConstraint ['b'] "CHECK (c)".toList (putConstraint ['b']
        "constraint `b` FOREIGN KEY (c) REFERENCES u".toList namesakeTable) =
          putConstraint ['b'] "CHECK (c)".toList namesakeTable ∧
      dropConstraint? ['B'] (putConstraint ['b']
        "constraint `b` FOREIGN KEY (c) REFERENCES u".toList namesakeTable) =
          some namesakeTable ∧
      (constraintNames (putConstraint ['b']
        "constraint `b` FOREIGN KEY (c) REFERENCES u".toList namesakeTable).clauses).Nodup := by
  have hfirst : isNamed ['b'] "constraint `b` FOREIGN KEY (c) REFERENCES u".toList = true := by
    decide +kernel
  have hnew : ∀ clause ∈ namesakeTable.clauses, isNamedLike ['b'] clause = false := by
    decide +kernel
  obtain ⟨hlast, hdrop, hdistinct⟩ := laws_of_putConstraint namesakeTable hfirst
  exact ⟨hfirst, hlast _, hdrop hnew ['B'] (by decide), hdistinct (by decide +kernel)⟩

/-- The answers to a number of attempts to remove a name, and the table that is left. -/
def removals (name : Text) : Nat → Table → List Bool × Table
  | 0, table => ([], table)
  | count + 1, table =>
      match dropConstraint? name table with
      | some left => ((true :: (removals name count left).1), (removals name count left).2)
      | none => ((false :: (removals name count table).1), (removals name count table).2)

def withoutFirst {α : Type} (drops : α → Bool) : Nat → List α → List α
  | 0, items => items
  | _ + 1, [] => []
  | count + 1, item :: rest =>
      if drops item then withoutFirst drops count rest
      else item :: withoutFirst drops (count + 1) rest

section Lists

variable {α : Type} {drops : α → Bool} {item : α} {left right items : List α}

theorem withoutFirst_of_none (h : ∀ item ∈ items, drops item = false) (count : Nat) :
    withoutFirst drops count items = items := by
  induction items with
  | nil => cases count <;> rfl
  | cons item rest ih =>
    cases count with
    | zero => rfl
    | succ count =>
      obtain ⟨hitem, hrest⟩ := List.forall_mem_cons.mp h
      simp [withoutFirst, hitem, ih hrest]

/-- The first of several items to go goes first. -/
theorem withoutFirst_append_cons (hleft : ∀ item ∈ left, drops item = false)
    (hitem : drops item = true) (count : Nat) :
    withoutFirst drops (count + 1) (left ++ item :: right) =
      withoutFirst drops count (left ++ right) := by
  induction left with
  | nil => simp [withoutFirst, hitem]
  | cons other rest ih =>
    obtain ⟨hother, hrest⟩ := List.forall_mem_cons.mp hleft
    cases count with
    | zero => simp [withoutFirst, hother, ih hrest]
    | succ count => simp [withoutFirst, hother, ih hrest]

theorem withoutFirst_countP_add (drops : α → Bool) (more : Nat) (items : List α) :
    withoutFirst drops (items.countP drops + more) items =
      items.filter fun item => !drops item := by
  induction items with
  | nil => cases more <;> rfl
  | cons item rest ih =>
    cases hitem : drops item with
    | true =>
      have hcount : (item :: rest).countP drops + more = rest.countP drops + more + 1 := by
        rw [List.countP_cons_of_pos hitem]
        omega
      rw [hcount, withoutFirst, if_pos hitem, ih, List.filter_cons_of_neg (by simp [hitem])]
    | false =>
      rw [List.countP_cons_of_neg (by simp [hitem]), List.filter_cons_of_pos (by simp [hitem]),
        ← ih]
      cases rest.countP drops + more with
      | zero => simp [withoutFirst]
      | succ count => simp [withoutFirst, hitem]

end Lists

/-- Attempts to remove a name succeed as often as constraints have it, and each success takes
the first of them. -/
theorem removals_eq (name : Text) (count : Nat) (table : Table) :
    removals name count table =
      (List.replicate (min count (table.clauses.countP (isNamedLike name))) true ++
          List.replicate (count - table.clauses.countP (isNamedLike name)) false,
        { table with clauses := withoutFirst (isNamedLike name) count table.clauses }) := by
  induction count generalizing table with
  | zero => simp [removals, withoutFirst]
  | succ count ih =>
    obtain hnone | ⟨left, old, right, hclauses, hleft, hold⟩ :=
      forall_or_exists_first (isNamedLike name) table.clauses
    · have hcount : table.clauses.countP (isNamedLike name) = 0 := by
        simpa [List.countP_eq_zero] using hnone
      have hrefused : dropConstraint? name table = none := by simpa [dropConstraint?] using hnone
      simp [removals, hrefused, ih, hcount, withoutFirst_of_none hnone, List.replicate_succ]
    · have hdrop := dropConstraint?_of_append_cons hclauses hleft hold
      have hcount : table.clauses.countP (isNamedLike name) =
          (left ++ right).countP (isNamedLike name) + 1 := by
        simp [hclauses, hold]
        omega
      simp only [removals, hdrop, ih, hcount]
      rw [hclauses, withoutFirst_append_cons hleft hold, Nat.add_min_add_right,
        Nat.add_sub_add_right, List.replicate_succ]
      rfl

/-- Removing a name again and again succeeds once for every constraint that has the name in any
layout, quotes and letters, is refused from then on, and leaves all other clauses in their
order; an attempt too few leaves the last of them. -/
theorem removals_drain (name : Text) (table : Table) (count : Nat) :
    (∀ clause, isNamedLike name clause = true ↔
        ∃ keyword word rest, tokensOf clause = keyword :: word :: rest ∧
          keyword.spells "CONSTRAINT" = true ∧ word.isName = true ∧
          sameLetters (bareText word.text) name = true) ∧
      removals name (table.clauses.countP (isNamedLike name) + count) table =
        (List.replicate (table.clauses.countP (isNamedLike name)) true ++
            List.replicate count false,
          { table with clauses := table.clauses.filter fun clause => !isNamedLike name clause }) ∧
      (removals name count table).2 =
        { table with clauses := withoutFirst (isNamedLike name) count table.clauses } := by
  refine ⟨fun clause => isNamedLike_iff, ?_, ?_⟩
  · rw [removals_eq, withoutFirst_countP_add, Nat.min_eq_right (Nat.le_add_right _ _),
      Nat.add_sub_cancel_left]
  · rw [removals_eq]

example : (removals ['A'] 3 namesakeTable).1 = [true, true, false] := by decide +kernel

end SqliteSchema.Proofs.EditLaws
