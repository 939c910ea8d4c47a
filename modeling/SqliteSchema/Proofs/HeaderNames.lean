import Mathlib.Data.List.TakeWhile
import SqliteSchema.StatementHeaders
import SqliteSchema.Proofs.KeywordTokens
import SqliteSchema.Proofs.QuotedRuns

/-!
Names in statement headers. Whatever is read as a name has one of four forms, and
a text of such a form is read back whole in front of anything that cannot extend
it. A name that is itself spelled IF is not taken for the words IF NOT EXISTS.
-/
namespace SqliteSchema.Proofs.HeaderNames

open PlainText Quoting ClauseTokens StatementHeaders KeywordTokens QuotedRuns

inductive IsIdentifier : Text → Prop
  | bracketed (inside : Text) (hinside : ']' ∉ inside) : IsIdentifier ('[' :: inside ++ [']'])
  | backticked (inside : Text) : IsIdentifier (quotedBy '\x60' inside)
  | doubleQuoted (inside : Text) : IsIdentifier (quotedBy '\x22' inside)
  | bare (first : Char) (rest : Text) (hbare : ∀ c ∈ first :: rest, isBareChar c = true) :
      IsIdentifier (first :: rest)

/-- A text that cannot extend the name before it. -/
def EndsName (rest : Text) : Prop :=
  ∀ c ∈ rest.head?, isBareChar c = false ∧ c ≠ '\x60' ∧ c ≠ '\x22'

theorem isBareChar_space : isBareChar ' ' = false := by decide +kernel

theorem endsName_cons_space (rest : Text) : EndsName (' ' :: rest) := by
  intro c hc
  obtain rfl : ' ' = c := by simpa using hc
  exact ⟨isBareChar_space, by decide, by decide⟩

theorem skipSpace_cons {c : Char} (hc : isHeaderSpace c = true) (text : Text) :
    skipSpace (c :: text) = skipSpace text := by
  simp [skipSpace, hc]

theorem skipSpace_of_head {c : Char} (hc : isHeaderSpace c = false) (text : Text) :
    skipSpace (c :: text) = c :: text := by
  simp [skipSpace, hc]

theorem identifier?_cons {c : Char} (hc : isHeaderSpace c = true) (text : Text) :
    identifier? (c :: text) = identifier? text := by
  rw [identifier?, identifier?, skipSpace_cons hc]

theorem keyword?_cons {c : Char} (hc : isHeaderSpace c = true) (keyword : String) (text : Text) :
    keyword? keyword (c :: text) = keyword? keyword text := by
  rw [keyword?, keyword?, skipSpace_cons hc]

theorem ifNotExists?_cons {c : Char} (hc : isHeaderSpace c = true) (text : Text) :
    ifNotExists? (c :: text) = ifNotExists? text := by
  rw [ifNotExists?, ifNotExists?, keyword?_cons hc]

theorem isHeaderSpace_of_isBareChar {c : Char} (hc : isBareChar c = true) :
    isHeaderSpace c = false := by
  by_contra h
  rw [Bool.not_eq_false] at h
  simp only [isHeaderSpace, Bool.or_eq_true, beq_iff_eq] at h
  rcases h with ((rfl | rfl) | rfl) | rfl <;> revert hc <;> decide +kernel

theorem skipSpace_identifier {name : Text} (hname : IsIdentifier name) (rest : Text) :
    skipSpace (name ++ rest) = name ++ rest := by
  cases hname with
  | bracketed inside => exact skipSpace_of_head rfl _
  | backticked inside => exact skipSpace_of_head rfl _
  | doubleQuoted inside => exact skipSpace_of_head rfl _
  | bare first more hbare =>
    exact skipSpace_of_head (isHeaderSpace_of_isBareChar (hbare first (List.mem_cons_self ..))) _

theorem bracketName?_append {inside : Text} (hinside : ']' ∉ inside) (rest : Text) :
    bracketName? (inside ++ ']' :: rest) = some ('[' :: inside ++ [']'], rest) := by
  have hpass : ∀ c ∈ inside, (c != ']') = true := by
    intro c hc
    rw [bne_iff_ne]
    rintro rfl
    exact hinside hc
  simp [bracketName?, List.dropWhile_append_of_pos hpass, List.takeWhile_append_of_pos hpass]

theorem takeWhile_append_of_head {name : Text} (hname : ∀ c ∈ name, isBareChar c = true)
    {rest : Text} (hrest : ∀ c ∈ rest.head?, isBareChar c = false) :
    (name ++ rest).takeWhile isBareChar = name ∧ (name ++ rest).dropWhile isBareChar = rest := by
  rw [List.takeWhile_append_of_pos hname, List.dropWhile_append_of_pos hname]
  cases rest with
  | nil => simp
  | cons c more =>
    have hc := hrest c rfl
    simp [hc]

/-- What follows a name does not extend it: a quoted name is not followed by its mark and
a bare one not by a character of a bare name. -/
structure Ends (name rest : Text) : Prop where
  mark : ∀ mark, IsQuoteMark mark → name.head? = some mark → rest.head? ≠ some mark
  bare : (∀ c ∈ name, isBareChar c = true) → ∀ c ∈ rest.head?, isBareChar c = false

theorem ends_of_endsName {name rest : Text} (hname : IsIdentifier name) (h : EndsName rest) :
    Ends name rest := by
  refine ⟨?_, fun _ c hc => (h c hc).1⟩
  intro mark hmark hfirst hrest
  obtain ⟨-, hbacktick, hdouble⟩ := h mark hrest
  have hsingle : mark = '\x27' := by
    rcases eq_of_isQuoteMark hmark with heq | heq | heq
    · exact absurd heq hbacktick
    · exact absurd heq hdouble
    · exact heq
  subst hsingle
  cases hname with
  | bracketed | backticked | doubleQuoted => simp [quotedBy] at hfirst
  | bare first more hbare =>
    obtain rfl : first = '\x27' := by simpa using hfirst
    have hquote := hbare '\x27' (List.mem_cons_self ..)
    revert hquote
    decide +kernel

theorem identifier?_append_of_ends {name : Text} (hname : IsIdentifier name) {rest : Text}
    (hrest : Ends name rest) : identifier? (name ++ rest) = some (name, rest) := by
  have hskip := skipSpace_identifier hname rest
  rw [identifier?, hskip]
  cases hname with
  | bracketed inside hinside =>
    rw [List.cons_append, List.cons_append, List.append_assoc]
    simp [bracketName?_append hinside]
  | backticked inside =>
    have hread : closeQuote? '\x60' (double '\x60' inside ++ '\x60' :: rest) = _ :=
      closeQuote?_double _ inside (hrest.mark _ rfl rfl)
    simp [quotedBy, hread, push]
  | doubleQuoted inside =>
    have hread : closeQuote? '\x22' (double '\x22' inside ++ '\x22' :: rest) = _ :=
      closeQuote?_double _ inside (hrest.mark _ rfl rfl)
    simp [quotedBy, hread, push]
  | bare first more hbare =>
    have hfirst := hbare first (List.mem_cons_self ..)
    have hletters : ∀ c ∈ more, isBareChar c = true := by
      intro c hc
      exact hbare c (List.mem_cons_of_mem _ hc)
    have hmore := takeWhile_append_of_head hletters (hrest.bare hbare)
    have hbracket : first ≠ '[' := by
      rintro rfl
      revert hfirst
      decide +kernel
    have hquote : ¬(first = '\x60' ∨ first = '\x22') := by
      rintro (rfl | rfl) <;> revert hfirst <;> decide +kernel
    simp [hbracket, hquote, hfirst, hmore]

theorem identifier?_append {name : Text} (hname : IsIdentifier name) {rest : Text}
    (hrest : EndsName rest) : identifier? (name ++ rest) = some (name, rest) :=
  identifier?_append_of_ends hname (ends_of_endsName hname hrest)

/-- Everything that is read as a name is written in one of the four ways. -/
theorem isIdentifier_of_identifier? {text name rest : Text}
    (h : identifier? text = some (name, rest)) : IsIdentifier name := by
  unfold identifier? at h
  split at h
  · simp at h
  · rename_i first more _
    split_ifs at h with hbracket hquote hbare
    · unfold bracketName? at h
      split at h
      · simp at h
      · rename_i close after hdrop
        have hclose : close = ']' := by
          have hhead := List.head?_dropWhile_not (· != ']') more
          rw [hdrop] at hhead
          simpa using hhead
        obtain ⟨rfl, rfl⟩ := Prod.mk.inj (Option.some.inj h)
        rw [hclose]
        refine .bracketed _ ?_
        intro hmem
        simpa using List.mem_takeWhile_imp hmem
    · obtain ⟨⟨run, after⟩, hrun, hpush⟩ := Option.map_eq_some_iff.mp h
      obtain ⟨rfl, rfl⟩ := Prod.mk.inj hpush
      obtain ⟨inside, rfl⟩ := exists_double_of_closeQuote? hrun
      rcases hquote with rfl | rfl
      · exact .backticked inside
      · exact .doubleQuoted inside
    · obtain ⟨rfl, rfl⟩ := Prod.mk.inj (Option.some.inj h)
      refine .bare first _ ?_
      intro c hc
      rcases List.mem_cons.mp hc with rfl | hmem
      · exact hbare
      · exact List.mem_takeWhile_imp hmem

theorem sameLetters_self (text : Text) : sameLetters text text = true := by simp [sameLetters]

theorem sameLetters_cons_cons (c d : Char) (left right : Text) :
    sameLetters (c :: left) (d :: right) =
      (c.toLower == d.toLower && sameLetters left right) := rfl

/-- A keyword is read where a character follows that cannot be part of it. -/
theorem keyword?_append {keyword : String} {first : Char} {letters : Text}
    (hkeyword : keyword.toList = first :: letters) (hfirst : isHeaderSpace first = false)
    {rest : Text} (hrest : rest.head?.any extendsKeyword = false) :
    keyword? keyword (keyword.toList ++ rest) = some rest := by
  have hskip : skipSpace (keyword.toList ++ rest) = keyword.toList ++ rest := by
    rw [hkeyword]
    exact skipSpace_of_head hfirst _
  simp [keyword?, hskip, sameLetters_self, hrest]

theorem keyword?_eq_none {keyword : String} (first : Char) {letters : Text}
    (hkeyword : keyword.toList = first :: letters) {c : Char} (hc : isHeaderSpace c = false)
    (hne : c.toLower ≠ first.toLower) (rest : Text) : keyword? keyword (c :: rest) = none := by
  simp [keyword?, hkeyword, skipSpace_of_head hc, sameLetters_cons_cons, hne]

theorem toLower_of_isAlphanum_eq_false {c : Char} (hc : c.isAlphanum = false) :
    c.toLower = c := by
  have halpha : c.isAlpha = false := (Bool.or_eq_false_iff.mp hc).1
  exact toLower_of_isUpper_eq_false (Bool.or_eq_false_iff.mp halpha).1

theorem keyword?_if_cons_cons {first : Char} (hfirst : isHeaderSpace first = false)
    (second : Char) (after : Text) :
    keyword? "IF" (first :: second :: after) = none ∨
      second.toLower = 'f' ∧ after.head?.any extendsKeyword = false ∧
        keyword? "IF" (first :: second :: after) = some after := by
  have hread : keyword? "IF" (first :: second :: after) =
      if sameLetters [first, second] ['I', 'F'] && !after.head?.any extendsKeyword
      then some after else none := by
    rw [keyword?, skipSpace_of_head hfirst]
    rfl
  rw [hread]
  split
  · rename_i h
    simp only [sameLetters_cons_cons, Bool.and_eq_true, beq_iff_eq, Bool.not_eq_true'] at h
    exact .inr ⟨h.1.2.1, h.2, rfl⟩
  · exact .inl rfl

/-- The letter that goes on with a name spelled I to one spelled IF. -/
theorem isBareChar_of_toLower_eq {c : Char} (h : c.toLower = 'f') : isBareChar c = true := by
  cases hc : c.isUpper with
  | true =>
    have hcapital : c = 'F' := toLower_inj_of_isUpper hc (by decide) h
    rw [hcapital]
    decide +kernel
  | false =>
    rw [toLower_of_isUpper_eq_false hc] at h
    rw [h]
    decide +kernel

theorem keyword?_if_singleton {first : Char} (hfirst : isHeaderSpace first = false) :
    keyword? "IF" [first] = none := by
  rw [keyword?, skipSpace_of_head hfirst]
  simp [sameLetters]

/-- A name in front of anything but NOT never reads as IF NOT EXISTS, not even one that is
spelled IF. -/
theorem ifNotExists?_identifier {name rest : Text} (hname : IsIdentifier name)
    (hrest : EndsName rest) (hnot : keyword? "NOT" rest = none) :
    ifNotExists? (name ++ rest) = none := by
  have hquoted : ∀ c more, isHeaderSpace c = false → c.toLower ≠ 'i' →
      ifNotExists? (c :: more) = none := by
    intro c more hspace hlower
    have hif : keyword? "IF" (c :: more) = none :=
      keyword?_eq_none 'I' rfl hspace hlower more
    rw [ifNotExists?, hif]
    rfl
  cases hname with
  | bracketed inside => exact hquoted _ _ rfl (by decide)
  | backticked inside => exact hquoted _ _ rfl (by decide)
  | doubleQuoted inside => exact hquoted _ _ rfl (by decide)
  | bare first more hbare =>
    have hfirst := isHeaderSpace_of_isBareChar (hbare first (List.mem_cons_self ..))
    rw [ifNotExists?]
    match more, hbare with
    | [], _ =>
      have hif : keyword? "IF" (first :: rest) = none := by
        cases rest with
        | nil => exact keyword?_if_singleton hfirst
        | cons second after =>
          rcases keyword?_if_cons_cons hfirst second after with hif | ⟨hlower, -, -⟩
          · exact hif
          · have hends : isBareChar second = false := (hrest second rfl).1
            simp [isBareChar_of_toLower_eq hlower] at hends
      rw [List.cons_append, List.nil_append, hif]
      rfl
    | [second], _ =>
      rcases keyword?_if_cons_cons hfirst second rest with hif | ⟨-, -, hif⟩
      · rw [List.cons_append, List.cons_append, List.nil_append, hif]
        rfl
      · rw [List.cons_append, List.cons_append, List.nil_append, hif, Option.bind_eq_bind,
          Option.bind_some, hnot]
        rfl
    | second :: third :: tail, hbare =>
      have hthird := isHeaderSpace_of_isBareChar (hbare third (by simp))
      rcases keyword?_if_cons_cons hfirst second (third :: (tail ++ rest)) with
        hif | ⟨-, hends, hif⟩
      · simp only [List.cons_append, hif]
        rfl
      · have hextends : extendsKeyword third = false := hends
        rw [extendsKeyword, Bool.or_eq_false_iff] at hextends
        have hlower : third.toLower ≠ 'n' := by
          rw [toLower_of_isAlphanum_eq_false hextends.1]
          rintro rfl
          exact absurd hextends.1 (by decide)
        have hnone : keyword? "NOT" (third :: (tail ++ rest)) = none :=
          keyword?_eq_none 'N' rfl hthird hlower _
        simp only [List.cons_append, hif, Option.bind_eq_bind, Option.bind_some, hnone]
        rfl

theorem keyword?_space_append (keyword : String) {first : Char} {letters : Text}
    (hkeyword : keyword.toList = first :: letters) (hfirst : isHeaderSpace first = false)
    (rest : Text) : keyword? keyword (keyword.toList ++ ' ' :: rest) = some (' ' :: rest) :=
  keyword?_append hkeyword hfirst rfl

theorem ifNotExists?_words (rest : Text) :
    ifNotExists? ("IF NOT EXISTS ".toList ++ rest) = some (' ' :: rest) := by
  have hif := keyword?_space_append "IF" rfl rfl
    ("NOT EXISTS ".toList ++ rest)
  have hnot := keyword?_space_append "NOT" rfl rfl
    ("EXISTS ".toList ++ rest)
  have hexists := keyword?_space_append "EXISTS" rfl rfl rest
  have hspace : isHeaderSpace ' ' = true := rfl
  change (keyword? "IF" ("IF".toList ++ ' ' :: ("NOT EXISTS ".toList ++ rest)) >>= fun text =>
    keyword? "NOT" text >>= fun text => keyword? "EXISTS" text) = _
  rw [hif, Option.bind_eq_bind, Option.bind_some, keyword?_cons hspace]
  change (keyword? "NOT" ("NOT".toList ++ ' ' :: ("EXISTS ".toList ++ rest)) >>= fun text =>
    keyword? "EXISTS" text) = _
  rw [hnot, Option.bind_eq_bind, Option.bind_some, keyword?_cons hspace]
  exact hexists

/-- What is read behind the keywords of a table statement: a name with what follows it, or
the place where a name was sought. -/
def ReadsName (text : Text) (name : Option Text) (rest : Text) : Prop :=
  match name with
  | some name => identifier? text = some (name, rest)
  | none => identifier? text = none ∧ skipSpace text = rest

theorem readHeader?_eq_table_iff {statement : Text} {heading : TableHeading} :
    readHeader? statement = some (.table heading) ↔
      ∃ create table, keyword? "CREATE" statement = some create ∧
        keyword? "TABLE" create = some table ∧
        heading.ifNotExists = (ifNotExists? table).isSome ∧
        ReadsName (skipOptional ifNotExists? table) heading.name heading.rest := by
  have hheader : readHeader? statement = some (.table heading) ↔
      tableHeader? statement = some heading := by
    unfold readHeader?
    cases tableHeader? statement with
    | none => simp
    | some found => simp
  rw [hheader, tableHeader?, Option.bind_eq_bind, Option.bind_eq_some_iff]
  obtain ⟨name, ifNotExists, rest⟩ := heading
  refine exists_congr fun create => ?_
  rw [Option.bind_eq_some_iff, exists_and_left]
  refine and_congr_right fun _ => exists_congr fun table => and_congr_right fun _ => ?_
  cases hname : identifier? (skipOptional ifNotExists? table) with
  | none => cases name <;> simp [ReadsName, hname, eq_comm]
  | some part =>
    obtain ⟨found, after⟩ := part
    cases name <;> simp [ReadsName, hname, eq_comm, and_comm, and_left_comm, and_assoc]

/-- The name of a table statement is read behind its keywords. -/
theorem exists_of_readHeader? {statement name : Text} {header : TableHeading}
    (h : readHeader? statement = some (.table header)) (hname : header.name = some name) :
    ∃ afterCreate afterTable, keyword? "CREATE" statement = some afterCreate ∧
      keyword? "TABLE" afterCreate = some afterTable ∧
      identifier? (skipOptional ifNotExists? afterTable) = some (name, header.rest) := by
  obtain ⟨afterCreate, afterTable, hcreate, htable, -, hread⟩ := readHeader?_eq_table_iff.mp h
  rw [hname] at hread
  exact ⟨afterCreate, afterTable, hcreate, htable, hread⟩

theorem isIdentifier_of_readHeader? {statement name : Text} {header : TableHeading}
    (h : readHeader? statement = some (.table header)) (hname : header.name = some name) :
    IsIdentifier name := by
  obtain ⟨_, _, -, -, hidentifier⟩ := exists_of_readHeader? h hname
  exact isIdentifier_of_identifier? hidentifier

/-- The header that a statement is rendered with is read back. -/
theorem readHeader?_rendered {name : Text} (hname : IsIdentifier name) (ifNotExists : Bool)
    (rest : Text) :
    readHeader? ("CREATE TABLE ".toList ++ ((if ifNotExists then "IF NOT EXISTS ".toList else []) ++
        (name ++ ' ' :: '(' :: rest))) =
      some (.table ⟨some name, ifNotExists, ' ' :: '(' :: rest⟩) := by
  have hspace : isHeaderSpace ' ' = true := rfl
  have hidentifier := identifier?_append hname (endsName_cons_space ('(' :: rest))
  have hkeywords : ∀ text, keyword? "CREATE" ("CREATE TABLE ".toList ++ text) =
        some (' ' :: ("TABLE ".toList ++ text)) ∧
      keyword? "TABLE" (' ' :: ("TABLE ".toList ++ text)) = some (' ' :: text) := by
    intro text
    refine ⟨keyword?_space_append "CREATE" rfl rfl _, ?_⟩
    rw [keyword?_cons hspace]
    exact keyword?_space_append "TABLE" rfl rfl text
  obtain ⟨hcreate, htable⟩ := hkeywords
    ((if ifNotExists then "IF NOT EXISTS ".toList else []) ++ (name ++ ' ' :: '(' :: rest))
  cases ifNotExists with
  | false =>
    have hnot : keyword? "NOT" (' ' :: '(' :: rest) = none := by
      rw [keyword?_cons hspace]
      exact keyword?_eq_none 'N' rfl rfl (by decide) rest
    have hnone : ifNotExists? (' ' :: (name ++ ' ' :: '(' :: rest)) = none := by
      rw [ifNotExists?_cons hspace, ifNotExists?_identifier hname (endsName_cons_space _) hnot]
    have hsought : identifier? (skipOptional ifNotExists? (' ' :: ([] ++
        (name ++ ' ' :: '(' :: rest)))) = some (name, ' ' :: '(' :: rest) := by
      rw [List.nil_append, skipOptional, hnone, Option.getD_none, identifier?_cons hspace,
        hidentifier]
    exact readHeader?_eq_table_iff.mpr ⟨_, _, hcreate, htable, by simp [hnone], hsought⟩
  | true =>
    have hwords : ifNotExists? (' ' :: ("IF NOT EXISTS ".toList ++ (name ++ ' ' :: '(' :: rest))) =
        some (' ' :: (name ++ ' ' :: '(' :: rest)) := by
      rw [ifNotExists?_cons hspace, ifNotExists?_words]
    have hsought : identifier? (skipOptional ifNotExists? (' ' :: ("IF NOT EXISTS ".toList ++
        (name ++ ' ' :: '(' :: rest)))) = some (name, ' ' :: '(' :: rest) := by
      rw [skipOptional, hwords, Option.getD_some, identifier?_cons hspace, hidentifier]
    refine readHeader?_eq_table_iff.mpr ⟨_, _, hcreate, htable, ?_, hsought⟩
    simp only [if_true, hwords, Option.isSome_some]

end SqliteSchema.Proofs.HeaderNames
