import Mathlib.Data.List.Forall2
import SqliteSchema.ColumnDefinitions
import SqliteSchema.Proofs.BalancedTokens
import SqliteSchema.Proofs.TypeSizes

/-!
Column definitions as data, the texts they are written as, and the columns they mean.
A definition is a name, perhaps a type, and rules in any order. Every rule begins with a
reserved word, and its words can be written in letters of either case; one space stands
between any two parts.
-/
namespace SqliteSchema.Proofs.ColumnSyntax

open PlainText Quoting DelimiterScan ClauseTokens TypeArguments ColumnModifiers ColumnDefinitions
  QuotedRuns TypeSizes

structure BareWord where
  text : Text
  ne_nil : text ≠ []
  isWordChar_of_mem : ∀ c ∈ text, isWordChar c = true
  isReserved_eq : isReserved ⟨[], .word, text⟩ = false

structure Quotation where
  opening : Char
  close : Char
  closes : closingDelimiter? opening = some close
  inside : Text

def Quotation.text (quotation : Quotation) : Text :=
  quotation.opening :: (double quotation.close quotation.inside ++ [quotation.close])

abbrev BalancedText := { inside : Text // isBalanced inside = true }

def parenthesize (inside : Text) : Text := '(' :: (inside ++ [')'])

inductive Default where
  | literal (mark : Char) (isMark : IsQuoteMark mark) (inside : Text)
  | bare (word : BareWord)

def Default.text : Default → Text
  | .literal mark _ inside => quotedBy mark inside
  | .bare word => word.text

def Default.value : Default → Text
  | .literal _ _ inside => inside
  | .bare word => word.text

inductive Part where
  | keyword (word : String)
  | quoted (name : Quotation)
  | group (inside : BalancedText)
  | value (given : Default)

def Part.text : Part → Text
  | .keyword word => word.toList
  | .quoted name => name.text
  | .group inside => parenthesize inside
  | .value given => given.text

/-- A keyword can be written in letters of either case, and nothing else in several ways. -/
def Part.IsWrittenAs (part : Part) (text : Text) : Prop :=
  match part with
  | .keyword word => sameLetters text word.toList = true
  | other => text = other.text

theorem isWrittenAs_text (part : Part) : part.IsWrittenAs part.text := by
  cases part with
  | keyword word => exact beq_self_eq_true _
  | _ => rfl

def Part.kind : Part → TokenKind
  | .keyword _ => .word
  | .quoted _ => .quoted
  | .group _ => .group
  | .value (.literal ..) => .quoted
  | .value (.bare _) => .word

def Part.IsReadAs (part : Part) (token : Token) : Prop :=
  token.kind = part.kind ∧ part.IsWrittenAs token.text

inductive Event where
  | delete
  | update

def Event.keyword : Event → String
  | .delete => "DELETE"
  | .update => "UPDATE"

inductive Action where
  | cascade
  | restrict
  | noAction
  | setNull
  | setDefault

def Action.keywords : Action → List String
  | .cascade => ["CASCADE"]
  | .restrict => ["RESTRICT"]
  | .noAction => ["NO", "ACTION"]
  | .setNull => ["SET", "NULL"]
  | .setDefault => ["SET", "DEFAULT"]

inductive Order where
  | ascending
  | descending

def Order.keyword : Order → String
  | .ascending => "ASC"
  | .descending => "DESC"

inductive Rule where
  | notNull
  | null
  | primaryKey (order : Option Order)
  | unique
  | autoIncrement
  | check (condition : BalancedText)
  | collate (collation : Quotation)
  | references (table : Quotation) (columns : BalancedText) (actions : List (Event × Action))
  | generated (always : Bool) (expression : BalancedText)
  | default (value : Default)

def actionParts (action : Event × Action) : List Part :=
  ("ON" :: action.1.keyword :: action.2.keywords).map Part.keyword

def Rule.parts : Rule → List Part
  | .notNull => [.keyword "NOT", .keyword "NULL"]
  | .null => [.keyword "NULL"]
  | .primaryKey order =>
      .keyword "PRIMARY" :: .keyword "KEY" :: (order.toList.map fun order => .keyword order.keyword)
  | .unique => [.keyword "UNIQUE"]
  | .autoIncrement => [.keyword "AUTOINCREMENT"]
  | .check condition => [.keyword "CHECK", .group condition]
  | .collate collation => [.keyword "COLLATE", .quoted collation]
  | .references table columns actions =>
      .keyword "REFERENCES" :: .quoted table :: .group columns :: actions.flatMap actionParts
  | .generated always expression =>
      (if always then [.keyword "GENERATED", .keyword "ALWAYS"] else []) ++
        [.keyword "AS", .group expression]
  | .default value => [.keyword "DEFAULT", .value value]

def Rule.default? : Rule → Option Default
  | .default value => some value
  | _ => none

def Rule.stated : Rule → List Modifier
  | .notNull => [.notNull]
  | .primaryKey _ => [.primaryKey]
  | .unique => [.unique]
  | .autoIncrement => [.autoIncrement]
  | .generated always _ => (if always then [.generated] else []) ++ [.generated]
  | .default value => [.defaultValue value.value]
  | _ => []

/-- Each flag is stated by one kind of rule. -/
theorem contains_stated_rule (rule : Rule) :
    rule.stated.contains .notNull = (rule matches .notNull) ∧
      rule.stated.contains .primaryKey = (rule matches .primaryKey _) ∧
      rule.stated.contains .unique = (rule matches .unique) ∧
      rule.stated.contains .autoIncrement = (rule matches .autoIncrement) ∧
      rule.stated.contains .generated = (rule matches .generated _ _) := by
  cases rule with
  | generated always expression => cases always <;> exact ⟨rfl, rfl, rfl, rfl, rfl⟩
  | _ => exact ⟨rfl, rfl, rfl, rfl, rfl⟩

structure NamedRule where
  name : Option Quotation
  rule : Rule

def NamedRule.parts (named : NamedRule) : List Part :=
  (named.name.toList.flatMap fun name => [.keyword "CONSTRAINT", .quoted name]) ++ named.rule.parts

/-- Every rule begins with a reserved word. -/
theorem exists_parts_eq (named : NamedRule) :
    ∃ keyword more, named.parts = .keyword keyword :: more ∧ keyword ∈ reservedWords := by
  obtain ⟨name, rule⟩ := named
  cases name with
  | some name => exact ⟨_, _, rfl, by decide⟩
  | none =>
    cases rule with
    | generated always expression => cases always <;> exact ⟨_, _, rfl, by decide⟩
    | _ => exact ⟨_, _, rfl, by decide⟩

def isCapital (word : String) : Bool := !word.toList.isEmpty && word.toList.all Char.isUpper

def IsLexical : Part → Prop
  | .keyword word => isCapital word = true
  | _ => True

theorem isLexical_of_mem_actions {actions : List (Event × Action)} :
    ∀ part ∈ actions.flatMap actionParts, IsLexical part := by
  intro part hpart
  obtain ⟨⟨event, action⟩, -, hpart⟩ := List.mem_flatMap.mp hpart
  obtain ⟨word, hword, rfl⟩ := List.mem_map.mp hpart
  have hall : ∀ word ∈ "ON" :: event.keyword :: action.keywords, isCapital word = true := by
    cases event <;> cases action <;> decide
  exact hall word hword

theorem isLexical_of_mem_rule {rule : Rule} : ∀ part ∈ rule.parts, IsLexical part := by
  cases rule with
  | references table columns actions =>
    simp only [Rule.parts, List.forall_mem_cons]
    exact ⟨rfl, trivial, trivial, isLexical_of_mem_actions⟩
  | primaryKey order =>
    have horder : ∀ part ∈ order.toList.map fun order => Part.keyword order.keyword,
        IsLexical part := by
      rcases order with _ | _ | _
      · simp
      · exact List.forall_mem_singleton.mpr rfl
      · exact List.forall_mem_singleton.mpr rfl
    simp only [Rule.parts, List.forall_mem_cons]
    exact ⟨rfl, rfl, horder⟩
  | generated always expression =>
    have hexpression : ∀ part ∈ [Part.keyword "AS", .group expression], IsLexical part :=
      List.forall_mem_cons.mpr ⟨rfl, List.forall_mem_singleton.mpr trivial⟩
    cases always with
    | false => exact hexpression
    | true => exact List.forall_mem_cons.mpr ⟨rfl, List.forall_mem_cons.mpr ⟨rfl, hexpression⟩⟩
  | _ =>
    simp only [Rule.parts, List.forall_mem_cons, List.not_mem_nil, false_implies, implies_true,
      and_true, IsLexical]
    decide

theorem isLexical_of_mem_parts {named : NamedRule} : ∀ part ∈ named.parts, IsLexical part := by
  obtain ⟨name, rule⟩ := named
  intro part hpart
  rcases List.mem_append.mp hpart with h | h
  · obtain ⟨quotation, -, h⟩ := List.mem_flatMap.mp h
    have hname : ∀ part ∈ [Part.keyword "CONSTRAINT", .quoted quotation], IsLexical part :=
      List.forall_mem_cons.mpr ⟨rfl, List.forall_mem_singleton.mpr trivial⟩
    exact hname part h
  · exact isLexical_of_mem_rule part h

def defaults (rules : List NamedRule) : List Default :=
  rules.filterMap fun named => named.rule.default?

structure DeclaredType where
  words : List BareWord
  ne_nil : words ≠ []
  spaced : Bool
  arguments : Option SizeArguments

def DeclaredType.dataType (type : DeclaredType) : Text :=
  [' '].intercalate (type.words.map BareWord.text)

def DeclaredType.argumentsText (type : DeclaredType) : Text :=
  match type.arguments with
  | none => []
  | some arguments => (if type.spaced then [' '] else []) ++ parenthesize arguments.text

def DeclaredType.text (type : DeclaredType) : Text := type.dataType ++ type.argumentsText

def DeclaredType.size (type : DeclaredType) : TypeSize :=
  match type.arguments with
  | none => .unsized
  | some arguments => arguments.size

/-- At most one rule of a definition gives a default value. -/
structure Definition where
  name : Text
  type : Option DeclaredType
  rules : List NamedRule
  soleDefault : (defaults rules).length ≤ 1

def Definition.parts (definition : Definition) : List Part :=
  definition.rules.flatMap NamedRule.parts

def Definition.textWith (definition : Definition) (spellings : List Text) : Text :=
  backticked definition.name ++
    (definition.type.toList.map DeclaredType.text ++ spellings).flatMap (' ' :: ·)

def Definition.text (definition : Definition) : Text :=
  definition.textWith (definition.parts.map Part.text)

def Definition.IsWrittenAs (definition : Definition) (text : Text) : Prop :=
  ∃ spellings, List.Forall₂ Part.IsWrittenAs definition.parts spellings ∧
    text = definition.textWith spellings

theorem isWrittenAs_definition (definition : Definition) :
    definition.IsWrittenAs definition.text :=
  ⟨definition.parts.map Part.text,
    List.forall₂_map_right_iff.mpr (List.forall₂_same.mpr fun part _ => isWrittenAs_text part), rfl⟩

def Definition.states (definition : Definition) (states : Rule → Bool) : Bool :=
  definition.rules.any fun named => states named.rule

def Definition.column (definition : Definition) : Column where
  name := definition.name
  dataType := (definition.type.map DeclaredType.dataType).getD []
  columnType := (definition.type.map DeclaredType.text).getD []
  size := (definition.type.map DeclaredType.size).getD .unsized
  defaultValue := (defaults definition.rules).head?.map Default.value
  isNullable := !definition.states fun rule => rule matches .notNull
  isPrimaryKey := definition.states fun rule => rule matches .primaryKey _
  isUnique := definition.states fun rule => rule matches .unique
  isAutoIncrement := definition.states fun rule => rule matches .autoIncrement
  isGenerated := definition.states fun rule => rule matches .generated _ _

end SqliteSchema.Proofs.ColumnSyntax
