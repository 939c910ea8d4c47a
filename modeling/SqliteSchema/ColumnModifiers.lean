import SqliteSchema.ClauseTokens
import SqliteSchema.LetterCase

/-!
What a column definition says after the type: flags such as NOT NULL and UNIQUE,
and a default value. The modifiers are read off the tokens from left to right.
The name that follows CONSTRAINT is passed over, and the words of a default value
are not read as modifiers.
-/
namespace SqliteSchema.ColumnModifiers

open PlainText Quoting ClauseTokens LetterCase

inductive Modifier where
  | notNull
  | primaryKey
  | unique
  | autoIncrement
  | generated
  | defaultValue (value : Text)
  deriving DecidableEq

def Modifier.default? : Modifier → Option Text
  | .defaultValue value => some value
  | _ => none

def reservedWords : List String :=
  ["CONSTRAINT", "PRIMARY", "NOT", "NULL", "UNIQUE", "CHECK", "DEFAULT", "COLLATE",
   "REFERENCES", "GENERATED", "AS", "AUTOINCREMENT", "ON"]

/-- A word that ends a type or a default value. Its case is disregarded beyond ASCII. -/
def isReserved (token : Token) : Bool :=
  token.kind == .word && reservedWords.any fun word => capitals token.text == word.toList

/-- The tokens of a default value at the front of a clause's rest. The word NULL
is a value only where no other value stands. -/
def defaultTokens (tokens : List Token) : List Token :=
  let value := tokens.takeWhile fun token => !isReserved token
  if value.isEmpty && startsWith "NULL" tokens then tokens.take 1 else value

/-- A quoted literal loses its quotes and an expression all of its enclosing
parentheses; any other value is kept as written. The comparison of lengths only makes
the function total: unwrapping a group that the text does not close may come back to the
same text and has no end, so the value given for it there means nothing. A clause of a
table body is balanced, and its groups close. -/
def bareValue (raw : Text) : Text :=
  match tokensOf raw with
  | [token] =>
      match token.kind with
      | .quoted => bareText token.text
      | .group =>
          if (trim token.inside).length < raw.length then bareValue (trim token.inside) else raw
      | _ => raw
  | _ => raw
termination_by raw.length

def opensGenerated (token : Token) (rest : List Token) : Bool :=
  token.spells "GENERATED" || (token.spells "AS" && rest.head?.any Token.isGroup)

/-- Reads the modifiers after a token that has been passed. The action SET
DEFAULT of a reference sets no default value. -/
def modifiersAfter (previous : Option Token) : List Token → List Modifier
  | [] => []
  | token :: rest =>
      if token.spells "NOT" && startsWith "NULL" rest then
        .notNull :: modifiersAfter rest.head? rest.tail
      else if token.spells "PRIMARY" && startsWith "KEY" rest then
        .primaryKey :: modifiersAfter rest.head? rest.tail
      else if token.spells "UNIQUE" then .unique :: modifiersAfter (some token) rest
      else if token.spells "AUTOINCREMENT" then
        .autoIncrement :: modifiersAfter (some token) rest
      else if opensGenerated token rest then .generated :: modifiersAfter (some token) rest
      else if token.spells "CONSTRAINT" then modifiersAfter rest.head? rest.tail
      else if token.spells "DEFAULT" && !previous.any (Token.spells "SET") then
        let value := defaultTokens rest
        let left := modifiersAfter (token :: value).getLast? (rest.drop value.length)
        if value.isEmpty then left else .defaultValue (bareValue (slice value)) :: left
      else modifiersAfter (some token) rest
termination_by tokens => tokens.length
decreasing_by
  all_goals simp only [List.length_cons, List.length_tail, List.length_drop]
  all_goals omega

def modifiers (tokens : List Token) : List Modifier := modifiersAfter none tokens

def defaultValue? (found : List Modifier) : Option Text :=
  (found.filterMap Modifier.default?).getLast?

end SqliteSchema.ColumnModifiers
