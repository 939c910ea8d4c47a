import SqliteSchema.AlphabeticRanges
import SqliteSchema.ClauseTokens

/-!
The headers of the two statements this library reads,

  CREATE TABLE [IF NOT EXISTS] name
  CREATE [UNIQUE] INDEX [IF NOT EXISTS] name ON table

with spaces, tabs and line ends between the parts. A keyword is written in any
case and ends where no letter, digit or underscore of ASCII follows. Parts are
taken from the left and never given back, so an optional part that can be read
is read.
-/
namespace SqliteSchema.StatementHeaders

open PlainText Quoting ClauseTokens AlphabeticRanges

def isHeaderSpace (c : Char) : Bool := c == ' ' || c == '\t' || c == '\r' || c == '\n'

def skipSpace (text : Text) : Text := text.dropWhile isHeaderSpace

def extendsKeyword (c : Char) : Bool := c.isAlphanum || c == '_'

def keyword? (keyword : String) (text : Text) : Option Text :=
  let word := keyword.toList
  let found := (skipSpace text).take word.length
  let rest := (skipSpace text).drop word.length
  if sameLetters found word && !rest.head?.any extendsKeyword then some rest else none

def isBareChar (c : Char) : Bool :=
  c.isDigit || isAlphabetic c || c == '_' || c == '-' || c == '$' || c == '.'

/-- A name in brackets, which ends at the first closing bracket. -/
def bracketName? (rest : Text) : Option (Text × Text) :=
  match rest.dropWhile (· != ']') with
  | [] => none
  | close :: after => some ('[' :: rest.takeWhile (· != ']') ++ [close], after)

def identifier? (text : Text) : Option (Text × Text) :=
  match skipSpace text with
  | [] => none
  | first :: rest =>
      if first = '[' then bracketName? rest
      else if first = '\x60' ∨ first = '\x22' then (closeQuote? first rest).map (push [first])
      else if isBareChar first then
        some (first :: rest.takeWhile isBareChar, rest.dropWhile isBareChar)
      else none

def ifNotExists? (text : Text) : Option Text := do
  let text ← keyword? "IF" text
  let text ← keyword? "NOT" text
  keyword? "EXISTS" text

def skipOptional (part? : Text → Option Text) (text : Text) : Text := (part? text).getD text

/-- A table header with the text after it. Without a name the header includes
the space in which the name was sought. -/
structure TableHeading where
  name : Option Text
  ifNotExists : Bool
  rest : Text
  deriving DecidableEq

structure IndexHeading where
  name : Text
  table : Text
  isUnique : Bool
  rest : Text
  deriving DecidableEq

inductive Header where
  | table (header : TableHeading)
  | index (header : IndexHeading)
  deriving DecidableEq

def tableHeader? (statement : Text) : Option TableHeading := do
  let text ← keyword? "CREATE" statement
  let text ← keyword? "TABLE" text
  let ifNotExists := (ifNotExists? text).isSome
  let text := skipOptional ifNotExists? text
  match identifier? text with
  | some (name, rest) => some ⟨some name, ifNotExists, rest⟩
  | none => some ⟨none, ifNotExists, skipSpace text⟩

def indexHeader? (statement : Text) : Option IndexHeading := do
  let text ← keyword? "CREATE" statement
  let isUnique := (keyword? "UNIQUE" text).isSome
  let text ← keyword? "INDEX" (skipOptional (keyword? "UNIQUE") text)
  let (name, text) ← identifier? (skipOptional ifNotExists? text)
  let text ← keyword? "ON" text
  let (table, rest) ← identifier? text
  return ⟨name, table, isUnique, rest⟩

def readHeader? (statement : Text) : Option Header :=
  match tableHeader? statement with
  | some header => some (.table header)
  | none => (indexHeader? statement).map .index

end SqliteSchema.StatementHeaders
