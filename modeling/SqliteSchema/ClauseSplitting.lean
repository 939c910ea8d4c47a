import SqliteSchema.DelimiterScan
import SqliteSchema.Faults

/-!
Splitting a balanced text at a separator that stands outside quotes and
parentheses, and cutting out its first parenthesized group. Every piece is
squeezed: a run of blank characters outside quotes becomes one space between two
words and disappears at the ends, quoted runs keep what they hold, and a piece
with nothing left is dropped.
-/
namespace SqliteSchema.ClauseSplitting

open PlainText DelimiterScan Faults

def isGap (cell : Cell) : Bool := !cell.isQuoted && isBlank cell.char

def isSeparator (separator : Char) (cell : Cell) : Bool :=
  cell.isPlain separator && cell.isTopLevel

def isFilled {α : Type} (items : List α) : Bool := !items.isEmpty

def words (piece : List Cell) : List Text :=
  ((piece.splitOnP isGap).filter isFilled).map fun word => word.map Cell.char

def squeeze (piece : List Cell) : Text := [' '].intercalate (words piece)

def pieces (separator : Char) (text : Text) : List Text :=
  (((cells text).splitOnP (isSeparator separator)).map squeeze).filter isFilled

def separate (separator : Char) (text : Text) : Except Fault (List Text) :=
  if isBalanced text then .ok (pieces separator text) else .error (.unbalanced text)

def separateClauses (body : Text) : Except Fault (List Text) := separate ',' body

def separateStatements (batch : Text) : Except Fault (List Text) := separate ';' batch

structure Parenthesized where
  body : Text
  tail : Text
  deriving DecidableEq

def opensGroup (cell : Cell) : Bool := cell.isPlain '('

def closesGroup (cell : Cell) : Bool := cell.isPlain ')' && cell.isTopLevel

/-- Cuts at the first open parenthesis and at the first closing one that returns
to depth zero. -/
def firstGroup? (text : Text) : Option Parenthesized :=
  match (cells text).dropWhile fun cell => !opensGroup cell with
  | [] => none
  | _ :: rest =>
      some {
        body := (rest.takeWhile fun cell => !closesGroup cell).map Cell.char
        tail := ((rest.dropWhile fun cell => !closesGroup cell).drop 1).map Cell.char }

def parenthesized (text : Text) : Except Fault (Option Parenthesized) :=
  if isBalanced text then .ok (firstGroup? text) else .error (.unbalanced text)

end SqliteSchema.ClauseSplitting
