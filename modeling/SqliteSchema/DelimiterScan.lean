import SqliteSchema.Quoting

/-!
A left-to-right scan that knows at every character whether it lies in a quoted
run and how many parentheses are open. A closing delimiter ends a run unless the
next character repeats it, so the scan remembers that it has just passed one
instead of looking ahead. An unmatched closing parenthesis leaves no depth at
all, and a text is balanced when its scan ends outside quotes at depth zero.
-/
namespace SqliteSchema.DelimiterScan

open PlainText Quoting

/-- Outside quotes, inside a run, or just past a delimiter that ends its run
unless it is repeated. -/
inductive Mode where
  | plain
  | quoted (close : Char)
  | closed (close : Char)
  deriving DecidableEq

def Mode.opened (c : Char) : Mode :=
  match closingDelimiter? c with
  | some close => .quoted close
  | none => .plain

def Mode.next : Mode → Char → Mode
  | .plain, c => .opened c
  | .quoted close, c => if c = close then .closed close else .quoted close
  | .closed close, c => if c = close then .quoted close else .opened c

def depthAfter (depth : Option Nat) (c : Char) : Option Nat :=
  if c = '(' then depth.map (· + 1)
  else if c = ')' then depth.bind fun count => if count = 0 then none else some (count - 1)
  else depth

structure Scan where
  mode : Mode
  depth : Option Nat
  deriving DecidableEq

def start : Scan := ⟨.plain, some 0⟩

/-- Parentheses count only where the scan stays outside quotes. -/
def Scan.step (scan : Scan) (c : Char) : Scan :=
  let mode := scan.mode.next c
  ⟨mode, if mode = .plain then depthAfter scan.depth c else scan.depth⟩

def Scan.run (scan : Scan) (text : Text) : Scan := text.foldl Scan.step scan

def Scan.insideRun (scan : Scan) : Bool :=
  match scan.mode with
  | .quoted _ => true
  | _ => false

def Scan.isBalanced (scan : Scan) : Bool := !scan.insideRun && scan.depth == some 0

def isBalanced (text : Text) : Bool := (start.run text).isBalanced

structure Cell where
  char : Char
  scan : Scan
  deriving DecidableEq

/-- A character belongs to a quoted run, delimiters included, unless the scan is
outside quotes just past it. -/
def Cell.isQuoted (cell : Cell) : Bool := cell.scan.mode != .plain

def Cell.isPlain (c : Char) (cell : Cell) : Bool := !cell.isQuoted && cell.char == c

def Cell.isTopLevel (cell : Cell) : Bool := cell.scan.depth == some 0

def cellsFrom (scan : Scan) : Text → List Cell
  | [] => []
  | c :: rest => ⟨c, scan.step c⟩ :: cellsFrom (scan.step c) rest

def cells (text : Text) : List Cell := cellsFrom start text

theorem cellsFrom_append (scan : Scan) (left right : Text) :
    cellsFrom scan (left ++ right) = cellsFrom scan left ++ cellsFrom (scan.run left) right := by
  induction left generalizing scan with
  | nil => rfl
  | cons c rest ih => exact congrArg (List.cons _) (ih (scan.step c))

theorem map_char_cellsFrom (scan : Scan) (text : Text) :
    (cellsFrom scan text).map Cell.char = text := by
  induction text generalizing scan with
  | nil => rfl
  | cons c rest ih => exact congrArg (List.cons c) (ih (scan.step c))

end SqliteSchema.DelimiterScan
