import SqliteSchema.PlainText

/-!
The arguments of a column type, as in varchar(255) or decimal(10, 2): one or two
signed integers of 64 bits.
-/
namespace SqliteSchema.TypeArguments

open PlainText

inductive TypeSize where
  | unsized
  | length (count : Int)
  | decimal (precision scale : Int)
  deriving DecidableEq

def TypeSize.length? : TypeSize → Option Int
  | .length count => some count
  | _ => none

def TypeSize.decimal? : TypeSize → Option (Int × Int)
  | .decimal precision scale => some (precision, scale)
  | _ => none

def natural? (digits : Text) : Option Nat :=
  if !digits.isEmpty && digits.all Char.isDigit then
    some (digits.foldl (fun value c => 10 * value + (c.toNat - '0'.toNat)) 0)
  else none

def inWord (value : Int) : Bool :=
  -9223372036854775808 ≤ value && value ≤ 9223372036854775807

def integer? (text : Text) : Option Int :=
  let value? : Option Int :=
    match text with
    | '-' :: digits => (natural? digits).map fun value => -(value : Int)
    | '+' :: digits => (natural? digits).map Int.ofNat
    | digits => (natural? digits).map Int.ofNat
  value?.filter inWord

def typeSize? (arguments : Text) : Option TypeSize :=
  match (arguments.splitOn ',').mapM fun argument => integer? (trim argument) with
  | some [count] => some (.length count)
  | some [precision, scale] => some (.decimal precision scale)
  | _ => none

end SqliteSchema.TypeArguments
