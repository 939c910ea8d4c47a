import SqliteSchema.PlainText

/-!
JSON on several lines: members and elements stand one to a line, two spaces
further in than their object or array, and an empty array keeps to its line.
Values are given as texts laid out for the depth at which they stand.
-/
namespace SqliteSchema.JsonLayout

open PlainText

def hexByte (code : Nat) : Text := [Nat.digitChar (code / 16), Nat.digitChar (code % 16)]

def escapeChar (c : Char) : Text :=
  match c with
  | '\x22' => ['\\', '\x22']
  | '\\' => ['\\', '\\']
  | '\x08' => ['\\', 'b']
  | '\t' => ['\\', 't']
  | '\n' => ['\\', 'n']
  | '\x0C' => ['\\', 'f']
  | '\r' => ['\\', 'r']
  | c => if c.toNat < 0x20 then "\\u00".toList ++ hexByte c.toNat else [c]

def string (text : Text) : Text := '\x22' :: text.flatMap escapeChar ++ ['\x22']

def boolean : Bool → Text
  | true => "true".toList
  | false => "false".toList

def integer : Int → Text
  | .ofNat value => Nat.toDigits 10 value
  | .negSucc value => '-' :: Nat.toDigits 10 (value + 1)

def nullable {α : Type} (layout : α → Text) : Option α → Text
  | some value => layout value
  | none => "null".toList

def newline (depth : Nat) : Text := '\n' :: List.replicate (2 * depth) ' '

def block (opening close : Char) (depth : Nat) (items : List Text) : Text :=
  match items with
  | [] => [opening, close]
  | _ =>
      opening :: newline (depth + 1) ++ (',' :: newline (depth + 1)).intercalate items ++
        newline depth ++ [close]

def array (depth : Nat) (items : List Text) : Text := block '[' ']' depth items

def member (item : String × Text) : Text := string item.1.toList ++ ": ".toList ++ item.2

def object (depth : Nat) (members : List (String × Text)) : Text :=
  block '\x7b' '\x7d' depth (members.map member)

end SqliteSchema.JsonLayout
