import SqliteSchema.PlainText

/-!
Quoted identifiers and literals. Three styles use one delimiter on both sides
and write it twice where it occurs inside; the bracket style closes with a
different character and has no way to write that character.
-/
namespace SqliteSchema.Quoting

open PlainText

def closingDelimiter? (opening : Char) : Option Char :=
  if opening = '\x60' ∨ opening = '\x22' ∨ opening = '\x27' then some opening
  else if opening = '[' then some ']'
  else none

def double (delimiter : Char) (text : Text) : Text :=
  text.flatMap fun c => if c = delimiter then [c, c] else [c]

def halve (delimiter : Char) : Text → Text
  | [] => []
  | [c] => [c]
  | c :: d :: rest =>
      if c = delimiter ∧ d = delimiter then delimiter :: halve delimiter rest
      else c :: halve delimiter (d :: rest)

/-- Strips one level of quoting. A text that does not end with the delimiter
closing its first character is already bare and stays as it is. -/
def bareText : Text → Text
  | [] => []
  | opening :: rest =>
      match closingDelimiter? opening, rest.getLast? with
      | some close, some last =>
          if last = close then
            if opening = '[' then rest.dropLast else halve close rest.dropLast
          else opening :: rest
      | _, _ => opening :: rest

def backticked (name : Text) : Text := '\x60' :: double '\x60' name ++ ['\x60']

end SqliteSchema.Quoting
