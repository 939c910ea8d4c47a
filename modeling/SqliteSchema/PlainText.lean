/-!
A text is the list of its characters. A blank character is one with the Unicode
property White_Space, and trimming removes the blank characters at both ends.
Words are compared without regard to case within ASCII only, so a letter
outside ASCII matches nothing but itself.
-/
namespace SqliteSchema.PlainText

abbrev Text := List Char

def inRanges (ranges : List (Nat × Nat)) (c : Char) : Bool :=
  ranges.any fun range => range.1 ≤ c.toNat && c.toNat ≤ range.2

def blankRanges : List (Nat × Nat) :=
  [(0x9, 0xD), (0x20, 0x20), (0x85, 0x85), (0xA0, 0xA0), (0x1680, 0x1680), (0x2000, 0x200A),
   (0x2028, 0x2029), (0x202F, 0x202F), (0x205F, 0x205F), (0x3000, 0x3000)]

def isBlank (c : Char) : Bool := inRanges blankRanges c

def trimEnd (drops : Char → Bool) (text : Text) : Text :=
  (text.reverse.dropWhile drops).reverse

def trim (text : Text) : Text := trimEnd isBlank (text.dropWhile isBlank)

def sameLetters (left right : Text) : Bool :=
  left.map Char.toLower == right.map Char.toLower

end SqliteSchema.PlainText
