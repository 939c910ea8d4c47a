import SqliteSchema.LetterCaseRanges

/-!
Lower case and capitals of a whole text. Lower case follows Unicode in full: the
dotted capital I becomes two characters, and a capital sigma at the end of a word
takes its final form. Capitals are only compared with ASCII words here, so they
are computed for the characters whose capitals are ASCII and for no others.
-/
namespace SqliteSchema.LetterCase

open PlainText LetterCaseRanges

def lowerChar (c : Char) : Text :=
  if c.toNat < 128 then [c.toLower]
  else if c = '\u0130' then ['i', '\u0307']
  else
    match capitalRuns.find? fun run => run.contains c.toNat with
    | some run => [Char.ofNat (run.lowered c.toNat)]
    | none => [c]

def meetsCased (text : Text) : Bool := (text.dropWhile isCaseIgnorable).head?.any isCased

/-- A sigma is final if a cased letter comes before it and none after it. The
characters before it are given backwards. -/
def lowerFrom (before : Text) : Text → Text
  | [] => []
  | c :: rest =>
      (if c = 'Σ' then [if meetsCased before && !meetsCased rest then 'ς' else 'σ']
        else lowerChar c) ++ lowerFrom (c :: before) rest

def lower (text : Text) : Text := lowerFrom [] text

def asciiCapitals : List (Char × String) :=
  [('ß', "SS"), ('ı', "I"), ('ſ', "S"), ('ﬀ', "FF"), ('ﬁ', "FI"), ('ﬂ', "FL"), ('ﬃ', "FFI"),
   ('ﬄ', "FFL"), ('ﬅ', "ST"), ('ﬆ', "ST")]

def capitalsOf (c : Char) : Text :=
  match asciiCapitals.lookup c with
  | some capitals => capitals.toList
  | none => [c.toUpper]

/-- The capitals of a text where they are ASCII; any other character stays and
so keeps the text from equalling an ASCII word. -/
def capitals (text : Text) : Text := text.flatMap capitalsOf

end SqliteSchema.LetterCase
