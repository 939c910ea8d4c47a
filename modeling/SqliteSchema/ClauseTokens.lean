import SqliteSchema.Quoting

/-!
A clause read as words, quoted runs, parenthesized groups and the symbols that
stand between them. A run or a group that the text does not close reaches to the
end of the text. Each token keeps the blank characters before it, so a clause is
the concatenation of its tokens and a blank end.
-/
namespace SqliteSchema.ClauseTokens

open PlainText Quoting

inductive TokenKind where
  | word
  | quoted
  | group
  | symbol
  deriving DecidableEq

structure Token where
  gap : Text
  kind : TokenKind
  text : Text
  deriving DecidableEq

def push (front : Text) (part : Text × Text) : Text × Text := (front ++ part.1, part.2)

/-- The rest of a quoted run up to its delimiter, and what follows. A doubled
delimiter is content. -/
def closeQuote? (close : Char) : Text → Option (Text × Text)
  | [] => none
  | [c] => if c = close then some ([c], []) else none
  | c :: d :: rest =>
      if c = close then
        if d = close then (closeQuote? close rest).map (push [c, d])
        else some ([c], d :: rest)
      else (closeQuote? close (d :: rest)).map (push [c])

private theorem map_push_append {front rest run after : Text} {part : Option (Text × Text)}
    (hpart : ∀ read left, part = some (read, left) → read ++ left = rest)
    (h : part.map (push front) = some (run, after)) : run ++ after = front ++ rest := by
  obtain ⟨⟨read, left⟩, hsome, hpush⟩ := Option.map_eq_some_iff.mp h
  obtain ⟨rfl, rfl⟩ := Prod.mk.inj hpush
  rw [← hpart read left hsome, List.append_assoc]

theorem closeQuote?_append {close : Char} {text run after : Text}
    (h : closeQuote? close text = some (run, after)) : run ++ after = text := by
  fun_induction closeQuote? close text generalizing run after with
  | case1 => simp at h
  | case2 | case3 => simp_all
  | case4 rest ih => exact map_push_append (fun _ _ => ih) h
  | case5 c rest hne =>
    obtain ⟨rfl, rfl⟩ := Prod.mk.inj (Option.some.inj h)
    rfl
  | case6 c d rest hne ih => exact map_push_append (fun _ _ => ih) h

def closeGroup? (depth : Nat) : Text → Option (Text × Text)
  | [] => none
  | c :: rest =>
      if c = '(' then (closeGroup? (depth + 1) rest).map (push [c])
      else if c = ')' then
        if depth = 0 then some ([c], rest) else (closeGroup? (depth - 1) rest).map (push [c])
      else
        match closingDelimiter? c with
        | none => (closeGroup? depth rest).map (push [c])
        | some close =>
            match _ : closeQuote? close rest with
            | none => none
            | some (run, after) => (closeGroup? depth after).map (push (c :: run))
termination_by text => text.length
decreasing_by
  any_goals exact Nat.lt_succ_self _
  have hlen := congrArg List.length
    (closeQuote?_append ‹closeQuote? close rest = some (run, after)›)
  simp only [List.length_append, List.length_cons] at hlen ⊢
  omega

theorem closeGroup?_append {depth : Nat} {text run after : Text}
    (h : closeGroup? depth text = some (run, after)) : run ++ after = text := by
  fun_induction closeGroup? depth text generalizing run after with
  | case1 => simp at h
  | case2 depth rest ih => exact map_push_append (fun _ _ => ih) h
  | case3 rest =>
    obtain ⟨rfl, rfl⟩ := Prod.mk.inj (Option.some.inj h)
    rfl
  | case4 depth rest hdepth hne ih => exact map_push_append (fun _ _ => ih) h
  | case5 depth c rest hopen hclose hquote ih => exact map_push_append (fun _ _ => ih) h
  | case6 => simp at h
  | case7 depth c rest hopen hclose close hquote quoted left hquoted ih =>
    rw [← closeQuote?_append hquoted]
    exact map_push_append (fun _ _ => ih) h

def isWordChar (c : Char) : Bool :=
  !(isBlank c || c == '(' || c == ')' || c == ',' || (closingDelimiter? c).isSome)

def lexeme (first : Char) (rest : Text) : TokenKind × Text × Text :=
  if first = '(' then (.group, (closeGroup? 0 rest).getD (rest, []))
  else if first = ')' ∨ first = ',' then (.symbol, [], rest)
  else
    match closingDelimiter? first with
    | some close => (.quoted, (closeQuote? close rest).getD (rest, []))
    | none => (.word, rest.takeWhile isWordChar, rest.dropWhile isWordChar)

theorem lexeme_append (first : Char) (rest : Text) :
    (lexeme first rest).2.1 ++ (lexeme first rest).2.2 = rest := by
  unfold lexeme
  split
  · cases hpart : closeGroup? 0 rest with
    | none => simp
    | some part => exact closeGroup?_append hpart
  · split
    · rfl
    · split
      · rename_i close _
        cases hpart : closeQuote? close rest with
        | none => simp
        | some part => exact closeQuote?_append hpart
      · exact List.takeWhile_append_dropWhile

def tokensOf (text : Text) : List Token :=
  match _ : text.dropWhile isBlank with
  | [] => []
  | first :: rest =>
      let part := lexeme first rest
      ⟨text.takeWhile isBlank, part.1, first :: part.2.1⟩ :: tokensOf part.2.2
termination_by text.length
decreasing_by
  have hpart := congrArg List.length (lexeme_append first rest)
  have htext := (List.dropWhile_suffix isBlank (l := text)).length_le
  simp only [‹text.dropWhile isBlank = first :: rest›, List.length_cons] at htext
  simp only [List.length_append] at hpart
  omega

def Token.spells (keyword : String) (token : Token) : Bool :=
  token.kind == .word && sameLetters token.text keyword.toList

def Token.isGroup (token : Token) : Bool := token.kind == .group

def Token.isName (token : Token) : Bool := token.kind == .word || token.kind == .quoted

/-- The text between the parentheses of a group. A group that the text does not
close counts as closed if it happens to end with a parenthesis, and otherwise
stands whole. -/
def Token.inside (token : Token) : Text :=
  match token.kind, token.text with
  | .group, '(' :: rest => if rest.getLast? = some ')' then rest.dropLast else token.text
  | _, _ => token.text

def slice : List Token → Text
  | [] => []
  | first :: rest => first.text ++ rest.flatMap fun token => token.gap ++ token.text

def startsWith (keyword : String) (tokens : List Token) : Bool :=
  tokens.head?.any (Token.spells keyword)

end SqliteSchema.ClauseTokens
