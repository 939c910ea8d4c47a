import SqliteSchema.ClauseTokens
import SqliteSchema.Proofs.BalancedTexts

/-!
Runs that one mark opens and closes. Doubling the mark inside lets any text be
quoted: unquoting, the reader of runs and the scan all end the run at the mark
that was put at its end.
-/
namespace SqliteSchema.Proofs.QuotedRuns

open PlainText Quoting DelimiterScan ClauseTokens BalancedTexts

def IsQuoteMark (mark : Char) : Prop := closingDelimiter? mark = some mark

theorem isQuoteMark_backtick : IsQuoteMark '\x60' := rfl

theorem isQuoteMark_double : IsQuoteMark '\x22' := rfl

theorem isQuoteMark_single : IsQuoteMark '\x27' := rfl

theorem eq_of_isQuoteMark {mark : Char} (h : IsQuoteMark mark) :
    mark = '\x60' ∨ mark = '\x22' ∨ mark = '\x27' := by
  unfold IsQuoteMark closingDelimiter? at h
  split_ifs at h with hquote hbracket
  · exact hquote
  · rw [hbracket] at h
    simp at h

theorem ne_bracket_of_isQuoteMark {mark : Char} (h : IsQuoteMark mark) : mark ≠ '[' := by
  rcases eq_of_isQuoteMark h with rfl | rfl | rfl <;> decide

def quotedBy (mark : Char) (text : Text) : Text := mark :: double mark text ++ [mark]

theorem backticked_eq_quotedBy (name : Text) : backticked name = quotedBy '\x60' name := rfl

theorem double_nil (mark : Char) : double mark [] = [] := rfl

theorem double_cons_self (mark : Char) (rest : Text) :
    double mark (mark :: rest) = mark :: mark :: double mark rest := by
  simp [double]

theorem double_cons_of_ne {mark c : Char} (hne : c ≠ mark) (rest : Text) :
    double mark (c :: rest) = c :: double mark rest := by
  simp [double, hne]

theorem halve_cons_of_ne {mark c : Char} (hne : c ≠ mark) (rest : Text) :
    halve mark (c :: rest) = c :: halve mark rest := by
  cases rest with
  | nil => rfl
  | cons d more => simp [halve, hne]

/-- Taking pairs from the left undoes doubling. -/
theorem halve_double (mark : Char) (text : Text) : halve mark (double mark text) = text := by
  induction text with
  | nil => rfl
  | cons c rest ih =>
    by_cases hc : c = mark
    · subst c
      rw [double_cons_self, halve, if_pos ⟨rfl, rfl⟩, ih]
    · rw [double_cons_of_ne hc, halve_cons_of_ne hc, ih]

/-- Unquoting gives back what was quoted, whatever it holds. -/
theorem bareText_quotedBy {mark : Char} (hmark : IsQuoteMark mark) (text : Text) :
    bareText (quotedBy mark text) = text := by
  have hclose : closingDelimiter? mark = some mark := hmark
  simp [quotedBy, bareText, hclose, ne_bracket_of_isQuoteMark hmark, halve_double]

theorem closeQuote?_cons_of_ne {mark c : Char} (hne : c ≠ mark) (rest : Text) :
    closeQuote? mark (c :: rest) = (closeQuote? mark rest).map (push [c]) := by
  cases rest with
  | nil => simp [closeQuote?, hne]
  | cons d more => rw [closeQuote?, if_neg hne]

theorem closeQuote?_cons_self {mark : Char} {rest : Text} (hrest : rest.head? ≠ some mark) :
    closeQuote? mark (mark :: rest) = some ([mark], rest) := by
  cases rest with
  | nil => simp [closeQuote?]
  | cons d more =>
    have hne : d ≠ mark := by simpa using hrest
    rw [closeQuote?, if_pos rfl, if_neg hne]

/-- A run ends at the mark put behind it, whatever marks are doubled inside. -/
theorem closeQuote?_double (mark : Char) (text : Text) {rest : Text}
    (hrest : rest.head? ≠ some mark) :
    closeQuote? mark (double mark text ++ mark :: rest) =
      some (double mark text ++ [mark], rest) := by
  induction text with
  | nil => exact closeQuote?_cons_self hrest
  | cons c more ih =>
    by_cases hc : c = mark
    · subst c
      rw [double_cons_self, List.cons_append, List.cons_append, closeQuote?, if_pos rfl,
        if_pos rfl, ih]
      rfl
    · rw [double_cons_of_ne hc, List.cons_append, closeQuote?_cons_of_ne hc, ih]
      rfl

/-- Whatever the reader takes for the rest of a run is some text with its mark doubled. -/
theorem exists_double_of_closeQuote? {mark : Char} {text run after : Text}
    (h : closeQuote? mark text = some (run, after)) :
    ∃ inside, run = double mark inside ++ [mark] := by
  fun_induction closeQuote? mark text generalizing run after with
  | case1 => simp at h
  | case2 =>
    obtain ⟨rfl, rfl⟩ := Prod.mk.inj (Option.some.inj h)
    exact ⟨[], rfl⟩
  | case3 => simp at h
  | case4 rest ih =>
    obtain ⟨⟨read, left⟩, hread, hpush⟩ := Option.map_eq_some_iff.mp h
    obtain ⟨rfl, rfl⟩ := Prod.mk.inj hpush
    obtain ⟨inside, rfl⟩ := ih hread
    exact ⟨mark :: inside, by rw [double_cons_self]; rfl⟩
  | case5 =>
    obtain ⟨rfl, rfl⟩ := Prod.mk.inj (Option.some.inj h)
    exact ⟨[], rfl⟩
  | case6 c d rest hne ih =>
    obtain ⟨⟨read, left⟩, hread, hpush⟩ := Option.map_eq_some_iff.mp h
    obtain ⟨rfl, rfl⟩ := Prod.mk.inj hpush
    obtain ⟨inside, rfl⟩ := ih hread
    exact ⟨c :: inside, by rw [double_cons_of_ne hne]; rfl⟩

theorem step_opening {scan : Scan} (hscan : scan.mode = .plain) {opening close : Char}
    (h : closingDelimiter? opening = some close) :
    scan.step opening = ⟨.quoted close, scan.depth⟩ := by
  simp [Scan.step, hscan, Mode.next, Mode.opened, h]

theorem step_quoted_of_ne {c close : Char} (hne : c ≠ close) (depth : Option Nat) :
    Scan.step ⟨.quoted close, depth⟩ c = ⟨.quoted close, depth⟩ := by
  simp [Scan.step, Mode.next, hne]

theorem step_quoted_self (close : Char) (depth : Option Nat) :
    Scan.step ⟨.quoted close, depth⟩ close = ⟨.closed close, depth⟩ := by
  simp [Scan.step, Mode.next]

theorem step_closed_self (close : Char) (depth : Option Nat) :
    Scan.step ⟨.closed close, depth⟩ close = ⟨.quoted close, depth⟩ := by
  simp [Scan.step, Mode.next]

/-- A doubled text keeps the scan inside its run. -/
theorem run_double (mark : Char) (depth : Option Nat) (text : Text) :
    Scan.run ⟨.quoted mark, depth⟩ (double mark text) = ⟨.quoted mark, depth⟩ := by
  induction text with
  | nil => rfl
  | cons c rest ih =>
    by_cases hc : c = mark
    · subst c
      rw [double_cons_self, run_cons, run_cons, step_quoted_self, step_closed_self, ih]
    · rw [double_cons_of_ne hc, run_cons, step_quoted_of_ne hc, ih]

theorem isQuoted_of_mem_double {mark : Char} {depth : Option Nat} {text : Text} {cell : Cell}
    (h : cell ∈ cellsFrom ⟨.quoted mark, depth⟩ (double mark text)) : cell.isQuoted = true := by
  induction text with
  | nil => simp [double_nil, cellsFrom] at h
  | cons c rest ih =>
    by_cases hc : c = mark
    · subst c
      rw [double_cons_self, cellsFrom, cellsFrom, step_quoted_self, step_closed_self] at h
      rcases List.mem_cons.mp h with rfl | h
      · rfl
      · rcases List.mem_cons.mp h with rfl | h
        · rfl
        · exact ih h
    · rw [double_cons_of_ne hc, cellsFrom, step_quoted_of_ne hc] at h
      rcases List.mem_cons.mp h with rfl | h
      · rfl
      · exact ih h

variable {mark : Char} {scan : Scan}

theorem run_quotedBy (hmark : IsQuoteMark mark) (hscan : scan.mode = .plain) (text : Text) :
    scan.run (quotedBy mark text) = ⟨.closed mark, scan.depth⟩ := by
  rw [quotedBy, List.cons_append, run_cons, step_opening hscan hmark, run_append, run_double,
    run_cons, run_nil, step_quoted_self]

/-- Every character of a quoted run is quoted, its marks included. -/
theorem isQuoted_of_mem_quotedBy (hmark : IsQuoteMark mark) (hscan : scan.mode = .plain)
    {text : Text} {cell : Cell} (h : cell ∈ cellsFrom scan (quotedBy mark text)) :
    cell.isQuoted = true := by
  rw [quotedBy, List.cons_append, cellsFrom, step_opening hscan hmark, cellsFrom_append,
    run_double, cellsFrom, step_quoted_self] at h
  rcases List.mem_cons.mp h with rfl | h
  · rfl
  · rcases List.mem_append.mp h with h | h
    · exact isQuoted_of_mem_double h
    · obtain rfl := List.mem_singleton.mp h
      rfl

end SqliteSchema.Proofs.QuotedRuns
