import SqliteSchema.ClauseSplitting
import SqliteSchema.ClauseTokens
import SqliteSchema.Proofs.FirstGroups
import SqliteSchema.Proofs.QuotedRuns

/-!
Quoted runs and groups, read off the front of a text and scanned. Both readers end
where the scan does: the rest of a run where the scan has just passed the delimiter,
the rest of a group at the first parenthesis that returns to depth zero, so that
what a group holds is exactly a balanced text.
-/
namespace SqliteSchema.Proofs.TokenScans

open PlainText Quoting DelimiterScan ClauseSplitting ClauseTokens BalancedTexts QuotedRuns
  FirstGroups

theorem head?_of_closeQuote? {close : Char} {text run after : Text}
    (h : closeQuote? close text = some (run, after)) : after.head? ≠ some close := by
  fun_induction closeQuote? close text generalizing run after with
  | case1 => simp at h
  | case2 =>
    obtain ⟨-, rfl⟩ := Prod.mk.inj (Option.some.inj h)
    simp
  | case3 => simp at h
  | case4 rest ih | case6 _ _ _ _ ih =>
    obtain ⟨⟨read, left⟩, hread, hpush⟩ := Option.map_eq_some_iff.mp h
    obtain ⟨-, rfl⟩ := Prod.mk.inj hpush
    exact ih hread
  | case5 d rest hne =>
    obtain ⟨-, rfl⟩ := Prod.mk.inj (Option.some.inj h)
    simpa using hne

/-- A run without an end holds its delimiter in pairs only. -/
theorem exists_double_of_closeQuote?_eq_none {close : Char} {text : Text}
    (h : closeQuote? close text = none) : ∃ inside, text = double close inside := by
  fun_induction closeQuote? close text with
  | case1 => exact ⟨[], rfl⟩
  | case2 => simp at h
  | case3 c hne => exact ⟨[c], by rw [double_cons_of_ne hne]; rfl⟩
  | case4 rest ih =>
    obtain ⟨inside, rfl⟩ := ih (Option.map_eq_none_iff.mp h)
    exact ⟨close :: inside, by rw [double_cons_self]⟩
  | case5 => simp at h
  | case6 c d rest hne ih =>
    obtain ⟨inside, hinside⟩ := ih (Option.map_eq_none_iff.mp h)
    exact ⟨c :: inside, by rw [double_cons_of_ne hne, hinside]⟩

variable {close : Char} {text run after : Text}

/-- The rest of a run is scanned inside quotes up to its delimiter. -/
theorem scan_closeQuote? (h : closeQuote? close text = some (run, after)) (depth : Option Nat) :
    Scan.run ⟨.quoted close, depth⟩ run = ⟨.closed close, depth⟩ ∧
      ∀ cell ∈ cellsFrom ⟨.quoted close, depth⟩ run, cell.isQuoted = true := by
  obtain ⟨inside, rfl⟩ := exists_double_of_closeQuote? h
  constructor
  · rw [run_append, run_double, run_cons, run_nil, step_quoted_self]
  · intro cell hcell
    rw [cellsFrom_append, run_double, cellsFrom, step_quoted_self] at hcell
    rcases List.mem_append.mp hcell with hcell | hcell
    · exact isQuoted_of_mem_double hcell
    · rw [List.mem_singleton.mp hcell]
      rfl

/-- A run without an end keeps the scan inside quotes. -/
theorem scan_closeQuote?_eq_none (h : closeQuote? close text = none) (depth : Option Nat) :
    Scan.run ⟨.quoted close, depth⟩ text = ⟨.quoted close, depth⟩ ∧
      ∀ cell ∈ cellsFrom ⟨.quoted close, depth⟩ text, cell.isQuoted = true := by
  obtain ⟨inside, rfl⟩ := exists_double_of_closeQuote?_eq_none h
  exact ⟨run_double close depth inside, fun cell => isQuoted_of_mem_double⟩

theorem step_closed_of_ne {c : Char} (hne : c ≠ close) (depth : Option Nat) :
    Scan.step ⟨.closed close, depth⟩ c = Scan.step ⟨.plain, depth⟩ c := by
  simp only [Scan.step, Mode.next, if_neg hne]
  rfl

/-- Past a run that has ended the scan goes on as if no run had been there. -/
theorem cellsFrom_closed (hafter : after.head? ≠ some close) (depth : Option Nat) :
    cellsFrom ⟨.closed close, depth⟩ after = cellsFrom ⟨.plain, depth⟩ after := by
  cases after with
  | nil => rfl
  | cons c rest =>
    have hne : c ≠ close := by simpa using hafter
    rw [cellsFrom, cellsFrom, step_closed_of_ne hne]

theorem isBalanced_run_closed (hafter : after.head? ≠ some close) (depth : Option Nat) :
    (Scan.run ⟨.closed close, depth⟩ after).isBalanced =
      (Scan.run ⟨.plain, depth⟩ after).isBalanced := by
  cases after with
  | nil => rfl
  | cons c rest =>
    have hne : c ≠ close := by simpa using hafter
    rw [run_cons, run_cons, step_closed_of_ne hne]

theorem closesGroup_of_isQuoted {cell : Cell} (h : cell.isQuoted = true) :
    closesGroup cell = false := by
  simp [closesGroup, Cell.isPlain, h]

theorem closesGroup_of_ne {c : Char} (h : c ≠ ')') (scan : Scan) :
    closesGroup ⟨c, scan⟩ = false := by
  simp [closesGroup, Cell.isPlain, h]

/-- The first parenthesis that returns to depth zero, with what is before and after it. -/
def cutGroup (piece : List Cell) : Option (Text × Text) :=
  match piece.dropWhile fun cell => !closesGroup cell with
  | [] => none
  | close :: after =>
      some ((piece.takeWhile fun cell => !closesGroup cell).map Cell.char ++ [close.char],
        after.map Cell.char)

theorem cutGroup_cons_of_closes {cell : Cell} (h : closesGroup cell = true) (rest : List Cell) :
    cutGroup (cell :: rest) = some ([cell.char], rest.map Cell.char) := by
  simp [cutGroup, h]

theorem cutGroup_cons {cell : Cell} (h : closesGroup cell = false) (rest : List Cell) :
    cutGroup (cell :: rest) = (cutGroup rest).map (push [cell.char]) := by
  simp only [cutGroup, List.dropWhile_cons, List.takeWhile_cons, h, Bool.not_false, if_true]
  split <;> rfl

theorem cutGroup_append {left : List Cell} (h : ∀ cell ∈ left, closesGroup cell = false)
    (rest : List Cell) :
    cutGroup (left ++ rest) = (cutGroup rest).map (push (left.map Cell.char)) := by
  induction left with
  | nil =>
    cases hcut : cutGroup rest <;> simp [hcut, push]
  | cons cell more ih =>
    have hmore : ∀ other ∈ more, closesGroup other = false := by
      intro other hother
      exact h other (List.mem_cons_of_mem _ hother)
    rw [List.cons_append, cutGroup_cons (h cell (List.mem_cons_self ..)), ih hmore,
      Option.map_map]
    rfl

theorem cutGroup_eq_none {piece : List Cell} (h : ∀ cell ∈ piece, closesGroup cell = false) :
    cutGroup piece = none := by
  have happend := cutGroup_append h []
  rwa [List.append_nil] at happend

/-- The reader of groups stops where the scan returns to depth zero. -/
theorem closeGroup?_eq_cutGroup (depth : Nat) (text : Text) :
    closeGroup? depth text = cutGroup (cellsFrom ⟨.plain, some (depth + 1)⟩ text) := by
  have hplain : ∀ {c : Char}, closingDelimiter? c = none → ∀ depth,
      Scan.step ⟨.plain, depth⟩ c = ⟨.plain, depthAfter depth c⟩ := by
    intro c hc depth
    simp [Scan.step, Mode.next, Mode.opened, hc]
  fun_induction closeGroup? depth text with
  | case1 => rfl
  | case2 depth rest ih =>
    rw [cellsFrom, hplain rfl, cutGroup_cons (closesGroup_of_ne (by decide) _), ih]
    rfl
  | case3 rest =>
    rw [cellsFrom, hplain rfl, cutGroup_cons_of_closes rfl, map_char_cellsFrom]
  | case4 depth rest hdepth hne ih =>
    have hstep : depthAfter (some (depth + 1)) ')' = some (depth - 1 + 1) := by
      simp only [depthAfter]
      simp
      omega
    have hopen : closesGroup ⟨')', ⟨.plain, some (depth - 1 + 1)⟩⟩ = false := by
      simp [closesGroup, Cell.isTopLevel]
    rw [cellsFrom, hplain rfl, hstep, cutGroup_cons hopen, ih]
  | case5 depth c rest hopen hclose hquote ih =>
    have hstep : depthAfter (some (depth + 1)) c = some (depth + 1) := by
      simp [depthAfter, hopen, hclose]
    rw [cellsFrom, hplain hquote, hstep, cutGroup_cons (closesGroup_of_ne hclose _), ih]
  | case6 depth c rest hopen hclose close hquote hread =>
    obtain ⟨-, hquoted⟩ := scan_closeQuote?_eq_none hread (some (depth + 1))
    rw [cellsFrom, step_opening rfl hquote, cutGroup_cons (closesGroup_of_isQuoted rfl),
      cutGroup_eq_none fun cell hcell => closesGroup_of_isQuoted (hquoted cell hcell)]
    rfl
  | case7 depth c rest hopen hclose close hquote run after hread ih =>
    obtain ⟨hrun, hquoted⟩ := scan_closeQuote? hread (some (depth + 1))
    rw [← closeQuote?_append hread, cellsFrom, step_opening rfl hquote,
      cutGroup_cons (closesGroup_of_isQuoted rfl), cellsFrom_append, hrun,
      cellsFrom_closed (head?_of_closeQuote? hread),
      cutGroup_append fun cell hcell => closesGroup_of_isQuoted (hquoted cell hcell),
      map_char_cellsFrom, ih, Option.map_map]
    rfl

/-- A cut leaves no closing parenthesis before it, and it meets one. -/
theorem cutGroup_eq_some_iff {scan : Scan} {text run after : Text} :
    cutGroup (cellsFrom scan text) = some (run, after) ↔
      ∃ body, run = body ++ [')'] ∧ text = run ++ after ∧
        (∀ cell ∈ cellsFrom scan body, closesGroup cell = false) ∧
        (scan.run body).step ')' = start := by
  constructor
  · intro h
    unfold cutGroup at h
    split at h
    · simp at h
    · rename_i cell right hright
      obtain ⟨rfl, rfl⟩ := Prod.mk.inj (Option.some.inj h)
      obtain ⟨body, tail, rfl, htake, hfree, hclose, hscan, hcells⟩ := exists_cut hright
      obtain ⟨hchar, hstart⟩ := eq_of_closesGroup hclose
      rw [hchar, hstart] at hscan
      rw [htake, hcells, map_char_cellsFrom, map_char_cellsFrom, hchar]
      exact ⟨body, rfl, by simp, hfree, hscan.symm⟩
  · rintro ⟨body, rfl, rfl, hfree, hstep⟩
    rw [List.append_assoc, cellsFrom_append, List.cons_append, cellsFrom, hstep,
      cutGroup_append hfree, cutGroup_cons_of_closes rfl, map_char_cellsFrom, map_char_cellsFrom]
    rfl

/-- A group holds a balanced text, and every balanced text can stand in a group. -/
theorem closeGroup?_eq_some_iff {text run after : Text} :
    closeGroup? 0 text = some (run, after) ↔
      ∃ body, isBalanced body = true ∧ run = body ++ [')'] ∧ text = run ++ after := by
  rw [closeGroup?_eq_cutGroup, cutGroup_eq_some_iff]
  constructor
  · rintro ⟨body, hrun, htext, hfree, hstep⟩
    exact ⟨body, isBalanced_of_step_close hfree hstep, hrun, htext⟩
  · rintro ⟨body, hbody, hrun, htext⟩
    refine ⟨body, hrun, htext, ?_, ?_⟩
    · intro cell hcell
      have hdepth : (start.run body).depth ≠ none := by simp [depth_of_isBalanced hbody]
      change cell ∈ cellsFrom (deepen start) body at hcell
      rw [cellsFrom_deepen hdepth] at hcell
      obtain ⟨inner, -, rfl⟩ := List.mem_map.mp hcell
      exact closesGroup_deepenCell inner
    · have hclose := run_group hbody []
      rwa [run_append] at hclose

/-- Where no group ends the parenthesis that opened it stays open. -/
theorem isBalanced_of_closeGroup?_eq_none {text : Text} (h : closeGroup? 0 text = none) :
    ((deepen start).run text).isBalanced = false := by
  rw [closeGroup?_eq_cutGroup] at h
  unfold cutGroup at h
  split at h
  · rename_i hnone
    have hfree : ∀ cell ∈ cellsFrom ⟨.plain, some (0 + 1)⟩ text, closesGroup cell = false := by
      simpa using hnone
    exact isBalanced_of_forall hfree
  · simp at h

end SqliteSchema.Proofs.TokenScans
