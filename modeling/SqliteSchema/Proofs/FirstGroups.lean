import Mathlib.Data.List.TakeWhile
import Mathlib.Tactic.SplitIfs
import SqliteSchema.ClauseSplitting
import SqliteSchema.Proofs.BalancedTexts

/-!
Cutting out the first group. A balanced text with a group is a balanced text without
one, a balanced body between parentheses, and a balanced tail; and whenever three such
texts are put together, the body and the tail are cut out again. A text is refused
exactly where its scan ends open.
-/
namespace SqliteSchema.Proofs.FirstGroups

open PlainText DelimiterScan ClauseSplitting BalancedTexts

/-- A parenthesis after a balanced text opens its first level. -/
theorem step_open_of_isBalanced {scan : Scan} (hscan : IsReachable scan)
    (hbalanced : scan.isBalanced = true) : scan.step '(' = deepen start := by
  obtain ⟨mode, depth⟩ := scan
  simp only [Scan.isBalanced, Bool.and_eq_true, beq_iff_eq] at hbalanced
  obtain ⟨hinside, rfl⟩ := hbalanced
  cases mode with
  | plain => rfl
  | quoted close => simp [Scan.insideRun] at hinside
  | closed close =>
    have hne : '(' ≠ close := by
      rintro rfl
      exact absurd (hscan '(' (.inr rfl)) (by decide)
    simp only [Scan.step, Mode.next, if_neg hne]
    rfl

/-- The parenthesis that closes a balanced body brings the scan back to its start. -/
theorem step_close_deepen {scan : Scan} (hscan : IsReachable scan)
    (hbalanced : scan.isBalanced = true) : (deepen scan).step ')' = start := by
  have hsettled : settle (deepen scan) = deepen start := by
    rw [settle_deepen, settle_of_isBalanced hbalanced]
  have hdepth : (deepen scan).depth = depthAfter (some 0) '(' := by
    rw [← depth_settle, hsettled]
    rfl
  have hreachable : IsReachable (deepen scan) := hscan
  rw [step_close hreachable (by rw [hsettled]; rfl), hdepth, depthAfter_close_open]
  rfl

variable {stray body : Text}

theorem run_group (hbody : isBalanced body = true) (tail : Text) :
    (deepen start).run (body ++ ')' :: tail) = start.run tail := by
  have hdepth : (start.run body).depth ≠ none := by simp [depth_of_isBalanced hbody]
  rw [run_append, run_deepen hdepth, run_cons,
    step_close_deepen (isReachable_run isReachable_start _) hbody]

theorem cellsFrom_group (hbody : isBalanced body = true) (tail : Text) :
    cellsFrom (deepen start) (body ++ ')' :: tail) =
      (cells body).map deepenCell ++ ⟨')', start⟩ :: cells tail := by
  have hdepth : (start.run body).depth ≠ none := by simp [depth_of_isBalanced hbody]
  rw [cellsFrom_append, cellsFrom_deepen hdepth, run_deepen hdepth, cellsFrom,
    step_close_deepen (isReachable_run isReachable_start _) hbody]
  rfl

theorem closesGroup_deepenCell (cell : Cell) : closesGroup (deepenCell cell) = false := by
  obtain ⟨c, mode, depth⟩ := cell
  cases depth <;> simp [closesGroup, deepenCell, deepen, Cell.isTopLevel]

def IsGroupless (text : Text) : Prop :=
  isBalanced text = true ∧ ∀ cell ∈ cells text, opensGroup cell = false

theorem run_append_group (hstray : isBalanced stray = true) (hbody : isBalanced body = true)
    (tail : Text) : start.run (stray ++ '(' :: (body ++ ')' :: tail)) = start.run tail := by
  rw [run_append, run_cons,
    step_open_of_isBalanced (isReachable_run isReachable_start _) hstray, run_group hbody]

theorem cells_append_group (hstray : isBalanced stray = true) (hbody : isBalanced body = true)
    (tail : Text) :
    cells (stray ++ '(' :: (body ++ ')' :: tail)) =
      cells stray ++ ⟨'(', deepen start⟩ ::
        ((cells body).map deepenCell ++ ⟨')', start⟩ :: cells tail) := by
  rw [cells, cellsFrom_append, cellsFrom,
    step_open_of_isBalanced (isReachable_run isReachable_start _) hstray, cellsFrom_group hbody]
  rfl

theorem cells_group (hbody : isBalanced body = true) :
    cells ('(' :: (body ++ [')'])) =
      ⟨'(', deepen start⟩ :: (cells body).map deepenCell ++ [⟨')', start⟩] := by
  have hempty : isBalanced [] = true := rfl
  exact cells_append_group hempty hbody []

/-- A balanced body between parentheses is cut out whole, and so is what follows. -/
theorem parenthesized_append_group (hstray : IsGroupless stray) (hbody : isBalanced body = true)
    {tail : Text} (htail : isBalanced tail = true) :
    parenthesized (stray ++ '(' :: (body ++ ')' :: tail)) = .ok (some ⟨body, tail⟩) := by
  have hbalanced : isBalanced (stray ++ '(' :: (body ++ ')' :: tail)) = true := by
    rw [isBalanced, run_append_group hstray.1 hbody]
    exact htail
  have hopen : opensGroup ⟨'(', deepen start⟩ = true := rfl
  have hclose : closesGroup ⟨')', start⟩ = true := rfl
  have hbefore : ∀ cell ∈ cells stray, (!opensGroup cell) = true := by
    intro cell hcell
    simp [hstray.2 cell hcell]
  have hinside : ∀ cell ∈ (cells body).map deepenCell, (!closesGroup cell) = true := by
    intro cell hcell
    obtain ⟨inner, -, rfl⟩ := List.mem_map.mp hcell
    simp [closesGroup_deepenCell]
  have hbodyChars : ((cells body).map deepenCell).map Cell.char = body := by
    rw [List.map_map]
    exact map_char_cellsFrom start body
  have htailChars : (cells tail).map Cell.char = tail := map_char_cellsFrom start tail
  rw [parenthesized, if_pos hbalanced, firstGroup?, cells_append_group hstray.1 hbody]
  simp only [List.dropWhile_append_of_pos hbefore, List.dropWhile_cons, hopen, Bool.not_true,
    Bool.false_eq_true, if_false, List.takeWhile_append_of_pos hinside,
    List.dropWhile_append_of_pos hinside, List.takeWhile_cons, hclose, List.append_nil,
    List.drop_one, List.tail_cons, hbodyChars, htailChars]

theorem parenthesized_group (hbody : isBalanced body = true) {tail : Text}
    (htail : isBalanced tail = true) :
    parenthesized (' ' :: '(' :: (body ++ ')' :: tail)) = .ok (some ⟨body, tail⟩) := by
  have hspace : IsGroupless [' '] := by
    refine ⟨by decide, ?_⟩
    intro cell hcell
    rw [List.mem_singleton.mp hcell]
    rfl
  exact parenthesized_append_group hspace hbody htail

/-- A text cut at its first cell of some kind. -/
theorem exists_cut {scan : Scan} {text : Text} {stops : Cell → Bool} {cell : Cell}
    {right : List Cell}
    (h : (cellsFrom scan text).dropWhile (fun cell => !stops cell) = cell :: right) :
    ∃ before after, text = before ++ cell.char :: after ∧
      (cellsFrom scan text).takeWhile (fun cell => !stops cell) = cellsFrom scan before ∧
      (∀ other ∈ cellsFrom scan before, stops other = false) ∧ stops cell = true ∧
      cell.scan = (scan.run before).step cell.char ∧ right = cellsFrom cell.scan after := by
  have hstops : stops cell = true := by
    have hhead := List.head?_dropWhile_not (fun cell => !stops cell) (cellsFrom scan text)
    rw [h] at hhead
    simpa using hhead
  have hcells : cellsFrom scan text =
      (cellsFrom scan text).takeWhile (fun cell => !stops cell) ++ cell :: right := by
    rw [← h, List.takeWhile_append_dropWhile]
  obtain ⟨hleft, hscan, hright, hsplit⟩ := cellsFrom_eq_append_cons hcells
  refine ⟨_, _, hsplit, hleft, ?_, hstops, hscan, hright⟩
  rw [← hleft]
  intro other hother
  simpa using List.mem_takeWhile_imp hother

theorem eq_of_closesGroup {cell : Cell} (h : closesGroup cell = true) :
    cell.char = ')' ∧ cell.scan = start := by
  obtain ⟨c, mode, depth⟩ := cell
  simp only [closesGroup, Cell.isPlain, Cell.isQuoted, Cell.isTopLevel, Bool.and_eq_true,
    Bool.not_eq_true', bne_eq_false_iff_eq, beq_iff_eq] at h
  obtain ⟨⟨rfl, hchar⟩, rfl⟩ := h
  exact ⟨hchar, rfl⟩

/-- The parenthesis that would take a scan below depth zero closes a group if the scan
is one deeper. -/
theorem closesGroup_of_depth_step {scan : Scan} {c : Char} (hscan : scan.depth ≠ none)
    (hnone : (scan.step c).depth = none) : closesGroup ⟨c, (deepen scan).step c⟩ = true := by
  obtain ⟨mode, depth⟩ := scan
  obtain ⟨count, rfl⟩ := Option.ne_none_iff_exists'.mp hscan
  simp only [Scan.step, depthAfter] at hnone
  split_ifs at hnone with hplain hopen hclose
  · simp at hnone
  · subst hclose
    have hzero : count = 0 := by simpa using hnone
    simp [closesGroup, Cell.isPlain, Cell.isQuoted, Cell.isTopLevel, Scan.step, deepen, hplain,
      hzero, depthAfter]

/-- One parenthesis deeper a scan that closes no group does not come back out of it,
so taken by itself it never underflows. -/
theorem depth_run_of_forall {scan : Scan} {text : Text} (hscan : scan.depth ≠ none)
    (hfree : ∀ cell ∈ cellsFrom (deepen scan) text, closesGroup cell = false) :
    (scan.run text).depth ≠ none := by
  induction text generalizing scan with
  | nil => exact hscan
  | cons c rest ih =>
    have hfirst : closesGroup ⟨c, (deepen scan).step c⟩ = false :=
      hfree _ (List.mem_cons_self ..)
    have hstep : (scan.step c).depth ≠ none := by
      intro hnone
      rw [closesGroup_of_depth_step hscan hnone] at hfirst
      simp at hfirst
    apply ih hstep
    intro cell hcell
    rw [← step_deepen hstep] at hcell
    exact hfree cell (List.mem_cons_of_mem _ hcell)

/-- A scan that closes no group stays inside the one it is in. -/
theorem isBalanced_of_forall {text : Text}
    (hfree : ∀ cell ∈ cellsFrom (deepen start) text, closesGroup cell = false) :
    ((deepen start).run text).isBalanced = false := by
  have hstart : start.depth ≠ none := by decide
  have hdepth := depth_run_of_forall hstart hfree
  rw [run_deepen hdepth]
  obtain ⟨count, hcount⟩ := Option.ne_none_iff_exists'.mp hdepth
  simp [Scan.isBalanced, deepen, hcount]

/-- What stands before the parenthesis that closes a group is balanced on its own. -/
theorem isBalanced_of_step_close
    (hfree : ∀ cell ∈ cellsFrom (deepen start) body, closesGroup cell = false)
    (hstep : ((deepen start).run body).step ')' = start) : isBalanced body = true := by
  have hstart : start.depth ≠ none := by decide
  have hdepth := depth_run_of_forall hstart hfree
  rw [run_deepen hdepth] at hstep
  unfold isBalanced
  generalize start.run body = scan at hdepth hstep ⊢
  obtain ⟨mode, depth⟩ := scan
  obtain ⟨count, rfl⟩ := Option.ne_none_iff_exists'.mp hdepth
  obtain ⟨hmode, hcount⟩ := Scan.mk.inj hstep
  rw [if_pos hmode] at hcount
  have hzero : count = 0 := by simpa [depthAfter, deepen] using hcount
  subst hzero
  cases mode with
  | plain => rfl
  | quoted close =>
    simp only [deepen, Mode.next] at hmode
    split at hmode <;> simp at hmode
  | closed close => rfl

/-- Before the first group the depth of a scan that never underflows is zero. -/
theorem depth_run_of_groupless {scan : Scan} {text : Text} (hscan : scan.depth = some 0)
    (hrun : (scan.run text).depth ≠ none)
    (hfree : ∀ cell ∈ cellsFrom scan text, opensGroup cell = false) :
    (scan.run text).depth = some 0 := by
  induction text generalizing scan with
  | nil => exact hscan
  | cons c rest ih =>
    have hstep : (scan.step c).depth ≠ none := fun hnone => hrun (depth_run_none hnone rest)
    have hfirst : opensGroup ⟨c, scan.step c⟩ = false := hfree _ (List.mem_cons_self ..)
    have hzero : (scan.step c).depth = some 0 := by
      simp only [opensGroup, Cell.isPlain, Cell.isQuoted, Scan.step] at hfirst
      simp only [Scan.step, depthAfter, hscan] at hstep ⊢
      split_ifs at hstep ⊢ with hplain hopen hclose
      · subst hopen
        simp [hplain] at hfirst
      · simp at hstep
      · rfl
      · rfl
    apply ih hzero hrun
    intro cell hcell
    exact hfree cell (List.mem_cons_of_mem _ hcell)

/-- A parenthesis outside quotes that opens the first level follows a balanced text. -/
theorem of_step_open {scan : Scan} (hdepth : scan.depth = some 0)
    (hplain : (scan.step '(').mode = .plain) :
    scan.isBalanced = true ∧ scan.step '(' = deepen start := by
  obtain ⟨mode, depth⟩ := scan
  subst hdepth
  have hopen : Scan.step ⟨mode, some 0⟩ '(' = deepen start := by
    have hnext : mode.next '(' = .plain := hplain
    simp only [Scan.step, hnext]
    rfl
  refine ⟨?_, hopen⟩
  cases mode with
  | plain => rfl
  | quoted close =>
    simp only [Scan.step, Mode.next] at hplain
    split at hplain <;> simp at hplain
  | closed close => rfl

theorem eq_of_opensGroup {cell : Cell} (h : opensGroup cell = true) :
    cell.char = '(' ∧ cell.scan.mode = .plain := by
  simp only [opensGroup, Cell.isPlain, Cell.isQuoted, Bool.and_eq_true, Bool.not_eq_true',
    bne_eq_false_iff_eq, beq_iff_eq] at h
  exact ⟨h.2, h.1⟩

/-- The first group of a balanced text, with what is before, in and after it. -/
theorem exists_of_parenthesized {text : Text} {group : Parenthesized}
    (h : parenthesized text = .ok (some group)) :
    ∃ stray, text = stray ++ '(' :: (group.body ++ ')' :: group.tail) ∧ IsGroupless stray ∧
      isBalanced group.body = true ∧ isBalanced group.tail = true := by
  unfold parenthesized at h
  split_ifs at h with htext
  have hgroup := Except.ok.inj h
  unfold firstGroup? at hgroup
  split at hgroup
  · simp at hgroup
  rename_i opening rest hopening
  obtain rfl := Option.some.inj hgroup
  obtain ⟨stray, after, rfl, -, hfree, hopens, hscan, hrest⟩ := exists_cut hopening
  obtain ⟨hchar, hplain⟩ := eq_of_opensGroup hopens
  have hdepth : (start.run stray).depth = some 0 := by
    refine depth_run_of_groupless rfl ?_ hfree
    intro hnone
    have hwhole := depth_of_isBalanced htext
    rw [run_append, depth_run_none hnone] at hwhole
    simp at hwhole
  rw [hchar] at hscan htext ⊢
  rw [hscan] at hplain
  obtain ⟨hstray, hopen⟩ := of_step_open hdepth hplain
  rw [hscan, hopen] at hrest
  rw [isBalanced, run_append, run_cons, hopen] at htext
  cases hclosing : rest.dropWhile fun cell => !closesGroup cell with
  | nil =>
    have hnone : ∀ cell ∈ cellsFrom (deepen start) after, closesGroup cell = false := by
      rw [← hrest]
      simpa using hclosing
    rw [isBalanced_of_forall hnone] at htext
    simp at htext
  | cons close right =>
    rw [hrest] at hclosing
    obtain ⟨body, tail, rfl, htake, hinside, hcloses, hend, hright⟩ := exists_cut hclosing
    obtain ⟨hparen, hstart⟩ := eq_of_closesGroup hcloses
    rw [hparen] at hend htext ⊢
    rw [hstart] at hend hright
    have hbody := isBalanced_of_step_close hinside hend.symm
    rw [run_group hbody] at htext
    rw [hrest, htake, hright, map_char_cellsFrom, List.drop_one, List.tail_cons,
      map_char_cellsFrom]
    exact ⟨stray, rfl, ⟨hstray, hfree⟩, hbody, htext⟩

/-- What follows the first group of a balanced text is balanced. -/
theorem isBalanced_tail {text : Text} {group : Parenthesized}
    (h : parenthesized text = .ok (some group)) : isBalanced group.tail = true := by
  obtain ⟨-, -, -, -, htail⟩ := exists_of_parenthesized h
  exact htail

/-- The ways in which a scan ends open: in a quoted run, behind a parenthesis that closes
nothing, or in a group. -/
inductive EndsOpen (scan : Scan) : Prop
  | quoted (h : scan.insideRun = true)
  | underflow (h : scan.depth = none)
  | group {count : Nat} (h : scan.depth = some (count + 1))

theorem isBalanced_eq_false_iff (scan : Scan) : scan.isBalanced = false ↔ EndsOpen scan := by
  constructor
  · intro h
    simp only [Scan.isBalanced, Bool.and_eq_false_iff, Bool.not_eq_false', beq_eq_false_iff_ne,
      ne_eq] at h
    rcases h with hinside | hdepth
    · exact .quoted hinside
    · cases hcount : scan.depth with
      | none => exact .underflow hcount
      | some count =>
        cases count with
        | zero => exact absurd hcount hdepth
        | succ count => exact .group hcount
  · rintro (h | h | h) <;> simp [Scan.isBalanced, h]

def isParenthesis (cell : Cell) : Bool := cell.isPlain '(' || cell.isPlain ')'

/-- Where no group is opened a balanced text has no parentheses at all outside quotes. -/
theorem isParenthesis_of_isGroupless {text : Text} (h : IsGroupless text) :
    ∀ cell ∈ cells text, isParenthesis cell = false := by
  intro cell hcell
  have hopen : cell.isPlain '(' = false := h.2 cell hcell
  rw [isParenthesis, hopen, Bool.false_or]
  obtain ⟨left, right, hcells⟩ := List.append_of_mem hcell
  obtain ⟨hleft, hscan, -, htext⟩ := cellsFrom_eq_append_cons hcells
  have hwhole := depth_of_isBalanced h.1
  rw [htext, run_append, run_cons, ← hscan] at hwhole
  have hnever : cell.scan.depth ≠ none := by
    intro hnone
    rw [depth_run_none hnone] at hwhole
    simp at hwhole
  have hbefore : (start.run (left.map Cell.char)).depth = some 0 := by
    refine depth_run_of_groupless rfl ?_ ?_
    · intro hnone
      rw [hscan] at hnever
      exact hnever (depth_step_none hnone _)
    · intro other hother
      rw [← hleft] at hother
      exact h.2 other (hcells ▸ List.mem_append_left _ hother)
  by_contra hclose
  simp only [Cell.isPlain, Cell.isQuoted, Bool.not_eq_false, Bool.and_eq_true, Bool.not_eq_true',
    bne_eq_false_iff_eq, beq_iff_eq] at hclose
  obtain ⟨hplain, hchar⟩ := hclose
  rw [hscan, hchar] at hplain hnever
  have hmode : (start.run (left.map Cell.char)).mode.next ')' = .plain := hplain
  simp [Scan.step, hmode, hbefore, depthAfter] at hnever

theorem isGroupless_iff {text : Text} :
    IsGroupless text ↔
      isBalanced text = true ∧ ∀ cell ∈ cells text, isParenthesis cell = false := by
  constructor
  · intro h
    exact ⟨h.1, isParenthesis_of_isGroupless h⟩
  · rintro ⟨hbalanced, hfree⟩
    refine ⟨hbalanced, ?_⟩
    intro cell hcell
    have hneither := hfree cell hcell
    rw [isParenthesis, Bool.or_eq_false_iff] at hneither
    exact hneither.1

theorem parenthesized_of_unbalanced {text : Text} (h : isBalanced text = false) :
    parenthesized text = .error (.unbalanced text) := by
  rw [parenthesized, if_neg (by simp [h])]

theorem parenthesized_of_isGroupless {text : Text} (h : IsGroupless text) :
    parenthesized text = .ok none := by
  have hdrop : (cells text).dropWhile (fun cell => !opensGroup cell) = [] := by
    simpa using h.2
  rw [parenthesized, if_pos h.1, firstGroup?, hdrop]

/-- A text around its first group: stray text without a parenthesis outside quotes, the body
between parentheses, and the tail, each of them balanced by itself. -/
structure IsCutInto (text stray : Text) (group : Parenthesized) : Prop where
  whole : text = stray ++ '(' :: (group.body ++ ')' :: group.tail)
  parenless : ∀ cell ∈ cells stray, isParenthesis cell = false
  stray : isBalanced stray = true
  body : isBalanced group.body = true
  tail : isBalanced group.tail = true

theorem isBalanced_of_parenthesized {text : Text} {found : Option Parenthesized}
    (h : parenthesized text = .ok found) : isBalanced text = true := by
  by_contra hbalanced
  rw [parenthesized_of_unbalanced (by simpa using hbalanced)] at h
  simp at h

theorem isGroupless_of_parenthesized {text : Text} (h : parenthesized text = .ok none) :
    IsGroupless text := by
  have hbalanced := isBalanced_of_parenthesized h
  refine ⟨hbalanced, ?_⟩
  rw [parenthesized, if_pos hbalanced, Except.ok.injEq, firstGroup?] at h
  split at h
  · rename_i hdrop
    simpa using hdrop
  · simp at h

theorem isCutInto_iff {text : Text} {group : Parenthesized} :
    parenthesized text = .ok (some group) ↔ ∃ stray, IsCutInto text stray group := by
  constructor
  · intro h
    obtain ⟨stray, hwhole, hstray, hbody, htail⟩ := exists_of_parenthesized h
    exact ⟨stray, hwhole, isParenthesis_of_isGroupless hstray, hstray.1, hbody, htail⟩
  · rintro ⟨stray, hwhole, hfree, hstray, hbody, htail⟩
    rw [hwhole]
    exact parenthesized_append_group (isGroupless_iff.mpr ⟨hstray, hfree⟩) hbody htail

/-- A cut is refused exactly where the scan of the text ends open, and the fault holds the
whole text. A balanced text has no group exactly where it has no open parenthesis outside
quotes, and otherwise it is cut in the one way that leaves balanced parts. -/
theorem parenthesized_outcomes (text : Text) :
    (∀ fault, parenthesized text = .error fault ↔
      fault = .unbalanced text ∧ EndsOpen (start.run text)) ∧
    (parenthesized text = .ok none ↔
      isBalanced text = true ∧ ∀ cell ∈ cells text, opensGroup cell = false) ∧
    ∀ group, parenthesized text = .ok (some group) ↔ ∃ stray, IsCutInto text stray group := by
  refine ⟨?_, ⟨isGroupless_of_parenthesized, parenthesized_of_isGroupless⟩, fun _ => isCutInto_iff⟩
  intro fault
  rw [← isBalanced_eq_false_iff]
  constructor
  · intro h
    unfold parenthesized at h
    split_ifs at h with hbalanced
    exact ⟨(Except.error.inj h).symm, by simpa [isBalanced] using hbalanced⟩
  · rintro ⟨rfl, hopen⟩
    exact parenthesized_of_unbalanced hopen

end SqliteSchema.Proofs.FirstGroups
