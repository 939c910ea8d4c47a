import Mathlib.Tactic.SplitIfs
import SqliteSchema.DelimiterScan

/-!
How scans compose. A neutral character, which neither opens nor closes anything,
leaves a scan outside quotes where it is, so a balanced text followed by one
hands a fresh scan to whatever comes next. A scan that never underflows runs the
same way one parenthesis deeper.
-/
namespace SqliteSchema.Proofs.BalancedTexts

open PlainText Quoting DelimiterScan

def isNeutral (c : Char) : Bool :=
  !(['\x60', '\x22', '\x27', '[', ']', '(', ')'].contains c)

theorem isNeutral_iff (c : Char) :
    isNeutral c = true ↔ c ≠ '\x60' ∧ c ≠ '\x22' ∧ c ≠ '\x27' ∧ c ≠ '[' ∧ c ≠ ']' ∧
      c ≠ '(' ∧ c ≠ ')' := by
  simp [isNeutral]

def isCloser (c : Char) : Bool := ['\x60', '\x22', '\x27', ']'].contains c

theorem isCloser_of_closingDelimiter? {opening close : Char}
    (h : closingDelimiter? opening = some close) : isCloser close = true := by
  unfold closingDelimiter? at h
  split_ifs at h with hquote hbracket
  · obtain rfl := Option.some.inj h
    rcases hquote with rfl | rfl | rfl <;> rfl
  · obtain rfl := Option.some.inj h
    rfl

theorem closingDelimiter?_of_isNeutral {c : Char} (hc : isNeutral c = true) :
    closingDelimiter? c = none := by
  rw [isNeutral_iff] at hc
  simp [closingDelimiter?, hc]

theorem isCloser_of_isNeutral {c : Char} (hc : isNeutral c = true) : isCloser c = false := by
  rw [isNeutral_iff] at hc
  simp [isCloser, hc]

theorem depthAfter_of_isNeutral {c : Char} (hc : isNeutral c = true) (depth : Option Nat) :
    depthAfter depth c = depth := by
  rw [isNeutral_iff] at hc
  simp [depthAfter, hc]

/-- Every run that a scan is in, or has just left, ends with a true delimiter. -/
def IsReachable (scan : Scan) : Prop :=
  ∀ close, scan.mode = .quoted close ∨ scan.mode = .closed close → isCloser close = true

theorem isReachable_of_plain {scan : Scan} (h : scan.mode = .plain) : IsReachable scan := by
  intro close hmode
  simp [h] at hmode

theorem isReachable_start : IsReachable start := isReachable_of_plain rfl

theorem isCloser_opened {c close : Char} (h : Mode.opened c = .quoted close) :
    isCloser close = true := by
  unfold Mode.opened at h
  split at h
  · obtain rfl := Mode.quoted.inj h
    exact isCloser_of_closingDelimiter? ‹_›
  · simp at h

theorem opened_ne_closed (c close : Char) : Mode.opened c ≠ .closed close := by
  unfold Mode.opened
  split <;> simp

/-- A step begins a run with the delimiter that ends it, or keeps the run's delimiter. -/
theorem isReachable_step {scan : Scan} (h : IsReachable scan) (c : Char) :
    IsReachable (scan.step c) := by
  intro close hmode
  change scan.mode.next c = .quoted close ∨ scan.mode.next c = .closed close at hmode
  have hopened : Mode.opened c = .quoted close ∨ Mode.opened c = .closed close →
      isCloser close = true := by
    rintro (hquoted | hclosed)
    · exact isCloser_opened hquoted
    · exact absurd hclosed (opened_ne_closed c close)
  cases hscan : scan.mode with
  | plain =>
    rw [hscan] at hmode
    exact hopened hmode
  | quoted inside =>
    have hinside := h inside (.inl hscan)
    simp only [hscan, Mode.next] at hmode
    split at hmode <;> simp_all
  | closed inside =>
    have hinside := h inside (.inr hscan)
    simp only [hscan, Mode.next] at hmode
    split at hmode
    · simp_all
    · exact hopened hmode

theorem run_nil (scan : Scan) : scan.run [] = scan := rfl

theorem run_cons (scan : Scan) (c : Char) (rest : Text) :
    scan.run (c :: rest) = (scan.step c).run rest := rfl

theorem run_append (scan : Scan) (left right : Text) :
    scan.run (left ++ right) = (scan.run left).run right := List.foldl_append

theorem cellsFrom_ne_nil {text : Text} (hfilled : text ≠ []) (scan : Scan) :
    cellsFrom scan text ≠ [] := by
  cases text with
  | nil => exact absurd rfl hfilled
  | cons c rest => exact List.cons_ne_nil _ _

/-- The cells of a text, cut at any of them. -/
theorem cellsFrom_eq_append_cons {scan : Scan} {text : Text} {left right : List Cell} {cell : Cell}
    (h : cellsFrom scan text = left ++ cell :: right) :
    left = cellsFrom scan (left.map Cell.char) ∧
      cell.scan = (scan.run (left.map Cell.char)).step cell.char ∧
      right = cellsFrom cell.scan (right.map Cell.char) ∧
      text = left.map Cell.char ++ cell.char :: right.map Cell.char := by
  induction left generalizing scan text with
  | nil =>
    cases text with
    | nil => simp [cellsFrom] at h
    | cons c rest =>
      rw [cellsFrom, List.nil_append, List.cons.injEq] at h
      obtain ⟨rfl, rfl⟩ := h
      rw [map_char_cellsFrom]
      exact ⟨rfl, rfl, rfl, rfl⟩
  | cons first more ih =>
    cases text with
    | nil => simp [cellsFrom] at h
    | cons c rest =>
      rw [cellsFrom, List.cons_append, List.cons.injEq] at h
      obtain ⟨rfl, h⟩ := h
      obtain ⟨hleft, hcell, hright, hrest⟩ := ih h
      refine ⟨?_, hcell, hright, ?_⟩
      · rw [List.map_cons, cellsFrom, ← hleft]
      · rw [List.map_cons, List.cons_append, ← hrest]

theorem isReachable_run {scan : Scan} (h : IsReachable scan) (text : Text) :
    IsReachable (scan.run text) := by
  induction text generalizing scan with
  | nil => exact h
  | cons c rest ih => exact ih (isReachable_step h c)

def settle (scan : Scan) : Scan := if scan.insideRun then scan else ⟨.plain, scan.depth⟩

/-- A neutral character ends a run whose delimiter has just been passed, and does no more. -/
theorem step_of_isNeutral {scan : Scan} (h : IsReachable scan) {c : Char}
    (hc : isNeutral c = true) : scan.step c = settle scan := by
  have hcloser := isCloser_of_isNeutral hc
  have hopened : Mode.opened c = .plain := by
    simp [Mode.opened, closingDelimiter?_of_isNeutral hc]
  have hdepth := depthAfter_of_isNeutral hc scan.depth
  obtain ⟨mode, depth⟩ := scan
  cases mode with
  | plain => simp_all [Scan.step, Mode.next, settle, Scan.insideRun]
  | quoted close =>
    have hne : c ≠ close := by
      rintro rfl
      exact absurd (h c (.inl rfl)) (by simp [hcloser])
    simp [Scan.step, Mode.next, hne, settle, Scan.insideRun]
  | closed close =>
    have hne : c ≠ close := by
      rintro rfl
      exact absurd (h c (.inr rfl)) (by simp [hcloser])
    simp_all [Scan.step, Mode.next, settle, Scan.insideRun]

theorem settle_settle (scan : Scan) : settle (settle scan) = settle scan := by
  unfold settle
  split <;> simp_all [Scan.insideRun]

theorem isReachable_settle (h : IsReachable scan) : IsReachable (settle scan) := by
  unfold settle
  split_ifs
  · exact h
  · exact isReachable_of_plain rfl

theorem settle_of_plain {scan : Scan} (h : scan.mode = .plain) : settle scan = scan := by
  obtain ⟨mode, depth⟩ := scan
  subst h
  rfl

def isInert (c : Char) : Bool := (closingDelimiter? c).isNone && c != '(' && c != ')'

theorem isInert_of_isNeutral {c : Char} (hc : isNeutral c = true) : isInert c = true := by
  have hquote := closingDelimiter?_of_isNeutral hc
  rw [isNeutral_iff] at hc
  simp [isInert, hquote, hc]

theorem step_of_isInert {scan : Scan} (hscan : scan.mode = .plain) {c : Char}
    (hc : isInert c = true) : scan.step c = scan := by
  obtain ⟨mode, depth⟩ := scan
  subst hscan
  simp only [isInert, Bool.and_eq_true, bne_iff_ne, ne_eq, Option.isNone_iff_eq_none] at hc
  simp [Scan.step, Mode.next, Mode.opened, depthAfter, hc]

/-- A word leaves a scan outside quotes where it is. -/
theorem cellsFrom_word {scan : Scan} (hscan : scan.mode = .plain) {text : Text}
    (htext : ∀ c ∈ text, isInert c = true) :
    scan.run text = scan ∧ cellsFrom scan text = text.map fun c => ⟨c, scan⟩ := by
  induction text with
  | nil => exact ⟨rfl, rfl⟩
  | cons c rest ih =>
    have hstep := step_of_isInert hscan (htext c (List.mem_cons_self ..))
    obtain ⟨hrun, hcells⟩ := ih fun d hd => htext d (List.mem_cons_of_mem _ hd)
    rw [run_cons, cellsFrom, hstep, hcells]
    exact ⟨hrun, rfl⟩

theorem isBalanced_settle (scan : Scan) : (settle scan).isBalanced = scan.isBalanced := by
  unfold settle
  split
  · rfl
  · simp_all [Scan.isBalanced, Scan.insideRun]

theorem settle_of_isBalanced {scan : Scan} (h : scan.isBalanced = true) :
    settle scan = start := by
  simp only [Scan.isBalanced, Bool.and_eq_true, Bool.not_eq_true', beq_iff_eq] at h
  simp [settle, h, start]

/-- A closing parenthesis is counted where the scan has settled outside quotes. -/
theorem step_close {scan : Scan} (h : IsReachable scan) (hplain : (settle scan).mode = .plain) :
    scan.step ')' = ⟨.plain, depthAfter scan.depth ')'⟩ := by
  obtain ⟨mode, depth⟩ := scan
  cases mode with
  | plain => rfl
  | quoted close => simp [settle, Scan.insideRun] at hplain
  | closed close =>
    have hne : ')' ≠ close := by
      rintro rfl
      exact absurd (h ')' (.inr rfl)) (by decide)
    simp [Scan.step, Mode.next, hne, Mode.opened, closingDelimiter?]

theorem depth_settle (scan : Scan) : (settle scan).depth = scan.depth := by
  unfold settle
  split <;> rfl

theorem depthAfter_close_open (depth : Option Nat) :
    depthAfter (depthAfter depth '(') ')' = depth := by
  cases depth <;> simp [depthAfter]

/-- A neutral character can be taken off the end of a text or put there. -/
theorem isBalanced_snoc {c : Char} (hc : isNeutral c = true) (text : Text) :
    isBalanced (text ++ [c]) = isBalanced text := by
  unfold isBalanced
  rw [run_append, run_cons, run_nil, step_of_isNeutral (isReachable_run isReachable_start _) hc,
    isBalanced_settle]

theorem run_of_isBalanced {left : Text} (hleft : isBalanced left = true) {c : Char}
    (hc : isNeutral c = true) : start.run (left ++ [c]) = start := by
  rw [run_append, run_cons, run_nil, step_of_isNeutral (isReachable_run isReachable_start _) hc,
    settle_of_isBalanced hleft]

/-- After a balanced text and a neutral character the scan starts afresh. -/
theorem isBalanced_append_cons {left : Text} (hleft : isBalanced left = true) {c : Char}
    (hc : isNeutral c = true) (right : Text) :
    isBalanced (left ++ c :: right) = isBalanced right := by
  have happend : left ++ c :: right = (left ++ [c]) ++ right := by simp
  unfold isBalanced
  rw [happend, run_append, run_of_isBalanced hleft hc]

/-- Behind a balanced text and a neutral character the scan begins afresh. -/
theorem cells_append_cons {left : Text} (hleft : isBalanced left = true) {c : Char}
    (hc : isNeutral c = true) (right : Text) :
    cells (left ++ c :: right) = cells left ++ ⟨c, start⟩ :: cells right := by
  have hstep := run_of_isBalanced hleft hc
  rw [run_append, run_cons, run_nil] at hstep
  unfold cells
  rw [cellsFrom_append, cellsFrom, hstep]

theorem isBalanced_cons {c : Char} (hc : isNeutral c = true) (text : Text) :
    isBalanced (c :: text) = isBalanced text :=
  isBalanced_append_cons (show isBalanced [] = true from rfl) hc text

theorem cells_cons {c : Char} (hc : isNeutral c = true) (text : Text) :
    cells (c :: text) = ⟨c, start⟩ :: cells text :=
  cells_append_cons (show isBalanced [] = true from rfl) hc text

def deepen (scan : Scan) : Scan := ⟨scan.mode, scan.depth.map (· + 1)⟩

def deepenCell (cell : Cell) : Cell := ⟨cell.char, deepen cell.scan⟩

theorem settle_deepen (scan : Scan) : settle (deepen scan) = deepen (settle scan) := by
  obtain ⟨mode, depth⟩ := scan
  cases mode <;> rfl

theorem depth_step_none {scan : Scan} (h : scan.depth = none) (c : Char) :
    (scan.step c).depth = none := by
  simp only [Scan.step, h]
  split
  · simp [depthAfter]
  · rfl

theorem depth_run_none {scan : Scan} (h : scan.depth = none) (text : Text) :
    (scan.run text).depth = none := by
  induction text generalizing scan with
  | nil => exact h
  | cons c rest ih => exact ih (depth_step_none h c)

theorem depthAfter_succ {depth : Option Nat} {c : Char} (h : depthAfter depth c ≠ none) :
    depthAfter (depth.map (· + 1)) c = (depthAfter depth c).map (· + 1) := by
  unfold depthAfter at *
  split_ifs at * with hopen hclose
  · simp [Function.comp_def]
  · cases depth with
    | none => simp at h
    | some count =>
      have hcount : count ≠ 0 := by
        rintro rfl
        simp at h
      simp only [Option.map_some, Option.bind_some, Nat.add_one_ne_zero, if_false, hcount]
      congr 1
      omega
  · rfl

/-- One parenthesis deeper a scan runs the same way as long as it has a depth. -/
theorem step_deepen {scan : Scan} {c : Char} (h : (scan.step c).depth ≠ none) :
    (deepen scan).step c = deepen (scan.step c) := by
  by_cases hmode : scan.mode.next c = .plain
  · have hdepth : depthAfter scan.depth c ≠ none := by simpa [Scan.step, hmode] using h
    simp [Scan.step, deepen, hmode, depthAfter_succ hdepth]
  · simp [Scan.step, deepen, hmode]

/-- A scan that ends at some depth has never underflowed, so it stays one deeper
all along if it starts one deeper. -/
theorem run_deepen {scan : Scan} {text : Text} (h : (scan.run text).depth ≠ none) :
    (deepen scan).run text = deepen (scan.run text) := by
  induction text generalizing scan with
  | nil => rfl
  | cons c rest ih =>
    have hstep : (scan.step c).depth ≠ none := fun hnone => h (depth_run_none hnone rest)
    rw [run_cons, step_deepen hstep, ih h, run_cons]

theorem cellsFrom_deepen {scan : Scan} {text : Text} (h : (scan.run text).depth ≠ none) :
    cellsFrom (deepen scan) text = (cellsFrom scan text).map deepenCell := by
  induction text generalizing scan with
  | nil => rfl
  | cons c rest ih =>
    have hstep : (scan.step c).depth ≠ none := fun hnone => h (depth_run_none hnone rest)
    rw [cellsFrom, step_deepen hstep, ih h]
    rfl

theorem depth_of_isBalanced {text : Text} (h : isBalanced text = true) :
    (start.run text).depth = some 0 := by
  simp only [isBalanced, Scan.isBalanced, Bool.and_eq_true, beq_iff_eq] at h
  exact h.2

end SqliteSchema.Proofs.BalancedTexts
