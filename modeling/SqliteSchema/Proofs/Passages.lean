import SqliteSchema.Proofs.KeywordTokens
import SqliteSchema.Proofs.QuotedRuns
import SqliteSchema.Proofs.SpacedCells

/-!
Texts put together from words, quoted runs and groups with single spaces between
them. Such a passage leaves a scan outside quotes where it was, squeezing does not
change it, and a character that none of its words has stands in it only quoted, so
the passage is neither split at that character nor cut where two of them meet.
-/
namespace SqliteSchema.Proofs.Passages

open PlainText DelimiterScan ClauseSplitting CommentStripping BalancedTexts SqueezedPieces
  NormalPieces QuotedRuns SpacedCells KeywordTokens

/-- A text that ends outside quotes at the depth where it began, is squeezed
already, and has the avoided character only inside quotes. -/
structure IsPassage (avoided : Char) (text : Text) : Prop where
  filled : text ≠ []
  settles : ∀ scan : Scan, scan.mode = .plain → settle (scan.run text) = scan
  tight : ∀ scan : Scan, scan.mode = .plain → IsTight (cellsFrom scan text)
  avoids : ∀ scan : Scan, scan.mode = .plain → ∀ cell ∈ cellsFrom scan text,
    cell.isPlain avoided = false

def IsVisible (avoided c : Char) : Prop :=
  isNeutral c = true ∧ isBlank c = false ∧ c ≠ avoided

theorem isPlain_of_ne {c avoided : Char} (h : c ≠ avoided) (scan : Scan) :
    Cell.isPlain avoided ⟨c, scan⟩ = false := by
  simp [Cell.isPlain, h]

theorem isPlain_of_isQuoted {cell : Cell} (h : cell.isQuoted = true) (avoided : Char) :
    cell.isPlain avoided = false := by
  simp [Cell.isPlain, h]

variable {avoided : Char} {left right text : Text}

theorem isPassage_word (hfilled : text ≠ []) (htext : ∀ c ∈ text, IsVisible avoided c) :
    IsPassage avoided text := by
  have hinert : ∀ c ∈ text, isInert c = true := by
    intro c hc
    exact isInert_of_isNeutral (htext c hc).1
  refine ⟨hfilled, ?_, ?_, ?_⟩
  · intro scan hscan
    rw [(cellsFrom_word hscan hinert).1, settle_of_plain hscan]
  · intro scan hscan
    rw [(cellsFrom_word hscan hinert).2]
    apply isTight_of_forall
    intro cell hcell
    obtain ⟨c, hc, rfl⟩ := List.mem_map.mp hcell
    exact isGap_of_isBlank_eq_false (htext c hc).2.1 scan
  · intro scan hscan cell hcell
    rw [(cellsFrom_word hscan hinert).2] at hcell
    obtain ⟨c, hc, rfl⟩ := List.mem_map.mp hcell
    exact isPlain_of_ne (htext c hc).2.2 scan

/-- A letter can stand in any word that avoids something else. -/
theorem isVisible_of_isAlpha (havoided : avoided.isAlpha = false) {c : Char}
    (hc : c.isAlpha = true) : IsVisible avoided c := by
  obtain ⟨hneutral, hblank⟩ := forall_of_isAlpha
    (fun c => isNeutral c = true ∧ isBlank c = false) (by decide +kernel) hc
  refine ⟨hneutral, hblank, ?_⟩
  rintro rfl
  simp [hc] at havoided

theorem isPassage_letters (havoided : avoided.isAlpha = false) {word : Text} (hne : word ≠ [])
    (hword : word.all Char.isAlpha = true) : IsPassage avoided word := by
  refine isPassage_word hne ?_
  intro c hc
  exact isVisible_of_isAlpha havoided (List.all_eq_true.mp hword c hc)

theorem isPassage_quotedBy {mark : Char} (hmark : IsQuoteMark mark) (inside : Text) :
    IsPassage avoided (quotedBy mark inside) := by
  refine ⟨List.cons_ne_nil _ _, ?_, ?_, ?_⟩
  · intro scan hscan
    rw [run_quotedBy hmark hscan]
    obtain ⟨mode, depth⟩ := scan
    subst hscan
    rfl
  · intro scan hscan
    apply isTight_of_forall
    intro cell hcell
    exact isGap_of_isQuoted (isQuoted_of_mem_quotedBy hmark hscan hcell)
  · intro scan hscan cell hcell
    exact isPlain_of_isQuoted (isQuoted_of_mem_quotedBy hmark hscan hcell) avoided

/-- A neutral character after a passage takes the scan back to where it began. -/
theorem run_append_neutral (hleft : IsPassage avoided left) {scan : Scan}
    (hscan : scan.mode = .plain) {c : Char} (hc : isNeutral c = true) :
    (scan.run left).step c = scan := by
  rw [step_of_isNeutral (isReachable_run (isReachable_of_plain hscan) left) hc,
    hleft.settles scan hscan]

theorem cellsFrom_append_neutral (hleft : IsPassage avoided left) {scan : Scan}
    (hscan : scan.mode = .plain) {c : Char} (hc : isNeutral c = true) (rest : Text) :
    cellsFrom scan (left ++ c :: rest) =
      cellsFrom scan left ++ ⟨c, scan⟩ :: cellsFrom scan rest := by
  rw [cellsFrom_append, cellsFrom, run_append_neutral hleft hscan hc]

theorem isPassage_append_space (hleft : IsPassage avoided left) (hright : IsPassage avoided right)
    (havoided : ' ' ≠ avoided) : IsPassage avoided (left ++ ' ' :: right) := by
  have hspace := isNeutral_of_isBlank isBlank_space
  refine ⟨by simp, ?_, ?_, ?_⟩
  · intro scan hscan
    rw [run_append, run_cons, run_append_neutral hleft hscan hspace, hright.settles scan hscan]
  · intro scan hscan
    rw [cellsFrom_append_neutral hleft hscan hspace]
    exact isTight_append_space (hleft.tight scan hscan) (cellsFrom_ne_nil hleft.filled scan)
      (hright.tight scan hscan) (cellsFrom_ne_nil hright.filled scan) hscan
  · intro scan hscan cell hcell
    rw [cellsFrom_append_neutral hleft hscan hspace] at hcell
    rcases List.mem_append.mp hcell with hcell | hcell
    · exact hleft.avoids scan hscan cell hcell
    · rcases List.mem_cons.mp hcell with rfl | hcell
      · exact isPlain_of_ne havoided scan
      · exact hright.avoids scan hscan cell hcell

theorem isPassage_snoc (hleft : IsPassage avoided left) {c : Char} (hc : IsVisible avoided c) :
    IsPassage avoided (left ++ [c]) := by
  obtain ⟨hneutral, hblank, hne⟩ := hc
  refine ⟨by simp, ?_, ?_, ?_⟩
  · intro scan hscan
    rw [run_append, run_cons, run_nil, run_append_neutral hleft hscan hneutral,
      settle_of_plain hscan]
  · intro scan hscan
    rw [cellsFrom_append_neutral hleft hscan hneutral]
    exact isTight_append (hleft.tight scan hscan)
      (isTight_singleton (isGap_of_isBlank_eq_false hblank scan))
  · intro scan hscan cell hcell
    rw [cellsFrom_append_neutral hleft hscan hneutral] at hcell
    rcases List.mem_append.mp hcell with hcell | hcell
    · exact hleft.avoids scan hscan cell hcell
    · rw [List.mem_singleton.mp hcell]
      exact isPlain_of_ne hne scan

/-- Passages with a comma and a space between them are a passage. -/
theorem isPassage_intercalate {parts : List Text} (hparts : ∀ part ∈ parts, IsPassage avoided part)
    (hne : parts ≠ []) (hcomma : ',' ≠ avoided) (hspace : ' ' ≠ avoided) :
    IsPassage avoided ([',', ' '].intercalate parts) := by
  induction parts with
  | nil => exact absurd rfl hne
  | cons part more ih =>
    have hpart := hparts part (List.mem_cons_self ..)
    cases more with
    | nil => rwa [List.intercalate_singleton]
    | cons next rest =>
      have hothers : ∀ other ∈ next :: rest, IsPassage avoided other := by
        intro other hother
        exact hparts other (List.mem_cons_of_mem _ hother)
      have hmore := ih hothers (List.cons_ne_nil _ _)
      have hvisible : IsVisible avoided ',' := ⟨by decide, by decide, hcomma⟩
      have hjoined := isPassage_append_space (isPassage_snoc hpart hvisible) hmore hspace
      rw [List.intercalate_cons_cons]
      simpa using hjoined

theorem step_open {scan : Scan} (hscan : scan.mode = .plain) :
    scan.step '(' = ⟨.plain, depthAfter scan.depth '('⟩ := by
  obtain ⟨mode, depth⟩ := scan
  subst hscan
  rfl

theorem step_close_group {scan : Scan} (hscan : scan.mode = .plain) {body : Text}
    (hbody : settle ((scan.step '(').run body) = scan.step '(') :
    ((scan.step '(').run body).step ')' = scan := by
  have hopen := step_open hscan
  have hreachable : IsReachable (scan.step '(') := isReachable_of_plain (by rw [hopen])
  have hdepth : ((scan.step '(').run body).depth = depthAfter scan.depth '(' := by
    rw [← depth_settle, hbody, hopen]
  rw [step_close (isReachable_run hreachable body) (by rw [hbody, hopen]), hdepth,
    depthAfter_close_open]
  obtain ⟨mode, depth⟩ := scan
  subst hscan
  rfl

theorem cellsFrom_parenthesized {scan : Scan} (hscan : scan.mode = .plain) {body : Text}
    (hbody : settle ((scan.step '(').run body) = scan.step '(') :
    cellsFrom scan ('(' :: (body ++ [')'])) =
      ⟨'(', scan.step '('⟩ :: (cellsFrom (scan.step '(') body ++ [⟨')', scan⟩]) := by
  rw [cellsFrom, cellsFrom_append, cellsFrom, step_close_group hscan hbody]
  rfl

theorem isPassage_group {body : Text} (hbody : body = [] ∨ IsPassage avoided body)
    (hopen : '(' ≠ avoided) (hclose : ')' ≠ avoided) :
    IsPassage avoided ('(' :: (body ++ [')'])) := by
  have hinner : ∀ scan : Scan, scan.mode = .plain → (scan.step '(').mode = .plain := by
    intro scan hscan
    rw [step_open hscan]
  have hsettles : ∀ scan : Scan, scan.mode = .plain →
      settle ((scan.step '(').run body) = scan.step '(' := by
    intro scan hscan
    rcases hbody with rfl | hbody
    · exact settle_of_plain (hinner scan hscan)
    · exact hbody.settles _ (hinner scan hscan)
  refine ⟨List.cons_ne_nil _ _, ?_, ?_, ?_⟩
  · intro scan hscan
    rw [run_cons, run_append, run_cons, run_nil, step_close_group hscan (hsettles scan hscan),
      settle_of_plain hscan]
  · intro scan hscan
    have htight : IsTight (cellsFrom (scan.step '(') body) := by
      rcases hbody with rfl | hbody
      · rfl
      · exact hbody.tight _ (hinner scan hscan)
    rw [cellsFrom_parenthesized hscan (hsettles scan hscan)]
    exact isTight_append (isTight_singleton (isGap_of_isBlank_eq_false (by decide) _))
      (isTight_append htight (isTight_singleton (isGap_of_isBlank_eq_false (by decide) _)))
  · intro scan hscan cell hcell
    rw [cellsFrom_parenthesized hscan (hsettles scan hscan)] at hcell
    rcases List.mem_cons.mp hcell with rfl | hcell
    · exact isPlain_of_ne hopen _
    · rcases List.mem_append.mp hcell with hcell | hcell
      · rcases hbody with rfl | hbody
        · simp [cellsFrom] at hcell
        · exact hbody.avoids _ (hinner scan hscan) cell hcell
      · rw [List.mem_singleton.mp hcell]
        exact isPlain_of_ne hclose scan

/-- A passage splits into itself at a character that it avoids. -/
theorem isNormal_of_isPassage (h : IsPassage avoided text) : IsNormal avoided text := by
  refine isNormal_of_isPiece ⟨h.filled, ?_, ?_, h.tight start rfl⟩
  · unfold isBalanced
    rw [← isBalanced_settle, h.settles start rfl]
    rfl
  · intro cell hcell
    rw [isSeparator, h.avoids start rfl cell hcell, Bool.false_and]

/-- Where dashes stand only inside quotes there are no comments. -/
theorem withoutComments_of_isPassage (h : IsPassage '-' text) : withoutComments text = text :=
  withoutComments_eq_self_iff.mpr (isSpaced_of_forall (h.avoids start rfl))

end SqliteSchema.Proofs.Passages
