import Mathlib.Data.List.Chain
import Mathlib.Tactic.SplitIfs
import SqliteSchema.CommentStripping
import SqliteSchema.Proofs.FirstGroups
import SqliteSchema.Proofs.NormalPieces

/-!
Texts in which two cells of some kind never stand side by side. Such a text has only
pieces of this sort, since squeezing joins no two words, and it stays so where anything
else is put between two of them. A text whose dashes outside quotes stand apart is one
without comments, and removing the comments of any text leaves such a text.
-/
namespace SqliteSchema.Proofs.SpacedCells

open PlainText DelimiterScan ClauseSplitting CommentStripping BalancedTexts SqueezedPieces
  NormalPieces

def IsSpaced (kind : Cell → Bool) (piece : List Cell) : Prop :=
  piece.IsChain fun left right => ¬(kind left = true ∧ kind right = true)

variable {kind : Cell → Bool} {left right piece : List Cell}

theorem isSpaced_of_forall (h : ∀ cell ∈ piece, kind cell = false) : IsSpaced kind piece := by
  induction piece with
  | nil => exact .nil
  | cons cell rest ih =>
    refine List.isChain_cons.mpr
      ⟨?_, ih fun other hother => h other (List.mem_cons_of_mem _ hother)⟩
    intro next _
    simp [h cell (List.mem_cons_self ..)]

theorem isSpaced_of_isInfix (h : IsSpaced kind piece) (hleft : left <:+: piece) :
    IsSpaced kind left := List.IsChain.infix h hleft

theorem isSpaced_cons {cell : Cell} (hcell : kind cell = false) (h : IsSpaced kind piece) :
    IsSpaced kind (cell :: piece) := by
  refine List.isChain_cons.mpr ⟨?_, h⟩
  intro next _
  simp [hcell]

/-- A cell of another kind keeps two pieces apart. -/
theorem isSpaced_append_cons (hleft : IsSpaced kind left) {cell : Cell}
    (hcell : kind cell = false) (hright : IsSpaced kind right) :
    IsSpaced kind (left ++ cell :: right) := by
  refine List.IsChain.append hleft (isSpaced_cons hcell hright) ?_
  intro last _ first hfirst
  obtain rfl : cell = first := by simpa using hfirst
  simp [hcell]

theorem isSpaced_squeezeCells (hkind : ∀ cell, isGap cell = true → kind cell = false)
    (h : IsSpaced kind piece) : IsSpaced kind (squeezeCells piece) := by
  fun_induction squeezeCells piece with
  | case1 | case2 => exact .nil
  | case3 => exact h
  | case4 cell next rest hcell ih => exact ih (List.isChain_cons.mp h).2
  | case5 cell next rest hcell hnext ih =>
    have hrest := ih (List.isChain_cons.mp (List.isChain_cons.mp h).2).2
    have hspace := hkind _ (isGap_space (plain_of_isGap hnext))
    split_ifs
    · exact List.isChain_singleton _
    · have hfirst : IsSpaced kind [cell] := List.isChain_singleton _
      have happend := isSpaced_append_cons hfirst hspace hrest
      exact happend
  | case6 cell next rest hcell hnext ih =>
    obtain ⟨hfirst, hrest⟩ := List.isChain_cons.mp h
    obtain ⟨tail, htail⟩ := exists_squeezeCells_cons (Bool.not_eq_true _ ▸ hnext) rest
    refine List.isChain_cons.mpr ⟨?_, ih hrest⟩
    rw [htail]
    exact hfirst

/-- No two gaps of a squeezed piece stand side by side. -/
theorem isSpaced_isGap_squeezeCells (piece : List Cell) :
    IsSpaced isGap (squeezeCells piece) := by
  fun_induction squeezeCells piece with
  | case1 | case2 => exact .nil
  | case3 => exact List.isChain_singleton _
  | case4 cell next rest hcell ih => exact ih
  | case5 cell next rest hcell hnext ih =>
    apply isSpaced_cons (by simpa using hcell)
    split_ifs
    · exact .nil
    · refine List.isChain_cons.mpr ⟨?_, ih⟩
      intro first hfirst
      simp [isGap_head_squeezeCells rest hfirst]
  | case6 cell next rest hcell hnext ih => exact isSpaced_cons (by simpa using hcell) ih

/-- No two gaps of a tight piece stand side by side. -/
theorem isSpaced_isGap_of_isTight (h : IsTight piece) : IsSpaced isGap piece := by
  have hsqueezed := isSpaced_isGap_squeezeCells piece
  rwa [show squeezeCells piece = piece from h] at hsqueezed

/-- A part between two separators is one stretch of the list. -/
theorem isInfix_of_mem_splitOnP {α : Type} (separates : α → Bool) (items : List α) :
    ∃ first more, items.splitOnP separates = first :: more ∧ first <+: items ∧
      ∀ part ∈ more, part <:+: items := by
  induction items with
  | nil => exact ⟨[], [], rfl, List.prefix_refl _, by simp⟩
  | cons item rest ih =>
    obtain ⟨first, more, hsplit, hfirst, hmore⟩ := ih
    rw [List.splitOnP_cons_eq_if_modifyHead, hsplit]
    split_ifs
    · refine ⟨[], _, rfl, List.nil_prefix, ?_⟩
      intro part hpart
      rcases List.mem_cons.mp hpart with rfl | hpart
      · exact hfirst.isInfix.trans (List.suffix_cons ..).isInfix
      · exact (hmore part hpart).trans (List.suffix_cons ..).isInfix
    · refine ⟨item :: first, more, rfl, (List.prefix_cons_inj item).mpr hfirst, ?_⟩
      intro part hpart
      exact (hmore part hpart).trans (List.suffix_cons ..).isInfix

theorem isSpaced_of_mem_splitOnP {separates : Cell → Bool} (h : IsSpaced kind piece)
    (hleft : left ∈ piece.splitOnP separates) : IsSpaced kind left := by
  obtain ⟨first, more, hsplit, hfirst, hmore⟩ := isInfix_of_mem_splitOnP separates piece
  rw [hsplit] at hleft
  rcases List.mem_cons.mp hleft with rfl | hleft
  · exact isSpaced_of_isInfix h hfirst.isInfix
  · exact isSpaced_of_isInfix h (hmore left hleft)

/-- Pieces are spaced where their text is. -/
theorem isSpaced_of_mem_pieces (hkind : ∀ cell, isGap cell = true → kind cell = false)
    {separator : Char} (hsep : IsSeparating separator) {text part : Text}
    (htext : isBalanced text = true) (h : IsSpaced kind (cells text))
    (hpart : part ∈ pieces separator text) : IsSpaced kind (cells part) := by
  obtain ⟨hmem, -⟩ := List.mem_filter.mp hpart
  obtain ⟨between, hbetween, rfl⟩ := List.mem_map.mp hmem
  have hspaced := isSpaced_of_mem_splitOnP h hbetween
  obtain ⟨inside, rfl, -, -⟩ := exists_text_of_mem_splitOnP hsep htext hbetween
  rw [cells_squeeze]
  exact isSpaced_squeezeCells hkind hspaced

def isDash (cell : Cell) : Bool := cell.isPlain '-'

theorem isDash_of_ne {c : Char} (h : c ≠ '-') (scan : Scan) : isDash ⟨c, scan⟩ = false := by
  simp [isDash, Cell.isPlain, h]

theorem eq_of_isDash {cell : Cell} (h : isDash cell = true) : cell.char = '-' := by
  simp only [isDash, Cell.isPlain, Bool.and_eq_true, beq_iff_eq] at h
  exact h.2

theorem isDash_of_isGap {cell : Cell} (h : isGap cell = true) : isDash cell = false := by
  obtain ⟨c, scan⟩ := cell
  refine isDash_of_ne ?_ scan
  rintro rfl
  simp only [isGap, Bool.and_eq_true] at h
  exact absurd h.2 (by decide)

/-- A dash is outside quotes where no run is open before it. -/
theorem isDash_step {scan : Scan} (hscan : IsReachable scan) :
    isDash ⟨'-', scan.step '-'⟩ = !scan.insideRun := by
  have hneutral : isNeutral '-' = true := by decide
  rw [step_of_isNeutral hscan hneutral]
  obtain ⟨mode, depth⟩ := scan
  cases mode <;> rfl

/-- What is left of a text begins as the text does, or with the end of a comment. -/
theorem head?_commentsDropped {scan : Scan} {inComment : Bool} {text : Text} {c : Char}
    (h : (commentsDropped scan inComment text).head? = some c) :
    c = '\n' ∨ inComment = false ∧ text.head? = some c := by
  induction text generalizing scan inComment with
  | nil => simp [commentsDropped] at h
  | cons first rest ih =>
    rw [commentsDropped] at h
    split_ifs at h with hinside hcomment
    · exact .inl (by simpa using ih h)
    · exact .inl (by simpa using ih h)
    · obtain rfl : first = c := by simpa using h
      cases inComment with
      | false => exact .inr ⟨rfl, rfl⟩
      | true => exact .inl (by simpa using hinside)

theorem head?_cellsFrom {scan : Scan} {text : Text} {cell : Cell}
    (h : (cellsFrom scan text).head? = some cell) : text.head? = some cell.char := by
  cases text with
  | nil => simp [cellsFrom] at h
  | cons c rest =>
    obtain rfl : (⟨c, scan.step c⟩ : Cell) = cell := by simpa [cellsFrom] using h
    rfl

/-- Where its comments are removed a text has no two dashes side by side outside quotes. -/
theorem isSpaced_commentsDropped {scan : Scan} (hscan : IsReachable scan) (inComment : Bool)
    (text : Text) :
    IsSpaced isDash (cellsFrom scan (commentsDropped scan inComment text)) := by
  induction text generalizing scan inComment with
  | nil => exact .nil
  | cons first rest ih =>
    rw [commentsDropped]
    split_ifs with hinside hcomment
    · exact ih hscan true
    · exact ih hscan true
    · refine List.isChain_cons.mpr ⟨?_, ih (isReachable_step hscan first) false⟩
      rintro next hnext ⟨hfirst, hdash⟩
      obtain rfl : first = '-' := eq_of_isDash hfirst
      rw [isDash_step hscan, Bool.not_eq_true'] at hfirst
      have hhead := head?_commentsDropped (head?_cellsFrom hnext)
      rw [eq_of_isDash hdash] at hhead
      rcases hhead with hnewline | ⟨-, hrest⟩
      · exact absurd hnewline (by decide)
      · exact hcomment ⟨rfl, hrest, hfirst⟩

/-- Where dashes outside quotes stand apart no comment starts. -/
theorem commentsDropped_eq_self {scan : Scan} (hscan : IsReachable scan) {text : Text}
    (h : IsSpaced isDash (cellsFrom scan text)) : commentsDropped scan false text = text := by
  induction text generalizing scan with
  | nil => rfl
  | cons c rest ih =>
    obtain ⟨hnext, hspaced⟩ := List.isChain_cons.mp h
    have hkept : ¬(c = '-' ∧ rest.head? = some '-' ∧ scan.insideRun = false) := by
      rintro ⟨rfl, hhead, hinside⟩
      obtain ⟨more, rfl⟩ := List.head?_eq_some_iff.mp hhead
      have hfirst : isDash ⟨'-', scan.step '-'⟩ = true := by rw [isDash_step hscan, hinside]; rfl
      have houtside : (scan.step '-').insideRun = false := by
        rw [step_of_isNeutral hscan (by decide), settle, if_neg (by simp [hinside])]
        rfl
      refine hnext ⟨'-', (scan.step '-').step '-'⟩ rfl ⟨hfirst, ?_⟩
      rw [isDash_step (isReachable_step hscan '-'), houtside]
      rfl
    rw [commentsDropped, Bool.false_and, if_neg (by simp), if_neg hkept,
      ih (isReachable_step hscan c) hspaced]

/-- A text has no comments exactly where its dashes outside quotes stand apart. -/
theorem withoutComments_eq_self_iff {text : Text} :
    withoutComments text = text ↔ IsSpaced isDash (cells text) := by
  constructor
  · intro h
    rw [← h]
    exact isSpaced_commentsDropped isReachable_start false text
  · exact commentsDropped_eq_self isReachable_start

def isOf (c : Char) (cell : Cell) : Bool := cell.char == c

theorem isPrefix_pair_iff {c first : Char} {rest : Text} :
    [c, c] <+: first :: rest ↔ first = c ∧ rest.head? = some c := by
  cases rest <;> simp [List.cons_prefix_cons, eq_comm]

/-- Two cells of one character stand side by side exactly where the characters do. -/
theorem isSpaced_isOf_iff {c : Char} (scan : Scan) {text : Text} :
    IsSpaced (isOf c) (cellsFrom scan text) ↔ ¬ [c, c] <:+: text := by
  induction text generalizing scan with
  | nil => simp [IsSpaced, cellsFrom]
  | cons first rest ih =>
    rw [List.infix_cons_iff, not_or, ← @ih (scan.step first), isPrefix_pair_iff]
    refine List.isChain_cons.trans (and_congr_left' ?_)
    cases rest <;> simp [cellsFrom, isOf]

/-- Removing comments brings no two characters together, except the ends of lines. -/
theorem not_isInfix_commentsDropped {c : Char} (hc : c ≠ '\n') {text : Text}
    (h : ¬ [c, c] <:+: text) (scan : Scan) (inComment : Bool) :
    ¬ [c, c] <:+: commentsDropped scan inComment text := by
  induction text generalizing scan inComment with
  | nil => simp [commentsDropped]
  | cons first rest ih =>
    rw [List.infix_cons_iff, not_or] at h
    rw [commentsDropped]
    split_ifs
    · exact ih h.2 scan true
    · exact ih h.2 scan true
    · rw [List.infix_cons_iff, not_or]
      refine ⟨?_, ih h.2 _ _⟩
      rw [isPrefix_pair_iff] at h ⊢
      rintro ⟨rfl, hhead⟩
      rcases head?_commentsDropped hhead with hnewline | ⟨-, hrest⟩
      · exact hc hnewline
      · exact h.1 ⟨rfl, hrest⟩

end SqliteSchema.Proofs.SpacedCells
