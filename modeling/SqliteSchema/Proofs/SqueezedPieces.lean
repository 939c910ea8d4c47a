import Mathlib.Tactic.SplitIfs
import SqliteSchema.ClauseSplitting
import SqliteSchema.Proofs.BalancedTexts

/-!
Squeezing seen cell by cell. A squeezed piece, scanned again, gives the cells it
was made of with one space in place of each run of gaps, so nothing changes its
place relative to quotes and parentheses and squeezing twice is squeezing once.
-/
namespace SqliteSchema.Proofs.SqueezedPieces

open PlainText DelimiterScan ClauseSplitting BalancedTexts

theorem isNeutral_of_isBlank {c : Char} (hc : isBlank c = true) : isNeutral c = true := by
  rw [isNeutral_iff]
  refine ⟨?_, ?_, ?_, ?_, ?_, ?_, ?_⟩ <;> rintro rfl <;> revert hc <;> decide

theorem isBlank_space : isBlank ' ' = true := by decide

theorem isGap_of_isQuoted {cell : Cell} (h : cell.isQuoted = true) : isGap cell = false := by
  simp [isGap, h]

theorem isGap_of_isBlank_eq_false {c : Char} (h : isBlank c = false) (scan : Scan) :
    isGap ⟨c, scan⟩ = false := by
  simp [isGap, h]

variable {scan : Scan} {gap : Text}

theorem run_blanks (hscan : IsReachable scan) (hgap : gap ≠ [])
    (hblank : ∀ c ∈ gap, isBlank c = true) : scan.run gap = settle scan := by
  induction gap generalizing scan with
  | nil => exact absurd rfl hgap
  | cons c rest ih =>
    have hstep := step_of_isNeutral hscan
      (isNeutral_of_isBlank (hblank c (List.mem_cons_self ..)))
    rw [run_cons, hstep]
    by_cases hrest : rest = []
    · rw [hrest, run_nil]
    · rw [ih (isReachable_settle hscan) hrest fun d hd => hblank d (List.mem_cons_of_mem _ hd),
        settle_settle]

/-- Outside quoted runs blank characters are gaps. -/
theorem isGap_of_mem_blanks (hscan : IsReachable scan) (houtside : scan.insideRun = false)
    (hblank : ∀ c ∈ gap, isBlank c = true) : ∀ cell ∈ cellsFrom scan gap, isGap cell = true := by
  cases gap with
  | nil => simp [cellsFrom]
  | cons c rest =>
    have hblanks : ∀ d ∈ rest, isBlank d = true := fun d hd => hblank d (List.mem_cons_of_mem _ hd)
    have hc := hblank c (List.mem_cons_self ..)
    have hsettled : (settle scan).mode = .plain := by simp [settle, houtside]
    have hrest := (cellsFrom_word hsettled fun d hd =>
      isInert_of_isNeutral (isNeutral_of_isBlank (hblanks d hd))).2
    rw [cellsFrom, step_of_isNeutral hscan (isNeutral_of_isBlank hc), hrest]
    have hgap : ∀ d, isBlank d = true → isGap ⟨d, settle scan⟩ = true := by
      intro d hd
      simp [isGap, Cell.isQuoted, hsettled, hd]
    simpa using ⟨hgap c hc, fun d hd => hgap d (hblanks d hd)⟩

/-- A gap between two parts of a piece belongs to neither. -/
theorem words_append_cons (left right : List Cell) {gap : Cell} (hgap : isGap gap = true) :
    words (left ++ gap :: right) = words left ++ words right := by
  simp [words, List.splitOnP_append_cons left right hgap]

theorem words_cons_gap {gap : Cell} (hgap : isGap gap = true) (rest : List Cell) :
    words (gap :: rest) = words rest := words_append_cons [] rest hgap

theorem words_singleton {cell : Cell} (hcell : isGap cell = false) :
    words [cell] = [[cell.char]] := by
  simp [words, List.splitOnP_cons_eq_if_modifyHead, hcell, isFilled]

/-- A cell right before a gap is a word's last. -/
theorem words_cons_cons_gap {cell gap : Cell} (hcell : isGap cell = false)
    (hgap : isGap gap = true) (rest : List Cell) :
    words (cell :: gap :: rest) = [cell.char] :: words rest := by
  have h := words_append_cons [cell] rest hgap
  rwa [words_singleton hcell] at h

/-- A cell right before another that is no gap begins the same word. -/
theorem words_cons_cons {first second : Cell} (hfirst : isGap first = false)
    (hsecond : isGap second = false) (rest : List Cell) :
    ∃ word more, words (second :: rest) = (second.char :: word) :: more ∧
      words (first :: second :: rest) = (first.char :: second.char :: word) :: more := by
  obtain ⟨word, more, hsplit⟩ :=
    List.exists_cons_of_ne_nil (List.splitOnP_ne_nil isGap rest)
  refine ⟨word.map Cell.char, (more.filter isFilled).map fun word => word.map Cell.char, ?_, ?_⟩
  · simp [words, List.splitOnP_cons_eq_if_modifyHead, hsecond, hsplit, isFilled]
  · simp [words, List.splitOnP_cons_eq_if_modifyHead, hfirst, hsecond, hsplit, isFilled]

theorem ne_nil_of_mem_words {piece : List Cell} {word : Text} (h : word ∈ words piece) :
    word ≠ [] := by
  obtain ⟨cells, hcells, rfl⟩ := List.mem_map.mp h
  have hfilled := (List.mem_filter.mp hcells).2
  simp only [isFilled, Bool.not_eq_true', List.isEmpty_eq_false_iff] at hfilled
  simpa using hfilled

theorem squeeze_cons_gap {gap : Cell} (hgap : isGap gap = true) (rest : List Cell) :
    squeeze (gap :: rest) = squeeze rest := by
  unfold squeeze
  rw [words_cons_gap hgap]

theorem squeeze_singleton {cell : Cell} (hcell : isGap cell = false) :
    squeeze [cell] = [cell.char] := by
  simp [squeeze, words_singleton hcell]

theorem squeeze_eq_nil_iff (piece : List Cell) : squeeze piece = [] ↔ words piece = [] := by
  unfold squeeze
  constructor
  · intro h
    cases hwords : words piece with
    | nil => rfl
    | cons word more =>
      have hword : word ≠ [] := ne_nil_of_mem_words (by rw [hwords]; exact List.mem_cons_self ..)
      cases more <;> simp_all
  · intro h
    simp [h]

theorem squeeze_cons_cons_gap {cell gap : Cell} (hcell : isGap cell = false)
    (hgap : isGap gap = true) (rest : List Cell) :
    squeeze (cell :: gap :: rest) =
      cell.char :: (if squeeze rest = [] then [] else ' ' :: squeeze rest) := by
  rw [squeeze, words_cons_cons_gap hcell hgap]
  by_cases hrest : words rest = []
  · simp [(squeeze_eq_nil_iff rest).mpr hrest, hrest]
  · have hfilled : squeeze rest ≠ [] := fun h => hrest ((squeeze_eq_nil_iff rest).mp h)
    rw [if_neg hfilled, List.intercalate_cons_of_ne_nil hrest]
    simp [squeeze]

theorem squeeze_cons_cons {first second : Cell} (hfirst : isGap first = false)
    (hsecond : isGap second = false) (rest : List Cell) :
    squeeze (first :: second :: rest) = first.char :: squeeze (second :: rest) := by
  obtain ⟨word, more, htail, hwhole⟩ := words_cons_cons hfirst hsecond rest
  unfold squeeze
  rw [hwhole, htail, List.intercalate_cons_cons_left]

/-- The cells of a squeezed piece: of the gaps between two words the first stays, as a space. -/
@[simp] def squeezeCells : List Cell → List Cell
  | [] => []
  | [cell] => if isGap cell then [] else [cell]
  | cell :: next :: rest =>
      if isGap cell then squeezeCells (next :: rest)
      else if isGap next then
        cell :: (if squeezeCells rest = [] then [] else ⟨' ', next.scan⟩ :: squeezeCells rest)
      else cell :: squeezeCells (next :: rest)

theorem squeezeCells_cons_gap {gap : Cell} (hgap : isGap gap = true) (rest : List Cell) :
    squeezeCells (gap :: rest) = squeezeCells rest := by
  cases rest with
  | nil => simp [squeezeCells, hgap]
  | cons next more => rw [squeezeCells, if_pos hgap]

theorem squeeze_eq_map (piece : List Cell) :
    squeeze piece = (squeezeCells piece).map Cell.char := by
  fun_induction squeezeCells piece with
  | case1 => rfl
  | case2 cell hcell => rw [squeeze_cons_gap hcell]; rfl
  | case3 cell hcell => exact squeeze_singleton (Bool.not_eq_true _ ▸ hcell)
  | case4 cell next rest hcell ih => rw [squeeze_cons_gap hcell, ih]
  | case5 cell next rest hcell hnext ih =>
    rw [squeeze_cons_cons_gap (Bool.not_eq_true _ ▸ hcell) hnext, ih]
    by_cases hrest : squeezeCells rest = [] <;> simp [hrest]
  | case6 cell next rest hcell hnext ih =>
    rw [squeeze_cons_cons (Bool.not_eq_true _ ▸ hcell) (Bool.not_eq_true _ ▸ hnext), ih,
      List.map_cons]

/-- Squeezing keeps no gap at the front. -/
theorem isGap_head_squeezeCells (piece : List Cell) {cell : Cell}
    (h : (squeezeCells piece).head? = some cell) : isGap cell = false := by
  fun_induction squeezeCells piece with
  | case1 | case2 => simp at h
  | case3 first hfirst | case5 first _ _ hfirst | case6 first _ _ hfirst =>
    obtain rfl : first = cell := by simpa using h
    simpa using hfirst
  | case4 first next rest hfirst ih => exact ih h

theorem isGap_space {scan : Scan} (h : scan.mode = .plain) : isGap ⟨' ', scan⟩ = true := by
  simp [isGap, Cell.isQuoted, h, isBlank_space]

theorem plain_of_isGap {gap : Cell} (h : isGap gap = true) : gap.scan.mode = .plain := by
  simp only [isGap, Cell.isQuoted, Bool.and_eq_true, Bool.not_eq_true'] at h
  simpa using h.1

theorem squeezeCells_squeezeCells (piece : List Cell) :
    squeezeCells (squeezeCells piece) = squeezeCells piece := by
  fun_induction squeezeCells piece with
  | case1 => rfl
  | case2 => rfl
  | case3 cell hcell => simp [squeezeCells, hcell]
  | case4 cell next rest hcell ih => exact ih
  | case5 cell next rest hcell hnext ih =>
    by_cases hrest : squeezeCells rest = []
    · simp [hrest, squeezeCells, hcell]
    · have hspace := isGap_space (plain_of_isGap hnext)
      simp [hrest, squeezeCells, hcell, hspace, ih]
  | case6 cell next rest hcell hnext ih =>
    cases htail : squeezeCells (next :: rest) with
    | nil => simp [squeezeCells, hcell]
    | cons head tail =>
      have hhead : isGap head = false := isGap_head_squeezeCells _ (by rw [htail]; rfl)
      rw [htail] at ih
      simp [squeezeCells, hcell, hhead, ih]

theorem exists_squeezeCells_cons {cell : Cell} (hcell : isGap cell = false) (rest : List Cell) :
    ∃ tail, squeezeCells (cell :: rest) = cell :: tail := by
  cases rest with
  | nil => exact ⟨[], by rw [squeezeCells, if_neg (by simp [hcell])]⟩
  | cons next more =>
    rw [squeezeCells, if_neg (by simp [hcell])]
    split
    · exact ⟨_, rfl⟩
    · exact ⟨_, rfl⟩

/-- What stands before a cell that is no gap is squeezed the same way whatever follows
that cell. -/
theorem exists_squeezeCells_append {cell : Cell} (hcell : isGap cell = false)
    (left : List Cell) :
    ∃ front, (∀ right, squeezeCells (left ++ cell :: right) =
        front ++ squeezeCells (cell :: right)) ∧
      ∀ other ∈ front, other ∈ left ∨ other.char = ' ' := by
  induction left with
  | nil => exact ⟨[], fun _ => rfl, by simp⟩
  | cons first more ih =>
    obtain ⟨front, hfront, hmem⟩ := ih
    by_cases hfirst : isGap first = true
    · refine ⟨front, ?_, ?_⟩
      · intro right
        rw [List.cons_append, squeezeCells_cons_gap hfirst, hfront]
      · intro other hother
        exact (hmem other hother).imp_left (List.mem_cons_of_mem _)
    cases more with
    | nil =>
      refine ⟨[first], ?_, by simp⟩
      intro right
      rw [List.cons_append, List.nil_append, squeezeCells, if_neg hfirst, if_neg (by simp [hcell])]
      rfl
    | cons next rest =>
      by_cases hnext : isGap next = true
      · refine ⟨first :: ⟨' ', next.scan⟩ :: front, ?_, ?_⟩
        · intro right
          have hrest := hfront right
          rw [List.cons_append, squeezeCells_cons_gap hnext] at hrest
          obtain ⟨tail, htail⟩ := exists_squeezeCells_cons hcell right
          rw [List.cons_append, List.cons_append, squeezeCells, if_neg hfirst, if_pos hnext, hrest,
            if_neg (by simp [htail])]
          rfl
        · intro other hother
          rcases List.mem_cons.mp hother with rfl | hother
          · exact .inl (List.mem_cons_self ..)
          rcases List.mem_cons.mp hother with rfl | hother
          · exact .inr rfl
          · exact (hmem other hother).imp_left (List.mem_cons_of_mem _)
      · refine ⟨first :: front, ?_, ?_⟩
        · intro right
          have hrest := hfront right
          rw [List.cons_append] at hrest
          rw [List.cons_append, List.cons_append, squeezeCells, if_neg hfirst, if_neg hnext, hrest]
          rfl
        · intro other hother
          rcases List.mem_cons.mp hother with rfl | hother
          · exact .inl (List.mem_cons_self ..)
          · exact (hmem other hother).imp_left (List.mem_cons_of_mem _)

theorem squeeze_append_of_gaps {gaps : List Cell} (h : ∀ gap ∈ gaps, isGap gap = true)
    (rest : List Cell) : squeeze (gaps ++ rest) = squeeze rest := by
  induction gaps with
  | nil => rfl
  | cons gap more ih =>
    rw [List.cons_append, squeeze_cons_gap (h gap (List.mem_cons_self ..))]
    apply ih
    intro other hother
    exact h other (List.mem_cons_of_mem _ hother)

/-- Squeezing a piece that ends with a word leaves at most a space between the word and
what follows. -/
theorem exists_squeeze_append {cell : Cell} (hcell : isGap cell = false)
    (left right : List Cell) :
    ∃ space, (∀ c ∈ space, isBlank c = true) ∧
      squeeze (left ++ cell :: right) = squeeze (left ++ [cell]) ++ (space ++ squeeze right) ∧
      ∀ c ∈ (space ++ squeeze right).head?, right.head?.map Cell.char = some c ∨
        isBlank c = true := by
  obtain ⟨front, hfront, -⟩ := exists_squeezeCells_append hcell left
  have hfrontChars : ∀ rest, squeeze (left ++ cell :: rest) =
      front.map Cell.char ++ squeeze (cell :: rest) := by
    intro rest
    rw [squeeze_eq_map, hfront, List.map_append, squeeze_eq_map]
  rw [hfrontChars, hfrontChars, squeeze_singleton hcell]
  cases right with
  | nil =>
    have hempty : squeeze [] = [] := rfl
    exact ⟨[], by simp, by rw [squeeze_singleton hcell, hempty]; simp, by simp [hempty]⟩
  | cons next more =>
    by_cases hnext : isGap next = true
    · rw [squeeze_cons_cons_gap hcell hnext, squeeze_cons_gap hnext]
      by_cases hmore : squeeze more = []
      · exact ⟨[], by simp, by simp [hmore], by simp [hmore]⟩
      · refine ⟨[' '], by simp [isBlank_space], by simp [hmore], ?_⟩
        intro c hc
        obtain rfl : ' ' = c := by simpa using hc
        exact .inr isBlank_space
    · rw [Bool.not_eq_true] at hnext
      obtain ⟨tail, htail⟩ := exists_squeezeCells_cons hnext more
      rw [squeeze_cons_cons hcell hnext]
      refine ⟨[], by simp, by simp, ?_⟩
      intro c hc
      rw [List.nil_append, squeeze_eq_map, htail] at hc
      exact .inl hc

def IsTight (piece : List Cell) : Prop := squeezeCells piece = piece

theorem isTight_singleton {cell : Cell} (hcell : isGap cell = false) : IsTight [cell] := by
  simp [IsTight, squeezeCells, hcell]

theorem isGap_head_of_isTight {piece : List Cell} (h : IsTight piece) {cell : Cell}
    (hcell : piece.head? = some cell) : isGap cell = false := by
  rw [← h] at hcell
  exact isGap_head_squeezeCells piece hcell

/-- What follows a tight piece is squeezed as if it followed any one word. -/
theorem squeezeCells_append {piece tail squeezed : List Cell} (hpiece : IsTight piece)
    (hne : piece ≠ [])
    (htail : ∀ cell, isGap cell = false → squeezeCells (cell :: tail) = cell :: squeezed) :
    squeezeCells (piece ++ tail) = piece ++ squeezed := by
  unfold IsTight at hpiece
  fun_induction squeezeCells piece with
  | case1 => exact absurd rfl hne
  | case2 => simp at hpiece
  | case3 cell hcell => exact htail cell (by simpa using hcell)
  | case4 cell next rest hcell ih =>
    have hhead : isGap cell = false :=
      isGap_head_squeezeCells (next :: rest) (by rw [hpiece]; rfl)
    simp [hcell] at hhead
  | case5 cell next rest hcell hnext ih =>
    have hrest : squeezeCells rest ≠ [] := by
      intro hempty
      simp [hempty] at hpiece
    rw [if_neg hrest, List.cons.injEq, List.cons.injEq] at hpiece
    obtain ⟨-, hspace, hrest'⟩ := hpiece
    have hsqueezed := ih hrest' (by rintro rfl; exact hrest rfl)
    have hfilled : squeezeCells (rest ++ tail) ≠ [] := by
      rw [hsqueezed]
      intro hempty
      exact hrest (hrest'.trans (List.append_eq_nil_iff.mp hempty).1)
    simp only [List.cons_append]
    rw [squeezeCells, if_neg hcell, if_pos hnext, if_neg hfilled, hsqueezed, hspace]
  | case6 cell next rest hcell hnext ih =>
    have htight := ih (List.cons.inj hpiece).2 (List.cons_ne_nil _ _)
    simp only [List.cons_append] at htight ⊢
    rw [squeezeCells, if_neg hcell, if_neg hnext, htight]

theorem isTight_append {left right : List Cell} (hleft : IsTight left) (hright : IsTight right) :
    IsTight (left ++ right) := by
  by_cases hempty : left = []
  · rwa [hempty, List.nil_append]
  · refine squeezeCells_append hleft hempty ?_
    intro cell hcell
    cases right with
    | nil => exact isTight_singleton hcell
    | cons next rest =>
      have hnext := isGap_head_of_isTight hright rfl
      rw [squeezeCells, if_neg (by simp [hcell]), if_neg (by simp [hnext]), hright]

theorem isTight_of_forall {piece : List Cell} (h : ∀ cell ∈ piece, isGap cell = false) :
    IsTight piece := by
  induction piece with
  | nil => rfl
  | cons cell rest ih =>
    apply isTight_append (isTight_singleton (h cell (List.mem_cons_self ..)))
    apply ih
    intro other hother
    exact h other (List.mem_cons_of_mem _ hother)

theorem isTight_append_space {left right : List Cell} (hleft : IsTight left)
    (hleftFilled : left ≠ []) (hright : IsTight right) (hrightFilled : right ≠ []) {scan : Scan}
    (hscan : scan.mode = .plain) : IsTight (left ++ ⟨' ', scan⟩ :: right) := by
  refine squeezeCells_append hleft hleftFilled ?_
  intro cell hcell
  rw [squeezeCells, if_neg (by simp [hcell]), if_pos (isGap_space hscan), hright,
    if_neg hrightFilled]

theorem length_squeezeCells_le (piece : List Cell) :
    (squeezeCells piece).length ≤ piece.length := by
  fun_induction squeezeCells piece with
  | case1 | case2 | case3 => simp
  | case4 cell next rest hcell ih => exact Nat.le_succ_of_le ih
  | case5 cell next rest hcell hnext ih =>
    split_ifs
    · simp
    · simpa using ih
  | case6 cell next rest hcell hnext ih => simpa using ih

/-- The end of a tight piece is tight where it begins with a word. -/
theorem isTight_of_append {left right : List Cell} (h : IsTight (left ++ right))
    (hright : ∀ cell ∈ right.head?, isGap cell = false) : IsTight right := by
  cases right with
  | nil => rfl
  | cons cell more =>
    have hcell := hright cell rfl
    obtain ⟨front, hfront, -⟩ := exists_squeezeCells_append hcell left
    have hwhole : front ++ squeezeCells (cell :: more) = left ++ cell :: more := by
      rw [← hfront]
      exact h
    have hleft : front.length ≤ left.length := by
      have hle := length_squeezeCells_le (left ++ [cell])
      rw [hfront, isTight_singleton hcell] at hle
      simpa using hle
    have hmore := length_squeezeCells_le (cell :: more)
    have hlength := congrArg List.length hwhole
    simp only [List.length_append] at hlength
    exact (List.append_inj hwhole (by omega)).2

/-- A tight piece ends with a word. -/
theorem isGap_getLast_of_isTight {piece : List Cell} (h : IsTight piece) {cell : Cell}
    (hcell : piece.getLast? = some cell) : isGap cell = false := by
  have hsqueezed : (squeezeCells piece).getLast? = some cell := by rw [h, hcell]
  clear h hcell
  fun_induction squeezeCells piece with
  | case1 | case2 => simp at hsqueezed
  | case3 first hfirst =>
    obtain rfl : first = cell := by simpa using hsqueezed
    simpa using hfirst
  | case4 first next rest hfirst ih => exact ih hsqueezed
  | case5 first next rest hfirst hnext ih =>
    split_ifs at hsqueezed with hempty
    · obtain rfl : first = cell := by simpa using hsqueezed
      simpa using hfirst
    · obtain ⟨head, tail, hcons⟩ := List.exists_cons_of_ne_nil hempty
      rw [hcons] at hsqueezed ih
      exact ih (by simpa [List.getLast?_cons_cons] using hsqueezed)
  | case6 first next rest hfirst hnext ih =>
    obtain ⟨tail, htail⟩ := exists_squeezeCells_cons (Bool.not_eq_true _ ▸ hnext) rest
    rw [htail] at hsqueezed ih
    exact ih (by simpa [List.getLast?_cons_cons] using hsqueezed)

/-- The only gaps in a tight piece are spaces. -/
theorem char_of_isGap_of_isTight {piece : List Cell} (h : IsTight piece) {cell : Cell}
    (hcell : cell ∈ piece) (hgap : isGap cell = true) : cell.char = ' ' := by
  rw [← h] at hcell
  clear h
  fun_induction squeezeCells piece with
  | case1 | case2 => simp at hcell
  | case3 first hfirst =>
    rw [List.mem_singleton.mp hcell] at hgap
    exact absurd hgap hfirst
  | case4 first next rest hfirst ih => exact ih hcell
  | case5 first next rest hfirst hnext ih =>
    rcases List.mem_cons.mp hcell with rfl | hcell
    · exact absurd hgap hfirst
    · split_ifs at hcell
      · simp at hcell
      · rcases List.mem_cons.mp hcell with rfl | hcell
        · rfl
        · exact ih hcell
  | case6 first next rest hfirst hnext ih =>
    rcases List.mem_cons.mp hcell with rfl | hcell
    · exact absurd hgap hfirst
    · exact ih hcell

theorem squeezeCells_map_deepenCell (piece : List Cell) :
    squeezeCells (piece.map deepenCell) = (squeezeCells piece).map deepenCell := by
  have hgap : ∀ cell, isGap (deepenCell cell) = isGap cell := fun _ => rfl
  fun_induction squeezeCells piece with
  | case1 => rfl
  | case2 cell hcell | case3 cell hcell => simp [squeezeCells, hgap, hcell]
  | case4 cell next rest hcell ih =>
    rw [← ih, List.map_cons, squeezeCells_cons_gap (by rwa [hgap])]
  | case5 cell next rest hcell hnext ih =>
    rw [List.map_cons, List.map_cons, squeezeCells, hgap, if_neg hcell, hgap, if_pos hnext, ih]
    by_cases hempty : squeezeCells rest = [] <;> simp [hempty, deepenCell]
  | case6 cell next rest hcell hnext ih =>
    rw [List.map_cons] at ih
    rw [List.map_cons, List.map_cons, squeezeCells, hgap, if_neg hcell, hgap, if_neg hnext, ih,
      List.map_cons]

/-- A piece is as tight one parenthesis deeper. -/
theorem isTight_map_deepenCell {piece : List Cell} (h : IsTight piece) :
    IsTight (piece.map deepenCell) := by rw [IsTight, squeezeCells_map_deepenCell, h]

theorem isNeutral_of_isGap {gap : Cell} (h : isGap gap = true) : isNeutral gap.char = true := by
  simp only [isGap, Bool.and_eq_true] at h
  exact isNeutral_of_isBlank h.2

/-- A gap leaves the scan settled, and so does the space that replaces it. -/
theorem scan_of_isGap {scan : Scan} (hscan : IsReachable scan) {c : Char}
    (h : isGap ⟨c, scan.step c⟩ = true) : scan.step c = settle scan :=
  step_of_isNeutral hscan (isNeutral_of_isGap h)

def startsWithGap (scan : Scan) (text : Text) : Bool :=
  (cellsFrom scan text).head?.any isGap

/-- Where the scan of a squeezed text starts: dropped gaps have settled it. -/
def scanPastGaps (scan : Scan) (text : Text) : Scan :=
  if startsWithGap scan text then settle scan else scan

/-- A squeezed text scans to the squeezed cells, wherever the scan stands, and the
scan comes to rest where it came to rest before. -/
theorem rescan_squeezed {scan : Scan} (hscan : IsReachable scan) (text : Text) :
    cellsFrom (scanPastGaps scan text) (squeeze (cellsFrom scan text)) =
        squeezeCells (cellsFrom scan text) ∧
      settle ((scanPastGaps scan text).run (squeeze (cellsFrom scan text))) =
        settle (scan.run text) := by
  simp only [squeeze_eq_map]
  induction text generalizing scan with
  | nil => exact ⟨rfl, rfl⟩
  | cons c rest ih =>
    obtain ⟨hcells, hrun⟩ := ih (isReachable_step hscan c)
    by_cases hgap : isGap ⟨c, scan.step c⟩ = true
    · have hstart : scanPastGaps scan (c :: rest) = settle scan := if_pos hgap
      have hstep := scan_of_isGap hscan hgap
      have hsettled : scanPastGaps (settle scan) rest = settle scan := by
        rw [scanPastGaps, settle_settle, ite_self]
      rw [hstep, hsettled] at hcells hrun
      rw [hstart, cellsFrom, squeezeCells_cons_gap hgap, hstep, run_cons, hstep]
      exact ⟨hcells, hrun⟩
    · have hstart : scanPastGaps scan (c :: rest) = scan := if_neg hgap
      rw [hstart, run_cons]
      cases rest with
      | nil => simp [cellsFrom, squeezeCells, hgap, run_cons]
      | cons d more =>
        by_cases hnext : isGap ⟨d, (scan.step c).step d⟩ = true
        · have hnextStart : scanPastGaps (scan.step c) (d :: more) = settle (scan.step c) :=
            if_pos hnext
          have hspace := step_of_isNeutral (isReachable_step hscan c)
            (isNeutral_of_isBlank isBlank_space)
          have hstep := scan_of_isGap (isReachable_step hscan c) hnext
          rw [hnextStart, cellsFrom, squeezeCells_cons_gap hnext, hstep] at hcells hrun
          rw [cellsFrom, cellsFrom, squeezeCells, if_neg hgap, if_pos hnext, hstep]
          by_cases hmore : squeezeCells (cellsFrom (settle (scan.step c)) more) = []
          · rw [hmore, List.map_nil, run_nil, settle_settle] at hrun
            simpa [hmore, cellsFrom, run_cons, run_nil] using hrun
          · rw [if_neg hmore]
            constructor
            · simp only [List.map_cons, cellsFrom, hspace, hcells]
            · simpa only [List.map_cons, run_cons, hspace] using hrun
        · have hnextStart : scanPastGaps (scan.step c) (d :: more) = scan.step c := if_neg hnext
          rw [hnextStart, cellsFrom] at hcells hrun
          rw [cellsFrom, cellsFrom, squeezeCells, if_neg hgap, if_neg hnext, List.map_cons,
            cellsFrom, run_cons, hcells]
          exact ⟨rfl, hrun⟩

theorem scanPastGaps_start (text : Text) : scanPastGaps start text = start := by
  rw [scanPastGaps, settle_of_plain rfl, ite_self]

theorem cells_squeeze (text : Text) : cells (squeeze (cells text)) = squeezeCells (cells text) := by
  have h := (rescan_squeezed isReachable_start text).1
  rwa [scanPastGaps_start] at h

theorem isBalanced_squeeze (text : Text) :
    isBalanced (squeeze (cells text)) = isBalanced text := by
  have h := (rescan_squeezed isReachable_start text).2
  rw [scanPastGaps_start] at h
  unfold isBalanced
  rw [← isBalanced_settle (start.run text), ← h, isBalanced_settle]
  rfl

/-- A squeezed text holds cells of the text it comes from, and spaces between words. -/
theorem mem_squeezeCells {piece : List Cell} {cell : Cell} (h : cell ∈ squeezeCells piece) :
    cell ∈ piece ∨ cell.char = ' ' := by
  fun_induction squeezeCells piece with
  | case1 => simp at h
  | case2 => simp at h
  | case3 => exact .inl h
  | case4 first next rest hfirst ih =>
    rcases ih h with hmem | hspace
    · exact .inl (List.mem_cons_of_mem _ hmem)
    · exact .inr hspace
  | case5 first next rest hfirst hnext ih =>
    rcases List.mem_cons.mp h with rfl | hrest
    · exact .inl (List.mem_cons_self ..)
    · by_cases hempty : squeezeCells rest = []
      · simp [hempty] at hrest
      · rw [if_neg hempty] at hrest
        rcases List.mem_cons.mp hrest with rfl | hmem
        · exact .inr rfl
        · rcases ih hmem with hmem | hspace
          · exact .inl (List.mem_cons_of_mem _ (List.mem_cons_of_mem _ hmem))
          · exact .inr hspace
  | case6 first next rest hfirst hnext ih =>
    rcases List.mem_cons.mp h with rfl | hrest
    · exact .inl (List.mem_cons_self ..)
    · rcases ih hrest with hmem | hspace
      · exact .inl (List.mem_cons_of_mem _ hmem)
      · exact .inr hspace

end SqliteSchema.Proofs.SqueezedPieces
