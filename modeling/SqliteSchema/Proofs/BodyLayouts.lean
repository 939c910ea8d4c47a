import Mathlib.Logic.Relation
import SqliteSchema.Proofs.NormalPieces

/-!
Bodies that differ in their layout only. Where blank characters stand outside quotes they
can be replaced by others, and at the ends and next to a comma that separates clauses they
can be put and taken away. None of this moves the scan, so the two bodies are balanced or
unbalanced together, and none of it changes the words of a clause.
-/
namespace SqliteSchema.Proofs.BodyLayouts

open PlainText DelimiterScan ClauseSplitting BalancedTexts SqueezedPieces NormalPieces

def EndsOutside (text : Text) : Prop := (start.run text).insideRun = false

/-- Just past the text no quoted run and no group is open. A text with a parenthesis that
closes nothing has no depth, and nothing is open past it. -/
def EndsTopLevel (text : Text) : Prop :=
  EndsOutside text ∧ ∀ depth, (start.run text).depth = some depth → depth = 0

/-- The places where blank characters can be put: the ends of a body, and both sides of a
comma outside quotes and groups. -/
inductive IsBorder : Text → Text → Prop
  | front (text : Text) : IsBorder [] text
  | back (text : Text) : IsBorder text []
  | beforeComma {left : Text} (hleft : EndsTopLevel left) (right : Text) :
      IsBorder left (',' :: right)
  | afterComma {left : Text} (hleft : EndsTopLevel left) (right : Text) :
      IsBorder (left ++ [',']) right

inductive LayoutEdit : Text → Text → Prop
  | replace {left gap other : Text} (hleft : EndsOutside left)
      (hgap : gap ≠ []) (hblank : ∀ c ∈ gap, isBlank c = true)
      (hother : other ≠ []) (hblank' : ∀ c ∈ other, isBlank c = true) (right : Text) :
      LayoutEdit (left ++ (gap ++ right)) (left ++ (other ++ right))
  | insert {left gap right : Text} (hborder : IsBorder left right)
      (hblank : ∀ c ∈ gap, isBlank c = true) :
      LayoutEdit (left ++ right) (left ++ (gap ++ right))

/-- Two bodies with the same layout but for any number of changes, made in either direction. -/
def SameLayout : Text → Text → Prop := Relation.EqvGen LayoutEdit

variable {scan : Scan} {gap : Text}

theorem settle_run_blanks (hscan : IsReachable scan) (hblank : ∀ c ∈ gap, isBlank c = true) :
    settle (scan.run gap) = settle scan := by
  by_cases hgap : gap = []
  · rw [hgap, run_nil]
  · rw [run_blanks hscan hgap hblank, settle_settle]

/-- A change of the layout leaves a scan that has begun outside quotes where it was, but for
what only the next character decides. -/
theorem settle_run_of_layoutEdit (hscan : scan.mode = .plain) {body other : Text}
    (h : LayoutEdit body other) : settle (scan.run body) = settle (scan.run other) := by
  have hreachable : ∀ text, IsReachable (scan.run text) :=
    fun text => isReachable_run (isReachable_of_plain hscan) text
  have hcomma : ∀ text, (scan.run text).step ',' = settle (scan.run text) :=
    fun text => step_of_isNeutral (hreachable text) (by decide)
  cases h with
  | replace _ hgap hblank hother hblank' right =>
    simp only [run_append, run_blanks (hreachable _) hgap hblank,
      run_blanks (hreachable _) hother hblank']
  | @insert left gap right hborder hblank =>
    by_cases hempty : gap = []
    · rw [hempty, List.nil_append]
    have hgap : (scan.run left).run gap = settle (scan.run left) :=
      run_blanks (hreachable left) hempty hblank
    rw [run_append, run_append, run_append, hgap]
    cases hborder with
    | front text => rw [run_nil, settle_of_plain hscan]
    | back text => rw [run_nil, run_nil, settle_settle]
    | beforeComma _ right =>
      rw [run_cons, hcomma, run_cons,
        step_of_isNeutral (isReachable_settle (hreachable left)) (by decide), settle_settle]
    | afterComma _ right => rw [run_append, run_cons, run_nil, hcomma, settle_settle]

theorem words_append_gaps_append {gaps : List Cell} (hne : gaps ≠ [])
    (hgaps : ∀ gap ∈ gaps, isGap gap = true) (left right : List Cell) :
    words (left ++ (gaps ++ right)) = words left ++ words right := by
  induction gaps generalizing left with
  | nil => exact absurd rfl hne
  | cons gap rest ih =>
    rw [List.cons_append, words_append_cons _ _ (hgaps gap (List.mem_cons_self ..))]
    by_cases hrest : rest = []
    · rw [hrest, List.nil_append]
    · have hmore : ∀ other ∈ rest, isGap other = true :=
        fun other hother => hgaps other (List.mem_cons_of_mem _ hother)
      exact congrArg _ (ih hrest hmore [])

/-- Two rows of cells whose parts between separators have the same words, the first parts
whatever stands before them. -/
def SplitAlike (separator : Char) (row other : List Cell) : Prop :=
  ∃ first first' rest rest', row.splitOnP (isSeparator separator) = first :: rest ∧
    other.splitOnP (isSeparator separator) = first' :: rest' ∧
    (∀ front, words (front ++ first) = words (front ++ first')) ∧
    rest.map words = rest'.map words

variable {separator : Char} {row other : List Cell}

theorem splitAlike_cons (h : SplitAlike separator row other) (cell : Cell) :
    SplitAlike separator (cell :: row) (cell :: other) := by
  obtain ⟨first, first', rest, rest', hrow, hother, hwords, hrest⟩ := h
  cases hcell : isSeparator separator cell with
  | true =>
    refine ⟨[], [], first :: rest, first' :: rest', ?_, ?_, fun _ => rfl, ?_⟩
    · simp [List.splitOnP_cons_eq_if_modifyHead, hcell, hrow]
    · simp [List.splitOnP_cons_eq_if_modifyHead, hcell, hother]
    · have hfirst : words first = words first' := hwords []
      rw [List.map_cons, List.map_cons, hrest, hfirst]
  | false =>
    refine ⟨cell :: first, cell :: first', rest, rest', ?_, ?_, ?_, hrest⟩
    · simp [List.splitOnP_cons_eq_if_modifyHead, hcell, hrow]
    · simp [List.splitOnP_cons_eq_if_modifyHead, hcell, hother]
    · intro front
      have h := hwords (front ++ [cell])
      rwa [List.append_assoc, List.append_assoc] at h

theorem splitAlike_append (h : SplitAlike separator row other) (left : List Cell) :
    SplitAlike separator (left ++ row) (left ++ other) := by
  induction left with
  | nil => exact h
  | cons cell rest ih => exact splitAlike_cons ih cell

theorem map_squeeze_of_splitAlike (h : SplitAlike separator row other) :
    (row.splitOnP (isSeparator separator)).map squeeze =
      (other.splitOnP (isSeparator separator)).map squeeze := by
  obtain ⟨first, first', rest, rest', hrow, hother, hwords, hrest⟩ := h
  have hsqueeze : ∀ parts : List (List Cell),
      parts.map squeeze = (parts.map words).map [' '].intercalate := by
    intro parts
    rw [List.map_map]
    rfl
  have hfirst : words first = words first' := hwords []
  have hparts : (first :: rest).map words = (first' :: rest').map words := by
    rw [List.map_cons, List.map_cons, hrest, hfirst]
  rw [hrow, hother, hsqueeze, hsqueeze, hparts]

theorem splitOnP_append_of_free {gaps : List Cell}
    (hgaps : ∀ gap ∈ gaps, isSeparator separator gap = false) {first : List Cell}
    {rest : List (List Cell)} (hrow : row.splitOnP (isSeparator separator) = first :: rest) :
    (gaps ++ row).splitOnP (isSeparator separator) = (gaps ++ first) :: rest := by
  induction gaps with
  | nil => exact hrow
  | cons gap more ih =>
    obtain ⟨hgap, hmore⟩ := List.forall_mem_cons.mp hgaps
    simp [List.splitOnP_cons_eq_if_modifyHead, hgap, ih hmore]

theorem isSeparator_of_isGap (hsep : IsSeparating separator) {cell : Cell}
    (h : isGap cell = true) : isSeparator separator cell = false := by
  have hblank : isBlank cell.char = true := by
    simp only [isGap, Bool.and_eq_true] at h
    exact h.2
  have hne : cell.char ≠ separator := by
    rintro rfl
    exact absurd hblank (by simp [hsep.2])
  simp [isSeparator, Cell.isPlain, hne]

/-- One row of gaps can stand for another. -/
theorem splitAlike_gaps (hsep : IsSeparating separator) {gaps gaps' : List Cell}
    (hne : gaps ≠ []) (hgaps : ∀ gap ∈ gaps, isGap gap = true)
    (hne' : gaps' ≠ []) (hgaps' : ∀ gap ∈ gaps', isGap gap = true) (row : List Cell) :
    SplitAlike separator (gaps ++ row) (gaps' ++ row) := by
  obtain ⟨first, rest, hrow⟩ :=
    List.exists_cons_of_ne_nil (List.splitOnP_ne_nil (isSeparator separator) row)
  refine ⟨_, _, rest, rest,
    splitOnP_append_of_free (fun gap hgap => isSeparator_of_isGap hsep (hgaps gap hgap)) hrow,
    splitOnP_append_of_free (fun gap hgap => isSeparator_of_isGap hsep (hgaps' gap hgap)) hrow,
    ?_, rfl⟩
  intro front
  rw [words_append_gaps_append hne hgaps, words_append_gaps_append hne' hgaps']

/-- Gaps at the end are lost. -/
theorem splitAlike_gaps_nil (hsep : IsSeparating separator) {gaps : List Cell}
    (hgaps : ∀ gap ∈ gaps, isGap gap = true) : SplitAlike separator gaps [] := by
  have hfree : ∀ gap ∈ gaps, isSeparator separator gap = false :=
    fun gap hgap => isSeparator_of_isGap hsep (hgaps gap hgap)
  refine ⟨gaps, [], [], [], List.splitOnP_eq_singleton hfree, rfl, ?_, rfl⟩
  intro front
  by_cases hne : gaps = []
  · rw [hne]
  · have hwords := words_append_gaps_append hne hgaps front []
    rw [List.append_nil] at hwords
    rw [hwords, List.append_nil]
    exact List.append_nil _

theorem pieces_append_blanks (hsep : IsSeparating separator) {text : Text}
    (htext : isBalanced text = true) (hblank : ∀ c ∈ gap, isBlank c = true) :
    isBalanced (text ++ gap) = true ∧ pieces separator (text ++ gap) = pieces separator text := by
  have hreachable : IsReachable (start.run text) := isReachable_run isReachable_start text
  have houtside : (start.run text).insideRun = false := by
    simp only [isBalanced, Scan.isBalanced, Bool.and_eq_true, Bool.not_eq_true'] at htext
    exact htext.1
  have hgaps := isGap_of_mem_blanks hreachable houtside hblank
  have hrow := splitAlike_append (splitAlike_gaps_nil hsep hgaps) (cells text)
  refine ⟨?_, ?_⟩
  · rw [isBalanced, ← isBalanced_settle, run_append, settle_run_blanks hreachable hblank,
      isBalanced_settle]
    exact htext
  · rw [List.append_nil] at hrow
    rw [pieces, cells, cellsFrom_append]
    exact congrArg _ (map_squeeze_of_splitAlike hrow)

/-- Blank characters behind a text are lost. -/
theorem separate_append_blanks (hsep : IsSeparating separator) {text : Text} {parts : List Text}
    (hblank : ∀ c ∈ gap, isBlank c = true) (h : separate separator text = .ok parts) :
    separate separator (text ++ gap) = .ok parts := by
  obtain ⟨htext, rfl⟩ := separate_eq_ok_iff.mp h
  exact separate_eq_ok_iff.mpr (pieces_append_blanks hsep htext hblank)

theorem pieces_blanks_append (hsep : IsSeparating separator) {text : Text}
    (htext : isBalanced text = true) (hblank : ∀ c ∈ gap, isBlank c = true) :
    pieces separator (gap ++ text) = pieces separator text :=
  (separate_eq_ok_iff.mp
    (separate_blanks_append hsep hblank (separate_eq_ok_iff.mpr ⟨htext, rfl⟩))).2

/-- Before a separating comma a balanced text is balanced. -/
theorem isBalanced_of_endsTopLevel {left right : Text} (hleft : EndsTopLevel left)
    (h : isBalanced (left ++ right) = true) : isBalanced left = true := by
  obtain ⟨houtside, hdepth⟩ := hleft
  have hsome : (start.run left).depth ≠ none := by
    intro hnone
    have hwhole := depth_of_isBalanced h
    rw [run_append, depth_run_none hnone] at hwhole
    simp at hwhole
  obtain ⟨depth, hrun⟩ := Option.ne_none_iff_exists'.mp hsome
  obtain rfl := hdepth depth hrun
  simp only [EndsOutside] at houtside
  simp [isBalanced, Scan.isBalanced, houtside, hrun]

theorem isBalanced_of_layoutEdit {body other : Text} (h : LayoutEdit body other) :
    isBalanced body = isBalanced other := by
  rw [isBalanced, ← isBalanced_settle, settle_run_of_layoutEdit rfl h, isBalanced_settle]
  rfl

theorem pieces_of_layoutEdit {body other : Text} (h : LayoutEdit body other)
    (hbody : isBalanced body = true) : pieces ',' body = pieces ',' other := by
  cases h with
  | @replace left gap other hleft hgap hblank hother hblank' right =>
    have hreachable : IsReachable (start.run left) := isReachable_run isReachable_start left
    have hrow := splitAlike_append (splitAlike_gaps isSeparating_comma
      (cellsFrom_ne_nil hgap _) (isGap_of_mem_blanks hreachable hleft hblank)
      (cellsFrom_ne_nil hother _) (isGap_of_mem_blanks hreachable hleft hblank')
      (cellsFrom (settle (start.run left)) right)) (cells left)
    rw [pieces, pieces, cells, cells, cellsFrom_append, cellsFrom_append, cellsFrom_append,
      cellsFrom_append, run_blanks hreachable hgap hblank, run_blanks hreachable hother hblank']
    exact congrArg _ (map_squeeze_of_splitAlike hrow)
  | @insert left gap right hborder hblank =>
    cases hborder with
    | front text => exact (pieces_blanks_append isSeparating_comma hbody hblank).symm
    | back text =>
      rw [List.append_nil] at hbody ⊢
      rw [List.append_nil, (pieces_append_blanks isSeparating_comma hbody hblank).2]
    | beforeComma hleft right =>
      have hleft := isBalanced_of_endsTopLevel hleft hbody
      obtain ⟨hbalanced, hpieces⟩ := pieces_append_blanks isSeparating_comma hleft hblank
      rw [← List.append_assoc, pieces_append_cons isSeparating_comma hleft,
        pieces_append_cons isSeparating_comma hbalanced, hpieces]
    | @afterComma left hleft right =>
      rw [List.append_assoc, List.singleton_append] at hbody
      have hleft := isBalanced_of_endsTopLevel hleft hbody
      rw [isBalanced_append_cons hleft (by decide)] at hbody
      rw [List.append_assoc, List.append_assoc, List.singleton_append, List.singleton_append,
        pieces_append_cons isSeparating_comma hleft, pieces_append_cons isSeparating_comma hleft,
        pieces_blanks_append isSeparating_comma hbody hblank]

/-- A body and its other layouts are split into the same clauses, or none of them is split. -/
theorem separateClauses_of_sameLayout {body other : Text} (h : SameLayout body other) :
    (separateClauses body).toOption = (separateClauses other).toOption := by
  induction h with
  | rel body other hedit =>
    have hsame := isBalanced_of_layoutEdit hedit
    unfold separateClauses separate
    cases hbody : isBalanced body with
    | true => simp [← hsame, hbody, pieces_of_layoutEdit hedit hbody]
    | false => simp [← hsame, hbody, Except.toOption]
  | refl body => rfl
  | symm body other _ ih => exact ih.symm
  | trans body between other _ _ ihLeft ihRight => exact ihLeft.trans ihRight

/-- In a body the layout moves no scan that begins outside quotes. -/
theorem settle_run_of_sameLayout {body other : Text} (h : SameLayout body other)
    (depth : Option Nat) :
    settle (Scan.run ⟨.plain, depth⟩ body) = settle (Scan.run ⟨.plain, depth⟩ other) := by
  induction h with
  | rel body other hedit => exact settle_run_of_layoutEdit rfl hedit
  | refl body => rfl
  | symm body other _ ih => exact ih.symm
  | trans body between other _ _ ihLeft ihRight => exact ihLeft.trans ihRight

end SqliteSchema.Proofs.BodyLayouts
