import Mathlib.Data.List.DropRight
import SqliteSchema.Proofs.CanonicalDumps

/-!
The options of a table as a text. What follows the body of a table is cut into blanks, the
options, more blanks, semicolons and blanks again. Semicolons are taken off the end only once, so
one is left where blanks stand between it and another behind it. All other options are in their
final form: they are read again from the statement that they are written into.
-/
namespace SqliteSchema.Proofs.OptionTexts

open PlainText ClauseSplitting TableDefinitions TableReading StatementRoundTrip CanonicalDumps

variable {drops : Char → Bool} {text tail options lead gap marks ending : Text}

theorem getLast?_trimEnd (drops : Char → Bool) (text : Text) :
    ∀ c ∈ (trimEnd drops text).getLast?, drops c = false := by
  intro c hc
  have hne : trimEnd drops text ≠ [] := by
    rintro hnil
    simp [hnil] at hc
  rw [List.getLast?_eq_some_getLast hne, Option.mem_def, Option.some.injEq] at hc
  rw [← hc]
  exact Bool.eq_false_iff.mpr (List.rdropWhile_last_not drops text hne)

theorem exists_append_of_trimEnd (drops : Char → Bool) (text : Text) :
    ∃ ending, text = trimEnd drops text ++ ending ∧ ∀ c ∈ ending, drops c = true :=
  ⟨text.rtakeWhile drops, List.rdropWhile_append_rtakeWhile.symm,
    fun _ => List.mem_rtakeWhile_imp⟩

theorem trimEnd_append (hlast : ∀ c ∈ text.getLast?, drops c = false)
    (hending : ∀ c ∈ ending, drops c = true) : trimEnd drops (text ++ ending) = text := by
  induction ending using List.reverseRecOn with
  | nil => rw [List.append_nil, trimEnd_eq_self hlast]
  | append_singleton more c ih =>
    obtain ⟨hmore, hc⟩ := List.forall_mem_append.mp hending
    rw [← List.append_assoc]
    exact (List.rdropWhile_concat_pos drops _ c (hc c (List.mem_singleton_self c))).trans (ih hmore)

structure IsTrimmed (text : Text) : Prop where
  head : ∀ c ∈ text.head?, isBlank c = false
  last : ∀ c ∈ text.getLast?, isBlank c = false

theorem isTrimmed_trim (text : Text) : IsTrimmed (trim text) := by
  refine ⟨?_, getLast?_trimEnd isBlank _⟩
  intro c hc
  obtain ⟨ending, hsplit, -⟩ := exists_append_of_trimEnd isBlank (text.dropWhile isBlank)
  apply isBlank_head_dropWhile text
  rw [hsplit]
  exact List.mem_head?_append_of_mem_head? hc

theorem exists_append_of_trim (text : Text) :
    ∃ lead ending, text = lead ++ trim text ++ ending ∧ (∀ c ∈ lead, isBlank c = true) ∧
      ∀ c ∈ ending, isBlank c = true := by
  obtain ⟨ending, hsplit, hending⟩ := exists_append_of_trimEnd isBlank (text.dropWhile isBlank)
  refine ⟨text.takeWhile isBlank, ending, ?_, fun _ => List.mem_takeWhile_imp, hending⟩
  rw [List.append_assoc, trim, ← hsplit, List.takeWhile_append_dropWhile]

theorem trim_append (htext : IsTrimmed text) (hfilled : text ≠ [])
    (hlead : ∀ c ∈ lead, isBlank c = true) (hending : ∀ c ∈ ending, isBlank c = true) :
    trim (lead ++ text ++ ending) = text := by
  obtain ⟨first, rest, rfl⟩ := List.exists_cons_of_ne_nil hfilled
  have hfirst : isBlank first = false := htext.head first rfl
  have hdrop : (lead ++ first :: rest ++ ending).dropWhile isBlank = first :: rest ++ ending := by
    rw [List.append_assoc, List.dropWhile_append_of_pos hlead, List.cons_append,
      List.dropWhile_cons_of_neg (by simp [hfirst])]
  rw [trim, hdrop, trimEnd_append htext.last hending]

/-- A text cut into blanks, options, and the blanks, semicolons and blanks behind them. Blanks
right behind the options are followed by a semicolon, and else the options end with none. -/
structure IsPartedAs (tail lead options gap marks ending : Text) : Prop where
  parts : tail = lead ++ options ++ gap ++ marks ++ ending
  filled : options ≠ []
  trimmed : IsTrimmed options
  blankLead : ∀ c ∈ lead, isBlank c = true
  blankGap : ∀ c ∈ gap, isBlank c = true
  onlyMarks : ∀ c ∈ marks, c = ';'
  blankEnding : ∀ c ∈ ending, isBlank c = true
  closed : gap ≠ [] → marks ≠ []
  complete : gap = [] → options.getLast? ≠ some ';'

theorem isBlank_semicolon : isBlank ';' = false := by decide

theorem trailingOptions_eq_some_iff :
    trailingOptions tail = some options ↔
      options ≠ [] ∧ trim (trimEnd (· == ';') (trim tail)) = options := by
  simp only [trailingOptions, List.isEmpty_iff]
  split
  · rename_i hempty
    rw [hempty]
    simp [eq_comm]
  · rename_i hfilled
    rw [Option.some.injEq]
    constructor
    · rintro rfl
      exact ⟨hfilled, rfl⟩
    · exact And.right

theorem trailingOptions_of_isPartedAs (h : IsPartedAs tail lead options gap marks ending) :
    trailingOptions tail = some options := by
  have hwhole : IsTrimmed (options ++ gap ++ marks) := by
    constructor
    · intro c hc
      obtain ⟨first, rest, rfl⟩ := List.exists_cons_of_ne_nil h.filled
      exact h.trimmed.head c hc
    · intro c hc
      by_cases hmarks : marks = []
      · have hgap : gap = [] := by
          by_contra hgap
          exact h.closed hgap hmarks
        rw [hmarks, hgap, List.append_nil, List.append_nil] at hc
        exact h.trimmed.last c hc
      · rw [List.getLast?_append_of_ne_nil _ hmarks] at hc
        rw [h.onlyMarks c (List.mem_of_getLast? hc)]
        exact isBlank_semicolon
  have htail : trim tail = options ++ gap ++ marks := by
    have hparts : tail = lead ++ (options ++ gap ++ marks) ++ ending := by
      simp [h.parts]
    rw [hparts, trim_append hwhole (by simp [h.filled]) h.blankLead h.blankEnding]
  have hmarks : trimEnd (· == ';') (options ++ gap ++ marks) = options ++ gap := by
    apply trimEnd_append
    · intro c hc
      rw [beq_eq_false_iff_ne]
      rintro rfl
      by_cases hgap : gap = []
      · rw [hgap, List.append_nil] at hc
        exact h.complete hgap hc
      · rw [List.getLast?_append_of_ne_nil _ hgap] at hc
        have hblank := h.blankGap ';' (List.mem_of_getLast? hc)
        rw [isBlank_semicolon] at hblank
        exact absurd hblank (by simp)
    · intro c hc
      simpa using h.onlyMarks c hc
  have hoptions : trim ([] ++ options ++ gap) = options :=
    trim_append h.trimmed h.filled (by simp) h.blankGap
  rw [List.nil_append] at hoptions
  exact trailingOptions_eq_some_iff.mpr ⟨h.filled, by rw [htail, hmarks, hoptions]⟩

theorem exists_isPartedAs (h : trailingOptions tail = some options) :
    ∃ lead gap marks ending, IsPartedAs tail lead options gap marks ending := by
  obtain ⟨hfilled, rfl⟩ := trailingOptions_eq_some_iff.mp h
  obtain ⟨lead, ending, htail, hlead, hending⟩ := exists_append_of_trim tail
  obtain ⟨marks, hmarked, hmarks⟩ := exists_append_of_trimEnd (· == ';') (trim tail)
  obtain ⟨front, gap, hcut, hfront, hgap⟩ :=
    exists_append_of_trim (trimEnd (· == ';') (trim tail))
  have hunmarked := getLast?_trimEnd (· == ';') (trim tail)
  have htrimmed := isTrimmed_trim tail
  generalize trimEnd (· == ';') (trim tail) = unmarked at hmarked hcut hunmarked hfilled ⊢
  have hnone : front = [] := by
    cases front with
    | nil => rfl
    | cons first rest =>
      have hfirst := htrimmed.head first (by rw [hmarked, hcut]; rfl)
      rw [hfront first (List.mem_cons_self ..)] at hfirst
      exact absurd hfirst (by simp)
  rw [hnone, List.nil_append] at hcut
  refine ⟨lead, gap, marks, ending, ?_, hfilled, isTrimmed_trim _, hlead, hgap,
    fun c hc => by simpa using hmarks c hc, hending, ?_, ?_⟩
  · rw [List.append_assoc lead, ← hcut, List.append_assoc lead, ← hmarked]
    exact htail
  · intro hne hnil
    have hlast := htrimmed.last (gap.getLast hne) (by
      rw [hmarked, hnil, List.append_nil, hcut, List.getLast?_append_of_ne_nil _ hne]
      exact List.getLast?_eq_some_getLast hne)
    rw [hgap _ (List.getLast_mem hne)] at hlast
    exact absurd hlast (by simp)
  · intro hnil hlast
    rw [hnil, List.append_nil] at hcut
    simpa using hunmarked ';' (by rw [hcut]; exact hlast)

/-- Blanks stand between a semicolon and the semicolons at the end of the text. -/
def HasSplitEnd (tail : Text) : Prop :=
  ∃ front gap marks ending, tail = front ++ [';'] ++ gap ++ marks ++ ending ∧
    gap ≠ [] ∧ marks ≠ [] ∧ (∀ c ∈ gap, isBlank c = true) ∧ (∀ c ∈ marks, c = ';') ∧
    ∀ c ∈ ending, isBlank c = true

/-- A semicolon is left at the end of the options just where the text behind the body has a
split end. -/
theorem hasSplitEnd_iff :
    HasSplitEnd tail ↔ ∃ options, trailingOptions tail = some options ∧
      options.getLast? = some ';' := by
  constructor
  · rintro ⟨front, gap, marks, ending, htail, hgap, hmarks, hblankGap, honly, hending⟩
    have hsplit : (front ++ [';']).takeWhile isBlank ++ (front ++ [';']).dropWhile isBlank =
        front ++ [';'] := List.takeWhile_append_dropWhile
    have hfilled : (front ++ [';']).dropWhile isBlank ≠ [] := by
      intro hnil
      have hblank := List.dropWhile_eq_nil_iff.mp hnil ';' (by simp)
      rw [isBlank_semicolon] at hblank
      simp at hblank
    have hlast : ((front ++ [';']).dropWhile isBlank).getLast? = some ';' := by
      rw [← List.getLast?_append_of_ne_nil _ hfilled, hsplit, List.getLast?_concat]
    have htrimmed : IsTrimmed ((front ++ [';']).dropWhile isBlank) := by
      refine ⟨isBlank_head_dropWhile _, ?_⟩
      intro c hc
      rw [hlast] at hc
      rw [← Option.some.inj hc]
      exact isBlank_semicolon
    have hblankLead : ∀ c ∈ (front ++ [';']).takeWhile isBlank, isBlank c = true :=
      fun _ => List.mem_takeWhile_imp
    rw [← hsplit] at htail
    exact ⟨_, trailingOptions_of_isPartedAs ⟨htail, hfilled, htrimmed, hblankLead, hblankGap, honly,
      hending, fun _ => hmarks, fun hnil => absurd hnil hgap⟩, hlast⟩
  · rintro ⟨options, hoptions, hlast⟩
    obtain ⟨lead, gap, marks, ending, hcut⟩ := exists_isPartedAs hoptions
    have hgap : gap ≠ [] := fun hnil => hcut.complete hnil hlast
    obtain ⟨front, rfl⟩ := List.getLast?_eq_some_iff.mp hlast
    exact ⟨lead ++ front, gap, marks, ending, by simp [hcut.parts], hgap, hcut.closed hgap,
      hcut.blankGap, hcut.onlyMarks, hcut.blankEnding⟩

/-- Options are read again as they are where they do not end with a semicolon. -/
theorem trailingOptions_cons_space_iff (hfilled : options ≠ []) (htrimmed : IsTrimmed options) :
    trailingOptions (' ' :: options) = some options ↔ options.getLast? ≠ some ';' := by
  constructor
  · intro h
    obtain ⟨lead, gap, marks, ending, hcut⟩ := exists_isPartedAs h
    apply hcut.complete
    cases lead with
    | nil =>
      obtain ⟨first, rest, rfl⟩ := List.exists_cons_of_ne_nil hfilled
      have hfirst : ' ' = first := (List.cons.inj hcut.parts).1
      have hblank := htrimmed.head first rfl
      rw [← hfirst] at hblank
      exact absurd hblank (by decide)
    | cons c rest =>
      have hlength := congrArg List.length hcut.parts
      simp only [List.length_cons, List.length_append] at hlength
      exact List.eq_nil_of_length_eq_zero (by omega)
  · intro hlast
    apply trailingOptions_cons_space hfilled htrimmed.head
    intro c hc
    refine ⟨htrimmed.last c hc, ?_⟩
    rintro rfl
    exact hlast hc

theorem writtenOptions_injective {options other : Option Text}
    (h : writtenOptions options = writtenOptions other) : options = other := by
  cases options <;> cases other <;> simp_all [writtenOptions]

theorem statement_eq_iff {table again : Table} (hname : again.name = table.name)
    (hguard : again.ifNotExists = table.ifNotExists) (hclauses : again.clauses = table.clauses) :
    again.statement = table.statement ↔ again.options = table.options := by
  rw [statement_eq, statement_eq, hname, hguard, hclauses, List.append_right_inj,
    List.append_right_inj, List.append_right_inj, List.cons_inj_right, List.cons_inj_right,
    List.append_right_inj, List.cons_inj_right]
  constructor
  · exact writtenOptions_injective
  · exact congrArg writtenOptions

/-- Options are trimmed. They are in their final form, so that they and the statement of the
table stay what they are when the statement is read, if and only if they do not end with a
semicolon, and they end with one just where the text behind the body has a split end. -/
theorem options_of_readTable {statements : List Text} {table : Table}
    (h : readTable statements = .ok table) :
    (∀ options ∈ table.options, options ≠ [] ∧ IsTrimmed options) ∧
      ∃ definition group again, tableStatements statements = [definition] ∧
        parenthesized definition.header.rest = .ok (some group) ∧
        readTable [table.statement] = .ok again ∧
        ((∀ options ∈ table.options, options.getLast? ≠ some ';') ↔ ¬HasSplitEnd group.tail) ∧
        (again.options = table.options ↔ ¬HasSplitEnd group.tail) ∧
        (again.statement = table.statement ↔ ¬HasSplitEnd group.tail) := by
  obtain ⟨definition, indexes, group, hparts⟩ := exists_isReadFrom h
  obtain ⟨columns, hagain⟩ := exists_readTable_statement h
  have htrimmed : ∀ options ∈ table.options, options ≠ [] ∧ IsTrimmed options := by
    intro options hoptions
    obtain ⟨lead, gap, marks, ending, hcut⟩ :=
      exists_isPartedAs (hparts.options.trans hoptions)
    exact ⟨hcut.filled, hcut.trimmed⟩
  have hfinal : (∀ options ∈ table.options, options.getLast? ≠ some ';') ↔
      ¬HasSplitEnd group.tail := by
    rw [hasSplitEnd_iff, hparts.options]
    simp
  have hoptions : trailingOptions (writtenOptions table.options) = table.options ↔
      ¬HasSplitEnd group.tail := by
    rw [← hfinal]
    cases hsome : table.options with
    | none => simp [writtenOptions, trailingOptions, trim, trimEnd]
    | some options =>
      obtain ⟨hfilled, htrim⟩ := htrimmed options hsome
      simpa [writtenOptions] using trailingOptions_cons_space_iff hfilled htrim
  refine ⟨htrimmed, definition, group, _, tableStatements_of_isReadFrom hparts, hparts.body, hagain,
    hfinal, hoptions, ?_⟩
  refine Iff.trans (statement_eq_iff ?_ ?_ ?_) hoptions <;> rfl

def paddedBatch : List Text := ["create table t(a int) ; WITHOUT  ROWID,STRICT;; \t".toList]

def paddedTable : Table where
  name := ['t']
  ifNotExists := false
  clauses := ["a int".toList]
  columns := [
    ⟨['a'], "int".toList, "int".toList, .unsized, none, true, false, false, false, false⟩]
  options := some "; WITHOUT  ROWID,STRICT".toList
  indexes := []

theorem options_paddedTable :
    readTable paddedBatch = .ok paddedTable ∧
      (∀ options ∈ paddedTable.options, IsTrimmed options ∧ options.getLast? ≠ some ';') ∧
      ∃ again, readTable [paddedTable.statement] = .ok again ∧
        again.options = paddedTable.options ∧ again.statement = paddedTable.statement := by
  have hread : readTable paddedBatch = .ok paddedTable := eq_ok_of_toOption (by decide +kernel)
  have hlast : ∀ options ∈ paddedTable.options, options.getLast? ≠ some ';' := by decide
  obtain ⟨htrimmed, definition, group, again, -, -, hagain, hfinal, hoptions, hstatement⟩ :=
    options_of_readTable hread
  have hend := hfinal.mp hlast
  exact ⟨hread, fun options hsome => ⟨(htrimmed options hsome).2, hlast options hsome⟩, again,
    hagain, hoptions.mpr hend, hstatement.mpr hend⟩

def splitBatch : List Text := ["CREATE TABLE t (a int); ;".toList]

def splitTable : Table where
  name := ['t']
  ifNotExists := false
  clauses := ["a int".toList]
  columns := [
    ⟨['a'], "int".toList, "int".toList, .unsized, none, true, false, false, false, false⟩]
  options := some [';']
  indexes := []

/-- A semicolon in front of a blank and another one is taken for options, which are gone when the
statement is read again. -/
theorem options_splitTable :
    readTable splitBatch = .ok splitTable ∧ splitTable.options = some [';'] ∧
      ∃ again, readTable [splitTable.statement] = .ok again ∧ again.options = none ∧
        again.statement ≠ splitTable.statement := by
  have hagain : readTable [splitTable.statement] = .ok { splitTable with options := none } :=
    eq_ok_of_toOption (by decide +kernel)
  exact ⟨eq_ok_of_toOption (by decide +kernel), rfl, _, hagain, rfl, by decide +kernel⟩

end SqliteSchema.Proofs.OptionTexts
