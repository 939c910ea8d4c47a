import SqliteSchema.CommandLine
import SqliteSchema.Proofs.CanonicalDumps
import SqliteSchema.Proofs.EditFrames
import SqliteSchema.Proofs.EditRuns
import SqliteSchema.Proofs.ShownFaults

/-!
Commands that are run one after another, each on what the one before has printed. What a command
prints is a dump of the table that it has made, so a pipeline of edits prints the table that the
run of edits gives, and compiling a dump first makes no difference to what follows. A removal that
is refused prints no table, and nothing behind it is run. A command fails only where its dump
gives no table, its format is unknown, or no constraint has the name it is to drop.
-/
namespace SqliteSchema.Proofs.CommandPipelines

open PlainText Faults ClauseSplitting CommentStripping TableConstraints ColumnDefinitions
  TableDefinitions ConstraintEdits TableReports SchemaDumps RunFaults CommandArguments CommandLine
  DiagnosticNotation NormalPieces SpacedCells TableReading CanonicalDumps EditRuns EditFrames
  ShownFaults

def answer (table : Table) : Command → Except RunFault Text
  | .inspect format =>
      match ReportFormat.ofName? format with
      | some found => .ok (report table found)
      | none => .error (.unknownFormat format)
  | .compile => .ok table.statement
  | .columns => .ok (", ".toList.intercalate table.writableColumns)
  | .putConstraint name clause => .ok (putConstraint name clause table).statement
  | .dropConstraint name =>
      match dropConstraint? name table with
      | some left => .ok left.statement
      | none => .error (.noSuchConstraint name)

def printed (table : Table) : Outcome := ⟨0, table.statement ++ ['\n'], []⟩

def refusal (name : Text) : Outcome :=
  ⟨1, [], "Error: ConstraintNotFound(".toList ++ shownText name ++ ")\n".toList⟩

/-- The first command that fails ends a pipeline. -/
def pipeline (source : Text) : List Command → Outcome
  | [] => ⟨0, source, []⟩
  | command :: rest =>
      let outcome := commandOutcome command (.ok source)
      if outcome.exitCode = 0 then pipeline outcome.output rest else outcome

def editCommand : Edit → Command
  | .put name clause => .putConstraint name clause
  | .drop name => .dropConstraint name

/-- An edit that puts in nothing but one table constraint in normal form without comments. -/
def IsPrintable : Edit → Prop
  | .put _ clause => (readClause clause).isColumn = false ∧ separateClauses clause = .ok [clause] ∧
      withoutComments clause = clause
  | .drop _ => True

variable {source : Text} {table : Table} {edit : Edit} {edits : List Edit} {command : Command}

/-- A command sees nothing of a dump but its table. -/
theorem runCommand_of_readDump (h : readDump source = .ok table) :
    runCommand source command = answer table command := by
  have hdump : dumpTable source = .ok table := by
    rw [dumpTable, h]
    rfl
  cases command with
  | inspect format =>
    rw [runCommand, reportDump, hdump, answer]
    cases ReportFormat.ofName? format <;> rfl
  | dropConstraint name =>
    rw [runCommand, hdump, answer]
    cases hdrop : dropConstraint? name table with
    | some left =>
      simp only [bind, Except.bind, hdrop]
      rfl
    | none => simp only [bind, Except.bind, hdrop]
  | compile | columns | putConstraint =>
    rw [runCommand, hdump]
    rfl

theorem runCommand_of_readDump_eq_error {cause : Fault} (h : readDump source = .error cause) :
    runCommand source command = .error (.definition cause) := by
  have hdump : dumpTable source = .error (.definition cause) := by
    rw [dumpTable, h]
    rfl
  cases command with
  | inspect =>
    rw [runCommand, reportDump, hdump]
    rfl
  | compile | columns | putConstraint | dropConstraint =>
    rw [runCommand, hdump]
    rfl

theorem answer_eq_error_iff {fault : RunFault} :
    answer table command = .error fault ↔
      (∃ format, command = .inspect format ∧ ReportFormat.ofName? format = none ∧
          fault = .unknownFormat format) ∨
        ∃ name, command = .dropConstraint name ∧
          (∀ clause ∈ table.clauses, isNamedLike name clause = false) ∧
          fault = .noSuchConstraint name := by
  constructor
  · intro h
    cases command with
    | inspect format =>
      cases hformat : ReportFormat.ofName? format with
      | some found => simp [answer, hformat] at h
      | none =>
        rw [answer, hformat] at h
        exact .inl ⟨format, rfl, hformat, (Except.error.inj h).symm⟩
    | dropConstraint name =>
      cases hdrop : dropConstraint? name table with
      | some left => simp [answer, hdrop] at h
      | none =>
        rw [answer, hdrop] at h
        exact .inr ⟨name, rfl, (dropConstraint?_eq_none_iff name table).mp hdrop,
          (Except.error.inj h).symm⟩
    | compile | columns | putConstraint => simp [answer] at h
  · rintro (⟨format, rfl, hformat, rfl⟩ | ⟨name, rfl, hclauses, rfl⟩)
    · simp only [answer, hformat]
    · simp only [answer, (dropConstraint?_eq_none_iff name table).mpr hclauses]

/-- The reasons for which a command fails on a text. The dump is looked at before the command. -/
theorem runCommand_eq_error_iff {fault : RunFault} :
    runCommand source command = .error fault ↔
      (∃ cause, readDump source = .error cause ∧ fault = .definition cause) ∨
      ∃ table, readDump source = .ok table ∧
        ((∃ format, command = .inspect format ∧ ReportFormat.ofName? format = none ∧
            fault = .unknownFormat format) ∨
          ∃ name, command = .dropConstraint name ∧
            (∀ clause ∈ table.clauses, isNamedLike name clause = false) ∧
            fault = .noSuchConstraint name) := by
  cases hread : readDump source with
  | error cause =>
    rw [runCommand_of_readDump_eq_error hread]
    constructor
    · intro h
      exact .inl ⟨cause, rfl, (Except.error.inj h).symm⟩
    · rintro (⟨other, hother, rfl⟩ | ⟨table, htable, -⟩)
      · rw [Except.error.inj hother]
      · simp at htable
  | ok table =>
    rw [runCommand_of_readDump hread, answer_eq_error_iff]
    constructor
    · intro h
      exact .inr ⟨table, rfl, h⟩
    · rintro (⟨other, hother, -⟩ | ⟨other, hother, h⟩)
      · simp at hother
      · rwa [← Except.ok.inj hother] at h

theorem ofResult_noSuchConstraint (name : Text) :
    Outcome.ofResult (.error (.noSuchConstraint name)) = refusal name := by
  simp [Outcome.ofResult, refusal, shownRunFault, shownCase]

/-- A refusal is printed for no other reason than that no constraint has the name. -/
theorem commandOutcome_eq_refusal_iff {name : Text} :
    commandOutcome command (.ok source) = refusal name ↔
      ∃ table, readDump source = .ok table ∧ command = .dropConstraint name ∧
        ∀ clause ∈ table.clauses, isNamedLike name clause = false := by
  rw [← ofResult_noSuchConstraint]
  refine Iff.trans ofResult_injective.eq_iff (Iff.trans runCommand_eq_error_iff ?_)
  constructor
  · rintro (⟨cause, -, hfault⟩ |
      ⟨table, hread, ⟨format, -, -, hfault⟩ | ⟨other, rfl, hnone, hfault⟩⟩)
    · simp at hfault
    · simp at hfault
    · obtain rfl := RunFault.noSuchConstraint.inj hfault
      exact ⟨table, hread, rfl, hnone⟩
  · rintro ⟨table, hread, rfl, hnone⟩
    exact .inr ⟨table, hread, .inr ⟨name, rfl, hnone, rfl⟩⟩

theorem isSound_of_isPrintable (h : IsPrintable edit) : edit.IsSound := by
  cases edit with
  | put name clause => exact ⟨h.1, h.2.1⟩
  | drop name => trivial

theorem isTidy_of_isPrintable {name clause : Text} (h : IsPrintable (.put name clause)) :
    IsTidy clause := by
  obtain ⟨-, hsplit, hcomments⟩ := h
  obtain ⟨hbalanced, hpieces⟩ := separate_eq_ok_iff.mp hsplit
  have hmem : clause ∈ pieces ',' clause := by simp [hpieces]
  exact isTidy_of_isPiece (isPiece_of_mem_pieces isSeparating_comma hbalanced hmem)
    (withoutComments_eq_self_iff.mp hcomments)

/-- A table stays a dump of its own under edits without comments. -/
theorem isDumpable_run (htable : IsDumpable table) (hedits : ∀ edit ∈ edits, IsPrintable edit) :
    IsDumpable (run table edits) := by
  have hsound : ∀ edit ∈ edits, edit.IsSound := fun edit hmem =>
    isSound_of_isPrintable (hedits edit hmem)
  have hwritable := isWritable_run htable.writable hsound
  obtain ⟨columns, hcolumns⟩ := htable.readable
  have hreadable := exists_readColumns hcolumns (columnClauses_run hsound)
  have htidy : ∀ clause ∈ (run table edits).clauses, IsTidy clause := by
    intro clause hclause
    rcases mem_clauses_run hclause with hbefore | ⟨name, hput⟩
    · exact htable.clauses clause hbefore
    · exact isTidy_of_isPrintable (hedits _ hput)
  rw [run_eq] at hwritable ⊢
  exact ⟨⟨htable.name, htidy, htable.options⟩, hwritable, htable.settled, hreadable⟩

/-- A text that is a dump of a table in all but its columns and indexes. -/
def Shows (source : Text) (table : Table) : Prop :=
  ∃ columns indexes, readDump source = .ok { table with columns := columns, indexes := indexes }

/-- The printed table is read again without its indexes. -/
theorem readDump_statement {columns : List Column} (h : IsDumpable table)
    (hcolumns : readColumns table.clauses [] = .ok columns) :
    readDump (table.statement ++ ['\n']) =
      .ok { table with columns := columns, indexes := [] } :=
  bind_eq_ok.mpr ⟨_, dumpStatements_of_isDumpable h, readTable_of_isDumpable h hcolumns⟩

theorem shows_statement (h : IsDumpable table) : Shows (table.statement ++ ['\n']) table := by
  obtain ⟨columns, hcolumns⟩ := h.readable
  exact ⟨columns, [], readDump_statement h hcolumns⟩

theorem commandOutcome_of_readDump (h : readDump source = .ok table) :
    commandOutcome command (.ok source) = .ofResult (answer table command) :=
  congrArg Outcome.ofResult (runCommand_of_readDump h)

/-- The columns and indexes of a table show in its inspection alone. -/
theorem commandOutcome_of_shows (h : Shows source table)
    (hcommand : ∀ format, command ≠ .inspect format) :
    commandOutcome command (.ok source) = .ofResult (answer table command) := by
  obtain ⟨columns, indexes, hread⟩ := h
  rw [commandOutcome_of_readDump hread]
  cases command with
  | inspect format => exact absurd rfl (hcommand format)
  | compile | columns | putConstraint => rfl
  | dropConstraint name =>
    by_cases hnamed : table.clauses.any (isNamedLike name) = true
    · simp only [answer, dropConstraint?, hnamed, if_true]
      rfl
    · simp only [answer, dropConstraint?, hnamed, Bool.false_eq_true, if_false]

/-- An edit that is not refused prints the edited table, and one that is prints no table. -/
theorem answer_editCommand (table : Table) (edit : Edit) :
    (¬IsRefused table edit ∧
        Outcome.ofResult (answer table (editCommand edit)) = printed (edit.apply table)) ∨
      ∃ name, edit = .drop name ∧ IsRefused table edit ∧
        Outcome.ofResult (answer table (editCommand edit)) = refusal name := by
  cases edit with
  | put name clause => exact .inl ⟨not_isRefused_put table name clause, rfl⟩
  | drop name =>
    rw [isRefused_drop_iff]
    cases hdrop : dropConstraint? name table with
    | some left =>
      refine .inl ⟨by simp, ?_⟩
      simp only [editCommand, answer, hdrop, Edit.apply, Option.getD_some]
      rfl
    | none =>
      refine .inr ⟨name, rfl, rfl, ?_⟩
      simp only [editCommand, answer, hdrop]
      exact ofResult_noSuchConstraint name

theorem editCommand_ne_inspect (edit : Edit) (format : Text) :
    editCommand edit ≠ .inspect format := by
  cases edit <;> simp [editCommand]

/-- A pipeline on what a command has printed follows the run of edits step by step. -/
theorem pipeline_statement (htable : IsDumpable table)
    (hedits : ∀ edit ∈ edits, IsPrintable edit) :
    (Accepts table edits ∧
        pipeline (table.statement ++ ['\n']) (edits.map editCommand) = printed (run table edits)) ∨
      ∃ before name after, edits = before ++ .drop name :: after ∧ Accepts table before ∧
        IsRefused (run table before) (.drop name) ∧
        pipeline (table.statement ++ ['\n']) (edits.map editCommand) = refusal name := by
  induction edits generalizing table with
  | nil => exact .inl ⟨trivial, rfl⟩
  | cons edit rest ih =>
    obtain ⟨hedit, hrest⟩ := List.forall_mem_cons.mp hedits
    have hstep := commandOutcome_of_shows (shows_statement htable) (editCommand_ne_inspect edit)
    rcases answer_editCommand table edit with ⟨hfound, hprinted⟩ | ⟨name, rfl, hrefused, hrefusal⟩
    · have hnext : IsDumpable (edit.apply table) :=
        isDumpable_run htable (List.forall_mem_singleton.mpr hedit)
      have hpipeline : pipeline (table.statement ++ ['\n']) ((edit :: rest).map editCommand) =
          pipeline ((edit.apply table).statement ++ ['\n']) (rest.map editCommand) := by
        simp only [List.map_cons, pipeline, hstep, hprinted]
        rfl
      rw [hpipeline, run_cons]
      rcases ih hnext hrest with ⟨haccepts, hrun⟩ | ⟨before, name, after, rfl, haccepts, hrun⟩
      · exact .inl ⟨⟨hfound, haccepts⟩, hrun⟩
      · exact .inr ⟨edit :: before, name, after, rfl, ⟨hfound, haccepts⟩, hrun⟩
    · refine .inr ⟨[], name, rest, rfl, trivial, hrefused, ?_⟩
      simp only [List.map_cons, pipeline, hstep, hrefusal]
      rfl

/-- Two dumps of one table are edited alike. -/
theorem pipeline_of_shows {other : Text} (h : Shows source table) (hother : Shows other table)
    (hcommand : ∀ format, command ≠ .inspect format) (rest : List Command) :
    pipeline source (command :: rest) = pipeline other (command :: rest) := by
  simp only [pipeline, commandOutcome_of_shows h hcommand, commandOutcome_of_shows hother hcommand]

/-- A pipeline of edits prints the table that the run of edits gives, unless one of them is
refused at its place. Then it prints no table but the refusal of the first such edit. -/
theorem pipeline_editCommand (hsource : ¬ [']', ']'] <:+: source)
    (h : readDump source = .ok table) (hedits : ∀ edit ∈ edits, IsPrintable edit)
    (hfilled : edits ≠ []) :
    (Accepts table edits ∧
        pipeline source (edits.map editCommand) = printed (run table edits)) ∨
      ∃ before name after, edits = before ++ .drop name :: after ∧ Accepts table before ∧
        IsRefused (run table before) (.drop name) ∧
        pipeline source (edits.map editCommand) = refusal name := by
  have htable := isDumpable_of_readDump hsource h
  have hshows : Shows source table := ⟨table.columns, table.indexes, h⟩
  obtain ⟨first, rest, rfl⟩ := List.exists_cons_of_ne_nil hfilled
  rw [List.map_cons,
    pipeline_of_shows hshows (shows_statement htable) (editCommand_ne_inspect first),
    ← List.map_cons]
  exact pipeline_statement htable hedits

example : pipeline "create table t(a int, CONSTRAINT c CHECK (a > 0));".toList
    [.dropConstraint ['C'], .dropConstraint ['c'], .compile] = refusal ['c'] := by decide +kernel

/-- Compiling a dump first makes no difference to the commands behind it, nor to an inspection of
a table without indexes. -/
theorem pipeline_compile (hsource : ¬ [']', ']'] <:+: source) (h : readDump source = .ok table)
    (hcommand : (∃ format, command = .inspect format) → table.indexes = [])
    (rest : List Command) :
    pipeline source (.compile :: command :: rest) = pipeline source (command :: rest) := by
  have htable := isDumpable_of_readDump hsource h
  have hshows : Shows source table := ⟨table.columns, table.indexes, h⟩
  have hcompiled : pipeline source (.compile :: command :: rest) =
      pipeline (table.statement ++ ['\n']) (command :: rest) := by
    rw [pipeline, commandOutcome_of_readDump h]
    rfl
  rw [hcompiled]
  by_cases hinspect : ∃ format, command = .inspect format
  · have hindexes := hcommand hinspect
    obtain ⟨statements, -, hread⟩ := bind_eq_ok.mp h
    obtain ⟨-, hcurrent, -⟩ := properties_of_readTable hread
    rw [IsCurrent, hindexes] at hcurrent
    have hagain := readDump_statement htable hcurrent
    have hsame : { table with columns := table.columns, indexes := [] } = table := by
      rw [← hindexes]
    rw [hsame] at hagain
    simp only [pipeline, commandOutcome_of_readDump h, commandOutcome_of_readDump hagain]
  · exact pipeline_of_shows (shows_statement htable) hshows
      (fun format heq => hinspect ⟨format, heq⟩) rest

end SqliteSchema.Proofs.CommandPipelines
