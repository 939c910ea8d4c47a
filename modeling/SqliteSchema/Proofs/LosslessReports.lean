import SqliteSchema.TableReports
import SqliteSchema.Proofs.JsonTexts

/-!
The JSON report of a table can be taken apart in one way only. Every member of a column is
laid out so that its value can be told from its text, among them null from the text of any
value, and the options are the one member that may be absent, so two tables with the same
report have the same name, clauses, columns and options.
-/
namespace SqliteSchema.Proofs.LosslessReports

open PlainText TypeArguments ColumnDefinitions TableDefinitions JsonLayout TableReports JsonTexts

theorem isReadable_sizePair (depth : Nat) : IsReadable (sizePair depth) := by
  have hpair : Function.Injective fun size : Int × Int => [size.1, size.2] := by
    rintro ⟨precision, scale⟩ ⟨precision', scale'⟩ h
    simpa using h
  exact IsReadable.comp (isReadable_array isReadable_integer depth) hpair

theorem isNeverNull_sizePair (depth : Nat) : IsNeverNull (sizePair depth) :=
  isNeverNull_array (fun size : Int × Int => [integer size.1, integer size.2]) depth

theorem isReadable_length : IsReadable (nullable integer) :=
  isReadable_nullable isReadable_integer isNeverNull_integer

theorem isReadable_decimal (depth : Nat) : IsReadable (nullable (sizePair depth)) :=
  isReadable_nullable (isReadable_sizePair depth) (isNeverNull_sizePair depth)

theorem isReadable_default : IsReadable (nullable string) :=
  isReadable_nullable isReadable_string isNeverNull_string

/-- A size is a length, or a precision and a scale, or neither. -/
theorem size_ext {left right : TypeSize} (hlength : left.length? = right.length?)
    (hdecimal : left.decimal? = right.decimal?) : left = right := by
  cases left <;> cases right <;> simp_all [TypeSize.length?, TypeSize.decimal?]

/-- The members of a column stand in one order, and each is told where it stands. -/
theorem isReadable_columnReport (depth : Nat) : IsReadable (columnReport depth) := by
  intro left right afterLeft afterRight _ _ h
  have hmembers := eq_of_object ?_ h
  · simp only [List.cons.injEq, Prod.mk.injEq, true_and, and_true,
      isReadable_string.injective.eq_iff, isReadable_length.injective.eq_iff,
      (isReadable_decimal _).injective.eq_iff, isReadable_default.injective.eq_iff,
      isReadable_boolean.injective.eq_iff] at hmembers
    obtain ⟨hname, hdata, hcolumn, hlength, hdecimal, hflags⟩ := hmembers
    cases left
    cases right
    rw [Column.mk.injEq]
    exact ⟨hname, hdata, hcolumn, size_ext hlength hdecimal, hflags⟩
  · simp [isReadable_string.delimits, isReadable_length.delimits, isReadable_default.delimits,
      (isReadable_decimal _).delimits, isReadable_boolean.delimits]

theorem isReadable_clauses : IsReadable fun clauses : List Text => array 1 (clauses.map string) :=
  isReadable_array isReadable_string 1

theorem isReadable_columns :
    IsReadable fun columns : List Column => array 1 (columns.map (columnReport 2)) :=
  isReadable_array (isReadable_columnReport 2) 1

def optionsMember (options : Option Text) : List (String × Text) :=
  options.toList.map fun options => ("options", string options)

theorem delimits_optionsMember (left right : Option Text) :
    ∀ pair ∈ (optionsMember left).zip (optionsMember right), Delimits pair.1.2 pair.2.2 := by
  cases left <;> cases right <;> simp [optionsMember, isReadable_string.delimits]

theorem optionsMember_injective : Function.Injective optionsMember := by
  intro left right h
  cases left <;> cases right <;> simp_all [optionsMember, isReadable_string.injective.eq_iff]

def members (table : Table) : List (String × Text) :=
  ("table_name", string table.name) :: ("fields", array 1 (table.clauses.map string)) ::
    ("columns", array 1 (table.columns.map (columnReport 2))) :: optionsMember table.options

theorem jsonReport_eq (table : Table) : jsonReport table = object 0 (members table) := rfl

/-- Tables have the same JSON report exactly where they have the same name, the same clauses,
the same columns with all that is known of each, and the same options. -/
theorem report_json_eq_iff (left right : Table) :
    report left .json = report right .json ↔
      left.name = right.name ∧ left.clauses = right.clauses ∧ left.columns = right.columns ∧
        left.options = right.options := by
  constructor
  · intro h
    rw [report, report, jsonReport_eq, jsonReport_eq] at h
    have hmembers := eq_of_object ?_ (congrArg (· ++ []) h)
    · simp only [members, List.cons.injEq, Prod.mk.injEq, true_and,
        isReadable_string.injective.eq_iff, isReadable_clauses.injective.eq_iff,
        isReadable_columns.injective.eq_iff] at hmembers
      obtain ⟨hname, hclauses, hcolumns, hoptions⟩ := hmembers
      exact ⟨hname, hclauses, hcolumns, optionsMember_injective hoptions⟩
    · simp only [members, List.zip_cons_cons, List.forall_mem_cons]
      exact ⟨isReadable_string.delimits _ _, isReadable_clauses.delimits _ _,
        isReadable_columns.delimits _ _, delimits_optionsMember _ _⟩
  · rintro ⟨hname, hclauses, hcolumns, hoptions⟩
    simp only [report, jsonReport, hname, hclauses, hcolumns, hoptions]

end SqliteSchema.Proofs.LosslessReports
