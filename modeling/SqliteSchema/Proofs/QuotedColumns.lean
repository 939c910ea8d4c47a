import SqliteSchema.TableDefinitions
import SqliteSchema.Proofs.BalancedTokens
import SqliteSchema.Proofs.Passages

/-!
The list of the columns that values can be inserted into. Quoting a name gives one token that
its own mark closes, whatever the name holds, and each such token is a name that has been
quoted. So the list of a table, with commas in it, splits into the entries that it was joined
from, and no name reaches beyond its own entry.
-/
namespace SqliteSchema.Proofs.QuotedColumns

open PlainText Quoting DelimiterScan ClauseSplitting ClauseTokens TableConstraints
  ColumnDefinitions TableDefinitions NormalPieces QuotedRuns TokenReading BalancedTokens Passages

variable {mark : Char}

/-- A run that its mark closes is some text in quotes. -/
theorem exists_quotedBy_of_isClosed (hmark : IsQuoteMark mark) {token : Token}
    (hkind : token.kind = .quoted) (hfirst : token.text.head? = some mark)
    (hclosed : isClosed token = true) : ∃ inside, token.text = quotedBy mark inside := by
  have hclose : closingDelimiter? mark = some mark := hmark
  obtain ⟨gap, kind, text⟩ := token
  obtain rfl : kind = .quoted := hkind
  obtain ⟨run, rfl⟩ : ∃ run, text = mark :: run := List.head?_eq_some_iff.mp hfirst
  have hread : closeQuote? mark run = some (run, []) := by
    simpa [isClosed, hclose] using hclosed
  obtain ⟨inside, hinside⟩ := exists_double_of_closeQuote? hread
  exact ⟨inside, congrArg (mark :: ·) hinside⟩

/-- Every name that can be written is an entry by itself. -/
theorem isNormal_of_mem_writableColumns {table : Table} {entry : Text}
    (h : entry ∈ table.writableColumns) : IsNormal ',' entry := by
  obtain ⟨name, -, rfl⟩ := List.mem_map.mp h
  exact isNormal_of_isPassage (isPassage_quotedBy isQuoteMark_backtick name)

/-- Quoting a name and unquoting it are inverse to each other: a name in backticks is one closed
token and gives the name back, and a closed token in backticks comes back from its bare text.
The columns that can be written come back from their joined list, and so do their names. -/
theorem separateClauses_writableColumns :
    (∀ name, bareText (backticked name) = name ∧
      tokensOf (backticked name) = [⟨[], .quoted, backticked name⟩] ∧
      isClosed ⟨[], .quoted, backticked name⟩ = true) ∧
    (∀ token : Token, token.kind = .quoted → token.text.head? = some '\x60' →
      isClosed token = true → backticked (bareText token.text) = token.text) ∧
    ∀ table : Table,
      separateClauses (", ".toList.intercalate table.writableColumns) =
        .ok table.writableColumns ∧
      table.writableColumns.map bareText =
        (columnClauses table.clauses).filterMap writableName? := by
  refine ⟨?_, ?_, ?_⟩
  · intro name
    exact ⟨bareText_quotedBy isQuoteMark_backtick name,
      tokensOf_quotedBy_alone isQuoteMark_backtick name,
      isClosed_quotedBy isQuoteMark_backtick [] name⟩
  · intro token hkind hfirst hclosed
    obtain ⟨inside, htext⟩ := exists_quotedBy_of_isClosed isQuoteMark_backtick hkind hfirst hclosed
    rw [htext, bareText_quotedBy isQuoteMark_backtick, backticked_eq_quotedBy]
  · intro table
    have hspace : ∀ c ∈ [' '], isBlank c = true :=
      List.forall_mem_singleton.mpr SqueezedPieces.isBlank_space
    refine ⟨separate_intercalate isSeparating_comma hspace
      fun entry => isNormal_of_mem_writableColumns, ?_⟩
    have hbare : ∀ name, (bareText ∘ backticked) name = name :=
      bareText_quotedBy isQuoteMark_backtick
    rw [Table.writableColumns, List.map_map, List.map_congr_left fun name _ => hbare name,
      List.map_id']

def oddTable : Table :=
  Table.ofClauses ['t'] ["```, ``` int".toList, "\"a, (`\" text".toList, "`` int".toList,
    "c AS (1)".toList]

theorem separateClauses_writableColumns_oddTable :
    tokensOf "x ```, ``` int".toList =
        [⟨[], .word, ['x']⟩, ⟨[' '], .quoted, "```, ```".toList⟩, ⟨[' '], .word, "int".toList⟩] ∧
      bareText "```, ```".toList = "`, `".toList ∧
      backticked (bareText "```, ```".toList) = "```, ```".toList ∧
      oddTable.writableColumns = ["```, ```".toList, "`a, (```".toList, "``".toList] ∧
      separateClauses (", ".toList.intercalate oddTable.writableColumns) =
        .ok oddTable.writableColumns := by
  obtain ⟨-, hback, hlist⟩ := separateClauses_writableColumns
  have htoken := hback ⟨[' '], .quoted, "```, ```".toList⟩ rfl rfl (by decide +kernel)
  exact ⟨by decide +kernel, by decide +kernel, htoken, by decide +kernel, (hlist oddTable).1⟩

end SqliteSchema.Proofs.QuotedColumns
