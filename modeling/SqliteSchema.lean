import SqliteSchema.TableEvents
import SqliteSchema.Main
import SqliteSchema.Proofs.CanonicalDumps
import SqliteSchema.Proofs.ColumnFlags
import SqliteSchema.Proofs.EditFrames
import SqliteSchema.Proofs.GeneratedColumns
import SqliteSchema.Proofs.LiteralTables
import SqliteSchema.Proofs.StatementOrder
import SqliteSchema.Proofs.StrayTexts
import SqliteSchema.Proofs.DumpSplitting
import SqliteSchema.Proofs.IndexedTables
import SqliteSchema.Proofs.ColumnSyntax
import SqliteSchema.Proofs.RuleReading
import SqliteSchema.Proofs.WrittenColumns
import SqliteSchema.Proofs.TableLayouts
import SqliteSchema.Proofs.WrittenConstraints
import SqliteSchema.Proofs.CommentStretches
import SqliteSchema.Proofs.TokenOutlines
import SqliteSchema.Proofs.IndexEntries
import SqliteSchema.Proofs.EditLaws
import SqliteSchema.Proofs.OptionTexts
import SqliteSchema.Proofs.ConstraintNames
import SqliteSchema.Proofs.QuotedColumns
import SqliteSchema.Proofs.HeaderLayouts
import SqliteSchema.Proofs.PeeledValues
import SqliteSchema.Proofs.ColumnTypes
import SqliteSchema.Proofs.LosslessReports
import SqliteSchema.Proofs.TokenSpans
import SqliteSchema.Proofs.ListedEntries
import SqliteSchema.Proofs.CommandPipelines
import SqliteSchema.Proofs.RecordedEvents
import SqliteSchema.Proofs.WrittenArguments
