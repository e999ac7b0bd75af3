import RowSelect.FileTree
import RowSelect.Main
import RowSelect.Proofs.ByteOrder
import RowSelect.Proofs.CaseFolding
import RowSelect.Proofs.CaseStability
import RowSelect.Proofs.Characters
import RowSelect.Proofs.Comparisons
import RowSelect.Proofs.Conditions
import RowSelect.Proofs.Cutting
import RowSelect.Proofs.Evaluation
import RowSelect.Proofs.Fields
import RowSelect.Proofs.Grammar
import RowSelect.Proofs.Layout
import RowSelect.Proofs.Lexing
import RowSelect.Proofs.Nearest
import RowSelect.Proofs.Nesting
import RowSelect.Proofs.NumberLiterals
import RowSelect.Proofs.NumberOrder
import RowSelect.Proofs.Numerals
import RowSelect.Proofs.Outcome
import RowSelect.Proofs.QueryLog
import RowSelect.Proofs.References
import RowSelect.Proofs.Rounding
import RowSelect.Proofs.RunSignals
import RowSelect.Proofs.Satisfaction
import RowSelect.Proofs.ScalarOrder
import RowSelect.Proofs.SchemaFailures
import RowSelect.Proofs.SelectedRows
import RowSelect.Proofs.Selection
import RowSelect.Proofs.SelectionFaults
import RowSelect.Proofs.StringLiterals
import RowSelect.Proofs.TokenSpans
import RowSelect.Proofs.Documents
import RowSelect.Proofs.RepeatedMembers
import RowSelect.Proofs.LoweredText
import RowSelect.Proofs.FoldedTokens
import RowSelect.Proofs.Offsets
import RowSelect.Proofs.Cells
import RowSelect.Proofs.CommaSeparated
import RowSelect.Proofs.FirstLiteral
import RowSelect.Proofs.AlignedColumns
import RowSelect.Proofs.RunArguments
import RowSelect.Proofs.QueryRuns
