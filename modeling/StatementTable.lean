import StatementTable.Main
import StatementTable.Row.Decode
import StatementTable.Tree.Assembly
import StatementTable.Workers
import StatementTable.Proofs.Provenance
import StatementTable.Proofs.Tokens
import StatementTable.Proofs.ElseBranches
import StatementTable.Proofs.Addresses
import StatementTable.Proofs.Strictness
import StatementTable.Proofs.Census
import StatementTable.Proofs.Encoding
import StatementTable.Proofs.Nesting
import StatementTable.Proofs.Scanning
import StatementTable.Proofs.FlattenRequests
import StatementTable.Proofs.PrintedValues
import StatementTable.Proofs.ReplyLines
import StatementTable.Proofs.SessionFraming
import StatementTable.Proofs.JsonReports
import StatementTable.Proofs.TableLayout
import StatementTable.Proofs.TextReports
import StatementTable.Proofs.Contexts
import StatementTable.Proofs.Bracing
import StatementTable.Proofs.FileWrites
import StatementTable.Proofs.Batches
import StatementTable.Proofs.ElseIf
import StatementTable.Proofs.ExpressionTexts
import StatementTable.Proofs.CellPlaces
import StatementTable.Proofs.Schema
import StatementTable.Proofs.Acceptance
import StatementTable.Proofs.Faults
import StatementTable.Proofs.UnreadMembers
import StatementTable.Proofs.OpenSlots
import StatementTable.Proofs.LocalChanges
import StatementTable.Proofs.Relocation
import StatementTable.Proofs.JoinedPaths
import StatementTable.Proofs.SortedPaths
import StatementTable.Proofs.RowFields
import StatementTable.Proofs.WalkPositions
import StatementTable.Proofs.Parentheses
import StatementTable.Proofs.TreeFiles
import StatementTable.Proofs.ValueDepth
import StatementTable.Proofs.NodeHeight
import StatementTable.Proofs.CallDepth
import StatementTable.Proofs.RecursionBounds
