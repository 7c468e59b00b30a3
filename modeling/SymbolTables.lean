import SymbolTables.Access.Session
import SymbolTables.Access.Source
import SymbolTables.Command.Arguments
import SymbolTables.Command.Run
import SymbolTables.Files.Tree
import SymbolTables.Main
import SymbolTables.Proofs.Scan.Batches
import SymbolTables.Proofs.Scan.Conditions
import SymbolTables.Proofs.Store.RoundTrip
import SymbolTables.Proofs.Store.Cut
import SymbolTables.Proofs.Store.HeaderExact
import SymbolTables.Proofs.Scan.Agreement
import SymbolTables.Proofs.Scan.Delivery
import SymbolTables.Proofs.Scan.Cells
import SymbolTables.Proofs.Query.Grammar
import SymbolTables.Proofs.Query.Recognition
import SymbolTables.Proofs.Query.References
import SymbolTables.Proofs.Scan.Progress
import SymbolTables.Proofs.Store.Refusal
import SymbolTables.Proofs.Table.Columns
import SymbolTables.Proofs.Table.Layout
import SymbolTables.Proofs.Except
import SymbolTables.Proofs.Access.Streams
import SymbolTables.Proofs.Access.Prepared
import SymbolTables.Proofs.Text.Trim
import SymbolTables.Proofs.Script.Reading
import SymbolTables.Proofs.Script.History
import SymbolTables.Proofs.Scan.Shown
import SymbolTables.Proofs.Query.Resolution
import SymbolTables.Proofs.Script.TableOrder
import SymbolTables.Proofs.Store.Reading
import SymbolTables.Proofs.Query.Positions
import SymbolTables.Proofs.Access.Planning
import SymbolTables.Proofs.Store.Representation
import SymbolTables.Proofs.Scan.Cutting
import SymbolTables.Proofs.Scan.FilteredRead
import SymbolTables.Proofs.Scan.LabelCache
import SymbolTables.Proofs.Table.Lookups
import SymbolTables.Proofs.Script.PrecedingLoad
import SymbolTables.Proofs.Text.Split
import SymbolTables.Proofs.Files.Paths
import SymbolTables.Proofs.Files.Locator
import SymbolTables.Proofs.Table.Naming
import SymbolTables.Proofs.Render.Aligned
