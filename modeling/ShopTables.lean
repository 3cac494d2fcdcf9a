import ShopTables.Api.Canned
import ShopTables.Config.Save
import ShopTables.Main
import ShopTables.Proofs.RowStore.Snapshot
import ShopTables.Proofs.Table.EditorLedger
import ShopTables.Proofs.Table.RemainingRows
import ShopTables.Proofs.Table.SyncRequest
import ShopTables.Proofs.Table.RemovedRows
import ShopTables.Proofs.RowStore.SharedStore
import ShopTables.Proofs.Binary64.Integers
import ShopTables.Proofs.Json.Sound
import ShopTables.Proofs.Schema.Record
import ShopTables.Proofs.RowStore.ShownCells
import ShopTables.Proofs.Table.ShownRecords
import ShopTables.Proofs.RowStore.Partitions
import ShopTables.Proofs.RowStore.ColumnNames
import ShopTables.Proofs.Command.TableNames
import ShopTables.Proofs.Table.SentKeys
import ShopTables.Proofs.StatementCalls
import ShopTables.Proofs.Table.HandlesApart
import ShopTables.Proofs.Table.ReadableTables
import ShopTables.Proofs.StatementCleanup
import ShopTables.Proofs.RowStore.Insertion
import ShopTables.Proofs.Shop.Tokens
import ShopTables.Proofs.Command.DryRun
import ShopTables.Proofs.RowStore.InsertionOrder
import ShopTables.Proofs.Schema.Columnwise
import ShopTables.Proofs.Table.BufferedKeys
import ShopTables.Proofs.Table.EmptyCells
import ShopTables.Proofs.Schema.Derivation
import ShopTables.Proofs.Sql.TableText
import ShopTables.Proofs.Schema.SavedEntities
import ShopTables.Proofs.Shop.Cancellation
import ShopTables.Proofs.Shop.Expiry
import ShopTables.Proofs.Command.AlignedRows
import ShopTables.Proofs.Config.RoundTrip
