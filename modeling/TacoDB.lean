import TacoDB.Data.TwosComplement
import TacoDB.Data.Alignment
import TacoDB.Data.Slice
import TacoDB.Data.Memory
import TacoDB.Data.LittleEndian
import TacoDB.Data.Rank
import TacoDB.Data.Bitmap
import TacoDB.Data.Custody
import TacoDB.Data.SlotHeap
import TacoDB.Data.Quoting
import TacoDB.Data.Padding
import TacoDB.Data.OrderByKey
import TacoDB.Control.Eff
import TacoDB.Control.Agree
import TacoDB.Control.Computes
import TacoDB.Control.Run
import TacoDB.Control.Checks
import TacoDB.Base.Core
import TacoDB.Base.CheckedAddition
import TacoDB.Base.Datum
import TacoDB.Base.DeepCopy
import TacoDB.Base.Fmgr
import TacoDB.Utils.Typsupp
import TacoDB.Utils.MachineIntegers
import TacoDB.Utils.CharTypes
import TacoDB.Utils.CaseInsensitive
import TacoDB.Utils.IntegerDivision
import TacoDB.Utils.IntegerOperators
import TacoDB.Utils.Comparisons
import TacoDB.Utils.IntegerLog
import TacoDB.Utils.ResourceGuard
import TacoDB.Utils.IntegerText
import TacoDB.Storage.FSFile
import TacoDB.Storage.Descriptors
import TacoDB.Storage.FileSize
import TacoDB.Storage.Transfers
import TacoDB.Storage.Allocate
import TacoDB.Storage.LaterCalls
import TacoDB.Storage.Reopened
import TacoDB.Storage.FileMemory
import TacoDB.Catalog.Schema
import TacoDB.Catalog.FieldNames
import TacoDB.Catalog.Layout
import TacoDB.Catalog.ExactLayout
import TacoDB.Catalog.TypeRows
import TacoDB.Catalog.Payload
import TacoDB.Catalog.Write
import TacoDB.Catalog.WriteLoop
import TacoDB.Catalog.Read
import TacoDB.Catalog.RoundTrip
import TacoDB.Catalog.StoredIntegers
import TacoDB.Catalog.FieldOrder
import TacoDB.Catalog.Placement
import TacoDB.Catalog.NullBits
import TacoDB.Catalog.LayoutLimit
import TacoDB.Catalog.WritePositions
import TacoDB.Catalog.SizeLimit
import TacoDB.Catalog.NullCheck
import TacoDB.Catalog.VolatileCatCache
import TacoDB.Catalog.VolatileHeap
import TacoDB.Catalog.FileHistory
import TacoDB.Catalog.SnapshotScan
import TacoDB.Catalog.SysTables
import TacoDB.Catalog.OidAllocation
import TacoDB.Catalog.CatCache
import TacoDB.Catalog.CatCacheUpdate
import TacoDB.Catalog.Returns
import TacoDB.Catalog.Termination
import TacoDB.Catalog.LayoutFrame
import TacoDB.Catalog.TableDescs
import TacoDB.Catalog.IndexNames
import TacoDB.Catalog.FileScan
import TacoDB.Catalog.Search
import TacoDB.Catalog.SystableRows
import TacoDB.Catalog.RowPayload
import TacoDB.Catalog.StoredRows
import TacoDB.Catalog.BareSchema
import TacoDB.Catalog.Contents
import TacoDB.Catalog.FindNextToken
import TacoDB.Catalog.InitData
import TacoDB.Catalog.InitDataFileReader
import TacoDB.Catalog.ReaderTotal
import TacoDB.Catalog.TokenMemory
import TacoDB.Catalog.RowComparison
import TacoDB.Catalog.Coherent
import TacoDB.Catalog.Lookups
import TacoDB.Catalog.Inserts
import TacoDB.Catalog.Additions
import TacoDB.Catalog.IndexAdditions
import TacoDB.Catalog.MinCache
import TacoDB.Catalog.InitSections
import TacoDB.Catalog.ReaderLines
import TacoDB.Catalog.InitCatalog
import TacoDB.Catalog.LoadInitFile
import TacoDB.Catalog.SectionRows
import TacoDB.Catalog.FinishInitCatalog
import TacoDB.Catalog.InitialFiles
import TacoDB.Catalog.GeneratedData
import TacoDB.Catalog.StandardData
import TacoDB.Catalog.Bootstrap
import TacoDB.Catalog.Reached
import TacoDB.Catalog.ReachedLookups
import TacoDB.Catalog.AddEffects
import TacoDB.Catalog.IssuedOids
import TacoDB.Catalog.AddedTables
import TacoDB.Catalog.ComputedLayouts
import TacoDB.Catalog.KeyColumns
import TacoDB.Catalog.AddedIndexes
import TacoDB.Catalog.AddedNames
import TacoDB.Catalog.FailedAdditions
import TacoDB.Catalog.ComputedDescriptors
import TacoDB.Main.Database
