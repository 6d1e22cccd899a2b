import Pmdapi.FrameDiscipline
import Pmdapi.LdtShadow
import Pmdapi.AllocatorLaw
import Pmdapi.BlockAccounts
import Pmdapi.CallbackDispatch
import Pmdapi.ResourceOwnership
import Pmdapi.EntryPoints
import Pmdapi.LongRead
import Pmdapi.LongWrite
import Pmdapi.RegisterTransparency
import Pmdapi.InstrLenLaw
import Pmdapi.SegregLaw
import Pmdapi.MemopLaw
import Pmdapi.ClientRegistry
import Pmdapi.Reentrancy
import Pmdapi.NestedServices
import Pmdapi.Environment
import Pmdapi.LdtPagefault
import Pmdapi.InstrSizes
import Pmdapi.SegmentCopy
import Pmdapi.DosPointers
import Pmdapi.TwoBuffer
import Pmdapi.PathSlots
import Pmdapi.ReturnedPointers
import Pmdapi.DtaMirror
import Pmdapi.CallbackStack
import Pmdapi.RegisterTransfer
import Pmdapi.IoBounds
import Pmdapi.FailedStart
import Pmdapi.SelectorMap
import Pmdapi.FailedAllocation
import Pmdapi.DiskFlags
import Pmdapi.FailedCall
import Pmdapi.LongCall
import Pmdapi.Int21Entry
import Pmdapi.CallsCode
import Pmdapi.ClientIsolation
