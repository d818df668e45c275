import SakanaOS.ByteMemory
import SakanaOS.Bitmaps
import SakanaOS.BlockTiling
import SakanaOS.Machine
import SakanaOS.Runs
import SakanaOS.Heap
import SakanaOS.Placement
import SakanaOS.ArraySort
import SakanaOS.SortOrders
import SakanaOS.BubbleSort
import SakanaOS.ExchangeSort
import SakanaOS.Pmm
import SakanaOS.FrameCounts
import SakanaOS.BitFields
import SakanaOS.Vmm
import SakanaOS.PageTables
import SakanaOS.MapPage
import SakanaOS.VmmBoot
import SakanaOS.Ownership
import SakanaOS.VmmRuns
import SakanaOS.FreeRanges
import SakanaOS.MapRange
import SakanaOS.PageWalks
import SakanaOS.TranslatedMemory
import SakanaOS.TranslatedStores
import SakanaOS.TranslatedCalls
import SakanaOS.SharedFrames
import SakanaOS.MapContract
import SakanaOS.RegionTable
import SakanaOS.ArrayIndices
import SakanaOS.MemoryMaps
import SakanaOS.FailedMaps
import SakanaOS.Pic
import SakanaOS.Rings
import SakanaOS.CircularBuffer
import SakanaOS.Strings
import SakanaOS.KernelLog
import SakanaOS.InterruptedReader
import SakanaOS.Keyboard
import SakanaOS.Chains
import SakanaOS.LinkedList
import SakanaOS.ListSort
import SakanaOS.LinkedListRuns
import SakanaOS.HeapShape
import SakanaOS.KmallocSpec
import SakanaOS.KfreeSpec
import SakanaOS.HeapCalls
import SakanaOS.HeapRuns
import SakanaOS.DoubleFree
import SakanaOS.HeapLimits
import SakanaOS.AlignedKmalloc
import SakanaOS.FitSearch
import SakanaOS.Positional
import SakanaOS.Formatter
import SakanaOS.Forests
import SakanaOS.GenericTree
import SakanaOS.Devices
import SakanaOS.Ide
import SakanaOS.Ata
import SakanaOS.AtaRanges
import SakanaOS.HeldMemory
import SakanaOS.DriveRuns
import SakanaOS.AtaBounds
import SakanaOS.Words
import SakanaOS.Tokens
import SakanaOS.FormatReads
import SakanaOS.DecimalText
import SakanaOS.KernelMessages
import SakanaOS.ListMemory
import SakanaOS.ListDestroy
import SakanaOS.ShellCommands
import SakanaOS.ShellExecute
import SakanaOS.ShellBlocks
import SakanaOS.ShellHandlers
import SakanaOS.ShellRuns
import SakanaOS.Terminals
import SakanaOS.Vga
import SakanaOS.VgaBackspace
import SakanaOS.VgaText
import SakanaOS.Tty
import SakanaOS.LineEditing
import SakanaOS.AtaCommands
import SakanaOS.AtaReadOutput
import SakanaOS.ShellDispatch
import SakanaOS.PciConfig
import SakanaOS.PciBars
import SakanaOS.PciScan
import SakanaOS.TreeRuns
import SakanaOS.DeviceLists
import SakanaOS.TreeDestroy
import SakanaOS.RingRuns
import SakanaOS.FrameSearch
import SakanaOS.PageCounts
import SakanaOS.AtaProbe
import SakanaOS.TokenRuns
import SakanaOS.HexText
import SakanaOS.Uuids
import SakanaOS.Segments
import SakanaOS.Gates
import SakanaOS.FirstStage
import SakanaOS.BootTables
import SakanaOS.Interrupts
import SakanaOS.InterruptedPrograms
import SakanaOS.MappedRanges
import SakanaOS.LexTexts
import SakanaOS.UuidTexts
import SakanaOS.VgaCursor
import SakanaOS.InterruptControl
import SakanaOS.PolledQueues
import SakanaOS.DriveMemory
import SakanaOS.KernelHeap
import SakanaOS.ShellBoot
import SakanaOS.KeyboardSessions
