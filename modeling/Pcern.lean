import Pcern.Bytes
import Pcern.Bits
import Pcern.Guarded
import Pcern.Keyed
import Pcern.Ledger
import Pcern.Loops
import Pcern.Marking
import Pcern.Spans
import Pcern.Circular
import Pcern.Fuel
import Pcern.Texts
import Pcern.PageTables
import Pcern.RunQueue
import Pcern.Capabilities
import Pcern.Frame
import Pcern.Handouts
import Pcern.Paging
import Pcern.Regions
import Pcern.IoPermissions
import Pcern.Scheduler
import Pcern.Ipc
import Pcern.Loader
import Pcern.Syscalls
import Pcern.Boot
import Pcern.Steps
import Pcern.Bringup
import Pcern.Bookkeeping
import Pcern.Runs
import Pcern.Tasks
import Pcern.Rotation
import Pcern.Confinement
import Pcern.Loading
import Pcern.Programs
import Pcern.Reserved
import Pcern.Authority
import Pcern.Isolation
import Pcern.Shortage
import Pcern.Delivery
import Pcern.Orphans
import Pcern.Interrupts
import Pcern.Ports
import Pcern.Heap
import Pcern.Libpcern
import Pcern.NameService
import Pcern.StorageAta
import Pcern.Packets
import Pcern.Checksums
import Pcern.Segments
import Pcern.Responder
import Pcern.Parsers
import Pcern.Netstack
import Pcern.Replies
import Pcern.Receiving
import Pcern.Sending
import Pcern.SharedPage
import Pcern.Wire
import Pcern.Acknowledgements
import Pcern.Stash
import Pcern.Blocks
import Pcern.Chains
import Pcern.Fat32
import Pcern.Volume
import Pcern.Directory
import Pcern.Entries
import Pcern.WellFormed
import Pcern.Contents
import Pcern.Writing
import Pcern.Creating
import Pcern.Crashes
import Pcern.Store
import Pcern.Metadata
import Pcern.BootSectors
import Pcern.Walks
import Pcern.Opening
import Pcern.Growth
import Pcern.Editor
import Pcern.Space
import Pcern.Saving
import Pcern.Editing
import Pcern.Screen
import Pcern.Redraw
import Pcern.Parameters
import Pcern.Cells
import Pcern.Console
import Pcern.Modifiers
import Pcern.Reader
import Pcern.Lines
import Pcern.Terminal
import Pcern.NetDriver
import Pcern.Ring
import Pcern.Rendezvous
