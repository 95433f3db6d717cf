import Islet.Rmm.Lifecycle
import Islet.Rmm.InitRipas
import Islet.Rmm.Classes
import Islet.Rmm.FloatingPoint
import Islet.Hes.Service
import Islet.Rmm.Realm.Tlbi
import Islet.Rmm.Faults
import Islet.Rmm.Release
import Islet.Rmm.Invalidation
import Islet.Rmm.Locks
import Islet.Rmm.Mappings
import Islet.Rmm.Sealing
import Islet.Rmm.Mmio
import Islet.Rmm.ListRegisters
import Islet.Rmm.Numbering
import Islet.Rmm.TableMap
import Islet.Rmm.Mm.Heap
import Islet.Rmm.Gst.PageTable
import Islet.Rmm.Handover
