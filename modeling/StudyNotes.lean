import StudyNotes.Bdev.Runs
import StudyNotes.DeviceTree.Recursion
import StudyNotes.DeviceTree.Tree
import StudyNotes.Eal.Launch
import StudyNotes.Eal.Service
import StudyNotes.Kvm.SetPhysMem
import StudyNotes.Memblock.Alloc
import StudyNotes.Memblock.Present
import StudyNotes.Memory.AddressSpaceMap
import StudyNotes.Memory.Compaction
import StudyNotes.Memory.Priority
import StudyNotes.Memory.Topology
import StudyNotes.Mtd.Blktrans
import StudyNotes.Mtd.Partitions
import StudyNotes.NetDevice.Acks
import StudyNotes.NetDevice.Report
import StudyNotes.NetDevice.RoundTrip
import StudyNotes.NetDevice.Safety
import StudyNotes.Nvme.ProcessInit
import StudyNotes.Nvme.QpairRuns
import StudyNotes.Phy.Get
import StudyNotes.Qdev.BusSearch
import StudyNotes.Scheduler.LoadAvg
import StudyNotes.Scheduler.Pelt
import StudyNotes.Serial.Termination
import StudyNotes.Timer.Rearm
import StudyNotes.Vhost.BlkStart
import StudyNotes.Vhost.Reactor
import StudyNotes.VhostBlk.ChainBounds
import StudyNotes.VhostBlk.Inflight
import StudyNotes.VhostBlk.QueueRuns
import StudyNotes.VhostBlk.UsedSignal
import StudyNotes.VhostNet.GetVqDesc
import StudyNotes.VhostUser.Connection
import StudyNotes.VhostUser.DataPlane
import StudyNotes.VhostUser.Start
import StudyNotes.VirtioNet.RxDelivery
import StudyNotes.VirtioNet.TxOrder
import StudyNotes.VirtioNet.TxService
import StudyNotes.VirtioNet.TxVector
import StudyNotes.Virtqueue.Layout
import StudyNotes.Virtqueue.Pending
import StudyNotes.Zone.PageState
import StudyNotes.Zone.Zonelists
