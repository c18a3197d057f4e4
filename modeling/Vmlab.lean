import Vmlab.Net.SegmentsProperties
import Vmlab.Net.NicLink
import Vmlab.Devices.AhciInterrupts
import Vmlab.Net.Dhcp
import Vmlab.Net.Dns
import Vmlab.Net.Router
import Vmlab.Net.RewriteProperties
import Vmlab.Net.Nat.VtcpProperties
import Vmlab.Net.Switch
import Vmlab.Disk.Qcow2.GuestWrites
import Vmlab.Disk.Qcow2.Create
import Vmlab.Agent.PortWriter
import Vmlab.Agent.DirtySet
import Vmlab.Agent.InRoot
import Vmlab.Agent.HostCallsProperties
import Vmlab.Agent.Sessions
import Vmlab.Freeze.ThawProperties
import Vmlab.Workspace.ScanProperties
import Vmlab.Workspace.Ignore
import Vmlab.Vmm.Snapshot
import Vmlab.Template.VariantProperties
import Vmlab.Supervisor.Backing
import Vmlab.Labd.Pulls
import Vmlab.Virtio.Console
import Vmlab.Playbook.Output
import Vmlab.Oci.Flatten
