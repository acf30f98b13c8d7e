import Msaf.CString
import Msaf.Context
import Msaf.M3.NextAction
import Msaf.M3.Assignment
import Msaf.M3.Drives
import Msaf.M3.Engine
import Msaf.M3.Invariants
import Msaf.M3.Pairing
import Msaf.M3.Progress
import Msaf.M3.Mirror
import Msaf.M3.Delivery
import Msaf.M3.Provenance
import Msaf.M3.Wire
import Msaf.Sbi.Server
import Msaf.Sbi.Patch
import Msaf.NfServer
import Msaf.Tools.GenerateOpenapi
