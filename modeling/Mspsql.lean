import Mspsql.Hub.Stability
import Mspsql.Hub.Fleet
import Mspsql.Hub.RecoveryWindow
import Mspsql.Hub.Contests
import Mspsql.Hub.WriteService
import Mspsql.Hub.Images
import Mspsql.Control.BackupSites
import Mspsql.Agent.SqlReports
import Mspsql.Control.DeletionRetry
import Mspsql.Hub.Finalizers
import Mspsql.Hub.Exposure
import Mspsql.Agent.Listing
import Mspsql.Control.Interference
import Mspsql.Control.Backpressure
import Mspsql.Control.LeaderState
import Mspsql.Control.Isolation
import Mspsql.Control.AddressFlow
import Mspsql.Agent.TopologyViews
import Mspsql.Hub.WireGuard
import Mspsql.Hub.Rotation
import Mspsql.Agent.RestoreScript
import Mspsql.Agent.Orphans
import Mspsql.Agent.PeerAddresses
import Mspsql.Agent.Identity
import Mspsql.Agent.PlanWorkers
import Mspsql.Agent.ConfigHash
import Mspsql.Hub.SiteHealth
