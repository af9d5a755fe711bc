import HostAlerts.Main
import HostAlerts.Proofs.Clause
import HostAlerts.Proofs.Desk.Exact
import HostAlerts.Proofs.Desk.OtherWriters
import HostAlerts.Proofs.Desk.RowLife
import HostAlerts.Proofs.Engine.Counts
import HostAlerts.Proofs.Registry.Rejected
import HostAlerts.Proofs.Sample.Window
import HostAlerts.Proofs.Watch.Observe
import HostAlerts.Proofs.Watch.Retry
import HostAlerts.Proofs.Desk.Share
import HostAlerts.Proofs.Engine.Apart
import HostAlerts.Proofs.Engine.Follow
import HostAlerts.Proofs.Desk.Channels
import HostAlerts.Proofs.Desk.Notices
import HostAlerts.Proofs.Rule.Columns
import HostAlerts.Proofs.Store.Update
import HostAlerts.Proofs.Registry.Origins
import HostAlerts.Proofs.Rule.Skipped
import HostAlerts.Proofs.Rule.Thresholds
import HostAlerts.Proofs.Rule.Worst
import HostAlerts.Proofs.Rule.Update
import HostAlerts.Proofs.Rule.Gathered
import HostAlerts.Proofs.Sample.Zoned
import HostAlerts.Proofs.Registry.Again
import HostAlerts.Proofs.Store.Saved
import HostAlerts.Proofs.Engine.Retention
import HostAlerts.Proofs.Store.Pages
import HostAlerts.Proofs.Clause.WholeNumbers
import HostAlerts.Proofs.Notice
import HostAlerts.Proofs.Config.Precedence
import HostAlerts.Proofs.Desk.Restarts
import HostAlerts.Proofs.Lookup
import HostAlerts.Proofs.Clause.Lexemes
