import Gridops.Fleet.Registry.Results
import Gridops.Fleet.Reconciler.Start
import Gridops.Ci.Busy
import Gridops.Ci.Completion
import Gridops.Ci.Webhooks
import Gridops.HostAgent.Rotation
import Gridops.HostAgent.LiveRunner
import Gridops.Fleet.Registry.SingleUse
import Gridops.Fleet.Registry.Supersession
import Gridops.Fleet.Registry.Approval
import Gridops.Fleet.Registry.LogCap
import Gridops.Fleet.Registry.Authority
import Gridops.Manager.Budget
import Gridops.TartAgent.Budget
import Gridops.HostAgent.Delivery
import Gridops.HostAgent.LogDelivery
import Gridops.Provisioning.Failure
import Gridops.Provisioning.Overlap
import Gridops.Fleet.Capacity.Limits
import Gridops.HostAgent.Ownership
import Gridops.Fleet.Issuing
import Gridops.FixAgent.Bounds
import Gridops.FixAgent.PullRequests
import Gridops.Provisioning.Deletion
import Gridops.TartAgent.Follow
import Gridops.FixAgent.Baseline
import Gridops.Fleet.Registry.Retirement
import Gridops.Autoscaling.Labels
import Gridops.Fleet.Targets.Room
import Gridops.Autoscaling.ScaleUp
import Gridops.Autoscaling.Surplus
import Gridops.Ci.JobLog
import Gridops.FixAgent.Automatic
import Gridops.FixAgent.Progress
import Gridops.FixAgent.Redaction
import Gridops.Fleet.Capacity.Slice
import Gridops.Fleet.Protocol.Correlation
import Gridops.Fleet.Protocol.Targets
import Gridops.Fleet.Queries.Evidence
import Gridops.Fleet.Queries.Visibility
