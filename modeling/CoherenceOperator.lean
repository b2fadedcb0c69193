import CoherenceOperator.Controllers.CoherenceJob
import CoherenceOperator.Properties.Agreement
import CoherenceOperator.Properties.BuildOrder
import CoherenceOperator.Properties.ChangeFlag
import CoherenceOperator.Properties.Deletions
import CoherenceOperator.Properties.Exemptions
import CoherenceOperator.Properties.Finalizers
import CoherenceOperator.Properties.FixedPoint
import CoherenceOperator.Properties.IgnoredFields
import CoherenceOperator.Properties.Initialization
import CoherenceOperator.Properties.NodeUpgrade
import CoherenceOperator.Properties.Orphans
import CoherenceOperator.Properties.Persistence
import CoherenceOperator.Properties.Recreation
import CoherenceOperator.Properties.Scaling
import CoherenceOperator.Properties.Strangers
import CoherenceOperator.Properties.Suspension
import CoherenceOperator.Footprint.Generated
import CoherenceOperator.Properties.Quorum
import CoherenceOperator.Properties.ProbeLaw
import CoherenceOperator.Properties.Credentials
import CoherenceOperator.Properties.Gates
import CoherenceOperator.Properties.ResumeMap
import CoherenceOperator.Properties.SuspendAll
import CoherenceOperator.Properties.Admission
import CoherenceOperator.Properties.Separation
import CoherenceOperator.Properties.ReadyActions
import CoherenceOperator.Properties.Actions
import CoherenceOperator.Properties.Reporting
import CoherenceOperator.Properties.Diagnostics
import CoherenceOperator.Properties.Launchers
import CoherenceOperator.Properties.InitEnvironment
import CoherenceOperator.Properties.Mounts
import CoherenceOperator.Properties.SecureHealth
import CoherenceOperator.Properties.SecureSockets
import CoherenceOperator.Properties.Memory
import CoherenceOperator.Properties.ArgumentDelivery
import CoherenceOperator.Properties.Selectors
import CoherenceOperator.Properties.ResourceKeys
import CoherenceOperator.Properties.Versions
import CoherenceOperator.Properties.Backoff
import CoherenceOperator.Properties.Recording
import CoherenceOperator.Properties.Wrapping
import CoherenceOperator.Properties.JobErrors
import CoherenceOperator.Properties.MonitorUpdates
import CoherenceOperator.Properties.Generations
import CoherenceOperator.Properties.Refusals
import CoherenceOperator.Properties.RoundTrip
import CoherenceOperator.Lib.JavaCommand
import CoherenceOperator.Properties.ConditionSets
import CoherenceOperator.Runner.Characters
import CoherenceOperator.Properties.SiteAndRack
import CoherenceOperator.Members.StatusName
import CoherenceOperator.Rest.NodeLabels
import CoherenceOperator.Rest.Ciphers
import CoherenceOperator.Properties.HealthSecrets
import CoherenceOperator.Properties.Presence
import CoherenceOperator.Properties.Completion
import CoherenceOperator.Properties.WriteAhead
import CoherenceOperator.Properties.Healing
import CoherenceOperator.Properties.StartOrder
import CoherenceOperator.Properties.Deadlock
import CoherenceOperator.Properties.Readiness
import CoherenceOperator.Properties.SafeToScale
import CoherenceOperator.Properties.AutoResume
import CoherenceOperator.Properties.Settled
import CoherenceOperator.Properties.Discovery
