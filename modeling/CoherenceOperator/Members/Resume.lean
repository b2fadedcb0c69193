import CoherenceOperator.Members.ResumeMap

/-!
# Services that are resumed on start-up

A member that starts listens to its services. One that is suspended when it starts is resumed, if the configuration of the member says so:
`CoherenceOperatorLifecycleListener` has it from two system properties.
-/

namespace CoherenceOperator

/-- The constants of `CoherenceOperatorLifecycleListener`. -/
structure ResumeConfig where
  canResume : Bool
  defaultResumeService : Bool
  serviceResumeMap : Option (Finmap fun _ : String => Bool)

/-- A distributed or another partitioned service, as the listener finds it. -/
structure ResumableService where
  name : String
  /-- Is it a `DistributedCacheService`? -/
  isDistributed : Bool := true
  isLocalStorageEnabled : Bool := true
  /-- Is it a `PartitionedCache`, and no service around one? -/
  isPartitionedCache : Bool := true
  isRunning : Bool
  isSuspended : Bool

/-- What happens in a member: the dispatcher of events of a service is introduced, which is that of a partitioned service or another one; or a service has
started. -/
inductive LifecycleEvent where
  | introduced (service : Option ResumableService)
  | started (service : ResumableService)

/-- The names of the services that the listener was added to. -/
abbrev Listening := List String

namespace ResumeConfig

/-- The static initializer, given the system properties. -/
def init (canResumeServices resumeServices : Option String) : ResumeConfig :=
  let resume := ResumeMap.parseBoolean ((canResumeServices.getD "true").toList)
  match ResumeMap.getResumeMap resumeServices with
  | some map =>
    if map = ∅ then { canResume := resume, defaultResumeService := resume, serviceResumeMap := none }
    else { canResume := true, defaultResumeService := resume, serviceResumeMap := some map }
  | none => { canResume := resume, defaultResumeService := resume, serviceResumeMap := none }

variable (config : ResumeConfig)

/-- `ensureResumed`: the service that the cluster is told to resume, if there is one. -/
def ensureResumed (service : ResumableService) : Option String :=
  if service.isPartitionedCache && service.isSuspended then
    match config.serviceResumeMap with
    | none => some service.name
    | some map => if (map.lookup service.name).getD config.defaultResumeService then some service.name else none
  else none

/-- `introduceEventDispatcher`: what is resumed, and the services that are listened to then. -/
def introduceEventDispatcher (listening : Listening) : Option ResumableService → Option String × Listening
  | none => (none, listening)
  | some service =>
    if config.canResume && service.isDistributed && service.isLocalStorageEnabled then
      if service.isRunning then (config.ensureResumed service, listening) else (none, service.name :: listening)
    else (none, listening)

/-- `serviceStarted`, of a service that is listened to. -/
def serviceStarted (service : ResumableService) : Option String := if config.canResume then config.ensureResumed service else none

/-- What is resumed on an event, and the services that are listened to after it. -/
def handle (listening : Listening) : LifecycleEvent → Option String × Listening
  | .introduced service => config.introduceEventDispatcher listening service
  | .started service => (if service.name ∈ listening then config.serviceStarted service else none, listening)

/-- The services that are listened to after an event. -/
def step (listening : Listening) (event : LifecycleEvent) : Listening := (config.handle listening event).2

end ResumeConfig

end CoherenceOperator
