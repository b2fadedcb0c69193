import Mathlib.Data.Finset.Card
import Mathlib.Data.Int.Notation
import Mathlib.Tactic.Common

/-!
# The health of a member

A member answers three requests about its health: is it in a cluster (`health`), are its services safe (`statusHA`), and is it ready
(`ready`). The last of these asks for all of it until it has once answered that the member is ready, and from then on for the cluster only. A service
is looked at as the cluster hands it out; whatever is thrown on the way is answered, too.
-/

namespace CoherenceOperator

/-- What is thrown, with its message: `isStatusHA` catches exceptions, and no errors. -/
inductive Throwable where
  | exception (message : Option String)
  | error (message : Option String)
  deriving DecidableEq

namespace Throwable

/-- `getMessage`. -/
def message : Throwable → Option String
  | exception message | error message => message

/-- A method of `null` is called. -/
def nullPointer : Throwable := exception none

/-- A service is not of the class that it is cast to. -/
def classCast : Throwable := exception none

/-- A message is formatted that has a specifier, and there is no argument for it. -/
def missingFormatArgument : Throwable := exception (some "Format specifier '%s'")

end Throwable

/-- `NO_MANAGED_NODES`. -/
def noManagedNodes : String := "None of the nodes are managed"

/-- `handleError`: the response. -/
def handleError (thrown : Throwable) : ℤ :=
  if thrown.message.any fun msg => decide (noManagedNodes.toList <:+: msg.toList) then 400 else 500

/-- What of a `PartitionedCache` its health is made of. -/
structure CacheService where
  isOwnershipEnabled : Bool := true
  ownershipEnabledMembers : Finset ℤ
  partitionCount : ℤ
  /-- `calculateThisOwnership(true)`. -/
  ownedPartitions : ℤ
  backupStrengthName : String
  backupCount : ℤ
  isDistributionInProgress : Bool := false
  isRecoveryInProgress : Bool := false
  isRestoreInProgress : Bool := false
  isTransferInProgress : Bool := false
  /-- Is the snapshot controller of its persistence idle, if it has one? -/
  snapshotController : Option Bool := none

/-- What `getService` comes to for a name that is listed: no service, or one of another kind; or a distributed service, with storage on this member or
without, which is a `PartitionedCache`, or a safe service or another wrapper around one. -/
inductive ListedService where
  | other
  | partitioned (isLocalStorageEnabled : Bool) (cache : CacheService)
  | safe (isLocalStorageEnabled : Bool) (service : CacheService)
  | wrapper (isLocalStorageEnabled : Bool) (service : CacheService)

/-- A cluster, as its member sees it. -/
structure MemberCluster where
  isRunning : Bool
  memberSet : Finset ℤ
  /-- The services, in the order of `getServiceNames`. -/
  services : List (String × ListedService)

/-- What the supplier of the cluster comes to. -/
abbrev ClusterView := Except Throwable (Option MemberCluster)

/-! ### The checks -/

namespace CacheService

variable (cache : CacheService)

/-- `PersistenceHelper.isActive`. -/
def isActive : Bool := cache.isOwnershipEnabled && cache.snapshotController.any (!·)

/-- The body of the loop of `areCacheServicesHA`: does it go on? -/
def isHA (allowEndangered : List (List Char)) (name : String) : Bool :=
  if cache.isOwnershipEnabled then
    let memberCount := cache.ownershipEnabledMembers.card
    if memberCount = 1 ∧ cache.ownedPartitions ≠ cache.partitionCount then false
    else if memberCount > 1 ∧ cache.backupCount > 0 ∧ cache.backupStrengthName = "ENDANGERED" ∧ !allowEndangered.contains name.toList then false
    else if cache.isDistributionInProgress then false
    else if cache.isRecoveryInProgress then false
    else if cache.isRestoreInProgress then false
    else if cache.isTransferInProgress then false
    else true
  else true

end CacheService

/-- `areCacheServicesHA`. -/
def areCacheServicesHA (allowEndangered : List (List Char)) : List (String × ListedService) → Except Throwable Bool
  | [] => .ok true
  | (_, .other) :: services => areCacheServicesHA allowEndangered services
  | (name, .partitioned storage cache) :: services | (name, .safe storage cache) :: services =>
    if storage then
      if cache.isHA allowEndangered name then areCacheServicesHA allowEndangered services else .ok false
    else areCacheServicesHA allowEndangered services
  | (_, .wrapper storage _) :: services =>
    if storage then .error .classCast else areCacheServicesHA allowEndangered services

/-- The persistence of a service is not idle. -/
def ListedService.isActive : ListedService → Bool
  | .other => false
  | .partitioned storage cache | .safe storage cache | .wrapper storage cache => storage && cache.isActive

/-- `isPersistenceIdle`: the message for a service that is not idle cannot be formatted. -/
def isPersistenceIdle (view : ClusterView) : Except Throwable Bool := do
  match ← view with
  | none => throw .nullPointer
  | some cluster => if cluster.services.any fun p => p.2.isActive then throw .missingFormatArgument else return true

/-- `hasClusterMembers`. -/
def hasClusterMembers (view : ClusterView) : Except Throwable Bool := do
  match ← view with
  | none => return false
  | some cluster => return cluster.isRunning && decide (cluster.memberSet ≠ ∅)

/-- `catch (Exception e)`, in `isStatusHA`. -/
def catchException : Except Throwable Bool → Except Throwable Bool
  | .error (.exception _) => .ok false
  | result => result

/-- `isStatusHA`, with the names of the services that may be endangered; `waitForServiceStart` may throw. -/
def isStatusHA (allowEndangered : List (List Char)) (waitForServiceStart : Except Throwable Unit) (view : ClusterView) : Except Throwable Bool :=
  catchException do
    waitForServiceStart
    match ← view with
    | none => return false
    | some cluster => if cluster.isRunning then areCacheServicesHA allowEndangered cluster.services else return false

/-! ### The requests -/

/-- What is found in the course of a request: whenever it is asked for, the cluster may be another one. -/
structure Sighting where
  /-- In `hasClusterMembers`. -/
  members : ClusterView
  /-- When `health` asks again. -/
  again : ClusterView
  waitForServiceStart : Except Throwable Unit := .ok ()
  /-- In `isStatusHA`. -/
  ha : ClusterView
  /-- In `isPersistenceIdle`. -/
  idle : ClusterView

/-- A request about the health. -/
inductive HealthRequest where
  | ready | health | statusHA
  deriving DecidableEq

namespace HealthServer

variable (allowEndangered : List (List Char)) (hasBeenReady : Bool) (s : Sighting)

/-- What is sent, if nothing is thrown. -/
def sent (response : Except Throwable ℤ) : ℤ :=
  match response with
  | .ok status => status
  | .error thrown => handleError thrown

/-- `ready`: the response, and the flag after it. -/
def ready : ℤ × Bool :=
  let check : Except Throwable (ℤ × Bool) := do
    let hasCluster ← hasClusterMembers s.members
    if hasBeenReady then return (if hasCluster then 200 else 400, true)
    else
      let isHA ← if hasCluster then isStatusHA allowEndangered s.waitForServiceStart s.ha else pure false
      let isIdle ← if hasCluster then isPersistenceIdle s.idle else pure false
      if hasCluster && isHA && isIdle then return (200, true) else return (400, false)
  match check with
  | .ok r => r
  | .error thrown => (handleError thrown, hasBeenReady)

/-- `health`: the cluster is asked for twice, and the second answer counts. -/
def health : ℤ := sent do
  let _ ← hasClusterMembers s.members
  return if ← hasClusterMembers s.again then 200 else 400

/-- `statusHA`. -/
def statusHA : ℤ := sent do
  let isHA ← isStatusHA allowEndangered s.waitForServiceStart s.ha
  let isIdle ← isPersistenceIdle s.idle
  return if isHA && isIdle then 200 else 400

/-- The response to a request, and the flag after it. -/
def respond : HealthRequest → ℤ × Bool
  | .ready => ready allowEndangered hasBeenReady s
  | .health => (health s, hasBeenReady)
  | .statusHA => (statusHA allowEndangered s, hasBeenReady)

/-- The flag after a request. -/
def step (hasBeenReady : Bool) (r : HealthRequest × Sighting) : Bool := (respond allowEndangered hasBeenReady r.2 r.1).2

end HealthServer

end CoherenceOperator
