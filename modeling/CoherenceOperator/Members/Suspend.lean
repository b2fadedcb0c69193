import CoherenceOperator.Members.ResumeMap
import Mathlib.Data.List.Dedup

/-!
# Members that suspend services

A member of the cluster that is asked to suspend its services, without the name of one, goes through all of them. It takes the
members that a service is stored on for members of one deployment if their identities are the same; the operator gives an
identity to the members of a resource that has the annotation for it.
-/

namespace CoherenceOperator

/-- A member of the cluster, with the resource that its Pod was made for, as it was then; is its MBean registered? -/
structure Member where
  id : ℤ
  deployment : CoherenceResource
  registered : Bool := true
  isName : '@' ∉ deployment.name.toList

namespace Member

variable (m : Member)

/-- The resource that a member belongs to. -/
def deploymentKey : CoherenceType × NamespacedName := (m.deployment.type, ⟨m.deployment.ns, m.deployment.name⟩)

/-- The value of a variable of its container, as `CreateDefaultEnv` makes it; empty if it is not there. -/
def getenv (name : String) : String := ((m.deployment.createMemberEnv.find? fun e => e.name = name).map (·.value)).getD ""

/-- `AddSystemPropertyFromEnvVar`, for the identity. -/
def identityProperty : Option String :=
  let value := m.getenv "COHERENCE_OPERATOR_IDENTITY"
  if value ≠ "" then some value else none

/-- The identity that the MBean has. -/
def identity : String :=
  let id := m.identityProperty.getD "n/a"
  if id ≠ "" then id else "n/a"

end Member

/-- A service, as it is on the member that is asked. -/
structure Service where
  name : String
  /-- Is it a `DistributedCacheService`, with storage on this member? -/
  isLocalStorageEnabled : Bool
  isActivePersistenceEnabled : Bool
  ownershipEnabledMembers : List Member

/-- What the member that is asked sees of its cluster. -/
structure Cluster where
  members : List Member
  nodup : (members.map (·.id)).Nodup
  services : List Service
  members_of_service : ∀ svc ∈ services, ∀ m ∈ svc.ownershipEnabledMembers, m ∈ members
  /-- Why the MBeans cannot be queried. -/
  queryError : Option String := none
  /-- Why a service cannot be suspended. -/
  suspendError : String → Option String := fun _ => none

namespace Cluster

variable (cluster : Cluster)

/-- The identities by the ids of the members. -/
def identityMap : Finmap fun _ : ℤ => String :=
  (cluster.members.filter (·.registered)).foldl (fun m member => m.insert member.id member.identity) ∅

/-- Is all of the service stored on members of one identity? -/
def isOneIdentity (svc : Service) : Bool :=
  ((svc.ownershipEnabledMembers.map fun m => cluster.identityMap.lookup m.id).dedup.length : ℕ) = 1

/-- Does a request that names no service suspend this one? -/
def suspends (svc : Service) : Bool :=
  svc.isLocalStorageEnabled && svc.isActivePersistenceEnabled && cluster.isOneIdentity svc

/-- Go through the services: those that the cluster is told to suspend, up to one for which that fails, and the response. -/
def suspendAll : List Service → List Service × ℤ
  | [] => ([], 200)
  | svc :: svcs =>
    if cluster.suspends svc then
      if (cluster.suspendError svc.name).isSome then ([svc], 500)
      else
        let (suspended, response) := suspendAll svcs
        (svc :: suspended, response)
    else suspendAll svcs

/-- `path.split("/")[2].trim()`, if the path has so many parts. -/
def serviceName (path : String) : List Char :=
  ResumeMap.trim ((((path.toList.splitOn '/').reverse.dropWhile (· = [])).reverse).getD 2 [])

/-- `suspend`: the services that the cluster is told to suspend, and the response. -/
def suspend (path : String) : List Service × ℤ :=
  let name := serviceName path
  if cluster.queryError.isSome then ([], 500)
  else if name ≠ [] then
    match cluster.services.find? fun svc => svc.name.toList = name with
    | none => ([], 404)
    | some svc => ([svc], if (cluster.suspendError svc.name).isSome then 500 else 200)
  else cluster.suspendAll cluster.services

end Cluster

end CoherenceOperator
