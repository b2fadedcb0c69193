import CoherenceOperator.Controllers.Job
import CoherenceOperator.Controllers.ServiceMonitor
import CoherenceOperator.Controllers.StatefulSet
import CoherenceOperator.Lib.Run

/-!
# Events of secondary objects

How an event of a secondary object reaches the reconciler of its kind: `SecondaryPredicate` lets it
through or not, `EnqueueRequestForOwner` makes requests of it, and the reconciler is run on each of these with no owner.
The request has the name of the owner, not that of the object.
-/

namespace CoherenceOperator

open Effect Prog

/-- An event of an object, as a watch reports it. -/
inductive Event where
  | create (o : Object)
  | update (old new : Object)
  | delete (o : Object)
  | generic (o : Object)

/-- The methods of `SecondaryPredicate`. -/
def SecondaryPredicate.passes : Event → Bool
  | .create _ => false
  | .update _ _ => true
  | .delete _ => true
  | .generic _ => false

/-- The requests for the owners of one kind: the owner's namespace and name. -/
def ownerRequests (owner : ResourceType) (o : Object) : List NamespacedName :=
  (o.metadata.ownerReferences.filter (·.kind = owner.name)).map fun ref => ⟨o.metadata.ns, ref.name⟩

/-- `EnqueueRequestForOwner`. -/
def enqueueRequestForOwner (owner : ResourceType) : Event → List NamespacedName
  | .create o | .delete o | .generic o => ownerRequests owner o
  | .update old new => ownerRequests owner old ++ ownerRequests owner new

/-- `CanWatch`: the reconcilers of Secrets and ServiceMonitors skip the watch. -/
def canWatch : ResourceType → Bool
  | .secret | .serviceMonitor => false
  | _ => true

/-- `watchSecondaryResource`: the requests that come of an event of an object of this kind. -/
def watchSecondaryResource (kind owner : ResourceType) (e : Event) : List NamespacedName :=
  if canWatch kind && SecondaryPredicate.passes e then enqueueRequestForOwner owner e else []

variable (op : Operator)

/-- The reconciler of a kind of secondary object, on a request. -/
def reconcileSecondaryObject (env : Env) (kind : ResourceType) (request : NamespacedName) : Op Result :=
  match kind with
  | .configMap | .service => Secondary.reconcile op env kind request
  | .secret => Secondary.reconcileSecret op env request
  | .serviceMonitor => ServiceMonitor.reconcile op env request
  | .statefulSet => StatefulSetReconciler.reconcile op env request
  | .job => JobReconciler.reconcile op env request
  | .coherence | .coherenceJob => return {}

/-- The state after an event was processed, given the environment of each reconcile. -/
def processEvent (envs : NamespacedName → Env) (kind owner : ResourceType) (e : Event) (w : World) : World :=
  run (fun w request => (exec (reconcileSecondaryObject op (envs request) kind request) w).2) w
    (watchSecondaryResource kind owner e)

end CoherenceOperator
