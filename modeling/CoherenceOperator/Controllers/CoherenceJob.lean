import CoherenceOperator.Controllers.Desired
import CoherenceOperator.Controllers.Job
import CoherenceOperator.Controllers.ServiceMonitor

/-!
# The CoherenceJob controller

`CoherenceJobReconciler.ReconcileDeployment`. Unlike the controller of Coherence resources it leaves the resources alone
when the store has the hash of the resource, and it goes on after it has set the number of
replicas. Some of what it calls reads the resource as a `Coherence`, or expects one.
-/

namespace CoherenceOperator

open Effect Prog

variable (op : Operator) (env : Env)

namespace CoherenceJobReconciler

/-- A resource that is being deleted. -/
def finalize (c : CoherenceJob) : Op Result :=
  if CoherenceFinalizer ∈ c.metadata.finalizers then do
    match ← Op.attempt (writeCoherenceJobMetadata env .update c.key c.metadata.annotations
      (c.metadata.finalizers.filter (· ≠ CoherenceFinalizer))) with
    | .ok _ => return {}
    | .error e =>
      if e.isNotFound then return {}
      else throw (.wrap "trying to remove finalizer from CoherenceJob resource" e)
  else return {}

/-- The initial status. -/
def ensureStatus (request : NamespacedName) (c : CoherenceJob) : Op Unit :=
  match c.status.phase with
  | some _ => return ()
  | none => updateCoherenceJobStatusPhase op env request .initialized

/-- Patch the resource to have the default number of replicas: it is then as the API server has it. -/
def ensureReplicas (c : CoherenceJob) : Op CoherenceJob :=
  match c.spec.replicas with
  | some _ => return c
  | none => do
    Op.patching .coherenceJob c.metadata.name
      (change env ⟨.patch, .coherenceJob, c.key⟩ (·.coherenceJob.get c.key)
        (.coherenceJobReplicas c.key c.spec.getJobReplicas))
    let w ← get
    return (w.coherenceJob.get c.key).getD c

/-- The reconcilers of the secondary resources, in the order in which these are created. -/
def reconcilers (request : NamespacedName) (d : Deployment) (st : Storage) : List (Op Result) :=
  [ Secondary.reconcileAllResourceOfKind op env .configMap request d st,
    Secondary.reconcileAllResourceOfKind op env .secret request d st,
    Secondary.reconcileAllResourceOfKind op env .service request d st,
    ServiceMonitor.reconcileAllResourceOfKind op env request d st,
    JobReconciler.reconcileAllResourceOfKind op env request d st ]

/-- The phase of a resource that is scaled to nothing. -/
def markStopped (request : NamespacedName) (c : CoherenceJob) : Op Unit :=
  if c.spec.getJobReplicas = 0 then
    Op.wrapError "error updating deployment status" (updateCoherenceJobStatusPhase op env request .stopped)
  else return ()

/-- The status after the secondary reconcilers went through. -/
def finish (request : NamespacedName) (c : CoherenceJob) (hash : String) (result : Result) : Op Result := do
  markStopped op env request c
  Op.wrapError "error updating deployment status hash" (updateDeploymentStatusHash op env request hash)
  return result

/-- Reconcile the secondary resources with what is stored. -/
def reconcileStored (request : NamespacedName) (c : CoherenceJob) (hash : String) (st : Storage) :
    Op Result := do
  let progress ← reconcileSecondary (reconcilers op env request (.coherenceJob (some c)) st) {}
  match progress.failures with
  | [] => finish op env request c hash { requeueAfter := progress.requeueAfter }
  | _ => throw (.message "one or more secondary resource reconcilers failed to reconcile")

/-- The hash of a resource of 3.4.3 or before becomes its generation. -/
def upgradeHash (request : NamespacedName) (c : CoherenceJob) (st : Storage) : Op Result := do
  let c := c.updateStatusVersion op env.now
  let _ ← Op.wrapError "error updating storage status hash" (st.resetHash op env (.coherenceJob (some c)))
  let hashNew ← outcome (c.getGenerationString op)
  Op.wrapError "error updating deployment status hash" (updateDeploymentStatusHash op env request hashNew)
  return {}

/-- Store the resources that are wanted, and reconcile them. -/
def storeAndReconcile (request : NamespacedName) (c : CoherenceJob) (hash : String) (st : Storage) :
    Op Result := do
  let (res, st) ← outcome (c.toResource.plan op (c.createKubernetesResources op) st)
  let st ← Op.wrapError "storing latest state in state store" (st.store op env res (.coherenceJob (some c)))
  reconcileStored op env request (c.updateStatusVersion op env.now) hash st

/-- Reconcile the resources, given the storage: there is nothing to do if it has the hash. -/
def reconcileWith (request : NamespacedName) (c : CoherenceJob) (st : Storage) : Op Result := do
  let hash ← outcome (c.getGenerationString op)
  if ← outcome (c.toResource.isStoredLegacy op st) then upgradeHash op env request c st
  else if hash = st.hash.getD "" then return {}
  else storeAndReconcile op env request c hash st

/-- `NewStorage`, and what comes after it. The errors before are handled without the resource. -/
def reconcileResources (request : NamespacedName) (c : CoherenceJob) : Op Result := do
  match ← Op.attempt (ensureOperatorSecret op env c.toResource) with
  | .error e => handleErrAndRequeue op env (.wrap "ensuring Operator configuration secret" e) .nil
  | .ok _ =>
    match ← Op.attempt (Storage.new env request) with
    | .error e => handleErrAndRequeue op env (.wrap "obtaining desired state store" e) .nil
    | .ok st => reconcileWith op env request c st

/-- A resource that is added or updated. -/
def addOrUpdate (request : NamespacedName) (c : CoherenceJob) : Op Result := do
  ensureStatus op env request c
  let c ← ensureReplicas env c
  reconcileResources op env request c

/-- `ReconcileDeployment`. -/
def reconcileDeployment (request : NamespacedName) : Op Result :=
  if env.locked then return { requeueAfter := 10 }
  else do
    match ← Op.wrapError "getting CoherenceJob resource" (getCoherenceJob env request) with
    | none => return {}
    | some c => if c.metadata.deletionTimestamp.isSome then finalize env c else addOrUpdate op env request c

end CoherenceJobReconciler

end CoherenceOperator
