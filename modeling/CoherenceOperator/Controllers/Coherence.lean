import CoherenceOperator.Controllers.Desired
import CoherenceOperator.Controllers.ServiceMonitor
import CoherenceOperator.Controllers.StatefulSet

/-!
# The Coherence controller

`CoherenceReconciler.Reconcile`: a resource that is deleted is finalized; any other gets the finalizer, an initial
status and a number of replicas, each of which may end the reconcile; then the resources it wants are stored,
and the secondary reconcilers are run.
-/

namespace CoherenceOperator

open Effect Prog

variable (op : Operator) (env : Env)

namespace CoherenceReconciler

/-- The type under which the patcher sends its patches, as `SetupWithManager` sets it. -/
def patchType : PatchType := .merge

/-- The context of the errors of a resource. -/
def context (c : Coherence) : List (String × String) :=
  [("resource", c.metadata.name), ("namespace", c.metadata.ns)]

/-! ### Deletion and rejection -/

/-- Remove the finalizer; that the resource is gone is no error. -/
def removeFinalizer (c : Coherence) : Op Result := do
  match ← Op.attempt (FinalizerManager.ensureFinalizerRemoved env c) with
  | .ok _ => return {}
  | .error e => if e.isNotFound then return {} else throw (.operation "remove_finalizer" "" "" (context c) e)

/-- A resource that is being deleted. -/
def finalize (c : Coherence) : Op Result :=
  if CoherenceFinalizer ∈ c.metadata.finalizers then do
    match ← Op.attempt (FinalizerManager.finalizeDeployment op env c) with
    | .error _ => return { requeueAfter := 60 }
    | .ok _ => removeFinalizer env c
  else return {}

/-- `rejectHealthMutatorConfiguration`. -/
def rejectHealthMutatorConfiguration (c : Coherence) (cause : String) : Op Result := do
  let condition : Condition :=
    { type := .failed, status := .true, reason := "InvalidHealthMutatorConfiguration"
      message := s!"Invalid health mutator configuration: {cause}" }
  let (status, changed) := CoherenceResourceStatus.setCondition op env.now c.toResource condition
  let (conditions, changed') := status.conditions.setCondition env.now condition
  if changed || changed' then do
    Op.wrapError "updating status for invalid health mutator configuration"
      (writeCoherenceStatus env .patchStatus c.key { status with conditions })
    return {}
  else return {}

/-! ### What comes before the resources -/

/-- The finalizer, which a resource with `allowUnsafeDelete` must not have. Says whether the resource was
changed. -/
def ensureFinalizer (c : Coherence) : Op Bool :=
  if c.spec.allowUnsafeDelete = some true then do
    match ← Op.attempt (FinalizerManager.ensureFinalizerRemoved env c) with
    | .ok _ => return false
    | .error e =>
      if e.isNotFound then return false
      else throw (.operation "remove_finalizer" "" "" (context c ++ [("reason", "allow_unsafe_delete")]) e)
  else FinalizerManager.ensureFinalizerApplied env patchType c

/-- The initial status. -/
def ensureStatus (request : NamespacedName) (c : Coherence) : Op Unit :=
  match c.status.phase with
  | some _ => return ()
  | none => StatusManager.updateCoherenceStatusPhase env request .initialized

/-- Patch the resource to have the default number of replicas. -/
def patchReplicas (c : Coherence) : Op Unit :=
  Op.wrapError "failed to add default replicas to Coherence resource"
    (Op.patching .coherence c.metadata.name
      (change env ⟨.patch, .coherence, c.key⟩ (·.coherence.get c.key) (.coherenceReplicas c.key c.getReplicas)))

/-! ### The resources -/

/-- The reconcilers of the secondary resources, in the order in which these are created. -/
def reconcilers (request : NamespacedName) (d : Deployment) (st : Storage) : List (Op Result) :=
  [ Secondary.reconcileAllResourceOfKind op env .configMap request d st,
    Secondary.reconcileAllResourceOfKind op env .secret request d st,
    Secondary.reconcileAllResourceOfKind op env .service request d st,
    ServiceMonitor.reconcileAllResourceOfKind op env request d st,
    StatefulSetReconciler.reconcileAllResourceOfKind op env request d st ]

/-- The phase of a resource that is scaled to nothing. -/
def markStopped (request : NamespacedName) (c : Coherence) : Op Unit :=
  if c.getReplicas = 0 then
    Op.operation "update_status" (context c ++ [("status", "Stopped")])
      (StatusManager.updateCoherenceStatusPhase env request .stopped)
  else return ()

/-- The status after the secondary reconcilers went through. -/
def finish (request : NamespacedName) (c : Coherence) (hash : String) (result : Result) : Op Result := do
  markStopped env request c
  Op.operation "update_status_hash" (context c ++ [("hash", hash)])
    (StatusManager.updateDeploymentStatusHash op env request hash)
  return result

/-- Reconcile the secondary resources with what is stored. -/
def reconcileStored (request : NamespacedName) (c : Coherence) (hash : String) (st : Storage) : Op Result := do
  let progress ← reconcileSecondary (reconcilers op env request (.coherence (some c)) st) {}
  match progress.failures with
  | [] => finish op env request c hash { requeueAfter := progress.requeueAfter }
  | e :: _ =>
    throw (.operation "reconcile_secondary_resources" "" ""
      (context c ++ [("failed_reconcilers", toString progress.failures.length)]) e)

/-- The hash of a resource of 3.4.3 or before becomes its generation. -/
def upgradeHash (request : NamespacedName) (c : Coherence) (st : Storage) : Op Result := do
  let c := c.updateStatusVersion op env.now
  let _ ← Op.wrapError "error updating storage status hash" (st.resetHash op env (.coherence (some c)))
  let hashNew ← outcome (c.getGenerationString op)
  Op.wrapError "error updating deployment status hash"
    (StatusManager.updateDeploymentStatusHash op env request hashNew)
  return {}

/-- Store the resources that are wanted, and reconcile them. -/
def storeAndReconcile (request : NamespacedName) (c : Coherence) (st : Storage) : Op Result := do
  let hash ← outcome (c.getGenerationString op)
  let (res, st) ← Op.operation "set_controller" (context c)
    (outcome (c.toResource.plan op (c.createKubernetesResources op) st))
  let st ← Op.operation "store_state" (context c) (st.store op env res (.coherence (some c)))
  reconcileStored op env request (c.updateStatusVersion op env.now) hash st

/-- Reconcile the resources, given the storage. -/
def reconcileWith (request : NamespacedName) (c : Coherence) (st : Storage) : Op Result := do
  if ← outcome (c.toResource.isStoredLegacy op st) then upgradeHash op env request c st
  else storeAndReconcile op env request c st

/-- `NewStorage`, and what comes after it. -/
def reconcileResources (request : NamespacedName) (c : Coherence) : Op Result := do
  match ← Op.attempt (ensureOperatorSecret op env c.toResource) with
  | .error e => handleErrAndRequeue op env (.operation "ensure" "operator_secret" c.metadata.ns [] e) (.coherence (some c))
  | .ok _ =>
    match ← Op.attempt (Storage.new env request) with
    | .error e => handleErrAndRequeue op env (.operation "obtain_state_store" "" "" (context c) e) (.coherence (some c))
    | .ok st => reconcileWith op env request c st

/-- A resource that is added or updated. -/
def addOrUpdate (request : NamespacedName) (c : Coherence) : Op Result := do
  if ← ensureFinalizer env c then return { requeueAfter := 60 }
  else do
    ensureStatus env request c
    if c.spec.replicas.isNone then do
      patchReplicas env c
      return {}
    else reconcileResources op env request c

/-- `Reconcile`, with the resource that was found. -/
def reconcileFound (request : NamespacedName) (c : Coherence) : Op Result :=
  if c.metadata.deletionTimestamp.isSome then finalize op env c
  else
    match op.validateHealthMutatorConfiguration c with
    | some cause => rejectHealthMutatorConfiguration op env c cause
    | none => addOrUpdate op env request c

/-- `Reconcile`. -/
def reconcile (request : NamespacedName) : Op Result :=
  if env.locked then return { requeueAfter := 60 }
  else do
    match ← Op.resourceError "get" request.name request.ns (getCoherence env request) with
    | none => return {}
    | some c => reconcileFound op env request c

end CoherenceReconciler

end CoherenceOperator
