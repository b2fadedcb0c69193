import CoherenceOperator.Api.Validate
import CoherenceOperator.Controllers.Secondary

/-!
# The Job

`ReconcileJob`: creates and patches the Job of a CoherenceJob resource, and probes its Pods once they are
ready.
-/

namespace CoherenceOperator

open Effect Prog

variable (op : Operator) (env : Env)

/-- The namespace and the name of a Job. -/
def Job.key (j : Job) : NamespacedName := ⟨j.metadata.ns, j.metadata.name⟩

/-! ### The three objects of a patch -/

namespace Job

/-- What `patchJob` does to each of the three objects before it makes the patch. -/
def blank (j : Job) : Job :=
  { j with
    spec := { j.spec with template := j.spec.template.blankContainerFields.sortEnvForAllContainers }
    status := {} }

/-- The finalizers as in the live object. -/
def following (j current : Job) : Job :=
  { j with metadata := { j.metadata with finalizers := current.metadata.finalizers } }

/-- The Job with the image that a patch must not change. -/
def withImageOf (j : Job) (spec : CoherenceResourceSpec) (desired : Job) : Job :=
  { j with spec := { j.spec with
      template := j.spec.template.withImage (desired.spec.template.fixedImage spec) } }

/-- `desired`, as the patch is made of it. -/
def patchDesired (current desired : Job) : Job :=
  let d := (desired.following current).blank
  { d with metadata := { d.metadata with creationTimestamp := current.metadata.creationTimestamp } }

/-- `original`, as the patch is made of it; without a previous version it is `desired` itself. -/
def patchOriginal (spec : CoherenceResourceSpec) (current : Job) (original : Option Job) (desired : Job) : Job :=
  match original with
  | some o => (o.following current).blank.withImageOf spec desired
  | none => patchDesired current desired

/-- `CreateThreeWayPatch`. -/
def createPatch (spec : CoherenceResourceSpec) (current : Job) (original : Option Job) (desired : Job) :
    Option (Object → Object) :=
  op.merge.createThreeWayPatch (some (patchOriginal spec current original desired).toObject)
    (patchDesired current desired).toObject (current.blank.withImageOf spec desired).toObject

end Job

namespace JobReconciler

/-! ### The status -/

/-- `updateDeploymentStatus`. -/
def updateDeploymentStatus (request : NamespacedName) (probes : List CoherenceJobProbeStatus) : Op Unit := do
  let job ← Op.wrapError s!"getting Job {request.name}" (getJob env request)
  match ← Op.wrapError s!"getting deployment {request.name}" (getCoherenceJob env request) with
  | none => return ()
  | some c =>
    if c.metadata.deletionTimestamp.isSome then return ()
    else
      let (status, changed) := c.status.updateFromJob op env.now c (job.map (·.status)) probes
      if changed then writeCoherenceJobStatus env .updateStatus request status else return ()

/-! ### The ready action -/

/-- `shouldExecuteProbe`. -/
def shouldExecuteProbe (s : CoherenceJobProbeStatus) (pod : Pod) : Bool :=
  match pod.readySince, s.lastReadyTime with
  | none, _ => false
  | some _, none => true
  | some t, some last => last < t

/-- Run the probe of one Pod, if it is due. -/
def executeProbe (status : CoherenceResourceStatus) (pod : Pod) : Option CoherenceJobProbeStatus :=
  let s := status.findJobProbeStatus pod.name
  if shouldExecuteProbe s pod then
    let error := env.probePod pod
    some { s with
      success := some error.isNone, error, lastProbeTime := some (env.probedAt pod), lastReadyTime := pod.readySince }
  else none

/-- Run the probes that are due. -/
def executeProbes (status : CoherenceResourceStatus) : List Pod → Op (List CoherenceJobProbeStatus)
  | [] => return []
  | pod :: pods => do
    match executeProbe env status pod with
    | some s =>
      perform (.attemptReadyAction pod.name pod.readySince)
      let statuses ← executeProbes status pods
      return s :: statuses
    | none => executeProbes status pods

/-- Are enough Pods of the Job ready? -/
def enoughReady (action : CoherenceJobProbe) (replicas : ℤ) (job : Job) : Bool :=
  action.readyCount.getD replicas ≤ job.status.succeeded + job.status.ready.getD 0

/-- `maybeExecuteProbe`. -/
def maybeExecuteProbe (job : Job) (deployment : Deployment) : Op (List CoherenceJobProbeStatus) := do
  match ← outcome deployment.getJobResourceSpec with
  | none => throw nilDereference
  | some spec =>
    match spec.readyAction with
    | none => return []
    | some action =>
      let d ← outcome deployment.deref
      if enoughReady action d.replicas job then do
        Op.wrapError s!"error getting list of Pods for Job {job.metadata.name}"
          (request env ⟨.listPods, .job, job.key⟩)
        executeProbes env d.status env.pods
      else return []

/-! ### Patching -/

/-- The Job of the previous version, if there is one. -/
def previousJob (st : Storage) (name : String) : Option Job :=
  ((st.previous.getResource .job name).bind (·.spec)).bind Object.asJob

/-- `ApplyThreeWayPatchWithCallback`, and what comes after it. -/
def applyPatch (deployment : Deployment) (current : Job) (patch : Object → Object) : Op Result := do
  let d ← outcome deployment.deref
  Op.ignoreError (updateCoherenceJobStatusPhase op env d.key .rollingUpgrade)
  match ← Op.attempt (Op.patching .job current.metadata.name (patchObject env .job current.key patch)) with
  | .ok _ => return {}
  | .error e => handleErrAndRequeue op env e deployment

/-- `patchJob`. -/
def patchJob (deployment : Deployment) (job desired : Job) (st : Storage) : Op Result :=
  if hashLabelsMatch job.metadata st then return {}
  else
    let original := previousJob st job.metadata.name
    match validateJobUpdate desired (original.getD desired) with
    | [] => do
      let d ← outcome deployment.deref
      match job.createPatch op d.spec original desired with
      | none => return {}
      | some patch => applyPatch op env deployment job patch
    | errs =>
      throw (.message
        s!"upddates to the job would have been invalid, the update will not be re-queued: {errs}")

/-- `updateJob`. -/
def updateJob (deployment : Deployment) (job : Job) (st : Storage) : Op Result :=
  match st.latest.getResource .job job.metadata.name with
  | none => return { requeueAfter := 60 }
  | some r =>
    match r.spec with
    | none => return { requeueAfter := 60 }
    | some o =>
      match o.asJob with
      | none => throw (.panic "interface conversion: client.Object is not *v1.Job")
      | some desired => patchJob op env deployment job desired st

/-! ### Creation and deletion -/

/-- `createJob`. -/
def createJob (deployment : Deployment) (st : Storage) : Op Result := do
  match ← canCreate env deployment with
  | some reason =>
    let d ← outcome deployment.deref
    Op.ignoreError (updateCoherenceJobStatusCondition op env d.key
      { type := .waiting, status := .true, reason := "StatusQuorum", message := reason })
    return { requeueAfter := 30 }
  | none =>
    let d ← outcome deployment.deref
    Secondary.create env .job d.name st
    Op.wrapError "updating deployment status" (updateCoherenceJobStatusPhase op env d.key .created)
    return {}

/-- Delete the Job of a resource that is gone, or is scaled to zero. -/
def deleteJob (request : NamespacedName) (deployment : Deployment) : Op Unit :=
  if deployment.isNil then Secondary.delete env .job request
  else do
    Op.ignoreError (updateDeploymentStatusActionsState env request false)
    Secondary.delete env .job request

/-- Update the Job, and run the ready action. -/
def updateAndProbe (request : NamespacedName) (deployment : Deployment) (job : Job) (st : Storage) :
    Op Result := do
  let result ← updateJob op env deployment job st
  let statuses ← maybeExecuteProbe env job deployment
  updateDeploymentStatus op env request statuses
  return result

/-- `ReconcileAllResourceOfKind` with the Job and the owner that were found. -/
def settle (request : NamespacedName) (deployment : Deployment) (job : Option Job) (st : Storage) :
    Op Result := do
  if ← outcome deployment.isNilOrZero then
    match job with
    | some _ => do
      deleteJob env request deployment
      updateDeploymentStatus op env request []
      return {}
    | none => do
      updateDeploymentStatus op env request []
      return {}
  else
    match job with
    | none => do
      let result ← createJob op env deployment st
      updateDeploymentStatus op env request []
      return result
    | some job =>
      if job.status.completionTime.isSome then do
        updateDeploymentStatus op env request []
        return {}
      else updateAndProbe op env request deployment job st

/-- `ReconcileAllResourceOfKind`. -/
def reconcileAllResourceOfKind (request : NamespacedName) (deployment : Deployment) (st : Storage) :
    Op Result :=
  if !st.isJob request then return {}
  else do
    let job ← Op.wrapError s!"getting Job {request.ns}/{request.name}" (getJob env request)
    if job.any fun j => j.metadata.deletionTimestamp.isSome then return {}
    else do
      let deployment ← Secondary.ownerOf env deployment (job.map (·.toObject))
      settle op env request deployment job st

/-- `Reconcile`, on an event of a Job. -/
def reconcile (request : NamespacedName) : Op Result :=
  if env.locked then return { requeueAfter := 10 }
  else do
    let st ← Storage.new env request
    reconcileAllResourceOfKind op env request .nil st

end JobReconciler

end CoherenceOperator
