import CoherenceOperator.Api.Validate
import CoherenceOperator.Controllers.Secondary

/-!
# The StatefulSet

`ReconcileStatefulSet`: creates, scales, patches and deletes the StatefulSet of a Coherence resource, and
takes its status over. A patch is made of three objects, the StatefulSet as it was stored before
(`original`), the one that is stored now (`desired`) and the live one (`current`), after
everything that is never patched is made the same in all three.
-/

namespace CoherenceOperator

open Effect Prog

variable (op : Operator) (env : Env)

/-- The number of replicas of a StatefulSet, 1 if it does not say. -/
def StatefulSet.getReplicas (s : StatefulSet) : ℤ := s.spec.replicas.getD 1

/-- The namespace and the name of a StatefulSet. -/
def StatefulSet.key (s : StatefulSet) : NamespacedName := ⟨s.metadata.ns, s.metadata.name⟩

/-- Change an object that is a StatefulSet. -/
def Object.mapStatefulSet (f : StatefulSet → StatefulSet) (o : Object) : Object :=
  match o.asStatefulSet with
  | some s => (f s).toObject
  | none => o

/-! ### The three objects of a patch -/

/-- The first container without its command and arguments. -/
def blankFirst : List Container → List Container
  | [] => []
  | c :: cs => { c with command := [], args := [] } :: cs

namespace StatefulSet

/-- What `maybePatchStatefulSet` does to each of the three objects before it makes the patch: the status,
the claims, the command and the arguments of the first container, the annotation of `kubectl`, the
fields that `BlankContainerFields` blanks, and the order of the environment. -/
def blank (s : StatefulSet) : StatefulSet :=
  let template := { s.spec.template with containers := blankFirst s.spec.template.containers }
  { metadata := { s.metadata with
      annotations := s.metadata.annotations.erase "kubectl.kubernetes.io/last-applied-configuration" }
    spec := { s.spec with
      volumeClaimTemplates := []
      template := template.blankContainerFields.sortEnvForAllContainers }
    status := {} }

/-- The finalizers, and the replicas unless they may be scaled, as in the live object. -/
def following (s current : StatefulSet) (allowScale : Bool) : StatefulSet :=
  { s with
    metadata := { s.metadata with finalizers := current.metadata.finalizers }
    spec := { s.spec with replicas := if allowScale then s.spec.replicas else current.spec.replicas } }

/-- The StatefulSet with the image that a patch must not change. -/
def withImageOf (s : StatefulSet) (spec : CoherenceResourceSpec) (desired : StatefulSet) : StatefulSet :=
  { s with spec := { s.spec with
      template := s.spec.template.withImage (desired.spec.template.fixedImage spec) } }

end StatefulSet

/-- `desired`, as the patch is made of it. -/
def patchDesired (current : StatefulSet) (allowScale : Bool) (desired : StatefulSet) : StatefulSet :=
  let d := (desired.following current allowScale).blank
  { d with metadata := { d.metadata with creationTimestamp := current.metadata.creationTimestamp } }

/-- `original`, as the patch is made of it; without a previous version it is `desired` itself. -/
def patchOriginal (spec : CoherenceResourceSpec) (current : StatefulSet) (allowScale : Bool)
    (original : Option StatefulSet) (desired : StatefulSet) : StatefulSet :=
  match original with
  | some o => (o.following current allowScale).blank.withImageOf spec desired
  | none => patchDesired current allowScale desired

/-- `current`, as the patch is made of it. -/
def patchCurrent (spec : CoherenceResourceSpec) (current desired : StatefulSet) : StatefulSet :=
  current.blank.withImageOf spec desired

/-- `CreateThreeWayPatch`. -/
def createStatefulSetPatch (p : StatefulSetPatch) (current : StatefulSet) : Option (Object → Object) :=
  op.merge.createThreeWayPatch
    (some (patchOriginal p.spec current p.allowScale p.original p.desired).toObject)
    (patchDesired current p.allowScale p.desired).toObject
    (patchCurrent p.spec current p.desired).toObject

namespace StatefulSetReconciler

/-! ### The status -/

/-- `updateDeploymentStatus`: returns the resource as it was read. -/
def updateDeploymentStatus (request : NamespacedName) : Op (Option Coherence) := do
  let sts ← Op.wrapError s!"getting StatefulSet {request.name}" (getStatefulSet env request)
  let deployment ← Op.wrapError s!"getting deployment {request.name}" (getCoherence env request)
  match deployment with
  | none => return none
  | some c =>
    if c.metadata.deletionTimestamp.isSome then return some c
    else
      let (status, changed) := c.status.update op env.now c (sts.map (·.status))
      if changed then do
        writeCoherenceStatus env .updateStatus request status
        return some c
      else return some c

/-! ### Actions -/

/-- `buildActionJob`. -/
def buildActionJob (actionName : String) (job : ActionJob) (d : CoherenceResource) : Object :=
  let name := actionName.trimAscii.toString
  let generateName := if name = "" then d.name ++ "-" else d.name ++ "-" ++ name ++ "-"
  { metadata :=
      { ns := d.ns, name := env.generateName generateName, labels := job.labels
        annotations := job.annotations, ownerReferences := [d.owner.reference] }
    body := .job job.spec {} }

/-- `execActions`: a Job that cannot be created is left aside, as is a probe that fails. -/
def execActions (deployment : Deployment) : Op Unit := do
  match ← outcome deployment.getStatefulSetSpec with
  | none => return ()
  | some spec =>
    let d ← outcome deployment.deref
    perform (.executeActions d.key)
    forM spec.actions fun action =>
      match action.job with
      | some job => Op.ignoreError (createObject env (buildActionJob env action.name job d))
      | none => return ()

/-- The actions once the resource is ready, given the resource before its status was updated. -/
def maybeExecActions (request : NamespacedName) (deployment : Deployment) (updated : Option Coherence) :
    Op Unit :=
  match updated with
  | some c =>
    if c.status.phase = some .ready ∧ !c.status.actionsExecuted then do
      let replicas ← outcome deployment.getReplicas
      if replicas ≠ 0 then do
        execActions env deployment
        updateDeploymentStatusActionsState env request true
      else return ()
    else return ()
  | none => return ()

/-! ### Scaling -/

/-- The live StatefulSet scaled to `replicas`. With a rolling update the partition keeps the members that are
there from being updated. -/
def scaled (current : StatefulSet) (replicas : ℤ) (live : StatefulSet) : StatefulSet :=
  let strategy :=
    match current.spec.updateStrategy.type with
    | .rollingUpdate =>
      { live.spec.updateStrategy with
        rollingUpdate := some { partition := some (min current.getReplicas replicas) } }
    | .onDelete => live.spec.updateStrategy
  { live with spec := { live.spec with replicas := some replicas, updateStrategy := strategy } }

/-- `parallelScale`. -/
def parallelScale (deployment : Deployment) (sts : StatefulSet) (replicas : ℤ) : Op Result := do
  let d ← outcome deployment.deref
  Op.ignoreError (updateCoherenceStatusPhase op env d.key .scaling)
  Op.wrapError s!"failed to scale StatefulSet {sts.metadata.name} from {sts.getReplicas} to {replicas}"
    (patchObject env .statefulSet sts.key (Object.mapStatefulSet (scaled sts replicas)))
  return if sts.getReplicas > replicas then { requeueAfter := 60 } else {}

/-- `safeScale`: by one. -/
def safeScale (deployment : Deployment) (sts : StatefulSet) (desired current : ℤ) : Op Result :=
  if current = 1 ∨ env.isStatusHA then
    let replicas := if desired > current then current + 1 else current - 1
    do
      match ← Op.attempt (parallelScale op env deployment sts replicas) with
      | .ok _ => return if replicas = desired then {} else { requeueAfter := 60 }
      | .error e => handleErrAndRequeue op env e deployment
  else return { requeueAfter := max op.statusHARetry 60 }

/-- `scale`. -/
def scale (deployment : Deployment) (sts : StatefulSet) (current desired : ℤ) : Op Result := do
  let spec ← outcome deployment.getStatefulSetSpec
  let d ← outcome deployment.deref
  Op.ignoreError (updateCoherenceStatusPhase op env d.key .scaling)
  match (spec.map (·.getEffectiveScalingPolicy)).getD .safe with
  | .safe => safeScale op env deployment sts desired current
  | .parallel => parallelScale op env deployment sts desired
  | .parallelUpSafeDown =>
    if desired > current then parallelScale op env deployment sts desired
    else safeScale op env deployment sts desired current

/-! ### Patching -/

/-- Is the operator in charge of the rolling upgrade, `GetUpgradeStrategy(…).IsOperatorManaged()`? -/
def isOperatorManaged (spec : CoherenceStatefulSetResourceSpec) : Bool :=
  match spec.rollingUpdateStrategy with
  | some .node | some .nodeLabel => true
  | _ => false

/-- Is every Pod of the StatefulSet there and ready? -/
def allReady (current : StatefulSet) : Bool :=
  match current.spec.replicas with
  | none => current.status.readyReplicas = 1 ∧ current.status.currentReplicas = 1
  | some replicas =>
    current.status.currentReplicas + current.status.updatedReplicas = replicas ∧
      current.status.readyReplicas = replicas

/-- What is left to do for a StatefulSet with the hash of the store: the next step of a rolling upgrade. -/
def maybeRollingUpgrade (deployment : Deployment) (current : StatefulSet) : Op Result := do
  match ← outcome deployment.getStatefulSetSpec with
  | none => throw nilDereference
  | some spec =>
    if isOperatorManaged spec && allReady current &&
        current.status.currentRevision != current.status.updateRevision then
      outcome env.rollingUpgrade
    else return {}

/-- Is the StatefulSet in a state to be updated? -/
def canUpdate (spec : CoherenceStatefulSetResourceSpec) (current : StatefulSet) : Bool :=
  !spec.checkHABeforeUpdate || (current.status.readyReplicas == current.getReplicas && env.isStatusHA)

/-- `Patch` the live StatefulSet. -/
def sendPatch (p : StatefulSetPatch) (current : StatefulSet) (patch : Object → Object) : Op Unit := do
  request env ⟨.patch, .statefulSet, current.key⟩
  let w ← get
  match w.statefulSet current.key with
  | none => throw (.notFound ⟨.patch, .statefulSet, current.key⟩)
  | some live =>
    match (patch live.toObject).asStatefulSet with
    | some result => perform (.patchStatefulSet p result)
    | none => throw (.message "not a StatefulSet")

/-- `ApplyThreeWayPatchWithCallback`, and what comes after it. -/
def applyPatch (deployment : Deployment) (p : StatefulSetPatch) (current : StatefulSet) (patch : Object → Object) :
    Op Result := do
  let d ← outcome deployment.deref
  Op.ignoreError (updateCoherenceStatusPhase op env d.key .rollingUpgrade)
  match ← Op.attempt (Op.patching .statefulSet current.metadata.name (sendPatch env p current patch)) with
  | .ok _ => return {}
  | .error e => handleErrAndRequeue op env e deployment

/-- `maybePatchStatefulSet` after the validation. -/
def patchIfNeeded (deployment : Deployment) (spec : CoherenceStatefulSetResourceSpec) (p : StatefulSetPatch)
    (current : StatefulSet) : Op Result :=
  if p.desired.spec.template.containers = [] ∨ current.spec.template.containers = [] ∨
      (p.original.getD p.desired).spec.template.containers = [] then
    throw indexOutOfRange
  else
    match createStatefulSetPatch op p current with
    | none => return {}
    | some patch =>
      if canUpdate env spec current then applyPatch op env deployment p current patch
      else return { requeueAfter := 60 }

/-- The StatefulSet of the previous version, if there is one. -/
def previousStatefulSet (st : Storage) (name : String) : Option StatefulSet :=
  ((st.previous.getResource .statefulSet name).bind (·.spec)).bind Object.asStatefulSet

/-- `maybePatchStatefulSet`. -/
def maybePatchStatefulSet (deployment : Deployment) (current desired : StatefulSet) (st : Storage)
    (allowScale : Bool) : Op Result :=
  if hashLabelsMatch current.metadata st then maybeRollingUpgrade env deployment current
  else do
    let original := previousStatefulSet st current.metadata.name
    perform (.validateStatefulSet current.key (original.getD desired) desired)
    match validateStatefulSetUpdate desired (original.getD desired) with
    | [] =>
      match ← outcome deployment.getStatefulSetSpec with
      | none => throw nilDereference
      | some spec =>
        patchIfNeeded op env deployment spec
          { spec := spec.toCoherenceResourceSpec, allowScale, original, desired } current
    | errs =>
      throw (.message
        s!"upddates to the statefuleset would have been invalid, the update will not be re-queued: {errs}")

/-- `desired`, if the StatefulSet of an earlier version of the operator is scaled: the members that are there
are not to be updated. -/
def keepingPartition (currentReplicas : ℤ) (desired : StatefulSet) : StatefulSet :=
  { desired with
    metadata := { desired.metadata with
      annotations := desired.metadata.annotations.set AnnotationOperatorVersion op.version }
    spec := { desired.spec with
      updateStrategy := { desired.spec.updateStrategy with
        rollingUpdate := some { partition := some currentReplicas } } } }

/-- Scale the StatefulSet, and queue the request again for an update. -/
def scaleAndRequeue (deployment : Deployment) (current : StatefulSet) (desiredReplicas : ℤ) : Op Result := do
  let _ ← scale op env deployment current current.getReplicas desiredReplicas
  return { requeueAfter := 60 }

/-- The live StatefulSet after `patchStatefulSet` went through: what `current` points to then. -/
def reread (current : StatefulSet) : Op StatefulSet := do
  let w ← get
  return (w.statefulSet current.key).getD current

/-- Scale the StatefulSet, which may need a patch before. -/
def scaleStatefulSet (deployment : Deployment) (current desired : StatefulSet) (st : Storage) : Op Result := do
  if ← outcome (isVersionAnnotationEqualOrBefore op current.metadata "3.4.3") then
    let desired' := keepingPartition op current.getReplicas desired
    if current.getReplicas < desired.getReplicas then
      maybePatchStatefulSet op env deployment current desired' st true
    else do
      let _ ← maybePatchStatefulSet op env deployment current desired' st false
      let current ← reread current
      scaleAndRequeue op env deployment current desired.getReplicas
  else scaleAndRequeue op env deployment current desired.getReplicas

/-- `updateStatefulSet`. -/
def updateStatefulSet (deployment : Deployment) (current : StatefulSet) (st : Storage) : Op Result :=
  match st.latest.getResource .statefulSet current.metadata.name with
  | none => return { requeueAfter := 60 }
  | some r =>
    match r.spec with
    | none => return { requeueAfter := 60 }
    | some o =>
      match o.asStatefulSet with
      | none => throw (.panic "interface conversion: client.Object is not *v1.StatefulSet")
      | some desired =>
        if current.getReplicas ≠ desired.getReplicas then
          scaleStatefulSet op env deployment current desired st
        else maybePatchStatefulSet op env deployment current desired st false

/-! ### Creation and deletion -/

/-- `createStatefulSet`. -/
def createStatefulSet (deployment : Deployment) (st : Storage) : Op Result := do
  match ← canCreate env deployment with
  | some reason =>
    let d ← outcome deployment.deref
    Op.ignoreError (updateCoherenceStatusCondition op env d.key
      { type := .waiting, status := .true, reason := "StatusQuorum", message := reason })
    return { requeueAfter := 30 }
  | none =>
    let d ← outcome deployment.deref
    Secondary.create env .statefulSet d.name st
    Op.wrapError "updating deployment status" (updateCoherenceStatusPhase op env d.key .created)
    return {}

/-- Suspend the services before the StatefulSet is deleted, unless the spec says not to. -/
def suspendBeforeDelete (deployment : Deployment) (sts : StatefulSet) : Op Unit := do
  match ← outcome deployment.getStatefulSetSpec with
  | none => throw nilDereference
  | some spec =>
    if spec.isSuspendServicesOnShutdown then do
      match ← CoherenceProbe.suspendServicesWithError op env deployment sts with
      | .failed => throw .suspension
      | _ => return ()
    else return ()

/-- Delete the StatefulSet of a resource that is gone, or is scaled to zero. -/
def deleteStatefulSet (request : NamespacedName) (deployment : Deployment) (sts : StatefulSet) : Op Unit :=
  if deployment.isNil then Secondary.delete env .statefulSet request
  else do
    Op.ignoreError (updateDeploymentStatusActionsState env request false)
    suspendBeforeDelete op env deployment sts
    Secondary.delete env .statefulSet request

/-- The status and the actions, after the StatefulSet was taken care of. -/
def finish (request : NamespacedName) (deployment : Deployment) (result : Result) : Op Result := do
  let updated ← updateDeploymentStatus op env request
  maybeExecActions env request deployment updated
  return result

/-- `ReconcileAllResourceOfKind` with the StatefulSet and the owner that were found. -/
def settle (request : NamespacedName) (deployment : Deployment) (sts : Option StatefulSet) (st : Storage) :
    Op Result := do
  if ← outcome deployment.isNilOrZero then
    match sts with
    | some sts => do
      deleteStatefulSet op env request deployment sts
      finish op env request deployment {}
    | none => do
      let _ ← updateDeploymentStatus op env request
      return {}
  else
    match sts with
    | none => do
      let result ← createStatefulSet op env deployment st
      finish op env request deployment result
    | some current => do
      let result ← updateStatefulSet op env deployment current st
      finish op env request deployment result

/-- `ReconcileAllResourceOfKind`. -/
def reconcileAllResourceOfKind (request : NamespacedName) (deployment : Deployment) (st : Storage) :
    Op Result :=
  if st.isJob request then return {}
  else do
    let sts ← Op.wrapError s!"getting StatefulSet {request.ns}/{request.name}" (getStatefulSet env request)
    if sts.any fun s => s.metadata.deletionTimestamp.isSome then return {}
    else do
      let deployment ← Secondary.ownerOf env deployment (sts.map (·.toObject))
      settle op env request deployment sts st

/-- `Reconcile`, on an event of a StatefulSet. -/
def reconcile (request : NamespacedName) : Op Result :=
  if env.locked then return { requeueAfter := 60 }
  else do
    let st ← Storage.new env request
    reconcileAllResourceOfKind op env request .nil st

end StatefulSetReconciler

end CoherenceOperator
