import CoherenceOperator.Controllers.Probe
import CoherenceOperator.ErrorHandling
import CoherenceOperator.Storage

/-!
# What the reconcilers share

The functions of `CommonReconciler`: the updates of the status of a resource, the search for a resource, for
the owner of an object and for the start quorum, and the fields of a template of pods that are
not patched. With them the managers of the status and of the finalizer.
-/

namespace CoherenceOperator

open Effect Prog

variable (op : Operator) (env : Env)

/-! ### The status -/

/-- Patch the status, unless there is nothing to patch. -/
def patchStatus (d : CoherenceResource) (status : CoherenceResourceStatus) : Op Unit :=
  if status = d.status then return ()
  else writeStatus env .patchStatus d.kind d.key status

/-- `updateDeploymentStatusCondition`. -/
def updateStatusCondition (kind : ResourceType) (key : NamespacedName) (condition : Condition) : Op Unit := do
  match ← Op.wrapError s!"getting deployment {key.name}" (getResource env kind key) with
  | none => return ()
  | some d =>
    if d.metadata.deletionTimestamp.isSome then return ()
    else
      let (status, changed) := CoherenceResourceStatus.setCondition op env.now d condition
      if changed then Op.wrapError "updating Coherence resource status" (patchStatus env d status)
      else return ()

/-- `UpdateCoherenceStatusCondition`. -/
def updateCoherenceStatusCondition (key : NamespacedName) (condition : Condition) : Op Unit :=
  updateStatusCondition op env .coherence key condition

/-- `UpdateCoherenceStatusPhase`. -/
def updateCoherenceStatusPhase (key : NamespacedName) (phase : ConditionType) : Op Unit :=
  updateCoherenceStatusCondition op env key { type := phase, status := .true }

/-- `UpdateCoherenceJobStatusCondition`. -/
def updateCoherenceJobStatusCondition (key : NamespacedName) (condition : Condition) : Op Unit :=
  updateStatusCondition op env .coherenceJob key condition

/-- `UpdateCoherenceJobStatusPhase`. -/
def updateCoherenceJobStatusPhase (key : NamespacedName) (phase : ConditionType) : Op Unit :=
  updateCoherenceJobStatusCondition op env key { type := phase, status := .true }

/-- Change the status of a Coherence resource that is there and is not being deleted. -/
def changeStatus (key : NamespacedName) (f : CoherenceResourceStatus → CoherenceResourceStatus) : Op Unit := do
  match ← Op.wrapError s!"getting deployment {key.name}" (getCoherence env key) with
  | none => return ()
  | some c =>
    if c.metadata.deletionTimestamp.isSome then return ()
    else Op.wrapError "updating Coherence resource status" (patchStatus env c.toResource (f c.status))

/-- `UpdateDeploymentStatusHash`: the resource is read as a `Coherence`, whatever it is. -/
def updateDeploymentStatusHash (key : NamespacedName) (hash : String) : Op Unit :=
  changeStatus env key fun s =>
    if s.hash = hash then s else ({ s with hash }.setVersion env.now op.version).1

/-- `UpdateDeploymentStatusActionsState`. -/
def updateDeploymentStatusActionsState (key : NamespacedName) (actionsExecuted : Bool) : Op Unit :=
  changeStatus env key fun s => { s with actionsExecuted }

namespace StatusManager

/-- Change the status of a Coherence resource; not to find it is an error. -/
def update (key : NamespacedName) (f : CoherenceResourceStatus → CoherenceResourceStatus) : Op Unit := do
  match ← Op.wrapError s!"getting Coherence resource {key.ns}/{key.name}" (getCoherence env key) with
  | none =>
    throw (.wrap s!"getting Coherence resource {key.ns}/{key.name}" (.notFound ⟨.get, .coherence, key⟩))
  | some c =>
    Op.wrapError s!"updating status for Coherence resource {key.ns}/{key.name}"
      (patchStatus env c.toResource (f c.status))

/-- `UpdateCoherenceStatusPhase`: the phase only. -/
def updateCoherenceStatusPhase (key : NamespacedName) (phase : ConditionType) : Op Unit :=
  update env key fun s => { s with phase := some phase }

/-- `UpdateDeploymentStatusHash`: the hash and the version. -/
def updateDeploymentStatusHash (key : NamespacedName) (hash : String) : Op Unit :=
  update env key fun s => ({ s with hash }.setVersion env.now op.version).1

end StatusManager

/-! ### Finding resources -/

/-- `FindDeployment`: a pointer that is nil if there is none. -/
def findDeployment (key : NamespacedName) : Op Deployment := do
  let c ← getCoherence env key
  return .coherence c

/-- `FindCoherenceJob`: a pointer that is nil if there is none. -/
def findCoherenceJob (key : NamespacedName) : Op Deployment := do
  let c ← getCoherenceJob env key
  return .coherenceJob c

/-- `FindOwningCoherenceResource`: by the first owner reference to one of the two kinds. The pointer that is
found becomes the value of the interface, also if it is nil. -/
def findOwner (ns : String) : List OwnerReference → Op Deployment
  | [] => return .nil
  | ref :: refs =>
    if ref.kind = ResourceType.coherence.name then findDeployment env ⟨ns, ref.name⟩
    else if ref.kind = ResourceType.coherenceJob.name then findCoherenceJob env ⟨ns, ref.name⟩
    else findOwner ns refs

/-- `FindOwningCoherenceResource`, for an object that may not have been found and is empty then. -/
def findOwningCoherenceResource (o : Option ObjectMeta) : Op Deployment :=
  match o with
  | some m => findOwner env m.ns m.ownerReferences
  | none => return .nil

/-! ### The start quorum -/

/-- Why an entry of the start quorum is not met, given the resource that was found. -/
def StartQuorum.unmet (q : StartQuorum) (ns : String) : Except GoError (Option Coherence) → Option String
  | .error e => some s!"error finding deployment '{q.deployment}' - {e.text}"
  | .ok none => some s!"deployment '{ns}/{q.deployment}' does not exist"
  | .ok (some dep) =>
    if q.podCount > 0 ∧ dep.status.readyReplicas < q.podCount then
      some s!"role '{ns}/{q.deployment}' to have {q.podCount} ready Pods (ready={dep.status.readyReplicas})"
    else if dep.status.phase ≠ some .ready then some s!"deployment '{q.deployment}' is not ready"
    else none

/-- The entries of the start quorum that are not met. -/
def unmetQuorum (ns : String) : List StartQuorum → Op (List String)
  | [] => return []
  | q :: qs =>
    if q.deployment = "" then unmetQuorum ns qs
    else do
      let ns' := if q.ns = "" then ns else q.ns
      let dep ← Op.attempt (getCoherence env ⟨ns', q.deployment⟩)
      let unmet ← unmetQuorum ns qs
      return (q.unmet ns' dep).toList ++ unmet

/-- `CanCreate`: the reason not to, if there is one. -/
def canCreate (deployment : Deployment) : Op (Option String) := do
  let d ← outcome deployment.deref
  let quorum ← unmetQuorum env d.ns d.spec.startQuorum
  match quorum with
  | [] => return none
  | _ => return some ("Waiting for start quorum to be met: \"" ++ "\" and \"".intercalate quorum ++ "\"")

/-! ### Hashes and versions -/

/-- `HashLabelsMatch`. -/
def hashLabelsMatch (m : ObjectMeta) (st : Storage) : Bool :=
  m.labels.lookup LabelCoherenceHash == st.hash

/-- `IsVersionAnnotationEqualOrBefore`: also true without a version. -/
def isVersionAnnotationEqualOrBefore (m : ObjectMeta) (version : String) : Except GoError Bool :=
  match m.annotations.lookup AnnotationOperatorVersion with
  | none => .ok true
  | some v =>
    if v = "" ∨ v = version then .ok true
    else do
      let version ← vPrefixed version
      let v ← vPrefixed v
      return op.semverCompare v version != .gt

/-! ### Templates of pods -/

namespace PodTemplateSpec

/-- Change the containers of a name. -/
def mapContainers (name : String) (f : Container → Container) (t : PodTemplateSpec) : PodTemplateSpec :=
  { t with containers := t.containers.map fun c => if c.name = name then f c else c }

/-- Change the init-containers of a name. -/
def mapInitContainers (name : String) (f : Container → Container) (t : PodTemplateSpec) : PodTemplateSpec :=
  { t with initContainers := t.initContainers.map fun c => if c.name = name then f c else c }

/-- `BlankContainerFields`, as far as its caller sees it. The function is given a copy of the template: the
copy's affinity is its own, the containers are not. -/
def blankContainerFields (t : PodTemplateSpec) : PodTemplateSpec :=
  (t.mapInitContainers "coherence-k8s-utils" fun c => { c with command := [] }).mapContainers "coherence"
    fun c => { c with command := [] }

/-- `SortEnvForContainer`. -/
def sortEnv (c : Container) : Container :=
  { c with env := c.env.mergeSort fun a b => a.name ≤ b.name }

/-- `SortEnvForAllContainers`. -/
def sortEnvForAllContainers (t : PodTemplateSpec) : PodTemplateSpec :=
  { t with initContainers := t.initContainers.map sortEnv, containers := t.containers.map sortEnv }

/-- `GetCoherenceImage`. -/
def getCoherenceImage (t : PodTemplateSpec) : String :=
  match t.containers.find? fun c => c.name = "coherence" with
  | some c => c.image
  | none => ""

/-- `SetCoherenceImage`. -/
def setCoherenceImage (image : String) (t : PodTemplateSpec) : PodTemplateSpec :=
  t.mapContainers "coherence" fun c => { c with image }

end PodTemplateSpec

/-- The image that a patch must not change: the one that is desired, if the spec does not say which. -/
def PodTemplateSpec.fixedImage (spec : CoherenceResourceSpec) (desired : PodTemplateSpec) : Option String :=
  match spec.image with
  | some _ => none
  | none => some desired.getCoherenceImage

/-- The template with the image that a patch must not change. -/
def PodTemplateSpec.withImage (image : Option String) (t : PodTemplateSpec) : PodTemplateSpec :=
  match image with
  | some image => t.setCoherenceImage image
  | none => t

/-! ### The finalizer -/

namespace FinalizerManager

/-- `Patch` the finalizers of the live resource. -/
def sendFinalizers (type : PatchType) (key : NamespacedName) (patch : List String) : Op Unit := do
  request env ⟨.patch, .coherence, key⟩
  let w ← get
  match w.coherence.get key with
  | none => throw (.notFound ⟨.patch, .coherence, key⟩)
  | some live =>
    perform (.coherenceMetadata key live.metadata.annotations (type.applyList live.metadata.finalizers patch))

/-- `ThreeWayPatchWithCallback` of the finalizers: the strategic diff of the lists, sent under the type of the
patcher. Says whether there was something to patch. -/
def patchFinalizers (type : PatchType) (c : Coherence) (finalizers : List String) : Op Bool :=
  match strategicListDiff c.metadata.finalizers finalizers with
  | none => return false
  | some patch => do
    Op.patching .coherence c.metadata.name (sendFinalizers env type c.key patch)
    return true

/-- `EnsureFinalizerApplied`. -/
def ensureFinalizerApplied (type : PatchType) (c : Coherence) : Op Bool :=
  if CoherenceFinalizer ∈ c.metadata.finalizers then return false
  else Op.wrapError s!"failed to update Coherence resource {c.metadata.ns}/{c.metadata.name} with finalizer"
    (patchFinalizers env type c (c.metadata.finalizers ++ [CoherenceFinalizer]))

/-- `EnsureFinalizerRemoved`. -/
def ensureFinalizerRemoved (c : Coherence) : Op Unit :=
  if CoherenceFinalizer ∈ c.metadata.finalizers then
    writeCoherenceMetadata env .update c.key c.metadata.annotations
      (c.metadata.finalizers.filter (· ≠ CoherenceFinalizer))
  else return ()

/-- `FinalizeDeployment`. -/
def finalizeDeployment (c : Coherence) : Op Unit :=
  if (c.metadata.annotations.lookup "coherence.oracle.com/finalizer-bypass").isSome then return ()
  else if op.skipServiceSuspend then return ()
  else if !c.spec.isSuspendServicesOnShutdown then return ()
  else if c.getReplicas = 0 then return ()
  else do
    match ← Op.attempt (getStatefulSet env c.key) with
    | .error _ => throw .suspension
    | .ok none => return ()
    | .ok (some sts) =>
      if sts.status.readyReplicas = 0 then return ()
      else do
        match ← CoherenceProbe.suspendServicesWithError op env (.coherence (some c)) sts with
        | .failed => if (errorCount c.metadata.annotations).any (· > 3) then return () else throw .suspension
        | _ => return ()

end FinalizerManager

end CoherenceOperator
