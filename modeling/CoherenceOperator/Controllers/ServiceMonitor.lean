import CoherenceOperator.Controllers.Secondary

/-!
# ServiceMonitors

`ReconcileServiceMonitor`: a reconciler of its own for a kind that may not be installed in the cluster.
Its `reconcileAllResourceOfKind` goes through the latest version only.
-/

namespace CoherenceOperator

open Effect Prog

variable (op : Operator) (env : Env)

namespace ServiceMonitor

/-- `CreateServiceMonitor`: unlike `Secondary.create` it fails if the store does not have the resource. -/
def createServiceMonitor (name : String) (st : Storage) : Op Unit :=
  match st.latest.getResource .serviceMonitor name with
  | none => throw (.message "cannot create ServiceMonitor as latest state not present in store")
  | some r =>
    match r.spec with
    | none => throw nilDereference
    | some o => Op.wrapError s!"failed to create ServiceMonitor {name}" (createObject env o)

/-- `Get` by the name of the last object that was returned, which an object that was not found has not. -/
def getByName : Option NamespacedName → Op (Option Object)
  | none => throw (.message "resource name may not be empty")
  | some key => getObject env .serviceMonitor key

/-- The loop of `UpdateServiceMonitor` after a patch that failed: at most `n` more attempts. -/
def retryUpdate (desired : Object) : ℕ → Option NamespacedName → Op Unit
  | 0, _ => return ()
  | n + 1, key => do
    match ← Op.attempt (getByName env key) with
    | .error _ => retryUpdate desired n none
    | .ok none =>
      match ← Op.attempt (createObject env desired) with
      | .ok _ => return ()
      | .error _ => retryUpdate desired n none
    | .ok (some current) =>
      match ← Op.attempt (replaceObject env { current with body := desired.body }) with
      | .ok _ => return ()
      | .error _ => retryUpdate desired n key

/-- The patch of `UpdateServiceMonitor`; that it failed is not an error, whatever comes after it. -/
def patchOrUpdate (current desired : Object) (original : Option Object) : Op Unit :=
  let time := current.metadata.creationTimestamp
  let desired := { desired with metadata := { desired.metadata with creationTimestamp := time } }
  match op.merge.createThreeWayPatch original desired current with
  | none => return ()
  | some patch => do
    match ← Op.attempt
        (Op.patching .serviceMonitor current.metadata.name (patchObject env .serviceMonitor current.key patch)) with
    | .ok _ => return ()
    | .error _ => retryUpdate env desired 5 (some current.key)

/-- `UpdateServiceMonitor`. -/
def updateServiceMonitor (name : String) (current : Object) (st : Storage) : Op Unit :=
  if hashLabelsMatch current.metadata st then return ()
  else
    match st.latest.getResource .serviceMonitor name with
    | none => throw (.message "cannot update ServiceMonitor as latest state not present in store")
    | some r =>
      match r.spec with
      | none => throw nilDereference
      | some desired =>
        patchOrUpdate op env current desired
          ((st.previous.getResource .serviceMonitor name).bind (·.spec))

/-- Delete, create or update the ServiceMonitor. -/
def settle (key : NamespacedName) (sm : Option Object) (owner : Deployment) (st : Storage) : Op Unit := do
  if ← outcome owner.isNilOrZero then
    if (Secondary.live sm).isSome then deleteObject env .serviceMonitor key else return ()
  else
    match Secondary.live sm with
    | none =>
      Op.wrapError s!"Failed to create ServiceMonitor {key.ns}/{key.name}"
        (createServiceMonitor env key.name st)
    | some current => updateServiceMonitor op env key.name current st

/-- `ReconcileSingleResource`. -/
def reconcileSingleResource (key : NamespacedName) (owner : Deployment) (st : Storage) : Op Unit :=
  if !env.hasServiceMonitor then return ()
  else do
    let sm ← Op.wrapError s!"getting ServiceMonitor {key.ns}/{key.name}" (getObject env .serviceMonitor key)
    let owner ← Secondary.ownerOf env owner sm
    settle op env key sm owner st

/-- One of the resources of `ReconcileAllResourceOfKind`. -/
def reconcileResource (request : NamespacedName) (d : Deployment) (st : Storage) (r : Resource) : Op Unit :=
  if r.isDelete then deleteObject env .serviceMonitor ⟨request.ns, r.name⟩
  else reconcileSingleResource op env ⟨request.ns, r.name⟩ d st

/-- `ReconcileAllResourceOfKind`. -/
def reconcileAllResourceOfKind (request : NamespacedName) (d : Deployment) (st : Storage) : Op Result := do
  forM (st.latest.getResourcesOfKind .serviceMonitor) (reconcileResource op env request d st)
  return {}

/-- `Reconcile`, on an event of a ServiceMonitor. -/
def reconcile (request : NamespacedName) : Op Result :=
  if env.locked then return { requeueAfter := 10 }
  else do
    let st ← Storage.new env request
    reconcileSingleResource op env request .nil st
    return {}

end ServiceMonitor

end CoherenceOperator
