import CoherenceOperator.Controllers.Common

/-!
# Secondary resources

`ReconcileSecondaryResource`, the reconciler of the objects of one kind, as the reconcilers of
ConfigMaps, Secrets and Services use it: `reconcileAllResourceOfKind` for all objects of a
resource, and `reconcileSingleResource` for the one of an event, `SimpleReconciler.Reconcile`.
-/

namespace CoherenceOperator

open Effect Prog

variable (op : Operator) (env : Env)

namespace Secondary

/-- `FindResource`. -/
def findResource (kind : ResourceType) (key : NamespacedName) : Op (Option Object) := getObject env kind key

/-- The object, unless it is missing or being deleted. -/
def live (resource : Option Object) : Option Object :=
  resource.filter fun o => o.metadata.deletionTimestamp.isNone

/-- `Create`: nothing happens if the store does not have the resource. -/
def create (kind : ResourceType) (name : String) (st : Storage) : Op Unit :=
  match st.latest.getResource kind name with
  | none => return ()
  | some r =>
    match r.spec with
    | none => throw nilDereference
    | some o => Op.wrapError s!"failed to create {kind.name}/{name}" (createObject env o)

/-- `Delete`: whatever comes of the request, there is no error. -/
def delete (kind : ResourceType) (key : NamespacedName) : Op Unit :=
  Op.ignoreError (deleteObject env kind key)

/-- `ThreeWayPatch` of an object. -/
def threeWayPatch (current : Object) (original : Option Object) (desired : Object) : Op Unit :=
  let time := current.metadata.creationTimestamp
  let desired := { desired with metadata := { desired.metadata with creationTimestamp := time } }
  match op.merge.createThreeWayPatch original desired current with
  | none => return ()
  | some patch =>
    Op.patching current.kind current.metadata.name (patchObject env current.kind current.key patch)

/-- `Update`. -/
def update (kind : ResourceType) (name : String) (current : Object) (st : Storage) : Op Unit :=
  if hashLabelsMatch current.metadata st then return ()
  else
    match st.latest.getResource kind name with
    | none => return ()
    | some r =>
      match r.spec with
      | none => throw nilDereference
      | some desired =>
        threeWayPatch op env current ((st.previous.getResource kind name).bind (·.spec)) desired

/-- The owner that was passed in, or the one that the object refers to. -/
def ownerOf (owner : Deployment) (resource : Option Object) : Op Deployment :=
  if owner.isNil then findOwningCoherenceResource env (resource.map (·.metadata)) else return owner

/-- Is this the secret of the owner's store? -/
def isStoreOf (kind : ResourceType) (name : String) (owner : Deployment) : Op Bool :=
  if !owner.isNil && kind == .secret then do
    let d ← outcome owner.deref
    return name == d.name
  else return false

/-- The storage that was passed in, or the one of the owner. -/
def storageOf (storage : Option Storage) (owner : Deployment) : Op (Option Storage) :=
  match storage with
  | some st => return some st
  | none =>
    if owner.isNil then return none
    else do
      let d ← outcome owner.deref
      let st ← Storage.new env d.key
      return some st

/-- Delete, create or update the object. -/
def settle (kind : ResourceType) (key : NamespacedName) (resource : Option Object) (owner : Deployment)
    (storage : Option Storage) : Op Unit :=
  match owner.isNil, storage with
  | true, _ => if (live resource).isSome then delete env kind key else return ()
  | false, none => throw nilDereference
  | false, some st =>
    match live resource with
    | none => create env kind key.name st
    | some current => update op env kind key.name current st

/-- `ReconcileSingleResource`. -/
def reconcileSingleResource (kind : ResourceType) (key : NamespacedName) (owner : Deployment)
    (storage : Option Storage) : Op Unit := do
  let resource ← Op.wrapError s!"getting {kind.name} {key.ns}/{key.name}" (findResource env kind key)
  let owner ← ownerOf env owner resource
  if ← isStoreOf kind key.name owner then return ()
  else do
    let storage ← storageOf env storage owner
    settle op env kind key resource owner storage

/-- One of the deletions of `ReconcileAllResourceOfKind`: an error of the request is left aside. -/
def deleteIfExists (kind : ResourceType) (key : NamespacedName) : Op Unit := do
  match ← Op.attempt (findResource env kind key) with
  | .ok (some _) => delete env kind key
  | _ => return ()

/-- One of the resources of `ReconcileAllResourceOfKind`. -/
def reconcileResource (kind : ResourceType) (request : NamespacedName) (deployment : Deployment)
    (st : Storage) (r : Resource) : Op Unit :=
  if r.isDelete then delete env kind ⟨request.ns, r.name⟩
  else reconcileSingleResource op env kind ⟨request.ns, r.name⟩ deployment (some st)

/-- `ReconcileAllResourceOfKind`. -/
def reconcileAllResourceOfKind (kind : ResourceType) (request : NamespacedName) (deployment : Deployment)
    (st : Storage) : Op Result := do
  forM (st.getDeletions.filter fun r => r.kind == kind) fun del =>
    deleteIfExists env kind ⟨request.ns, del.name⟩
  forM (st.latest.getResourcesOfKind kind) (reconcileResource op env kind request deployment st)
  return {}

/-- `SimpleReconciler.Reconcile`, on an event of an object. -/
def reconcile (kind : ResourceType) (request : NamespacedName) : Op Result :=
  if env.locked then return { requeueAfter := 10 }
  else do
    reconcileSingleResource op env kind request .nil none
    return {}

/-- `ReconcileSecret.Reconcile`: the secret of a store is skipped. -/
def reconcileSecret (request : NamespacedName) : Op Result := do
  match ← Op.attempt (findResource env .secret request) with
  | .ok (some s) =>
    if (s.metadata.labels.lookup "coherence-storage").isSome then return {} else reconcile op env .secret request
  | _ => reconcile op env .secret request

end Secondary

end CoherenceOperator
