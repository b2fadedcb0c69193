import CoherenceOperator.Api.Deployment
import CoherenceOperator.Lib.Effect
import CoherenceOperator.Lib.Table

/-!
# The cluster and the requests to it

The state the operator works on: the resources it reconciles, the objects of the cluster, and the
secrets in which it keeps its own state. A program of the operator (`Op`) changes that state by
the acts of this file only, each of which is recorded in the log.

A request is one act of its own, whatever comes of it. It fails when the environment of the reconcile says
so (`Env.faults`), and a request that fails changes nothing. What the operator finds out by
other means than the API server (probes of the members, the discovery of resource types, the time) is
part of the environment as well.
-/

namespace CoherenceOperator

open Effect Prog

/-! ### The state -/

/-- The secret in which the operator keeps the versions of a resource. -/
structure StoreSecret where
  metadata : ObjectMeta
  latest : Option Resources := none
  previous : Option Resources := none
  deriving DecidableEq

/-- The namespace and the name of a store's secret. -/
def StoreSecret.key (s : StoreSecret) : NamespacedName := ⟨s.metadata.ns, s.metadata.name⟩

/-- A store's secret as an object; its data is not looked at. -/
def StoreSecret.toObject (s : StoreSecret) : Object := ⟨s.metadata, .secret ∅⟩

/-- What a patch of a StatefulSet is made of: the version that was stored before, if there is one, and the one that is
stored now. The spec says whether the image may change, and `allowScale` whether the number of replicas may. -/
structure StatefulSetPatch where
  spec : CoherenceResourceSpec
  allowScale : Bool
  original : Option StatefulSet
  desired : StatefulSet

/-- What the operator does to the state. -/
inductive Act where
  /-- A request is sent. -/
  | call (c : ApiCall)
  | createObject (o : Object)
  | deleteObject (kind : ResourceType) (key : NamespacedName)
  | updateObject (o : Object)
  /-- `maybePatchStatefulSet` checks `desired` against `original`. -/
  | validateStatefulSet (key : NamespacedName) (original desired : StatefulSet)
  /-- `maybePatchStatefulSet` applies a patch. -/
  | patchStatefulSet (p : StatefulSetPatch) (result : StatefulSet)
  /-- The ready action of a CoherenceJob is attempted on a Pod that is ready since then. -/
  | attemptReadyAction (pod : String) (readySince : Option ℕ)
  /-- `execActions` goes through the actions of a resource. -/
  | executeActions (key : NamespacedName)
  /-- `Store` is called with the resources of a version. -/
  | store (owner : Deployment) (hash : String) (res : Resources)
  | putStore (s : StoreSecret)
  | coherenceStatus (key : NamespacedName) (status : CoherenceResourceStatus)
  | coherenceMetadata (key : NamespacedName) (annotations : Labels) (finalizers : List String)
  | coherenceReplicas (key : NamespacedName) (replicas : ℤ)
  | coherenceJobStatus (key : NamespacedName) (status : CoherenceResourceStatus)
  | coherenceJobMetadata (key : NamespacedName) (annotations : Labels) (finalizers : List String)
  | coherenceJobReplicas (key : NamespacedName) (replicas : ℤ)

/-- The state of the cluster, with the log of what the operator did, the last act first. -/
structure World where
  coherence : Table Coherence.key
  coherenceJob : Table CoherenceJob.key
  objects : Table Object.ident
  stores : Table StoreSecret.key
  calls : ℕ := 0
  log : List Act := []

/-- A cluster with nothing in it. -/
instance : Inhabited World := ⟨{ coherence := .empty, coherenceJob := .empty, objects := .empty, stores := .empty }⟩

namespace World

variable (w : World)

/-- The object of a kind under a key; a store's secret is one of the secrets. -/
def find (kind : ResourceType) (key : NamespacedName) : Option Object :=
  match kind, w.stores.get key with
  | .secret, some s => some s.toObject
  | _, _ => w.objects.get (kind, key)

/-- The secret under a key, as the store of the operator. -/
def store (key : NamespacedName) : Option StoreSecret :=
  match w.stores.get key with
  | some s => some s
  | none => (w.objects.get (.secret, key)).map fun o => { metadata := o.metadata }

/-- Apart from secrets, what is found is an object. -/
theorem find_of_ne_secret {kind : ResourceType} (h : kind ≠ .secret) (key : NamespacedName) :
    w.find kind key = w.objects.get (kind, key) := by
  unfold find
  split
  · exact absurd rfl h
  · rfl

/-- What is found has the kind and the key it was looked for under. -/
theorem find_filed {kind : ResourceType} {key : NamespacedName} {o : Object} (h : w.find kind key = some o) :
    o.kind = kind ∧ o.key = key := by
  unfold find at h
  split at h
  · rename_i hs
    rw [Option.some.injEq] at h
    subst h
    exact ⟨rfl, w.stores.filed _ _ hs⟩
  · exact Prod.mk.inj (w.objects.filed _ _ h)

/-- The StatefulSet under a key. -/
def statefulSet (key : NamespacedName) : Option StatefulSet :=
  (w.objects.get (.statefulSet, key)).bind Object.asStatefulSet

/-- The Job under a key. -/
def job (key : NamespacedName) : Option Job := (w.objects.get (.job, key)).bind Object.asJob

variable {w}

/-- The StatefulSet under a key is the object of that kind. -/
theorem statefulSet_eq_some {key : NamespacedName} {s : StatefulSet} :
    w.statefulSet key = some s ↔ w.objects.get (.statefulSet, key) = some s.toObject := by
  simp only [statefulSet, Option.bind_eq_some_iff]
  constructor
  · rintro ⟨o, ho, hs⟩
    rw [ho, Object.eq_toObject_of_asStatefulSet hs]
  · exact fun h => ⟨_, h, rfl⟩

/-- The Job under a key is the object of that kind. -/
theorem job_eq_some {key : NamespacedName} {j : Job} :
    w.job key = some j ↔ w.objects.get (.job, key) = some j.toObject := by
  simp only [job, Option.bind_eq_some_iff]
  constructor
  · rintro ⟨o, ho, hj⟩
    rw [ho, Object.eq_toObject_of_asJob hj]
  · exact fun h => ⟨_, h, rfl⟩

/-- No StatefulSet is no object of that kind. -/
theorem statefulSet_eq_none {key : NamespacedName} :
    w.statefulSet key = none ↔ w.objects.get (.statefulSet, key) = none := by
  constructor
  · intro h
    cases ho : w.objects.get (.statefulSet, key) with
    | none => rfl
    | some o =>
      obtain ⟨s, rfl⟩ := Object.exists_eq_toObject_of_kind (Prod.mk.inj (w.objects.filed _ _ ho)).1
      rw [statefulSet_eq_some.2 ho] at h
      cases h
  · intro h
    rw [statefulSet, h]
    rfl

end World

/-! ### Changes of a resource -/

/-- The metadata with other annotations and finalizers. -/
def ObjectMeta.withFinalizers (m : ObjectMeta) (annotations : Labels) (finalizers : List String) : ObjectMeta :=
  { m with annotations, finalizers }

namespace Coherence

variable (c : Coherence)

def withStatus (status : CoherenceResourceStatus) : Coherence := { c with status }

def withMetadata (annotations : Labels) (finalizers : List String) : Coherence :=
  { c with metadata := c.metadata.withFinalizers annotations finalizers }

/-- A change of the spec is a new generation. -/
def withReplicas (replicas : ℤ) : Coherence :=
  { c with generation := c.generation + 1, spec := { c.spec with replicas := some replicas } }

@[simp] theorem key_withStatus (status : CoherenceResourceStatus) : (c.withStatus status).key = c.key := rfl

@[simp] theorem key_withMetadata (annotations : Labels) (finalizers : List String) :
    (c.withMetadata annotations finalizers).key = c.key := rfl

@[simp] theorem key_withReplicas (replicas : ℤ) : (c.withReplicas replicas).key = c.key := rfl

end Coherence

namespace CoherenceJob

variable (c : CoherenceJob)

def withStatus (status : CoherenceResourceStatus) : CoherenceJob := { c with status }

def withMetadata (annotations : Labels) (finalizers : List String) : CoherenceJob :=
  { c with metadata := c.metadata.withFinalizers annotations finalizers }

/-- A change of the spec is a new generation. -/
def withReplicas (replicas : ℤ) : CoherenceJob :=
  { c with generation := c.generation + 1, spec := { c.spec with replicas := some replicas } }

@[simp] theorem key_withStatus (status : CoherenceResourceStatus) : (c.withStatus status).key = c.key := rfl

@[simp] theorem key_withMetadata (annotations : Labels) (finalizers : List String) :
    (c.withMetadata annotations finalizers).key = c.key := rfl

@[simp] theorem key_withReplicas (replicas : ℤ) : (c.withReplicas replicas).key = c.key := rfl

end CoherenceJob

namespace World

variable (w : World) (key : NamespacedName)

def modifyCoherence (f : Coherence → Coherence) (hf : ∀ c, (f c).key = c.key) : World :=
  { w with coherence := w.coherence.modify key f hf }

def modifyCoherenceJob (f : CoherenceJob → CoherenceJob) (hf : ∀ c, (f c).key = c.key) : World :=
  { w with coherenceJob := w.coherenceJob.modify key f hf }

end World

/-- An object that is being deleted is gone when its last finalizer is. -/
def isGone (m : ObjectMeta) (finalizers : List String) : Bool :=
  m.deletionTimestamp.isSome && finalizers.isEmpty

/-- What an act changes, besides the log. -/
def Act.effect (w : World) : Act → World
  | .call _ => { w with calls := w.calls + 1 }
  | .createObject o | .updateObject o => { w with objects := w.objects.put o }
  | .deleteObject kind key =>
    match kind, w.stores.get key with
    | .secret, some _ => { w with stores := w.stores.erase key }
    | _, _ => { w with objects := w.objects.erase (kind, key) }
  | .patchStatefulSet _ result => { w with objects := w.objects.put result.toObject }
  | .validateStatefulSet _ _ _ | .attemptReadyAction _ _ | .executeActions _ | .store _ _ _ => w
  | .putStore s => { w with stores := w.stores.put s, objects := w.objects.erase (.secret, s.key) }
  | .coherenceStatus key status => w.modifyCoherence key (·.withStatus status) (·.key_withStatus _)
  | .coherenceMetadata key annotations finalizers =>
    if (w.coherence.get key).any fun c => isGone c.metadata finalizers then
      { w with coherence := w.coherence.erase key }
    else w.modifyCoherence key (·.withMetadata annotations finalizers) (·.key_withMetadata _ _)
  | .coherenceReplicas key replicas => w.modifyCoherence key (·.withReplicas replicas) (·.key_withReplicas _)
  | .coherenceJobStatus key status => w.modifyCoherenceJob key (·.withStatus status) (·.key_withStatus _)
  | .coherenceJobMetadata key annotations finalizers =>
    if (w.coherenceJob.get key).any fun c => isGone c.metadata finalizers then
      { w with coherenceJob := w.coherenceJob.erase key }
    else w.modifyCoherenceJob key (·.withMetadata annotations finalizers) (·.key_withMetadata _ _)
  | .coherenceJobReplicas key replicas => w.modifyCoherenceJob key (·.withReplicas replicas) (·.key_withReplicas _)

instance : Acts World Act where
  act a w := { a.effect w with log := a :: w.log }

/-! ### The environment of a reconcile -/

/-- `ctrl.Result`: in how many seconds the request is queued again, or 0. -/
structure Result where
  requeueAfter : ℕ := 0
  deriving DecidableEq, Repr

/-- `probe.ServiceSuspendStatus`. -/
inductive ServiceSuspendStatus where
  | skipped | successful | failed
  deriving DecidableEq, Repr

/-- What the world answers during one reconcile. -/
structure Env where
  /-- Which requests fail, by their number. -/
  faults : ℕ → ApiCall → Option Fault := fun _ _ => none
  /-- Is another reconcile of the same key under way? -/
  locked : Bool := false
  now : ℕ := 0
  isStatusHA : Bool := true
  hasServiceMonitor : Bool := true
  rollingUpgrade : Except GoError Result := .ok {}
  generateName : String → String := id
  /-- The Pods of the Job. -/
  pods : List Pod := []
  /-- The Pods that the selector of a StatefulSet matches. -/
  members : StatefulSet → List Pod := fun _ => []
  /-- What comes of the action of a probe on a member. -/
  probeAction : Pod → Probe → Except ProbeError Bool := fun _ _ => .ok true
  /-- The text of the error of the probe of a Pod, if it is not successful. -/
  probePod : Pod → Option String := fun _ => none
  /-- The time after the probe of a Pod. -/
  probedAt : Pod → ℕ := fun _ => now

/-- No request fails. -/
def Env.Reliable (env : Env) : Prop := env.faults = fun _ _ => none

/-! ### Programs -/

/-- A program of the operator. -/
abbrev Op (α : Type) := Prog World GoError α

namespace Op

/-- `if err != nil`: go on with the outcome. A panic is not an error. -/
def attempt {α : Type} (x : Op α) : Op (Except GoError α) := Prog.attempt GoError.isPanic x

/-- Go on whatever the outcome. -/
def ignoreError (x : Op Unit) : Op Unit := do
  let _ ← attempt x
  return ()

/-- `errors.Wrap(err, text)`. -/
def wrapError {α : Type} (text : String) (x : Op α) : Op α := Prog.mapError GoError.isPanic (.wrap text) x

/-- The error of a patch that could not be applied; its text has the patch at the end, which is left out. -/
def patching {α : Type} (kind : ResourceType) (name : String) (x : Op α) : Op α :=
  wrapError s!"failed to patch  {kind.name}/{name}" x

/-- `NewOperationError(name, err).WithContext(…)`. -/
def operation {α : Type} (name : String) (context : List (String × String)) (x : Op α) : Op α :=
  Prog.mapError GoError.isPanic (.operation name "" "" context) x

/-- `NewResourceError(name, resource, ns, err)`. -/
def resourceError {α : Type} (name resource ns : String) (x : Op α) : Op α :=
  Prog.mapError GoError.isPanic (.operation name resource ns []) x

end Op

/-! ### Requests -/

section Requests

variable (env : Env)

/-- Send a request. -/
def request (c : ApiCall) : Op Unit := do
  let w ← get
  perform (.call c)
  match env.faults w.calls c with
  | some f => throw (.fault c f)
  | none => return ()

/-- Send a request that reads something. -/
def read {α : Type} (c : ApiCall) (f : World → α) : Op α := do
  request env c
  let w ← get
  return f w

/-- `Get` of an object; `NotFound` is `none`. -/
def getObject (kind : ResourceType) (key : NamespacedName) : Op (Option Object) :=
  read env ⟨.get, kind, key⟩ (·.find kind key)

/-- `Get` of a StatefulSet. -/
def getStatefulSet (key : NamespacedName) : Op (Option StatefulSet) :=
  read env ⟨.get, .statefulSet, key⟩ (·.statefulSet key)

/-- `Get` of a Job. -/
def getJob (key : NamespacedName) : Op (Option Job) := read env ⟨.get, .job, key⟩ (·.job key)

/-- `Get` of a Coherence resource. -/
def getCoherence (key : NamespacedName) : Op (Option Coherence) :=
  read env ⟨.get, .coherence, key⟩ (·.coherence.get key)

/-- `Get` of a CoherenceJob resource. -/
def getCoherenceJob (key : NamespacedName) : Op (Option CoherenceJob) :=
  read env ⟨.get, .coherenceJob, key⟩ (·.coherenceJob.get key)

/-- Send a request that changes what `present` looks for, which has to be there. -/
def change {α : Type} (c : ApiCall) (present : World → Option α) (a : Act) : Op Unit := do
  request env c
  let w ← get
  match present w with
  | some _ => perform a
  | none => throw (.notFound c)

/-- `Create` an object. -/
def createObject (o : Object) : Op Unit := do
  let c : ApiCall := ⟨.create, o.kind, o.key⟩
  request env c
  let w ← get
  match w.find o.kind o.key with
  | none => perform (.createObject o)
  | some _ => throw (.alreadyExists c)

/-- `Delete` an object. -/
def deleteObject (kind : ResourceType) (key : NamespacedName) : Op Unit :=
  change env ⟨.delete, kind, key⟩ (·.find kind key) (.deleteObject kind key)

/-- `Patch` an object: the API server applies the patch to what is there. -/
def patchObject (kind : ResourceType) (key : NamespacedName) (patch : Object → Object) : Op Unit := do
  let c : ApiCall := ⟨.patch, kind, key⟩
  request env c
  let w ← get
  match w.find kind key with
  | some live => perform (.updateObject (patch live))
  | none => throw (.notFound c)

/-- `Update` an object. -/
def replaceObject (o : Object) : Op Unit :=
  change env ⟨.update, o.kind, o.key⟩ (·.find o.kind o.key) (.updateObject o)

/-- `Status().Patch` or `Status().Update` of a Coherence resource. -/
def writeCoherenceStatus (verb : Verb) (key : NamespacedName) (status : CoherenceResourceStatus) : Op Unit :=
  change env ⟨verb, .coherence, key⟩ (·.coherence.get key) (.coherenceStatus key status)

/-- `Status().Patch` or `Status().Update` of a CoherenceJob resource. -/
def writeCoherenceJobStatus (verb : Verb) (key : NamespacedName) (status : CoherenceResourceStatus) :
    Op Unit :=
  change env ⟨verb, .coherenceJob, key⟩ (·.coherenceJob.get key) (.coherenceJobStatus key status)

/-- `Update` or `Patch` of the metadata of a Coherence resource. -/
def writeCoherenceMetadata (verb : Verb) (key : NamespacedName) (annotations : Labels)
    (finalizers : List String) : Op Unit :=
  change env ⟨verb, .coherence, key⟩ (·.coherence.get key) (.coherenceMetadata key annotations finalizers)

/-- `Update` of the metadata of a CoherenceJob resource. -/
def writeCoherenceJobMetadata (verb : Verb) (key : NamespacedName) (annotations : Labels)
    (finalizers : List String) : Op Unit :=
  change env ⟨verb, .coherenceJob, key⟩ (·.coherenceJob.get key)
    (.coherenceJobMetadata key annotations finalizers)

/-- `Get` the resource of a kind that is reconciled. -/
def getResource (kind : ResourceType) (key : NamespacedName) : Op (Option CoherenceResource) :=
  match kind with
  | .coherenceJob => do
    let c ← getCoherenceJob env key
    return c.map CoherenceJob.toResource
  | _ => do
    let c ← getCoherence env key
    return c.map Coherence.toResource

/-- Write the status of a resource of this kind. -/
def writeStatus (verb : Verb) (kind : ResourceType) (key : NamespacedName) (status : CoherenceResourceStatus) :
    Op Unit :=
  match kind with
  | .coherenceJob => writeCoherenceJobStatus env verb key status
  | _ => writeCoherenceStatus env verb key status

/-- Write the metadata of a resource of this kind. -/
def writeMetadata (verb : Verb) (kind : ResourceType) (key : NamespacedName) (annotations : Labels)
    (finalizers : List String) : Op Unit :=
  match kind with
  | .coherenceJob => writeCoherenceJobMetadata env verb key annotations finalizers
  | _ => writeCoherenceMetadata env verb key annotations finalizers

end Requests

end CoherenceOperator
