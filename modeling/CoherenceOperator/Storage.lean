import CoherenceOperator.Cluster

/-!
# The state store

The operator keeps the latest and the previous version of the resources it wants in a secret that has the name of
the resource, with a label for the hash of the latest version. `store` makes the latest version the
previous one; which resources are to be deleted is the difference of the two.
-/

namespace CoherenceOperator

open Effect Prog

/-- `secretStore`: what is held in memory of the secret. -/
@[ext]
structure Storage where
  key : NamespacedName
  latest : Resources := {}
  previous : Resources := {}
  hash : Option String := none

namespace Storage

variable (op : Operator) (env : Env)

/-- `createSecretStruct`. -/
def createSecretStruct (key : NamespacedName) : StoreSecret :=
  { metadata := { ns := key.ns, name := key.name, labels := (∅ : Labels).set "coherence-storage" "true" } }

/-- `GetDeletions`: what was in the previous version and is not in the latest. -/
def getDeletions (st : Storage) : List Resource :=
  st.previous.items.filter fun prev => (st.latest.getResource prev.kind prev.name).isNone

/-- `IsJob`: is there a Job of the request's name in the latest version? -/
def isJob (st : Storage) (request : NamespacedName) : Bool :=
  (st.latest.getResource .job request.name).isSome

/-- The storage that `loadVersions` reads from the secret. -/
def load (key : NamespacedName) (secret : Option StoreSecret) : Storage :=
  match secret with
  | some s =>
    { key
      latest := s.latest.getD {}
      previous := s.previous.getD {}
      hash := s.metadata.labels.lookup LabelCoherenceHash }
  | none => { key }

/-- `getSecret`. -/
def getSecret (key : NamespacedName) : Op (Option StoreSecret) :=
  read env ⟨.get, .secret, key⟩ (·.store key)

/-- `NewStorage`. -/
def new (key : NamespacedName) : Op Storage := do
  let secret ← getSecret env key
  return load key secret

/-- `Create` the secret, owned by the resource. -/
def createSecret (owner : Owner) (desired : StoreSecret) : Op Unit := do
  let ownerReferences ← outcome ((setControllerReference owner desired.metadata).mapError .message)
  request env ⟨.create, .secret, desired.key⟩
  perform (.putStore { desired with metadata := { desired.metadata with ownerReferences } })

/-- `TwoWayPatch` the secret, unless there is nothing to patch. -/
def patchSecret (current desired : StoreSecret) : Op Unit :=
  if current = desired then return ()
  else do
    request env ⟨.patch, .secret, desired.key⟩
    perform (.putStore desired)

/-- `save`. -/
def save (key : NamespacedName) (owner : Owner) (desired : StoreSecret) : Op Unit := do
  match ← getSecret env key with
  | none => createSecret env owner desired
  | some current => patchSecret env current desired

/-- The secret with the labels and annotations of the owner and the hash. -/
def withLabels (d : CoherenceResource) (hash : String) (s : StoreSecret) : StoreSecret :=
  { s with metadata := { s.metadata with
      labels := (s.metadata.labels.set LabelCoherenceHash hash).setAll (d.createGlobalLabels op)
      annotations := s.metadata.annotations.setAll ((d.createGlobalAnnotations op).getD ∅) } }

/-- What is left of a version in the secret: a deletion is not marshalled. -/
def marshal (res : Resources) : Resources := { res with items := res.items.filter (·.isPresent) }

/-- `json.Marshal` of a version: the comma before an item is there unless it is the first of the list, so behind a
deletion that comes first the text is not JSON. -/
def checkMarshal (res : Resources) : Except GoError Unit :=
  if res.items.head?.any (·.isDelete) && res.items.any (·.isPresent) then
    .error (.message ("json: error calling MarshalJSON for type v1.Resources: " ++
      "invalid character ',' looking for beginning of value"))
  else .ok ()

/-- The secret after `res` is stored in it. -/
def withVersion (res : Resources) (s : StoreSecret) : StoreSecret :=
  { s with latest := some (marshal res), previous := s.latest }

/-- `Store`. -/
def store (st : Storage) (res : Resources) (owner : Deployment) : Op Storage := do
  let secret ← getSecret env st.key
  let res := { res with version := st.latest.version + 1 }
  let d ← outcome owner.deref
  let hash ← outcome (getGenerationString op d.metadata d.generation d.status)
  perform (.store owner hash res)
  outcome (checkMarshal res)
  save env st.key d.owner (withVersion res (withLabels op d hash (secret.getD (createSecretStruct st.key))))
  return { st with latest := res, previous := st.latest, hash := some hash }

/-- The secret with the hash: a secret without labels does not get one. -/
def withHash (hash : String) (s : StoreSecret) : StoreSecret :=
  { s with metadata := { s.metadata with
      labels := if s.metadata.labels = ∅ then ∅ else s.metadata.labels.set LabelCoherenceHash hash } }

/-- `ResetHash` before the secret is saved: the hash is in memory already. -/
def setHash (st : Storage) (owner : Deployment) : Op (Storage × Owner × StoreSecret) := do
  let secret ← getSecret env st.key
  let d ← outcome owner.deref
  let hash ← outcome (getGenerationString op d.metadata d.generation d.status)
  return ({ st with hash := some hash }, d.owner, withHash hash (secret.getD (createSecretStruct st.key)))

/-- `ResetHash`. -/
def resetHash (st : Storage) (owner : Deployment) : Op Storage := do
  let (st, owner, secret) ← setHash op env st owner
  save env st.key owner secret
  return st

/-- A call of a store that is open. -/
inductive Call where
  | store (res : Resources) (owner : Deployment)
  | resetHash (owner : Deployment)

/-- A call, with what is in memory after it: `Store` changes that when everything was saved, `ResetHash` before the secret is
saved. -/
def Call.run (c : Call) (st : Storage) (w : World) : Except GoError Unit × Storage × World :=
  match c with
  | store res owner =>
    match exec (st.store op env res owner) w with
    | (.ok st', u) => (.ok (), st', u)
    | (.error e, u) => (.error e, st, u)
  | resetHash owner =>
    match exec (st.setHash op env owner) w with
    | (.ok (st', owner, secret), u) =>
      let (r, v) := exec (save env st'.key owner secret) u
      (r, st', v)
    | (.error e, u) => (.error e, st, u)

end Storage

end CoherenceOperator
