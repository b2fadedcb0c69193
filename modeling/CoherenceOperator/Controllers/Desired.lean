import CoherenceOperator.Api.Builder
import CoherenceOperator.Controllers.Common

/-!
# The resources that are stored

`checkHash` decides between the resources that the spec generates and those that are in the store
already, and `plan` makes them ready to be stored. With it what else both controllers do before they store:
the secret with the operator's configuration.
-/

namespace CoherenceOperator

open Effect Prog

variable (op : Operator)

namespace CoherenceResource

variable (d : CoherenceResource)

/-- `GetGenerationString`. -/
def generationString : Except GoError String := getGenerationString op d.metadata d.generation d.status

/-- `IsBeforeOrSameVersion("3.4.3")`. -/
def isLegacy : Except GoError Bool := isBeforeOrSameVersion op d.metadata d.status "3.4.3"

/-- `hash == storeHash && deployment.IsBeforeOrSameVersion("3.4.3")`, where the hash of a store that has none
is empty. -/
def isStoredLegacy (st : Storage) : Except GoError Bool := do
  let hash ← d.generationString op
  if hash = st.hash.getD "" then d.isLegacy op else return false

/-- `checkHash`: are the stored resources to be used, and not those the spec generates? -/
def usesStored (st : Storage) : Except GoError Bool := do
  let hash ← d.generationString op
  match st.hash with
  | none => return false
  | some storeHash => if storeHash ≠ hash ∨ d.status.phase ≠ some .ready then d.isLegacy op else return true

/-- `SetController` and `SetHashLabelAndAnnotations`. -/
def prepare (res : Resources) : Except GoError Resources := do
  let hash ← d.generationString op
  let res ← (res.setController d.owner).mapError .message
  return res.setHashLabelAndAnnotations op.version hash

/-- What is stored, given the resources that the spec generates, and the storage that it is stored with.
Stored resources that are used again are changed where they are, in the latest version of the
storage in memory. -/
def plan (created : Resources) (st : Storage) : Except GoError (Resources × Storage) := do
  if ← d.usesStored op st then
    let res ← d.prepare op st.latest
    return (res, { st with latest := res })
  else
    let res ← d.prepare op created
    return (res, st)

end CoherenceResource

/-! ### The configuration of the operator -/

/-- The data of a secret. -/
def Object.secretData (o : Object) : Labels :=
  match o.body with
  | .secret data => data
  | _ => ∅

/-- `EnsureOperatorSecret`: the secret with the address of the operator is in the namespace. -/
def ensureOperatorSecret (env : Env) (d : CoherenceResource) : Op Unit := do
  let key : NamespacedName := ⟨d.ns, "coherence-operator-config"⟩
  match ← getObject env .secret key with
  | none =>
    Op.ignoreError (deleteObject env .secret key)
    createObject env
      { metadata := d.metadataFor key.name (d.createGlobalLabels op) (d.createGlobalAnnotations op)
        body := .secret ((∅ : Labels).set "operatorhost" op.restHostAndPort) }
  | some s =>
    if s.secretData.lookup "operatorhost" = some op.restHostAndPort then return ()
    else replaceObject env { s with body := .secret (s.secretData.set "operatorhost" op.restHostAndPort) }

/-! ### The secondary reconcilers -/

/-- How far the secondary reconcilers got: when to queue the request again, and what failed. -/
structure Progress where
  requeueAfter : ℕ := 0
  failures : List GoError := []

/-- After a reconciler returned: the earliest time counts. -/
def Progress.returned (p : Progress) (r : Result) : Progress :=
  if r.requeueAfter > 0 ∧ (p.requeueAfter = 0 ∨ r.requeueAfter < p.requeueAfter) then
    { p with requeueAfter := r.requeueAfter }
  else p

/-- After a reconciler failed. -/
def Progress.failed (p : Progress) (e : GoError) : Progress :=
  { requeueAfter := 60, failures := p.failures ++ [e] }

/-- Run the secondary reconcilers, one after the other, whether one fails or not. -/
def reconcileSecondary : List (Op Result) → Progress → Op Progress
  | [], p => return p
  | r :: rs, p => do
    match ← Op.attempt r with
    | .ok result => reconcileSecondary rs (p.returned result)
    | .error e => reconcileSecondary rs (p.failed e)

end CoherenceOperator
