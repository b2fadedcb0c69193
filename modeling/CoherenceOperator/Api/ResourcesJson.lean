import CoherenceOperator.Api.Errors
import CoherenceOperator.Api.Resources
import CoherenceOperator.Lib.Integers
import CoherenceOperator.Lib.Json

/-!
# Resources as JSON

`MarshalJSON` writes a version of the resources as a list of objects, and `UnmarshalJSON` reads such a list. The objects may be of any
type; how they are encoded and what is made of a list of them is the business of the libraries (`ObjectCodec`).
-/

namespace CoherenceOperator

/-- `Resource`, with an object of any type. -/
structure StoredResource (O : Type) where
  kind : ResourceType
  name : String
  spec : Option O

/-- `IsDelete`: there is no spec. -/
def StoredResource.isDelete {O : Type} (r : StoredResource O) : Bool := r.spec.isNone

/-- `Resources`. -/
structure StoredResources (O : Type) where
  version : Int32 := 0
  items : List (StoredResource O) := []

/-- The objects of a version, as they are stored. -/
def Resources.toStored (res : Resources) : StoredResources Object :=
  ⟨.ofNat res.version, res.items.map fun r => ⟨r.kind, r.name, r.spec⟩⟩

/-- What the libraries make of objects. -/
structure ObjectCodec (O : Type) where
  /-- `json.Marshal` of an object. -/
  marshal : O → Except GoError String
  /-- `UnmarshalJSON` of an `UnstructuredList`: its `apiVersion` and its items. -/
  unmarshalList : String → Except GoError (String × List Json)
  /-- The kind of an unstructured object. -/
  kind : Json → String
  /-- The name of an unstructured object. -/
  name : Json → String
  /-- `FromUnstructured`, into an object of this kind. -/
  fromUnstructured : ResourceType → Json → Except GoError O

/-- `ToResourceType`. -/
def toResourceType (kind : String) : Except GoError ResourceType :=
  if kind = ResourceType.coherence.name then .ok .coherence
  else if kind = ResourceType.configMap.name then .ok .configMap
  else if kind = ResourceType.secret.name then .ok .secret
  else if kind = ResourceType.service.name then .ok .service
  else if kind = ResourceType.serviceMonitor.name then .ok .serviceMonitor
  else if kind = ResourceType.statefulSet.name then .ok .statefulSet
  else if kind = ResourceType.job.name then .ok .job
  else .error (.message s!"attempt to obtain ResourceType unsupported kind {kind}")

/-- `strconv.ParseInt(s, 10, 64)`. -/
def parseInt (s : String) : Except GoError ℤ :=
  match Int64Bits.readSigned s.toList with
  | none => .error (.message s!"strconv.ParseInt: parsing \"{s}\": invalid syntax")
  | some n =>
    if Int64Bits.Fits n then .ok n
    else .error (.message s!"strconv.ParseInt: parsing \"{s}\": value out of range")

namespace StoredResources

variable {O : Type} (codec : ObjectCodec O)

/-- The items of `MarshalJSON`, the first of which has the index `i`: the comma is written by the index, the object by what
the item is. -/
def marshalItems : ℕ → List (StoredResource O) → Except GoError String
  | _, [] => .ok ""
  | i, r :: rs =>
    match r.spec with
    | none => marshalItems (i + 1) rs
    | some o => do
      let b ← codec.marshal o
      let rest ← marshalItems (i + 1) rs
      return (if 0 < i then ", " else "") ++ b ++ rest

/-- `MarshalJSON`. -/
def marshalJSON (res : StoredResources O) : Except GoError String := do
  let items ← marshalItems codec 0 res.items
  return "\x7b\"apiVersion\":\"" ++ toString res.version.toInt ++ "\"" ++ ", \"kind\": \"Resources\"" ++ ", \"items\":[" ++
    items ++ "]\x7d"

/-- The items of `UnmarshalJSON`. -/
def unmarshalItems : List Json → Except GoError (List (StoredResource O))
  | [] => .ok []
  | u :: us => do
    let t ← toResourceType (codec.kind u)
    let o ← (codec.fromUnstructured t u).mapError (.wrap s!"converting unstructured to {codec.kind u}")
    let rest ← unmarshalItems us
    return ⟨t, codec.name u, some o⟩ :: rest

/-- `UnmarshalJSON`: the items are added to those that are there. -/
def unmarshalJSON (res : StoredResources O) (b : String) : Except GoError (StoredResources O) := do
  let (apiVersion, us) ← codec.unmarshalList b
  let v ← parseInt apiVersion
  let items ← unmarshalItems codec us
  return ⟨Int32.ofInt v, res.items ++ items⟩

end StoredResources

section

variable {t : ResourceType} {n : ℤ}

/-- A supported kind is read back. -/
theorem toResourceType_name (h : t ≠ .coherenceJob) : toResourceType t.name = .ok t := by
  cases t with
  | coherenceJob => exact absurd rfl h
  | _ => rfl

theorem parseInt_toString (h : Int64Bits.Fits n) : parseInt (toString n) = .ok n := by
  obtain ⟨hread, -⟩ := Option.filter_eq_some_iff.1 (Int64Bits.atoi_toString h)
  rw [parseInt, hread]
  exact if_pos h

end

end CoherenceOperator
