import CoherenceOperator.Api.Kubernetes

/-!
# Resources

A `Resource` is one object that the operator wants, under its kind and name; without a spec it is a
deletion. `Resources` is the versioned list of them that a Coherence resource generates, which
is what the state store keeps.
-/

namespace CoherenceOperator

/-- The label with the hash of the version an object was made from. -/
def LabelCoherenceHash : String := "coherence-hash"

/-- The annotation with the version of the operator. -/
def AnnotationOperatorVersion : String := "com.oracle.coherence.operator/version"

/-- One object to be managed, under its own kind and name. -/
structure Resource where
  kind : ResourceType
  name : String
  spec : Option Object
  filed : ∀ o ∈ spec, o.kind = kind ∧ o.metadata.name = name
  deriving DecidableEq

/-- The objects of one version. -/
structure Resources where
  version : ℕ := 0
  items : List Resource := []
  deriving DecidableEq

/-- `IsDelete`: there is no spec. -/
def Resource.isDelete (r : Resource) : Bool := r.spec.isNone

/-- `IsPresent`: there is a spec. -/
def Resource.isPresent (r : Resource) : Bool := r.spec.isSome

/-- Change the object, but not its kind and name. -/
def Resource.mapSpec (r : Resource) (f : Object → Object)
    (hf : ∀ o, (f o).kind = o.kind ∧ (f o).metadata.name = o.metadata.name) : Resource :=
  { r with
    spec := r.spec.map f
    filed := by
      intro o ho
      obtain ⟨o', ho', rfl⟩ := Option.mem_map.1 ho
      rw [(hf o').1, (hf o').2]
      exact r.filed o' ho' }

/-- Is `r` the resource of this kind and name? -/
def Resource.named (kind : ResourceType) (name : String) (r : Resource) : Bool :=
  r.kind == kind && r.name == name

@[simp] theorem Resource.named_iff {kind : ResourceType} {name : String} {r : Resource} :
    r.named kind name = true ↔ r.kind = kind ∧ r.name = name := by
  simp [named]

namespace Resources

/-- `GetResource`: the first item of this kind and name. -/
def getResource (rs : Resources) (kind : ResourceType) (name : String) : Option Resource :=
  rs.items.find? (Resource.named kind name)

/-- `GetResourcesOfKind`. -/
def getResourcesOfKind (rs : Resources) (kind : ResourceType) : List Resource :=
  rs.items.filter fun r => r.kind == kind

/-- An object of this kind and key is among the resources. -/
def Wants (rs : Resources) (kind : ResourceType) (key : NamespacedName) : Prop :=
  ∃ r ∈ rs.items, ∃ o ∈ r.spec, o.kind = kind ∧ o.key = key

theorem getResource_eq_some {rs : Resources} {kind : ResourceType} {name : String} {r : Resource}
    (h : rs.getResource kind name = some r) : r ∈ rs.items ∧ r.kind = kind ∧ r.name = name :=
  ⟨List.mem_of_find?_eq_some h, by simpa using List.find?_some h⟩

theorem getResource_isSome {rs : Resources} {kind : ResourceType} {name : String} :
    (rs.getResource kind name).isSome ↔ ∃ r ∈ rs.items, r.kind = kind ∧ r.name = name := by
  simp [getResource, List.find?_isSome]

theorem getResource_eq_none {rs : Resources} {kind : ResourceType} {name : String} :
    rs.getResource kind name = none ↔ ∀ r ∈ rs.items, ¬ (r.kind = kind ∧ r.name = name) := by
  simp [getResource, List.find?_eq_none]

theorem mem_getResourcesOfKind {rs : Resources} {kind : ResourceType} {r : Resource} :
    r ∈ rs.getResourcesOfKind kind ↔ r ∈ rs.items ∧ r.kind = kind := by
  simp [getResourcesOfKind]

end Resources

/-! ### The owner -/

/-- The owner of an object, as `SetControllerReference` records it. -/
structure Owner where
  kind : ResourceType
  key : NamespacedName
  deriving DecidableEq, Repr

/-- Does the reference name this owner? -/
def OwnerReference.refersTo (owner : Owner) (ref : OwnerReference) : Bool :=
  ref.kind == owner.kind.name && ref.name == owner.key.name

/-- The reference to the controlling owner. -/
def Owner.reference (owner : Owner) : OwnerReference := ⟨owner.kind.name, owner.key.name, true⟩

/-- `upsertOwnerRef`: in place of the first reference to the owner, or at the end. -/
def upsertOwnerRef (owner : Owner) : List OwnerReference → List OwnerReference
  | [] => [owner.reference]
  | ref :: refs => if ref.refersTo owner then owner.reference :: refs else ref :: upsertOwnerRef owner refs

/-- `controllerutil.SetControllerReference`: the owner references it sets. It is without the error for an object
that another controller owns: the caller ignores that error, and the object stays as it is. -/
def setControllerReference (owner : Owner) (m : ObjectMeta) : Except String (List OwnerReference) :=
  let refs := m.ownerReferences
  if m.ns ≠ owner.key.ns then
    .error (s!"cross-namespace owner references are disallowed, owner's namespace {owner.key.ns}, " ++
      s!"obj's namespace {m.ns}")
  else if (refs.find? (·.controller)).any (!·.refersTo owner) then .ok refs
  else .ok (upsertOwnerRef owner refs)

/-- The object with other owner references. -/
def Object.withOwnerReferences (refs : List OwnerReference) (o : Object) : Object :=
  { o with metadata := { o.metadata with ownerReferences := refs } }

/-- `Resource.SetController`. -/
def Resource.setController (owner : Owner) (r : Resource) : Except String Resource :=
  match r.spec with
  | none => .ok r
  | some o =>
    match setControllerReference owner o.metadata with
    | .ok refs => .ok (r.mapSpec (·.withOwnerReferences refs) fun _ => ⟨rfl, rfl⟩)
    | .error e => .error s!"setting resource owner/controller in {r.kind.name}_{r.name}: {e}"

/-- `Resources.SetController`. -/
def Resources.setController (owner : Owner) (rs : Resources) : Except String Resources := do
  let items ← rs.items.mapM (Resource.setController owner)
  return { rs with items }

/-! ### The hash and the version of the operator -/

/-- What `SetHashLabelAndAnnotations` does to one object. -/
def Object.setHash (version hash : String) (o : Object) : Object :=
  { o with metadata := { o.metadata with
      labels := o.metadata.labels.set LabelCoherenceHash hash
      annotations := o.metadata.annotations.set AnnotationOperatorVersion version } }

/-- `SetHashLabelAndAnnotations`: the hash label and the operator's version on every object. -/
def Resources.setHashLabelAndAnnotations (version hash : String) (rs : Resources) : Resources :=
  { rs with items := rs.items.map fun r => r.mapSpec (Object.setHash version hash) fun _ => ⟨rfl, rfl⟩ }

@[simp] theorem Object.kind_setHash (version hash : String) (o : Object) :
    (o.setHash version hash).kind = o.kind := rfl

end CoherenceOperator
