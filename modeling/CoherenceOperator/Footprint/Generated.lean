import CoherenceOperator.Footprint.Reconcile

/-!
# Generated resources

What the builders generate, and what is stored, has a shape of its own: Services, ServiceMonitors and the workload, all
present, in the namespace of their owner, and with no other owner. For such resources `SetController` does not fail,
and `prepare` is the same change of every object, which may be made twice.
-/

namespace CoherenceOperator

open Effect Prog Storage

/-- The kind of the workload of a resource. -/
def Owner.workload (owner : Owner) : ResourceType :=
  match owner.kind with
  | .coherenceJob => .job
  | _ => .statefulSet

/-- A resource of `owner`, as the builders make it, or with the owner set. -/
structure Resource.IsGenerated (owner : Owner) (r : Resource) : Prop where
  kind : r.kind = .service ∨ r.kind = .serviceMonitor ∨ r.kind = owner.workload ∧ r.name = owner.key.name
  spec : ∃ o, r.spec = some o ∧ o.metadata.ns = owner.key.ns ∧
    (o.metadata.ownerReferences = [] ∨ o.metadata.ownerReferences = [owner.reference])

/-- Resources of `owner` only. -/
def Resources.IsGenerated (owner : Owner) (res : Resources) : Prop := ∀ r ∈ res.items, r.IsGenerated owner

namespace Resource

variable {owner : Owner} {r : Resource}

theorem IsGenerated.isPresent (h : r.IsGenerated owner) : r.isPresent = true := by
  obtain ⟨o, ho, -⟩ := h.spec
  rw [Resource.isPresent, ho]
  rfl

theorem IsGenerated.isDelete (h : r.IsGenerated owner) : r.isDelete = false := by
  obtain ⟨o, ho, -⟩ := h.spec
  rw [Resource.isDelete, ho]
  rfl

/-- A generated resource is neither a ConfigMap nor a Secret. -/
theorem IsGenerated.kind_ne (h : r.IsGenerated owner) : r.kind ≠ .configMap ∧ r.kind ≠ .secret := by
  have hw : owner.workload = .job ∨ owner.workload = .statefulSet := by
    unfold Owner.workload
    split
    · exact .inl rfl
    · exact .inr rfl
  rcases h.kind with hk | hk | ⟨hk, -⟩
  · rw [hk]
    decide
  · rw [hk]
    decide
  · rw [hk]
    rcases hw with hw | hw
    · rw [hw]
      decide
    · rw [hw]
      decide

/-- The key of the object of a generated resource. -/
theorem IsGenerated.key (h : r.IsGenerated owner) {o : Object} (ho : r.spec = some o) :
    o.key = ⟨owner.key.ns, r.name⟩ := by
  obtain ⟨o', ho', hns, -⟩ := h.spec
  rw [ho, Option.some.injEq] at ho'
  subst ho'
  rw [Object.key, hns, (r.filed o ho).2]

end Resource

namespace Resources.IsGenerated

variable {owner : Owner} {res : Resources}

/-- Nothing is left out when the resources are marshalled. -/
theorem marshal (h : res.IsGenerated owner) : marshal res = res := by
  unfold Storage.marshal
  rw [List.filter_eq_self.2 fun r hr => (h r hr).isPresent]

theorem getResourcesOfKind (h : res.IsGenerated owner) {kind : ResourceType}
    (hk : kind = .configMap ∨ kind = .secret) : res.getResourcesOfKind kind = [] := by
  refine List.filter_eq_nil_iff.2 fun r hr => ?_
  obtain ⟨h₁, h₂⟩ := (h r hr).kind_ne
  rcases hk with rfl | rfl
  · simpa using h₁
  · simpa using h₂

theorem next (h : res.IsGenerated owner) (st : Storage) : (st.next res).IsGenerated owner := h

end Resources.IsGenerated

/-! ### What the builders generate -/

section Builders

variable {op : Operator} {d : CoherenceResource}

/-- An object with the metadata of the builders. -/
theorem isGenerated_metadataFor {name : String} {labels : Labels} {annotations : Option Labels} {body : Body}
    (hk : (⟨d.metadataFor name labels annotations, body⟩ : Object).kind = .service ∨
      (⟨d.metadataFor name labels annotations, body⟩ : Object).kind = .serviceMonitor ∨
      (⟨d.metadataFor name labels annotations, body⟩ : Object).kind = d.owner.workload ∧ name = d.name) :
    (⟨d.metadataFor name labels annotations, body⟩ : Object).toResource.IsGenerated d.owner :=
  ⟨hk, _, rfl, rfl, .inl rfl⟩

theorem isGenerated_createResources {p : NamedPortSpec} : ∀ r ∈ p.createResources op d, r.IsGenerated d.owner := by
  intro r hr
  unfold NamedPortSpec.createResources at hr
  split at hr
  · rcases List.mem_cons.1 hr with rfl | hr
    · exact isGenerated_metadataFor (.inl rfl)
    · split at hr
      · rw [List.mem_singleton.1 hr]
        exact isGenerated_metadataFor (.inr (.inl rfl))
      · cases hr
  · cases hr

theorem isGenerated_createKubernetesResources :
    ∀ r ∈ d.createKubernetesResources op, r.IsGenerated d.owner := by
  have hports : ∀ r ∈ d.createServicesForPort op, r.IsGenerated d.owner := by
    intro r hr
    obtain ⟨p, -, hp⟩ := List.mem_flatMap.1 hr
    exact isGenerated_createResources r hp
  intro r hr
  unfold CoherenceResource.createKubernetesResources at hr
  split at hr
  · cases hr
  · split at hr
    · rcases List.mem_cons.1 hr with rfl | hr
      · exact isGenerated_metadataFor (.inl rfl)
      · exact hports r hr
    · exact hports r hr

/-- What a Coherence resource generates. -/
theorem Coherence.isGenerated_createKubernetesResources (c : Coherence) :
    (c.createKubernetesResources op).IsGenerated c.toResource.owner := by
  intro r hr
  rcases List.mem_append.1 hr with hr | hr
  · exact CoherenceOperator.isGenerated_createKubernetesResources r hr
  · rcases List.mem_cons.1 hr with rfl | hr
    · exact isGenerated_metadataFor (.inl rfl)
    · rw [List.mem_singleton.1 hr]
      exact isGenerated_metadataFor (.inr (.inr ⟨rfl, rfl⟩))

/-- What a CoherenceJob resource generates. -/
theorem CoherenceJob.isGenerated_createKubernetesResources (c : CoherenceJob) :
    (c.createKubernetesResources op).IsGenerated c.toResource.owner := by
  intro r hr
  rcases List.mem_append.1 hr with hr | hr
  · exact CoherenceOperator.isGenerated_createKubernetesResources r hr
  · rw [List.mem_singleton.1 hr]
    exact isGenerated_metadataFor (.inr (.inr ⟨rfl, rfl⟩))

end Builders

/-! ### Resources that are ready to be stored -/

/-- What `prepare` makes of an object. -/
def Object.prepared (owner : Owner) (version h : String) (o : Object) : Object :=
  (o.withOwnerReferences [owner.reference]).setHash version h

/-- What `prepare` makes of a resource. -/
def Resource.prepared (owner : Owner) (version h : String) (r : Resource) : Resource :=
  r.mapSpec (Object.prepared owner version h) fun _ => ⟨rfl, rfl⟩

/-- What `prepare` makes of the resources of a version. -/
def Resources.prepared (owner : Owner) (version h : String) (res : Resources) : Resources :=
  { res with items := res.items.map (Resource.prepared owner version h) }

section Prepare

variable {op : Operator} {d : CoherenceResource} {owner : Owner} {version h : String} {r : Resource} {res : Resources}

/-- The owner is set, or is set already. -/
theorem setController_eq_ok (hr : r.IsGenerated owner) :
    r.setController owner = .ok (r.mapSpec (·.withOwnerReferences [owner.reference]) fun _ => ⟨rfl, rfl⟩) := by
  obtain ⟨o, ho, hns, hrefs⟩ := hr.spec
  have hself : owner.reference.refersTo owner = true := by simp [OwnerReference.refersTo, Owner.reference]
  have hset : setControllerReference owner o.metadata = .ok [owner.reference] := by
    rcases hrefs with hrefs | hrefs
    · simp [setControllerReference, hns, hrefs, upsertOwnerRef]
    · simp [setControllerReference, hns, hrefs, upsertOwnerRef, hself]
  rw [Resource.setController, ho]
  simp only [hset]

theorem mapM_eq_ok {α β ε : Type} {f : α → Except ε β} {g : α → β} {xs : List α} (h : ∀ x ∈ xs, f x = .ok (g x)) :
    xs.mapM f = .ok (xs.map g) := by
  induction xs with
  | nil => rfl
  | cons x xs ih =>
    rw [List.mapM_cons, h x List.mem_cons_self, ih fun y hy => h y (List.mem_cons_of_mem _ hy)]
    rfl

/-- Resources of the owner are prepared without an error. -/
theorem prepare_eq_ok (hres : res.IsGenerated d.owner) (hhash : d.generationString op = .ok h) :
    d.prepare op res = .ok (res.prepared d.owner op.version h) := by
  have hset : res.setController d.owner = .ok { res with
      items := res.items.map fun r => r.mapSpec (·.withOwnerReferences [d.owner.reference]) fun _ => ⟨rfl, rfl⟩ } := by
    rw [Resources.setController, mapM_eq_ok fun r hr => setController_eq_ok (hres r hr)]
    rfl
  have hitems : ∀ r : Resource, (r.mapSpec (·.withOwnerReferences [d.owner.reference]) fun _ => ⟨rfl, rfl⟩).mapSpec
      (Object.setHash op.version h) (fun _ => ⟨rfl, rfl⟩) = r.prepared d.owner op.version h := by
    intro r
    simp only [Resource.mapSpec, Resource.prepared, Option.map_map]
    rfl
  rw [CoherenceResource.prepare, hhash, hset]
  change Except.ok (Resources.setHashLabelAndAnnotations _ _ _) = _
  simp only [Resources.setHashLabelAndAnnotations, Resources.prepared, List.map_map, Function.comp_def, hitems]

end Prepare

end CoherenceOperator
