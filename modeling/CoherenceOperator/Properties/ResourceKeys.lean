import CoherenceOperator.Footprint.Building

/-!
# The keys of the generated resources

The Service of a port is named after the resource and the port, the Service for well known addresses `-wka`, the headless Service
`-sts`, and the StatefulSet has the name of the resource. No two resources have the same kind and name exactly when no port that is
enabled takes one of the two suffixes as its name (`unique_keys_iff`).
-/

namespace CoherenceOperator

/-- Do no two resources have the same kind and name? -/
def Resources.UniqueKeys (rs : Resources) : Prop := (rs.items.map fun r => (r.kind, r.name)).Nodup

instance (rs : Resources) : Decidable rs.UniqueKeys := inferInstanceAs (Decidable (List.Nodup _))

section

variable {op : Operator} {d : CoherenceResource} {p : NamedPortSpec}

/-- The keys of the resources of a port. -/
def NamedPortSpec.keys (p : NamedPortSpec) (d : CoherenceResource) : List (ResourceType × String) :=
  if p.isEnabled then (.service, p.serviceName d) :: (if p.monitor.isSome then [(.serviceMonitor, p.serviceName d)] else []) else []

theorem keys_createResources (op : Operator) (p : NamedPortSpec) (d : CoherenceResource) :
    (p.createResources op d).map (fun r => (r.kind, r.name)) = p.keys d := by
  rw [NamedPortSpec.createResources, NamedPortSpec.keys]
  by_cases henabled : p.isEnabled = true
  · rw [if_pos henabled, if_pos henabled]
    cases p.monitor with
    | none => rfl
    | some m => rfl
  · rw [if_neg henabled, if_neg henabled]
    rfl

/-- The keys of all generated resources. -/
theorem keys_createKubernetesResources (op : Operator) (c : Coherence) :
    (c.createKubernetesResources op).items.map (fun r => (r.kind, r.name)) =
      (if c.toResource.spec.getReplicas ≤ 0 then []
        else (if c.toResource.spec.requiresWKAService then [(ResourceType.service, c.toResource.wkaServiceName)] else []) ++
          c.spec.ports.flatMap fun p => p.keys c.toResource) ++
        [(.service, c.toResource.headlessServiceName), (.statefulSet, c.toResource.name)] := by
  have hports : (c.toResource.createServicesForPort op).map (fun r => (r.kind, r.name)) = c.spec.ports.flatMap fun p => p.keys c.toResource := by
    rw [CoherenceResource.createServicesForPort, List.map_flatMap]
    exact List.flatMap_congr fun p _ => keys_createResources op p _
  rw [Coherence.createKubernetesResources, List.map_append, CoherenceResource.createKubernetesResources]
  congr 1
  split
  · rfl
  · split
    · rw [List.map_cons, hports]
      rfl
    · rw [hports]
      rfl

/-- The keys of a port have its name. -/
theorem mem_keys {k : ResourceType × String} : k ∈ p.keys d ↔
    p.isEnabled = true ∧ k.2 = p.serviceName d ∧ (k.1 = .service ∨ k.1 = .serviceMonitor ∧ p.monitor.isSome = true) := by
  obtain ⟨kind, name⟩ := k
  rw [NamedPortSpec.keys]
  by_cases henabled : p.isEnabled = true
  · by_cases hmonitor : p.monitor.isSome = true
    · simp [henabled, hmonitor]
      tauto
    · simp [henabled, hmonitor]
      tauto
  · simp [henabled]

theorem nodup_keys : (p.keys d).Nodup := by
  rw [NamedPortSpec.keys]
  by_cases henabled : p.isEnabled = true
  · rw [if_pos henabled]
    split
    · simp
    · simp
  · rw [if_neg henabled]
    exact List.nodup_nil

/-- The name of a Service, if the port gives it none. -/
theorem serviceName_eq (h : p.service.bind (·.name) = none) : p.serviceName d = d.name ++ ("-" ++ p.name) := by
  rw [NamedPortSpec.serviceName, h]
  show d.name ++ "-" ++ p.name = _
  rw [String.append_assoc]

theorem serviceName_eq_append (h : p.service.bind (·.name) = none) (suffix : String) :
    p.serviceName d = d.name ++ ("-" ++ suffix) ↔ p.name = suffix := by
  rw [serviceName_eq h, String.append_right_inj, String.append_right_inj]

/-- The keys of the ports, given distinct names. -/
theorem nodup_flatMap_keys {ports : List NamedPortSpec} (hnames : (ports.map (·.name)).Nodup)
    (hcustom : ∀ p ∈ ports, p.service.bind (·.name) = none) : (ports.flatMap fun p => p.keys d).Nodup := by
  rw [List.nodup_flatMap]
  refine ⟨fun p _ => nodup_keys, ?_⟩
  have hpairwise : ports.Pairwise fun p q => p.name ≠ q.name := List.pairwise_map.1 hnames
  refine hpairwise.imp_of_mem fun {p q} hp hq hne k hkp hkq => hne ?_
  obtain ⟨-, hname, -⟩ := mem_keys.1 hkp
  obtain ⟨-, hname', -⟩ := mem_keys.1 hkq
  rw [hname, serviceName_eq (hcustom q hq), serviceName_eq_append (hcustom p hp)] at hname'
  exact hname'

/-- Does no port that is enabled have a name that makes its Service one of the others? -/
def Coherence.AvoidsSuffixes (c : Coherence) : Prop :=
  ∀ p ∈ c.spec.ports, p.isEnabled = true → p.name ≠ "sts" ∧ (c.toResource.spec.requiresWKAService = true → p.name ≠ "wka")

instance (c : Coherence) : Decidable c.AvoidsSuffixes := inferInstanceAs (Decidable (∀ p ∈ c.spec.ports, _))

/-- The key of a Service is not that of a port with another name. -/
theorem notMem_flatMap_keys {ports : List NamedPortSpec} (hcustom : ∀ p ∈ ports, p.service.bind (·.name) = none) (suffix : String) :
    (ResourceType.service, d.name ++ ("-" ++ suffix)) ∉ (ports.flatMap fun p => p.keys d) ↔
      ∀ p ∈ ports, p.isEnabled = true → p.name ≠ suffix := by
  rw [List.mem_flatMap]
  constructor
  · intro h p hp henabled hname
    refine h ⟨p, hp, mem_keys.2 ⟨henabled, ?_, .inl rfl⟩⟩
    exact ((serviceName_eq_append (hcustom p hp) suffix).2 hname).symm
  · rintro h ⟨p, hp, hkey⟩
    obtain ⟨henabled, hname, -⟩ := mem_keys.1 hkey
    exact h p hp henabled ((serviceName_eq_append (hcustom p hp) suffix).1 hname.symm)

theorem statefulSet_notMem_flatMap_keys {ports : List NamedPortSpec} {name : String} :
    (ResourceType.statefulSet, name) ∉ (ports.flatMap fun p => p.keys d) := by
  rw [List.mem_flatMap]
  rintro ⟨p, -, hkey⟩
  obtain ⟨-, -, hkind | ⟨hkind, -⟩⟩ := mem_keys.1 hkey
  · cases hkind
  · cases hkind

/-- The headless Service and the StatefulSet, after other keys. -/
theorem nodup_append_pair {keys : List (ResourceType × String)} {headless name : String} (hkeys : keys.Nodup)
    (hset : (ResourceType.statefulSet, name) ∉ keys) :
    (keys ++ [(ResourceType.service, headless), (ResourceType.statefulSet, name)]).Nodup ↔ (ResourceType.service, headless) ∉ keys := by
  rw [List.nodup_append']
  simp [hkeys, hset, List.disjoint_cons_right]

/-- **Keys are unique exactly when no port takes the name of a Service of the resource**, or nothing but what is always there is
generated. -/
theorem unique_keys_iff (op : Operator) (c : Coherence) (hnames : (c.spec.ports.map (·.name)).Nodup)
    (hcustom : ∀ p ∈ c.spec.ports, p.service.bind (·.name) = none) :
    (c.createKubernetesResources op).UniqueKeys ↔ c.toResource.spec.getReplicas ≤ 0 ∨ c.AvoidsSuffixes := by
  rw [Resources.UniqueKeys, keys_createKubernetesResources]
  have hheadless : c.toResource.headlessServiceName = c.toResource.name ++ ("-" ++ "sts") := rfl
  have hwka : c.toResource.wkaServiceName = c.toResource.name ++ ("-" ++ "wka") := rfl
  by_cases hreplicas : c.toResource.spec.getReplicas ≤ 0
  · rw [if_pos hreplicas]
    simp [hreplicas]
  rw [if_neg hreplicas]
  have hports := nodup_flatMap_keys (d := c.toResource) hnames hcustom
  have hset := @statefulSet_notMem_flatMap_keys c.toResource c.spec.ports c.toResource.name
  have hsts := notMem_flatMap_keys (d := c.toResource) hcustom "sts"
  have hwkas := notMem_flatMap_keys (d := c.toResource) hcustom "wka"
  rw [← hheadless] at hsts
  rw [← hwka] at hwkas
  have hdistinct : c.toResource.wkaServiceName ≠ c.toResource.headlessServiceName := by
    rw [hwka, hheadless]
    simp
  have hcond : c.AvoidsSuffixes ↔
      (ResourceType.service, c.toResource.headlessServiceName) ∉ (c.spec.ports.flatMap fun p => p.keys c.toResource) ∧
        (c.toResource.spec.requiresWKAService = true →
          (ResourceType.service, c.toResource.wkaServiceName) ∉ (c.spec.ports.flatMap fun p => p.keys c.toResource)) := by
    rw [hsts, hwkas]
    constructor
    · exact fun h => ⟨fun p hp henabled => (h p hp henabled).1, fun hrequires p hp henabled => (h p hp henabled).2 hrequires⟩
    · exact fun h p hp henabled => ⟨h.1 p hp henabled, fun hrequires => h.2 hrequires p hp henabled⟩
  rw [hcond, or_iff_right hreplicas]
  generalize (c.spec.ports.flatMap fun p => p.keys c.toResource) = keys at hports hset
  cases c.toResource.spec.requiresWKAService with
  | true =>
    rw [if_pos rfl, List.singleton_append, List.cons_append, List.nodup_cons, nodup_append_pair hports hset, List.mem_append, not_or]
    simp [hdistinct, and_comm]
  | false =>
    rw [if_neg Bool.false_ne_true, List.nil_append, nodup_append_pair hports hset]
    simp

/-- A port with a Service and a ServiceMonitor. -/
def monitoredCoherence (name : String) : Coherence :=
  { metadata := { ns := "prod", name := "storage" }
    spec := { ports := [{ name, serviceMonitor := some { enabled := some true } }, { name := "grpc" }] } }

theorem unique_keys_metrics : ((monitoredCoherence "metrics").createKubernetesResources default).UniqueKeys :=
  (unique_keys_iff default (monitoredCoherence "metrics") (by decide) (by decide)).2 (.inr (by decide))

/-- **The Service of a port can have the name of the headless Service.** -/
theorem not_unique_keys_sts : ¬ ((monitoredCoherence "sts").createKubernetesResources default).UniqueKeys := by
  decide

end

end CoherenceOperator
