import CoherenceOperator.Footprint.Building
import CoherenceOperator.Footprint.Template

/-!
# Selectors and what they select

The selectors of the StatefulSet and of the Services are made of the common labels of a resource, and so are the labels of its pods;
but the labels of the spec are put into the labels of the pods last. The selectors match the pods exactly when the spec gives no
label of a selector another value (`selects_pods_iff`). The selector of a ServiceMonitor and the labels of its Service are made in
the same way, from the labels of the port's Service (`monitor_selects_iff`).
-/

namespace CoherenceOperator

/-! ### Labels -/

namespace Labels

variable {labels m selector : Labels} {k k' v : String}

/-- Does the selector match the labels? -/
def Matches (selector labels : Labels) : Prop := ∀ k v, selector.lookup k = some v → labels.lookup k = some v

/-- Do the maps agree where both have a value? -/
def Agrees (selector m : Labels) : Prop := ∀ k v w, selector.lookup k = some v → m.lookup k = some w → w = v

/-- What is matched is still matched after more labels exactly when these agree. -/
theorem matches_setAll_iff (h : selector.Matches labels) : selector.Matches (labels.setAll m) ↔ selector.Agrees m := by
  constructor
  · intro hmatches k v w hv hw
    have hlookup := hmatches k v hv
    rw [lookup_setAll, hw, Option.some_or] at hlookup
    exact Option.some.inj hlookup
  · intro hagrees k v hv
    rw [lookup_setAll]
    cases hw : m.lookup k with
    | none => exact h k v hv
    | some w =>
      rw [hagrees k v w hv hw]
      rfl

/-- More labels are no harm to a selector that does not have their key. -/
theorem Matches.set (h : selector.Matches labels) (hk : selector.lookup k = none) (v : String) : selector.Matches (labels.set k v) := by
  intro k' v' hv'
  have hne : k' ≠ k := by
    rintro rfl
    rw [hk] at hv'
    cases hv'
  rw [lookup_set, if_neg hne]
  exact h k' v' hv'

/-- A key that both have, with the same value. -/
theorem Matches.set_set (h : selector.Matches labels) (k v : String) : (selector.set k v).Matches (labels.set k v) := by
  intro k' v' hv'
  rw [lookup_set] at hv' ⊢
  by_cases hk : k' = k
  · rwa [if_pos hk] at hv' ⊢
  · rw [if_neg hk] at hv' ⊢
    exact h k' v' hv'

theorem matches_self (labels : Labels) : labels.Matches labels := fun _ _ h => h

theorem matches_setAll_self (labels m : Labels) : m.Matches (labels.setAll m) := by
  intro k v hv
  rw [lookup_setAll, hv]
  rfl

end Labels

/-! ### The labels of pods -/

namespace CoherenceResource

variable {op : Operator} {d : CoherenceResource} {k v : String}

/-- `IsWKAMember`. -/
def isWKAMember (d : CoherenceResource) : Bool :=
  (d.spec.coherence.bind (·.excludeFromWKA)) ≠ some true && d.spec.requiresWKAService

/-- The labels that the selectors are made of. -/
def selectedLabels (d : CoherenceResource) : Labels :=
  if d.isWKAMember then d.createPodSelectorLabels.set "coherenceWKAMember" "true" else d.createPodSelectorLabels

theorem lookup_setIfPresent (k : String) (v : Option String) (labels : Labels) (k' : String) :
    (setIfPresent k v labels).lookup k' = if k' = k then v.or (labels.lookup k') else labels.lookup k' := by
  cases v with
  | none => simp [setIfPresent]
  | some v =>
    rw [setIfPresent, Labels.lookup_set]
    simp

/-- What the common labels are. -/
theorem lookup_createCommonLabels (k : String) : d.createCommonLabels.lookup k =
    if k = "version" then d.spec.versionLabel else if k = "app" then d.spec.appLabel
    else if k = "coherenceRole" then some d.roleName else if k = "coherenceCluster" then some d.clusterName
    else if k = "coherenceDeployment" then some d.name else none := by
  simp only [createCommonLabels, lookup_setIfPresent, Labels.lookup_set, Finmap.lookup_empty]
  by_cases hversion : k = "version"
  · simp [hversion]
  by_cases happ : k = "app"
  · simp [happ]
  simp [hversion, happ]

theorem lookup_createPodSelectorLabels (k : String) : d.createPodSelectorLabels.lookup k =
    if k = "coherenceComponent" then some "coherencePod" else d.createCommonLabels.lookup k := Labels.lookup_set _ _ _ _

theorem lookup_wkaMember : d.createPodSelectorLabels.lookup "coherenceWKAMember" = none := by
  simp [lookup_createPodSelectorLabels, lookup_createCommonLabels]

/-- The labels before those of the spec. -/
def ownPodLabels (op : Operator) (d : CoherenceResource) : Labels :=
  (((∅ : Labels).setAll (d.createGlobalLabels op)).setAll d.createPodSelectorLabels).set "coherenceWKAMember" (toString d.isWKAMember)

theorem podLabels_eq (op : Operator) (d : CoherenceResource) : d.podLabels op = (d.ownPodLabels op).setAll d.spec.labels := rfl

theorem matches_ownPodLabels : d.createPodSelectorLabels.Matches (d.ownPodLabels op) :=
  (Labels.matches_setAll_self _ _).set lookup_wkaMember _

theorem selected_matches_ownPodLabels : d.selectedLabels.Matches (d.ownPodLabels op) := by
  rw [selectedLabels]
  by_cases h : d.isWKAMember = true
  · rw [if_pos h, ownPodLabels, h]
    exact (Labels.matches_setAll_self _ _).set_set _ _
  · rw [if_neg h]
    exact matches_ownPodLabels

end CoherenceResource

/-- The selector of a Service. -/
def Object.selector (o : Object) : Option Labels :=
  match o.body with
  | .service spec => some spec.selector
  | _ => none

/-- Do the selectors of the StatefulSet and of the Services match the labels of the pods? -/
structure SelectsPods (op : Operator) (c : Coherence) (s : StatefulSet) : Prop where
  statefulSet : s.spec.selector.Matches s.spec.template.labels
  headless : ∀ selector ∈ (c.toResource.createHeadlessService op).selector, selector.Matches s.spec.template.labels
  ports : ∀ p ∈ c.spec.ports, p.isEnabled = true → ∀ selector ∈ (p.createService op c.toResource).selector,
    selector.Matches s.spec.template.labels
  wka : c.toResource.isWKAMember = true → ∀ selector ∈ (c.toResource.createWKAService op).selector,
    selector.Matches s.spec.template.labels

section

variable {op : Operator} {c : Coherence} {d : CoherenceResource}

theorem labels_foldl_addVolumes {f : PodTemplateSpec → VolumeSpec → PodTemplateSpec} (hf : ∀ t v, (f t v).labels = t.labels)
    (vs : List VolumeSpec) (t : PodTemplateSpec) : (vs.foldl f t).labels = t.labels := by
  induction vs generalizing t with
  | nil => rfl
  | cons v vs ih => exact (ih (f t v)).trans (hf t v)

/-- The labels of the template are those that are given. -/
theorem labels_createPodTemplateSpec (op : Operator) (d : CoherenceResource) (labels annotations : Labels) (services : Option String) :
    (d.createPodTemplateSpec op labels annotations services).labels = labels := by
  have hshare : ∀ (v : Option EnvVar) (t : PodTemplateSpec), (t.shareEnv v).labels = t.labels := by
    intro v t
    unfold PodTemplateSpec.shareEnv
    split
    · rfl
    · rfl
  have hsecret := labels_foldl_addVolumes (f := VolumeSpec.addSecretVolumes) fun _ _ => rfl
  have hconfig := labels_foldl_addVolumes (f := VolumeSpec.addConfigMapVolumes) fun _ _ => rfl
  unfold CoherenceResource.createPodTemplateSpec
  dsimp only
  rw [hshare, hsecret, hconfig]
  rfl

theorem labels_template (op : Operator) (c : Coherence) (services : Option String) :
    (c.createStatefulSet (Ranged.withServices op c services)).spec.template.labels = c.toResource.podLabels op := by
  have htemplate : (c.createStatefulSet (Ranged.withServices op c services)).spec.template = c.templateWith op services := rfl
  rw [htemplate, Coherence.templateWith, CoherenceStatefulSetResourceSpec.configureHealthMutators]
  split
  · exact labels_createPodTemplateSpec ..
  · exact labels_createPodTemplateSpec ..

/-- The labels that the selectors are made of are matched exactly when the labels of the spec agree with them. -/
theorem selected_matches_iff (op : Operator) : d.selectedLabels.Matches (d.podLabels op) ↔ d.selectedLabels.Agrees d.spec.labels := by
  rw [CoherenceResource.podLabels_eq]
  exact Labels.matches_setAll_iff CoherenceResource.selected_matches_ownPodLabels

/-- The selector for well known addresses is part of what the selectors are made of. -/
theorem wka_matches_selected (op : Operator) (h : d.isWKAMember = true) : ∀ selector ∈ (d.createWKAService op).selector,
    selector.Matches d.selectedLabels ∧ selector.lookup "coherenceWKAMember" = some "true" := by
  intro selector hselector
  cases hselector
  refine ⟨fun k v hv => ?_, ?_⟩
  · simp only [Labels.lookup_set, Finmap.lookup_empty] at hv
    rw [CoherenceResource.selectedLabels, if_pos h, Labels.lookup_set, CoherenceResource.lookup_createPodSelectorLabels,
      CoherenceResource.lookup_createCommonLabels]
    by_cases hwka : k = "coherenceWKAMember"
    · rwa [if_pos hwka] at hv ⊢
    rw [if_neg hwka] at hv ⊢
    by_cases hcomponent : k = "coherenceComponent"
    · rwa [if_pos hcomponent] at hv ⊢
    rw [if_neg hcomponent] at hv ⊢
    by_cases hcluster : k = "coherenceCluster"
    · rw [if_pos hcluster] at hv
      rw [hcluster, ← hv]
      rfl
    · rw [if_neg hcluster] at hv
      cases hv
  · simp [Labels.lookup_set]

/-- **The selectors match the pods exactly when the labels of the spec agree with the labels that the selectors are made of.** -/
theorem selects_pods_iff (op : Operator) (c : Coherence) (services : Option String) :
    SelectsPods op c (c.createStatefulSet (Ranged.withServices op c services)) ↔ c.toResource.selectedLabels.Agrees c.spec.labels := by
  have hlabels := labels_template op c services
  have hmember : c.toResource.isWKAMember = true →
      c.toResource.selectedLabels = c.toResource.createPodSelectorLabels.set "coherenceWKAMember" "true" := fun h => if_pos h
  constructor
  · intro h
    have hpods := h.statefulSet
    have hwka := h.wka
    rw [hlabels] at hpods
    rw [hlabels] at hwka
    refine (selected_matches_iff op).1 fun k v hv => ?_
    by_cases hwkaMember : c.toResource.isWKAMember = true
    · rw [hmember hwkaMember, Labels.lookup_set] at hv
      by_cases hk : k = "coherenceWKAMember"
      · rw [if_pos hk] at hv
        rw [← hv, hk]
        exact hwka hwkaMember _ rfl _ _ (wka_matches_selected op hwkaMember _ rfl).2
      · rw [if_neg hk] at hv
        exact hpods k v hv
    · rw [CoherenceResource.selectedLabels, if_neg hwkaMember] at hv
      exact hpods k v hv
  · intro h
    have hselected := (selected_matches_iff op).2 h
    have hpods : c.toResource.createPodSelectorLabels.Matches (c.toResource.podLabels op) := by
      intro k v hv
      refine hselected k v ?_
      rw [CoherenceResource.selectedLabels]
      split
      · rw [Labels.lookup_set, if_neg, hv]
        rintro rfl
        rw [CoherenceResource.lookup_wkaMember] at hv
        cases hv
      · exact hv
    refine ⟨?_, ?_, ?_, ?_⟩
    all_goals rw [hlabels]
    · exact hpods
    · rintro selector ⟨⟩
      exact hpods
    · rintro p - - selector ⟨⟩
      exact hpods
    · intro hwkaMember selector hselector k v hv
      exact hselected k v ((wka_matches_selected op hwkaMember selector hselector).1 k v hv)

/-- A resource whose pods have another role than it. -/
def roleOverridden : Coherence :=
  { metadata := { ns := "prod", name := "storage" }, spec := { labels := (∅ : Labels).set "coherenceRole" "proxy" } }

/-- **A label of the spec can take the pods away from every selector**, that of the StatefulSet included. -/
theorem not_selects_roleOverridden :
    ¬ SelectsPods default roleOverridden (roleOverridden.createStatefulSet (Ranged.withServices default roleOverridden none)) := by
  intro h
  have hpods := h.statefulSet "coherenceRole" "storage"
  rw [labels_template] at hpods
  exact absurd (hpods (by decide)) (by decide)

end

/-! ### ServiceMonitors -/

/-- Does the ServiceMonitor select the Service: do the labels match, and is the port of each endpoint the name of a port? -/
def MonitorSelects (monitor service : Object) : Prop :=
  ∃ m s, monitor.body = .serviceMonitor m ∧ service.body = .service s ∧ monitor.metadata.ns = service.metadata.ns ∧
    m.selector.Matches service.metadata.labels ∧ ∀ e ∈ m.endpoints, ∃ port ∈ s.ports, port.name = e.port

namespace NamedPortSpec

variable (p : NamedPortSpec) (d : CoherenceResource)

/-- The name of the port in the Service. -/
def servicePortName : String := (p.service.bind (·.portName)).getD p.name

/-- The labels that the port's Service has of its own. -/
def serviceLabels : Labels := (p.service.map (·.labels)).getD ∅

/-- The labels by which the port's Service is selected. -/
def monitoredLabels : Labels := (d.createCommonLabels.set "coherenceComponent" "coherence-service").set "coherencePort" p.name

end NamedPortSpec

section

variable {op : Operator} {p : NamedPortSpec} {m : ServiceMonitorSpec} {d : CoherenceResource}

/-- The labels of the Service, before its own, are those by which it is selected, and more. -/
theorem monitored_matches (op : Operator) (p : NamedPortSpec) (d : CoherenceResource) : (p.monitoredLabels d).Matches
    (((d.createGlobalLabels op).set "coherenceComponent" "coherence-service").set "coherencePort" p.name) :=
  ((Labels.matches_setAll_self _ _).set_set _ _).set_set _ _

theorem monitorSelects_iff : MonitorSelects (p.createServiceMonitor op m d) (p.createService op d) ↔
    p.servicePortName = p.name ∧ (p.monitoredLabels d).Agrees p.serviceLabels := by
  rw [← Labels.matches_setAll_iff (monitored_matches op p d)]
  constructor
  · rintro ⟨monitor, service, hmonitor, hservice, -, hlabels, hports⟩
    cases hmonitor
    cases hservice
    obtain ⟨port, hport, hname⟩ := hports _ (List.mem_singleton_self _)
    rw [List.mem_singleton.1 hport] at hname
    exact ⟨hname, hlabels⟩
  · rintro ⟨hname, hlabels⟩
    refine ⟨_, _, rfl, rfl, rfl, hlabels, fun e he => ⟨_, List.mem_singleton_self _, ?_⟩⟩
    rw [List.mem_singleton.1 he]
    exact hname

/-- **A ServiceMonitor selects its Service exactly when the port keeps its name**, and the labels of the Service agree with those by
which it is selected. -/
theorem monitor_selects_iff (op : Operator) (p : NamedPortSpec) (m : ServiceMonitorSpec) (d : CoherenceResource)
    (henabled : p.isEnabled = true) (hm : p.monitor = some m) :
    ∃ service monitor : Object, p.createResources op d = [service.toResource, monitor.toResource] ∧
      (MonitorSelects monitor service ↔ p.servicePortName = p.name ∧ (p.monitoredLabels d).Agrees p.serviceLabels) := by
  refine ⟨p.createService op d, p.createServiceMonitor op m d, ?_, monitorSelects_iff⟩
  rw [NamedPortSpec.createResources, if_pos henabled, hm]

/-- A port with a ServiceMonitor, whose Service has a label of its own. -/
def monitoredPort : NamedPortSpec :=
  { name := "metrics", service := some { labels := (∅ : Labels).set "team" "storage" }, serviceMonitor := some { enabled := some true } }

theorem monitor_selects_metrics : ∃ service monitor : Object,
    monitoredPort.createResources default roleOverridden.toResource = [service.toResource, monitor.toResource] ∧
      MonitorSelects monitor service := by
  obtain ⟨service, monitor, hresources, hiff⟩ := monitor_selects_iff default monitoredPort { enabled := some true }
    roleOverridden.toResource rfl rfl
  refine ⟨service, monitor, hresources, hiff.2 ⟨rfl, fun k v w hv hw => ?_⟩⟩
  have hteam : k = "team" := by
    by_contra hk
    have hnone : monitoredPort.serviceLabels.lookup k = none := by
      simp [monitoredPort, NamedPortSpec.serviceLabels, Labels.lookup_set, hk]
    rw [hnone] at hw
    cases hw
  have hnone : (monitoredPort.monitoredLabels roleOverridden.toResource).lookup "team" = none := by decide
  rw [hteam, hnone] at hv
  cases hv

/-- The same port under another name in its Service. -/
def renamedPort : NamedPortSpec :=
  { name := "metrics", service := some { portName := some "http-metrics" }, serviceMonitor := some { enabled := some true } }

/-- **A port that has another name in its Service is not scraped.** -/
theorem not_selects_renamedPort : ∃ service monitor : Object,
    renamedPort.createResources default roleOverridden.toResource = [service.toResource, monitor.toResource] ∧
      ¬ MonitorSelects monitor service := by
  refine ⟨renamedPort.createService default roleOverridden.toResource,
    renamedPort.createServiceMonitor default { enabled := some true } roleOverridden.toResource, rfl, fun h => ?_⟩
  exact absurd (monitorSelects_iff.1 h).1 (by decide)

end

end CoherenceOperator
