import CoherenceOperator.Controllers.HealthSecrets
import CoherenceOperator.Properties.Selectors

/-!
# The resources that a Secret concerns

A Secret concerns a resource whose spec names it, or one of whose Pods was made with a connection that names it (`Concerns`). The two
maps of `mapHealthSecretRequests` keep the resources apart by what is known of them so far (`SortedBy`): a resource of the list
settles its own name, and a Pod moves at most the resource that its labels belong to. In the end those are matched that the Secret
concerns, so these get a request, one each and in the order of the list (`mapHealthSecretRequests_eq`).
-/

namespace CoherenceOperator

/-- The connection in the annotation of the Pod names the Secret. -/
def Pod.carries (op : Operator) (secret : String) (pod : Pod) : Bool :=
  (pod.annotations.lookup HealthMutatorAnnotation).any fun text => (op.parseConnection text).any (·.references secret)

/-- The Pod has the labels of the selector for the Pods of the resource. -/
def Pod.isSelected (pod : Pod) (resource : Coherence) : Bool :=
  matchesLabels pod.labels resource.toResource.createPodSelectorLabels

/-- The Secret is named by the spec of the resource, or by the annotation of one of its Pods. -/
def Concerns (op : Operator) (pods : List Pod) (secret : NamespacedName) (resource : Coherence) : Bool :=
  resource.spec.healthMutatorConnection.any (·.references secret.name) ||
    pods.any fun pod => pod.ns = secret.ns && pod.isSelected resource && pod.carries op secret.name

/-- The request for a resource. -/
def Coherence.request (resource : Coherence) : NamespacedName := ⟨resource.metadata.ns, resource.metadata.name⟩

theorem matchesLabels_iff {actual required : Labels} :
    matchesLabels actual required = true ↔ ∀ k v, required.lookup k = some v → (actual.lookup k).getD "" = v := by
  rw [matchesLabels, decide_eq_true_iff]
  constructor
  · intro h k v hv
    have hk := h k (by rw [Finmap.mem_keys, ← Finmap.lookup_isSome, hv]; rfl)
    rwa [hv, Option.getD_some] at hk
  · intro h k hk
    rw [Finmap.mem_keys, ← Finmap.lookup_isSome] at hk
    obtain ⟨v, hv⟩ := Option.isSome_iff_exists.1 hk
    rw [h k v hv, hv, Option.getD_some]

/-- A selector without empty values is matched as Kubernetes matches it. -/
theorem matchesLabels_iff_matches {actual required : Labels} (h : ∀ k, required.lookup k ≠ some "") :
    matchesLabels actual required = true ↔ required.Matches actual := by
  rw [matchesLabels_iff]
  refine forall_congr' fun k => forall_congr' fun v => imp_congr_right fun hv => ?_
  cases actual.lookup k with
  | none =>
    refine iff_of_false (fun hempty => h k ?_) (by simp)
    rw [hv, ← hempty]
    rfl
  | some w => simp

/-- The Pods of a resource have its name in their labels, and are found by the label of a member. -/
theorem labels_of_isSelected {pod : Pod} {resource : Coherence} (h : pod.isSelected resource = true) :
    (pod.labels.lookup "coherenceDeployment").getD "" = resource.metadata.name ∧
      pod.labels.lookup "coherenceComponent" = some "coherencePod" := by
  have hall := matchesLabels_iff.1 h
  have hname := hall "coherenceDeployment" resource.metadata.name (by
    rw [CoherenceResource.lookup_createPodSelectorLabels, if_neg (by decide), CoherenceResource.lookup_createCommonLabels]
    rfl)
  have hcomponent := hall "coherenceComponent" "coherencePod" (by
    rw [CoherenceResource.lookup_createPodSelectorLabels, if_pos rfl])
  refine ⟨hname, ?_⟩
  cases hlookup : pod.labels.lookup "coherenceComponent" with
  | none =>
    rw [hlookup] at hcomponent
    exact absurd hcomponent (by decide)
  | some v =>
    rw [hlookup, Option.getD_some] at hcomponent
    rw [hcomponent]

namespace SortedResources

variable {op : Operator} {secret : String} {st : SortedResources} {resources : List Coherence} {p q : Coherence → Prop}
  {resource : Coherence} {pod : Pod} {pods : List Pod} {name : String}

/-- The names of the resources with the property are matched, and the other resources are not. -/
structure SortedBy (st : SortedResources) (resources : List Coherence) (p : Coherence → Prop) : Prop where
  matched : ∀ name, st.matched.lookup name = some true ↔ ∃ r ∈ resources, r.metadata.name = name ∧ p r
  unmatched : ∀ name r, st.unmatched.lookup name = some r ↔ r ∈ resources ∧ r.metadata.name = name ∧ ¬ p r

theorem SortedBy.congr (h : st.SortedBy resources p) (hpq : ∀ r ∈ resources, p r ↔ q r) : st.SortedBy resources q where
  matched name := by
    rw [h.matched]
    exact exists_congr fun r => and_congr_right fun hr => and_congr_right fun _ => hpq r hr
  unmatched name r := by
    rw [h.unmatched]
    exact and_congr_right fun hr => and_congr_right fun _ => not_congr (hpq r hr)

theorem sortedBy_empty : SortedBy {} [] p where
  matched name := by simp
  unmatched name r := by simp

/-- A resource with a name of its own settles its name. -/
theorem SortedBy.sortResource (h : st.SortedBy resources fun r => r.spec.healthMutatorConnection.any (·.references secret) = true)
    (hnew : ∀ r ∈ resources, r.metadata.name ≠ resource.metadata.name) :
    (sortResource secret st resource).SortedBy (resources ++ [resource])
      fun r => r.spec.healthMutatorConnection.any (·.references secret) = true := by
  have hmem : ∀ r, r ∈ resources ++ [resource] ↔ r ∈ resources ∨ r = resource := by simp
  rw [SortedResources.sortResource]
  by_cases href : resource.spec.healthMutatorConnection.any (·.references secret) = true
  · rw [if_pos href]
    constructor
    · intro name
      simp only [hmem, or_and_right, exists_or, exists_eq_left, ← h.matched]
      by_cases hname : name = resource.metadata.name
      · subst hname
        simp [Finmap.lookup_insert, href]
      · rw [Finmap.lookup_insert_of_ne _ hname]
        simp [Ne.symm hname]
    · intro name r
      rw [h.unmatched, hmem]
      constructor
      · rintro ⟨hr, hname, hno⟩
        exact ⟨.inl hr, hname, hno⟩
      · rintro ⟨hr | rfl, hname, hno⟩
        · exact ⟨hr, hname, hno⟩
        · exact absurd href hno
  · rw [if_neg href]
    constructor
    · intro name
      simp only [h.matched, hmem, or_and_right, exists_or, exists_eq_left]
      exact (or_iff_left fun hboth => href hboth.2).symm
    · intro name r
      rw [hmem]
      by_cases hname : name = resource.metadata.name
      · subst hname
        rw [Finmap.lookup_insert, Option.some.injEq]
        constructor
        · rintro rfl
          exact ⟨.inr rfl, rfl, href⟩
        · rintro ⟨hr | rfl, hname, -⟩
          · exact absurd hname (hnew r hr)
          · rfl
      · rw [Finmap.lookup_insert_of_ne _ hname, h.unmatched]
        constructor
        · rintro ⟨hr, hrest⟩
          exact ⟨.inl hr, hrest⟩
        · rintro ⟨hr | rfl, hrest⟩
          · exact ⟨hr, hrest⟩
          · exact absurd hrest.1.symm hname

/-- No connection is read from nothing. -/
theorem carries_eq (hempty : op.parseConnection "" = none) (pod : Pod) :
    (op.parseConnection ((pod.annotations.lookup HealthMutatorAnnotation).getD "")).any (·.references secret) =
      pod.carries op secret := by
  rw [Pod.carries]
  cases pod.annotations.lookup HealthMutatorAnnotation with
  | none => rw [Option.getD_none, hempty]; rfl
  | some text => rfl

/-- The Pod is one of the resource, and carries a connection that names the Secret. -/
def Speaks (op : Operator) (secret : String) (pod : Pod) (r : Coherence) : Prop :=
  pod.isSelected r = true ∧ pod.carries op secret = true

/-- A resource that a Pod speaks for, and that is not matched yet, is the one that is looked up. -/
theorem SortedBy.lookup_of_speaks (h : st.SortedBy resources p) (hmem : resource ∈ resources) (hspeaks : Speaks op secret pod resource)
    (hno : ¬ p resource) : st.unmatched.lookup ((pod.labels.lookup "coherenceDeployment").getD "") = some resource := by
  rw [(labels_of_isSelected hspeaks.1).1]
  exact (h.unmatched _ resource).2 ⟨hmem, rfl, hno⟩

/-- A Pod that speaks for no resource that is not matched moves none. -/
theorem SortedBy.of_no_speaker (h : st.SortedBy resources p) (hno : ∀ r ∈ resources, Speaks op secret pod r → p r) :
    st.SortedBy resources fun r => p r ∨ Speaks op secret pod r :=
  h.congr fun r hr => ⟨.inl, fun hor => hor.elim id (hno r hr)⟩

/-- A resource that the Pod speaks for is moved. -/
theorem SortedBy.move (h : st.SortedBy resources p) (hmem : resource ∈ resources) (hspeaks : Speaks op secret pod resource)
    (hno : ¬ p resource) :
    SortedBy { matched := st.matched.insert resource.metadata.name true, unmatched := st.unmatched.erase resource.metadata.name }
      resources fun r => p r ∨ Speaks op secret pod r := by
  have hlookup := h.lookup_of_speaks hmem hspeaks hno
  -- the Pod says nothing about resources of other names
  have hother : ∀ r ∈ resources, r.metadata.name ≠ resource.metadata.name → (p r ↔ p r ∨ Speaks op secret pod r) := by
    refine fun r hr hne => ⟨.inl, fun hor => hor.elim id fun hr' => ?_⟩
    by_contra hnop
    have hsome := h.lookup_of_speaks hr hr' hnop
    rw [hlookup, Option.some.injEq] at hsome
    exact hne (congrArg (·.metadata.name) hsome.symm)
  constructor
  · intro name
    by_cases heq : name = resource.metadata.name
    · subst heq
      rw [Finmap.lookup_insert]
      exact iff_of_true rfl ⟨resource, hmem, rfl, .inr hspeaks⟩
    · rw [Finmap.lookup_insert_of_ne _ heq, h.matched]
      exact exists_congr fun r => and_congr_right fun hr => and_congr_right fun hrname => hother r hr (hrname ▸ heq)
  · intro name r
    by_cases heq : name = resource.metadata.name
    · subst heq
      rw [Finmap.lookup_erase]
      refine iff_of_false (by simp) ?_
      rintro ⟨hr, hrname, hnot⟩
      have hsome := (h.unmatched resource.metadata.name r).2 ⟨hr, hrname, fun hp => hnot (.inl hp)⟩
      rw [(h.unmatched _ resource).2 ⟨hmem, rfl, hno⟩, Option.some.injEq] at hsome
      exact hnot (.inr (hsome ▸ hspeaks))
    · rw [Finmap.lookup_erase_ne heq, h.unmatched]
      exact and_congr_right fun hr => and_congr_right fun hrname => not_congr (hother r hr (hrname ▸ heq))

/-- A Pod moves the resource that it speaks for. -/
theorem SortedBy.sortPod (h : st.SortedBy resources p) (hempty : op.parseConnection "" = none) (pod : Pod) :
    (sortPod op secret st pod).SortedBy resources fun r => p r ∨ Speaks op secret pod r := by
  rw [SortedResources.sortPod]
  split
  · rename_i hnone
    refine h.of_no_speaker fun r hr hspeaks => ?_
    by_contra hno
    have hsome := h.lookup_of_speaks hr hspeaks hno
    rw [hnone] at hsome
    cases hsome
  · rename_i resource hresource
    obtain ⟨hmem, -, hno⟩ := (h.unmatched _ resource).1 hresource
    have hkeep : ¬ Speaks op secret pod resource → st.SortedBy resources fun r => p r ∨ Speaks op secret pod r := by
      refine fun hnot => h.of_no_speaker fun r hr hspeaks => ?_
      by_contra hnop
      have hsome := h.lookup_of_speaks hr hspeaks hnop
      rw [hresource, Option.some.injEq] at hsome
      exact hnot (hsome ▸ hspeaks)
    rw [carries_eq hempty pod]
    split
    · rename_i hselected
      split
      · rename_i hcarries
        exact h.move hmem ⟨hselected, hcarries⟩ hno
      · rename_i hcarries
        exact hkeep fun hspeaks => hcarries hspeaks.2
    · rename_i hselected
      exact hkeep fun hspeaks => hselected hspeaks.1

/-! ### The two passes -/

theorem sortedBy_foldl_sortResource (hnames : (resources.map (·.metadata.name)).Nodup) :
    (resources.foldl (sortResource secret) {}).SortedBy resources
      fun r => r.spec.healthMutatorConnection.any (·.references secret) = true := by
  induction resources using List.reverseRecOn with
  | nil => exact sortedBy_empty
  | append_singleton resources resource ih =>
    rw [List.map_append, List.nodup_append] at hnames
    rw [List.foldl_append]
    refine (ih hnames.1).sortResource fun r hr => ?_
    exact hnames.2.2 _ (List.mem_map_of_mem hr) _ (by simp)

theorem SortedBy.foldl_sortPod (h : st.SortedBy resources p) (hempty : op.parseConnection "" = none) (pods : List Pod) :
    (pods.foldl (SortedResources.sortPod op secret) st).SortedBy resources fun r => p r ∨ ∃ pod ∈ pods, Speaks op secret pod r := by
  induction pods generalizing st p with
  | nil => exact h.congr fun r _ => by simp
  | cons pod pods ih =>
    refine (ih (h.sortPod hempty pod)).congr fun r _ => ?_
    simp [or_assoc]

/-- Without resources that are not matched the Pods move nothing. -/
theorem foldl_sortPod_of_empty (h : st.unmatched.keys.card = 0) (pods : List Pod) : pods.foldl (sortPod op secret) st = st := by
  have hnone : ∀ name, st.unmatched.lookup name = none := by
    intro name
    rw [Finmap.lookup_eq_none, ← Finmap.mem_keys, Finset.card_eq_zero.1 h]
    exact Finset.notMem_empty name
  induction pods with
  | nil => rfl
  | cons pod pods ih =>
    have hpod : sortPod op secret st pod = st := by rw [sortPod, hnone]
    rw [List.foldl_cons, hpod, ih]

/-- The name of a resource is matched if the resource has the property. -/
theorem SortedBy.matched_iff (h : st.SortedBy resources p) (hnames : (resources.map (·.metadata.name)).Nodup) (hmem : resource ∈ resources) :
    (st.matched.lookup resource.metadata.name).getD false = true ↔ p resource := by
  have hlookup : (st.matched.lookup resource.metadata.name).getD false = true ↔
      st.matched.lookup resource.metadata.name = some true := by
    cases st.matched.lookup resource.metadata.name with
    | none => simp
    | some b => simp
  rw [hlookup, h.matched]
  constructor
  · rintro ⟨r, hr, hname, hp⟩
    rwa [← List.inj_on_of_nodup_map hnames hr hmem hname]
  · exact fun hp => ⟨resource, hmem, rfl, hp⟩

end SortedResources

open SortedResources

/-- The Pods that speak for a resource are among those that are listed. -/
theorem concerns_iff (op : Operator) (pods : List Pod) (secret : NamespacedName) (r : Coherence) :
    Concerns op pods secret r = true ↔ r.spec.healthMutatorConnection.any (·.references secret.name) = true ∨
      ∃ pod ∈ pods.filter (fun pod => pod.ns = secret.ns ∧ pod.labels.lookup "coherenceComponent" = some "coherencePod"),
        Speaks op secret.name pod r := by
  rw [Concerns, Bool.or_eq_true, List.any_eq_true]
  refine or_congr_right (exists_congr fun pod => ?_)
  rw [List.mem_filter, decide_eq_true_iff, Bool.and_eq_true, Bool.and_eq_true, decide_eq_true_iff, Speaks]
  constructor
  · rintro ⟨hmem, ⟨hns, hselected⟩, hcarries⟩
    exact ⟨⟨hmem, hns, (labels_of_isSelected hselected).2⟩, hselected, hcarries⟩
  · rintro ⟨⟨hmem, hns, -⟩, hselected, hcarries⟩
    exact ⟨hmem, ⟨hns, hselected⟩, hcarries⟩

/-- A resource whose spec names no Secret, and the Pod that still runs with a connection that names one. -/
def earlierPod : Pod where
  name := "storage-0"
  ns := "test"
  labels := (Coherence.toResource { metadata := { ns := "test", name := "storage" } }).createPodSelectorLabels
  annotations := Labels.set ∅ HealthMutatorAnnotation "connection"

/-- An operator that reads the connection of the Pod. -/
def secretReader : Operator :=
  { (default : Operator) with
    parseConnection := fun s =>
      if s = "connection" then
        some { basicAuth := some { username := { name := "health-secret" }, password := { name := "health-secret" } } }
      else none }

end CoherenceOperator
