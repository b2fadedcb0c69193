import CoherenceOperator.Footprint.Scaling
import CoherenceOperator.Properties.Generations
import CoherenceOperator.Properties.Refusals
import CoherenceOperator.Properties.ResourceKeys
import CoherenceOperator.Properties.StartOrder

/-!
# A resource that has settled is left alone

Every reconcile of a Coherence resource stores its resources anew and goes through all of its objects. Where each of them is there under
the hash of the generation, and the StatefulSet has the number of members that is asked for, none of this comes to anything: whatever
requests fail, and however often the resource is reconciled, its objects are as they were for as long as the resource is at that
generation (`always_leftAlone`). So members are not restarted without an edit of the spec.
-/

namespace CoherenceOperator

open Effect Prog Storage

/-! ### Objects in their places -/

/-- The object is there under the hash, and is not being deleted. -/
def World.HasPlaced (w : World) (kind : ResourceType) (key : NamespacedName) (h : String) : Prop :=
  ∃ o ∈ w.find kind key, o.metadata.deletionTimestamp = none ∧ o.metadata.labels.lookup LabelCoherenceHash = some h

instance {w : World} {kind : ResourceType} {key : NamespacedName} {h : String} : Decidable (w.HasPlaced kind key h) :=
  inferInstanceAs (Decidable (∃ o ∈ w.find kind key, _))

/-- No object but Jobs and secrets is another one in the second state. -/
def World.LeavesAlone (w u : World) : Prop :=
  ∀ kind key, kind ≠ .secret → kind ≠ .job → u.find kind key = w.find kind key

section Reconcilers

variable {op : Operator} {env : Env} {request key : NamespacedName} {d : Deployment} {r : CoherenceResource} {st : Storage} {w u : World}
  {kind : ResourceType} {h : String} {rs : List Resource}

/-- Only Jobs and secrets come and go by such acts. -/
theorem Act.StartsNone.find_eq {a : Act} (ha : a.StartsNone) (hsecret : kind ≠ .secret) (hjob : kind ≠ .job) :
    (Acts.act a w).find kind key = w.find kind key := by
  rw [World.find_of_ne_secret _ hsecret, World.find_of_ne_secret _ hsecret]
  obtain ha | ⟨o, rfl, ho⟩ := ha
  · rw [ha.objects]
  · refine Table.get_put_of_ne fun he => hjob ?_
    rw [(Prod.mk.inj he).1]
    exact ho

theorem find_of_startsNone (p : Path Act.StartsNone w u) (hsecret : kind ≠ .secret) (hjob : kind ≠ .job) (key : NamespacedName) :
    u.find kind key = w.find kind key :=
  p.unchanged (f := fun v : World => v.find kind key) fun _ _ ha => ha.find_eq hsecret hjob

theorem World.HasPlaced.of_startsNone (hw : w.HasPlaced kind key h) (p : Path Act.StartsNone w u) (hsecret : kind ≠ .secret)
    (hjob : kind ≠ .job) : u.HasPlaced kind key h := by
  rw [World.HasPlaced, find_of_startsNone p hsecret hjob]
  exact hw

theorem startsNone_sent (c : ApiCall) (hc : c.verb ≠ .delete) : Path Act.StartsNone w (w.sent c) :=
  .single ⟨.call c, .inl (by simpa [Act.IsNote] using hc), rfl⟩

namespace Secondary

/-- **One object** that is in its place is left as it is. -/
theorem startsNone_reconcileResource {x : Resource} (hnil : d.isNil = false) (hsecret : kind ≠ .secret) (hpresent : x.isDelete = false)
    (hst : st.hash = some h) (hplaced : w.HasPlaced kind ⟨request.ns, x.name⟩ h) :
    Wp (reconcileResource op env kind request d st x) (fun _ u => Path Act.StartsNone w u) w := by
  obtain ⟨o, hfind, hlive, hlabel⟩ := hplaced
  set key : NamespacedName := ⟨request.ns, x.name⟩ with hkey
  have hsent : Path Act.StartsNone w (w.sent ⟨.get, kind, key⟩) := startsNone_sent _ (by simp)
  have hfind' : (w.sent ⟨.get, kind, key⟩).find kind key = some o := hfind
  have hmatch : hashLabelsMatch o.metadata st = true := by
    rw [hashLabelsMatch, hlabel, hst]
    exact beq_self_eq_true _
  have hstore : exec (isStoreOf kind key.name d) (w.sent ⟨.get, kind, key⟩) = (.ok false, w.sent ⟨.get, kind, key⟩) := by
    have hnot : (!d.isNil && kind == .secret) = false := by simp [hsecret]
    rw [isStoreOf, hnot]
    rfl
  have hsettle : settle op env kind key (some o) d (some st) = return () := by
    have hthere : live (some o) = some o := by simp [live, Option.filter, hlive]
    unfold settle
    rw [hnil]
    simp only [hthere, update, if_pos hmatch]
  rw [reconcileResource, hpresent]
  simp only [Bool.false_eq_true, if_false]
  refine wp_read_bind (fun _ => hsent) ?_
  rw [hfind']
  refine Wp.bind_ok (exec_ownerOf hnil _) (Wp.bind_ok hstore ?_)
  simp only [Bool.false_eq_true, if_false]
  refine Wp.bind_ok (exec_pure _ _) ?_
  rw [hsettle]
  exact hsent

/-- **All objects of a kind** that are in their places are left as they are. -/
theorem keeps_startsNone (hnil : d.isNil = false) (hsecret : kind ≠ .secret) (hjob : kind ≠ .job) (hst : st.hash = some h)
    (hdeletions : ∀ x ∈ st.getDeletions, x.kind ≠ kind)
    (hplaced : ∀ x ∈ st.latest.getResourcesOfKind kind, x.isDelete = false ∧ w.HasPlaced kind ⟨request.ns, x.name⟩ h) :
    Keeps (fun u => Path Act.StartsNone w u) (reconcileAllResourceOfKind op env kind request d st) := by
  have hnone : st.getDeletions.filter (fun x => x.kind == kind) = [] := List.filter_eq_nil_iff.2 fun x hx => by simpa using hdeletions x hx
  rw [reconcileAllResourceOfKind, hnone]
  refine Keeps.bind (Keeps.pure _) fun _ => Keeps.bind (Keeps.forM fun x hx u p => ?_) fun _ => Keeps.pure _
  obtain ⟨hpresent, hx⟩ := hplaced x hx
  exact p.trans (startsNone_reconcileResource hnil hsecret hpresent hst (hx.of_startsNone p hsecret hjob))

end Secondary

namespace ServiceMonitor

/-- **One ServiceMonitor** that is in its place is left as it is. -/
theorem startsNone_reconcileResource {x : Resource} (hnil : d.isNil = false) (hzero : d.isNilOrZero = .ok false)
    (hpresent : x.isDelete = false) (hst : st.hash = some h) (hplaced : w.HasPlaced .serviceMonitor ⟨request.ns, x.name⟩ h) :
    Wp (reconcileResource op env request d st x) (fun _ u => Path Act.StartsNone w u) w := by
  obtain ⟨o, hfind, hlive, hlabel⟩ := hplaced
  set key : NamespacedName := ⟨request.ns, x.name⟩ with hkey
  have hsent : Path Act.StartsNone w (w.sent ⟨.get, .serviceMonitor, key⟩) := startsNone_sent _ (by simp)
  have hfind' : (w.sent ⟨.get, .serviceMonitor, key⟩).find .serviceMonitor key = some o := hfind
  have hmatch : hashLabelsMatch o.metadata st = true := by
    rw [hashLabelsMatch, hlabel, hst]
    exact beq_self_eq_true _
  rw [reconcileResource, hpresent]
  simp only [Bool.false_eq_true, if_false]
  unfold reconcileSingleResource
  split
  · exact .refl
  refine wp_read_bind (fun _ => hsent) ?_
  rw [hfind']
  refine Wp.bind_ok (exec_ownerOf hnil _) ?_
  have hzero' : exec (outcome d.isNilOrZero : Op Bool) (w.sent ⟨.get, .serviceMonitor, key⟩) =
      (.ok false, w.sent ⟨.get, .serviceMonitor, key⟩) := by
    rw [exec_outcome, hzero]
  refine Wp.bind_ok hzero' ?_
  have hthere : Secondary.live (some o) = some o := by simp [Secondary.live, Option.filter, hlive]
  simp only [Bool.false_eq_true, if_false, hthere, updateServiceMonitor, if_pos hmatch]
  exact hsent

/-- **All ServiceMonitors** that are in their places are left as they are. -/
theorem keeps_startsNone (hnil : d.isNil = false) (hst : st.hash = some h)
    (hzero : st.latest.getResourcesOfKind .serviceMonitor ≠ [] → d.isNilOrZero = .ok false)
    (hplaced : ∀ x ∈ st.latest.getResourcesOfKind .serviceMonitor,
      x.isDelete = false ∧ w.HasPlaced .serviceMonitor ⟨request.ns, x.name⟩ h) :
    Keeps (fun u => Path Act.StartsNone w u) (reconcileAllResourceOfKind op env request d st) := by
  refine Keeps.bind (Keeps.forM fun x hx u p => ?_) fun _ => Keeps.pure _
  obtain ⟨hpresent, hplaced⟩ := hplaced x hx
  have hzero : d.isNilOrZero = .ok false := hzero (List.ne_nil_of_mem hx)
  exact p.trans (startsNone_reconcileResource hnil hzero hpresent hst (hplaced.of_startsNone p (by decide) (by decide)))

end ServiceMonitor

namespace StatefulSetReconciler

/-- A StatefulSet of the size that is asked for, with the hash, is left as it is. -/
theorem startsNone_updateStatefulSet {current : StatefulSet} (hst : st.hash = some h)
    (hlabel : current.metadata.labels.lookup LabelCoherenceHash = some h)
    (hsize : ∀ n, desiredReplicas st current.metadata.name = some n → n = current.getReplicas) :
    Does Act.StartsNone (updateStatefulSet op env d current st) := by
  have hmatch : hashLabelsMatch current.metadata st = true := by
    rw [hashLabelsMatch, hlabel, hst]
    exact beq_self_eq_true _
  unfold updateStatefulSet
  split
  · exact Does.pure _
  · rename_i x hx
    split
    · exact Does.pure _
    · rename_i o ho
      split
      · exact Does.throw _
      · rename_i desired hdesired
        have hsame : desired.getReplicas = current.getReplicas := hsize _ (by simp [desiredReplicas, hx, ho, hdesired])
        rw [if_neg (by simp [hsame]), maybePatchStatefulSet, if_pos hmatch]
        exact does_maybeRollingUpgrade

/-- **The StatefulSet** is left as it is if it is in its place. -/
theorem keeps_startsNone {zero : Bool} (hnil : d.isNil = false) (hzero : d.isNilOrZero = .ok zero) (hst : st.hash = some h)
    (hnone : zero = true → w.statefulSet request = none)
    (hthere : zero = false → ∃ s ∈ w.statefulSet request, s.metadata.labels.lookup LabelCoherenceHash = some h ∧
      ∀ n, desiredReplicas st request.name = some n → n = s.getReplicas) :
    Keeps (fun u => Path Act.StartsNone w u) (reconcileAllResourceOfKind op env request d st) := by
  intro u p
  have hsame : u.statefulSet request = w.statefulSet request := by
    have hfind := find_of_startsNone p (show ResourceType.statefulSet ≠ .secret by decide) (by decide) request
    rw [World.find_of_ne_secret _ (by decide), World.find_of_ne_secret _ (by decide)] at hfind
    rw [World.statefulSet, World.statefulSet, hfind]
  have hall : Wp (reconcileAllResourceOfKind op env request d st) (fun _ v => Path Act.StartsNone u v) u := by
    unfold reconcileAllResourceOfKind
    split
    · exact .refl
    have hsent : Path Act.StartsNone u (u.sent ⟨.get, .statefulSet, request⟩) := startsNone_sent _ (by simp)
    refine wp_read_bind (fun _ => hsent) ?_
    have hstill : (u.sent ⟨.get, .statefulSet, request⟩).statefulSet request = w.statefulSet request := hsame
    rw [hstill]
    split
    · exact hsent
    refine Wp.bind_ok (exec_ownerOf hnil _) ?_
    have hrest : Does Act.StartsNone (settle op env request d (w.statefulSet request) st) := by
      unfold settle
      rw [hzero]
      refine Does.bind_of (Does.outcome _) (Returns.outcome (P := fun b => b = zero) fun _ hb => (Except.ok.inj hb).symm) fun b hb => ?_
      rw [hb]
      cases zero with
      | true =>
        rw [hnone rfl]
        have hreport : Does Act.IsRemark (do
            let _ ← updateDeploymentStatus op env request
            return ({} : Result)) := Does.bind note_updateDeploymentStatus fun _ => Does.pure _
        exact startsNone_of_remark hreport
      | false =>
        obtain ⟨s, hs, hlabel, hsize⟩ := hthere rfl
        have hkey : s.key = request := (Prod.mk.inj (w.objects.filed _ _ (World.statefulSet_eq_some.1 hs))).2
        rw [hs]
        have hname : s.metadata.name = request.name := congrArg NamespacedName.name hkey
        exact Does.bind (startsNone_updateStatefulSet hst hlabel (hname ▸ hsize)) fun _ => startsNone_finish
    exact hsent.trans (hrest _)
  exact p.trans hall

end StatefulSetReconciler

end Reconcilers

/-! ### One reconcile -/

section Reconcile

variable {op : Operator} {env : Env} {request : NamespacedName} {c c' : Coherence} {st : Storage} {w u v : World} {h hash : String}
  {res : Resources}

/-- All objects of the resource are there under the hash of its generation, and of the StatefulSet there is the number of members that is asked
for. What is stored has no object besides. -/
structure World.IsSettled (op : Operator) (request : NamespacedName) (w : World) (c : Coherence) : Prop where
  kept : ∀ r ∈ (stored request w).latest.items, ((c.createKubernetesResources op).getResource r.kind r.name).isSome
  placed : ∀ r ∈ (c.createKubernetesResources op).items, r.kind ≠ .statefulSet →
    w.HasPlaced r.kind ⟨request.ns, r.name⟩ (toString c.generation)
  stopped : c.spec.getReplicas = 0 → w.statefulSet request = none
  sized : c.spec.getReplicas ≠ 0 → ∃ s ∈ w.statefulSet request,
    s.metadata.labels.lookup LabelCoherenceHash = some (toString c.generation) ∧ s.getReplicas = c.spec.getReplicas

instance : Decidable (w.IsSettled op request c) :=
  decidable_of_iff (_ ∧ _ ∧ _ ∧ _) ⟨fun h => ⟨h.1, h.2.1, h.2.2.1, h.2.2.2⟩, fun h => ⟨h.kept, h.placed, h.stopped, h.sized⟩⟩

namespace Coherence

/-- The resources of a generation have their keys from the spec. -/
theorem SameGeneration.keys (hs : c.SameGeneration c') :
    (c'.createKubernetesResources op).items.map (fun r => (r.kind, r.name)) =
      (c.createKubernetesResources op).items.map fun r => (r.kind, r.name) := by
  have hname : c'.toResource.name = c.toResource.name := congrArg NamespacedName.name hs.key
  have hspec : c'.toResource.spec = c.toResource.spec := congrArg CoherenceStatefulSetResourceSpec.toCoherenceResourceSpec hs.spec
  have hheadless : c'.toResource.headlessServiceName = c.toResource.headlessServiceName := by
    rw [CoherenceResource.headlessServiceName, hname]
    rfl
  have hwka : c'.toResource.wkaServiceName = c.toResource.wkaServiceName := by
    rw [CoherenceResource.wkaServiceName, hname]
    rfl
  have hport : ∀ p : NamedPortSpec, p.keys c'.toResource = p.keys c.toResource := by
    intro p
    have hservice : p.serviceName c'.toResource = p.serviceName c.toResource := by
      rw [NamedPortSpec.serviceName, hname]
      rfl
    rw [NamedPortSpec.keys, hservice]
    rfl
  rw [keys_createKubernetesResources, keys_createKubernetesResources, hspec, hheadless, hwka, hname, hs.spec]
  simp only [hport]

/-- The StatefulSet among them. -/
theorem statefulSet_createKubernetesResources (op : Operator) (c : Coherence) :
    (c.createKubernetesResources op).statefulSet c.metadata.name = some (c.createStatefulSet op) := by
  have hshared : ∀ r ∈ c.toResource.createKubernetesResources op, ¬ r.named .statefulSet c.metadata.name := by
    intro r hr hnamed
    obtain ⟨hkind, -⟩ := Resource.named_iff.1 hnamed
    have hkeys := keys_createKubernetesResources op c
    rw [createKubernetesResources, List.map_append] at hkeys
    obtain ⟨hkeys, -⟩ := List.append_inj' hkeys rfl
    have hmem : (r.kind, r.name) ∈ (c.toResource.createKubernetesResources op).map fun r => (r.kind, r.name) := List.mem_map_of_mem hr
    rw [hkeys, hkind] at hmem
    split at hmem
    · cases hmem
    · rcases List.mem_append.1 hmem with hmem | hmem
      · split at hmem
        · cases List.mem_singleton.1 hmem
        · cases hmem
      · exact statefulSet_notMem_flatMap_keys hmem
  have hset : (c.createStatefulSet op).toObject.toResource.named .statefulSet c.metadata.name := Resource.named_iff.2 ⟨rfl, rfl⟩
  have hget : (c.createKubernetesResources op).getResource .statefulSet c.metadata.name = some (c.createStatefulSet op).toObject.toResource := by
    rw [Resources.getResource, createKubernetesResources, List.find?_append, List.find?_eq_none.2 hshared, Option.none_or]
    rw [List.find?_cons_of_neg, List.find?_cons_of_pos hset]
    intro hnamed
    have hkind : ResourceType.service = .statefulSet := (Resource.named_iff.1 hnamed).1
    cases hkind
  rw [Resources.statefulSet, hget]
  rfl

/-- There is no ServiceMonitor without members. -/
theorem replicas_of_monitor {name : String} (hm : ((c.createKubernetesResources op).getResource .serviceMonitor name).isSome) :
    c.spec.getReplicas ≠ 0 := by
  intro hzero
  obtain ⟨r, hr, hkind, -⟩ := Resources.getResource_isSome.1 hm
  have hkey : (r.kind, r.name) ∈ (c.createKubernetesResources op).items.map fun r => (r.kind, r.name) := List.mem_map_of_mem hr
  have hnone : c.toResource.spec.getReplicas ≤ 0 := hzero.le
  rw [keys_createKubernetesResources, if_pos hnone, hkind] at hkey
  simp at hkey

/-- Neither secrets nor Jobs are generated. -/
theorem kind_of_mem {r : Resource} (hr : r ∈ (c.createKubernetesResources op).items) : r.kind ≠ .secret ∧ r.kind ≠ .job := by
  obtain hk | hk | ⟨hk, -⟩ := (c.isGenerated_createKubernetesResources r hr).kind
  · exact hk ▸ ⟨by decide, by decide⟩
  · exact hk ▸ ⟨by decide, by decide⟩
  · have hset : c.toResource.owner.workload = .statefulSet := rfl
    exact hk ▸ hset ▸ ⟨by decide, by decide⟩

end Coherence

/-- Resources of the same keys have a resource of each of them. -/
theorem Resources.getResource_isSome_congr {res' : Resources} {kind : ResourceType} {name : String}
    (hkeys : (res.items.map fun r => (r.kind, r.name)) = res'.items.map fun r => (r.kind, r.name)) :
    (res.getResource kind name).isSome ↔ (res'.getResource kind name).isSome := by
  have hmem : ∀ rs : Resources, (rs.getResource kind name).isSome ↔ (kind, name) ∈ rs.items.map fun r => (r.kind, r.name) := by
    intro rs
    simp only [Resources.getResource_isSome, List.mem_map, Prod.mk.injEq]
  rw [hmem, hmem, hkeys]

/-- What is of a generation has the keys of what is generated. -/
theorem IsOf.getResource_isSome {kind : ResourceType} {name : String} (ho : IsOf op c h res) :
    (res.getResource kind name).isSome ↔ ((c.createKubernetesResources op).getResource kind name).isSome := by
  obtain ⟨c₀, hsame, hitems⟩ := ho
  refine Resources.getResource_isSome_congr ?_
  rw [hitems, ← hsame.keys, Resources.prepared, List.map_map]
  rfl

/-- The size of the StatefulSet is the one of the spec. -/
theorem IsOf.size (ho : IsOf op c h res) : (res.statefulSet c.metadata.name).map StatefulSet.getReplicas = some c.spec.getReplicas := by
  obtain ⟨c₀, hsame, hitems⟩ := ho
  have hres : res.statefulSet c.metadata.name =
      ((c₀.createKubernetesResources op).prepared c.toResource.owner op.version h).statefulSet c.metadata.name := by
    rw [Resources.statefulSet, Resources.getResource, hitems]
    rfl
  have hname : c.metadata.name = c₀.metadata.name := (congrArg NamespacedName.name hsame.key).symm
  rw [hres, Resources.statefulSet_prepared, hname, Coherence.statefulSet_createKubernetesResources, ← hsame.spec]
  rfl

namespace CoherenceReconciler

/-- **The secondary reconcilers** leave the objects alone that are in their places. -/
theorem startsNone_reconcileStored (hst : st.hash = some h) (hdeletions : ∀ r ∈ st.getDeletions, r.kind = .statefulSet)
    (hgen : st.IsGenerated request)
    (hplaced : ∀ r ∈ st.latest.items, r.kind ≠ .statefulSet → w.HasPlaced r.kind ⟨request.ns, r.name⟩ h)
    (hmonitors : st.latest.getResourcesOfKind .serviceMonitor ≠ [] → c.getReplicas ≠ 0)
    (hstopped : c.getReplicas = 0 → w.statefulSet request = none)
    (hsized : c.getReplicas ≠ 0 → ∃ s ∈ w.statefulSet request, s.metadata.labels.lookup LabelCoherenceHash = some h ∧
      ∀ n, StatefulSetReconciler.desiredReplicas st request.name = some n → n = s.getReplicas) :
    Path Act.StartsNone w (exec (reconcileStored op env request c hash st) w).2 := by
  have hnil : (Deployment.coherence (some c)).isNil = false := rfl
  have hzero : (Deployment.coherence (some c)).isNilOrZero = .ok (decide (c.getReplicas = 0)) := by
    rw [Deployment.isNilOrZero, Deployment.getReplicas, Except.map, beq_eq_decide]
    exact fun he => by cases he
  have hof : ∀ kind, kind ≠ .statefulSet → ∀ r ∈ st.latest.getResourcesOfKind kind,
      r.isDelete = false ∧ w.HasPlaced kind ⟨request.ns, r.name⟩ h := by
    intro kind hk r hr
    obtain ⟨hmem, hkind⟩ := Resources.mem_getResourcesOfKind.1 hr
    refine ⟨(hgen.latest r hmem).isDelete, ?_⟩
    rw [← hkind]
    exact hplaced r hmem (hkind ▸ hk)
  have hnone : ∀ {kind : ResourceType}, kind ≠ .statefulSet → ∀ x ∈ st.getDeletions, x.kind ≠ kind :=
    fun hk x hx he => hk (he.symm.trans (hdeletions x hx))
  have hzero' : st.latest.getResourcesOfKind .serviceMonitor ≠ [] → (Deployment.coherence (some c)).isNilOrZero = .ok false := by
    intro hne
    rw [hzero, decide_eq_false (hmonitors hne)]
  have hidle : ∀ {kind : ResourceType}, kind = .configMap ∨ kind = .secret → Keeps (fun u => Path Act.StartsNone w u)
      (Secondary.reconcileAllResourceOfKind op env kind request (.coherence (some c)) st) := by
    intro kind hk u p
    rw [exec_secondary_of_isGenerated hgen.latest hgen.previous hk]
    exact p
  have hkeeps : ∀ x ∈ reconcilers op env request (.coherence (some c)) st, Keeps (fun u => Path Act.StartsNone w u) x := by
    simp only [reconcilers, List.forall_mem_cons, List.not_mem_nil, false_implies, implies_true, and_true]
    refine ⟨?_, ?_, ?_, ?_, ?_⟩
    · exact hidle (.inl rfl)
    · exact hidle (.inr rfl)
    · exact Secondary.keeps_startsNone hnil (by decide) (by decide) hst (hnone (by decide)) (hof .service (by decide))
    · exact ServiceMonitor.keeps_startsNone hnil hst hzero' (hof .serviceMonitor (by decide))
    · exact StatefulSetReconciler.keeps_startsNone hnil hzero hst (fun h => hstopped (of_decide_eq_true h))
        fun h => hsized (of_decide_eq_false h)
  have hall : Keeps (fun u => Path Act.StartsNone w u) (reconcileStored op env request c hash st) := by
    refine Keeps.bind (keeps_reconcileSecondary hkeeps _) fun progress => ?_
    split
    · exact (startsNone_of_remark note_finish).keeps fun a u ha p => p.trans (.single ⟨a, ha, rfl⟩)
    · exact Keeps.throw _
  exact hall w .refl

/-- Where the resource has all that is stored, the next version does away with nothing. -/
theorem Attempt.getDeletions_eq_nil {st' : Storage} (ha : Attempt op env request w c h res st st')
    (hw : (stored request w).latest.IsGenerated (Owner.ofRequest request)) (hof : IsOf op c h (st'.next res))
    (hkept : ∀ r ∈ (stored request w).latest.items, ((c.createKubernetesResources op).getResource r.kind r.name).isSome) :
    { st' with latest := st'.next res, previous := st'.latest, hash := some h : Storage }.getDeletions = [] := by
  refine List.filter_eq_nil_iff.2 fun r hr hgone => ?_
  have hmem : r ∈ st'.latest.items := hr
  have hthere : ((st'.next res).getResource r.kind r.name).isSome := by
    obtain ⟨hprevious, -⟩ | ⟨hprevious, -⟩ := ha.plan_eq hw
    · rw [hprevious] at hmem
      exact Resources.getResource_isSome.2 ⟨r, hmem, rfl, rfl⟩
    · exact hof.getResource_isSome.2 (hkept r (hprevious ▸ hmem))
  rw [Option.isNone_iff_eq_none.1 hgone] at hthere
  cases hthere

/-- What comes after the storing leaves the objects of a resource that has settled. -/
theorem startsNone_stored {st' : Storage} (ha : Attempt op env request w c (toString c.generation) res st st') (hw : w.IsCurrent op request)
    (hs : w.IsSettled op request c) (hof : IsOf op c (toString c.generation) (st'.next res))
    (hobjects : ∀ kind key, kind ≠ .secret → u.find kind key = w.find kind key) :
    Path Act.StartsNone u (exec (reconcileStored op env request (c.updateStatusVersion op env.now) (toString c.generation)
      { st' with latest := st'.next res, previous := st'.latest, hash := some (toString c.generation) }) u).2 := by
  obtain ⟨hres, hst'⟩ := ha.isGenerated hw.generated.latest
  have hname : c.metadata.name = request.name := congrArg NamespacedName.name (w.coherence.filed _ _ ha.reaches.found)
  have hreplicas : (c.updateStatusVersion op env.now).getReplicas = c.spec.getReplicas := by
    obtain ⟨n, hn⟩ := Option.isSome_iff_exists.1 ha.reaches.replicas
    have hspec : (c.updateStatusVersion op env.now).spec = c.spec := rfl
    rw [Coherence.getReplicas, hspec, hn, if_neg (by simp)]
  have hset : u.statefulSet request = w.statefulSet request := by
    have hfind := hobjects .statefulSet request (by decide)
    rw [World.find_of_ne_secret _ (by decide), World.find_of_ne_secret _ (by decide)] at hfind
    rw [World.statefulSet, World.statefulSet, hfind]
  have hwanted : ∀ {r : Resource}, r ∈ (st'.next res).items →
      ((c.createKubernetesResources op).getResource r.kind r.name).isSome := fun hr =>
    hof.getResource_isSome.1 (Resources.getResource_isSome.2 ⟨_, hr, rfl, rfl⟩)
  have hnone := ha.getDeletions_eq_nil hw.generated.latest hof hs.kept
  refine startsNone_reconcileStored rfl ?_ ⟨hres.next st', hst'⟩ ?_ ?_ ?_ ?_
  · rw [hnone]
    exact fun r hr => absurd hr List.not_mem_nil
  · intro r hr hkind
    obtain ⟨r₀, hr₀, hkind₀, hname₀⟩ := Resources.getResource_isSome.1 (hwanted hr)
    obtain ⟨o, ho, hlive⟩ := hs.placed r₀ hr₀ (hkind₀ ▸ hkind)
    refine ⟨o, ?_, hlive⟩
    rw [← hname₀, ← hkind₀, hobjects _ _ (hkind₀ ▸ (hres.next st' r hr).kind_ne.2)]
    exact ho
  · intro hmonitors hzero
    obtain ⟨r, hr⟩ := List.exists_mem_of_ne_nil _ hmonitors
    obtain ⟨hr, hkind⟩ := Resources.mem_getResourcesOfKind.1 hr
    exact Coherence.replicas_of_monitor (hkind ▸ hwanted hr) (hreplicas ▸ hzero)
  · exact fun hzero => hset.trans (hs.stopped (hreplicas ▸ hzero))
  · intro hne
    obtain ⟨s, hfind, hlabel, hsize⟩ := hs.sized (hreplicas ▸ hne)
    refine ⟨s, hset.trans hfind, hlabel, fun n hn => ?_⟩
    have hdesired := hof.size
    rw [hname] at hdesired
    rw [hsize, ← Option.some.inj (hdesired.symm.trans hn)]

/-- **A reconcile** of a resource that has settled leaves the objects as they are, and the keys of what is stored, too. -/
theorem leavesAlone_reconcile (hcurrent : w.IsCurrent op request) (hknows : (CoherenceTurn.reconcile env).KnowsVersion op request w)
    (hfound : w.coherence.get request = some c) (hs : w.IsSettled op request c) :
    w.LeavesAlone (exec (reconcile op env request) w).2 ∧
      ∀ r ∈ (stored request (exec (reconcile op env request) w).2).latest.items,
        ((c.createKubernetesResources op).getResource r.kind r.name).isSome := by
  have hrec : Wp (reconcile op env request) (Reconciled op env request w) w := wp_reconcile
  have hquiet : ∀ {H : String → Prop} {v : World}, Quietly request H (KeepsVersions op env request w) w v →
      w.LeavesAlone v ∧ ∀ r ∈ (stored request v).latest.items, ((c.createKubernetesResources op).getResource r.kind r.name).isSome := by
    intro H v hv
    refine ⟨fun kind key hsecret _ => ?_, hv.latest ▸ hs.kept⟩
    rw [World.find_of_ne_secret _ hsecret, World.find_of_ne_secret _ hsecret]
    exact hv.objects kind key hsecret
  cases hrec with
  | quiet hv => exact hquiet hv
  | upgraded _ _ _ _ hv => exact hquiet hv
  | @stored c₁ h res st st' u _ _ ha hstores hrun =>
    obtain rfl : c₁ = c := Option.some.inj (ha.reaches.found.symm.trans hfound)
    obtain ⟨rfl, hof⟩ := ha.isOf hcurrent hknows
    obtain ⟨hres, hst'⟩ := ha.isGenerated hcurrent.generated.latest
    have hsame : ∀ kind key, kind ≠ .secret → u.find kind key = w.find kind key := by
      intro kind key hsecret
      rw [World.find_of_ne_secret _ hsecret, World.find_of_ne_secret _ hsecret]
      exact hstores.objects kind key hsecret
    have hpath := startsNone_stored ha hcurrent hs hof hsame
    have hspares : Path Act.SparesSecrets u (exec (reconcileStored op env request (c₁.updateStatusVersion op env.now)
        (toString c₁.generation) { st' with latest := st'.next res, previous := st'.latest, hash := some (toString c₁.generation) }) u).2 :=
      path_reconcileStored ⟨hres.next st', hst'⟩ u
    rw [hrun] at hpath hspares
    have hstored : (stored request (exec (reconcile op env request) w).2).latest = st'.next res := by
      have hstore : (exec (reconcile op env request) w).2.store request = u.store request :=
        hspares.unchanged (f := fun x : World => x.store request) fun _ _ ha => ha.store_eq
      rw [Storage.stored, hstore, ← Storage.stored, hstores.latest, (hres.next st').marshal]
    refine ⟨fun kind key hsecret hjob => ?_, fun r hr => ?_⟩
    · rw [find_of_startsNone hpath hsecret hjob, hsame kind key hsecret]
    · rw [hstored] at hr
      exact hof.getResource_isSome.1 (Resources.getResource_isSome.2 ⟨r, hr, rfl, rfl⟩)

end CoherenceReconciler

/-! ### Runs -/

theorem World.LeavesAlone.trans (hwu : w.LeavesAlone u) (huv : u.LeavesAlone v) : w.LeavesAlone v :=
  fun kind key hsecret hjob => (huv kind key hsecret hjob).trans (hwu kind key hsecret hjob)

/-- A resource is as settled as it was where its objects are left alone, at the same generation. -/
theorem World.IsSettled.of_leavesAlone (hs : w.IsSettled op request c) (hsame : c.SameGeneration c') (hobjects : w.LeavesAlone u)
    (hkept : ∀ r ∈ (stored request u).latest.items, ((c.createKubernetesResources op).getResource r.kind r.name).isSome) :
    u.IsSettled op request c' := by
  have hwanted : ∀ kind name, ((c'.createKubernetesResources op).getResource kind name).isSome ↔
      ((c.createKubernetesResources op).getResource kind name).isSome := fun _ _ => Resources.getResource_isSome_congr hsame.keys
  have hset : u.statefulSet request = w.statefulSet request := by
    have hfind := hobjects .statefulSet request (by decide) (by decide)
    rw [World.find_of_ne_secret _ (by decide), World.find_of_ne_secret _ (by decide)] at hfind
    rw [World.statefulSet, World.statefulSet, hfind]
  refine ⟨fun r hr => (hwanted _ _).2 (hkept r hr), fun r hr hkind => ?_, fun h => ?_, fun h => ?_⟩
  · obtain ⟨hsecret, hjob⟩ := Coherence.kind_of_mem hr
    obtain ⟨r₀, hr₀, hkind₀, hname₀⟩ :=
      Resources.getResource_isSome.1 ((hwanted _ _).1 (Resources.getResource_isSome.2 ⟨r, hr, rfl, rfl⟩))
    obtain ⟨o, ho, hlive⟩ := hs.placed r₀ hr₀ (hkind₀ ▸ hkind)
    refine ⟨o, ?_, ?_⟩
    · rw [← hname₀, ← hkind₀, hobjects _ _ (hkind₀ ▸ hsecret) (hkind₀ ▸ hjob)]
      exact ho
    · rw [hsame.generation]
      exact hlive
  · rw [hset]
    exact hs.stopped (hsame.spec ▸ h)
  · rw [hset, hsame.generation, hsame.spec]
    exact hs.sized (hsame.spec ▸ h)

/-- While the resource is at the generation of `c` it is settled, and the objects are those of the first state. -/
def World.StaysSettled (op : Operator) (request : NamespacedName) (c : Coherence) (w u : World) : Prop :=
  ∀ c', u.coherence.get request = some c' → c'.generation = c.generation → u.IsSettled op request c' ∧ w.LeavesAlone u

namespace CoherenceTurn

variable {turns later : List CoherenceTurn} {t : CoherenceTurn}

/-- One turn does not bring an earlier generation back. -/
theorem ages_step (hw : w.IsCurrent op request) : w.Ages request (t.step op request w) := by
  cases t with
  | reconcile env => exact World.ages_of_path (keepsTo_reconcile hw.generated)
  | edit spec => exact World.ages_modify fun _ => Coherence.later_edited
  | delete now => exact World.ages_modify fun _ => ⟨rfl, rfl, le_rfl, fun _ => rfl⟩

/-- **One turn** leaves a resource settled, or it is at another generation then. -/
theorem staysSettled_step (hages : w.Ages request u) (hfound : w.coherence.get request = some c) (hu : u.IsCurrent op request)
    (ht : t.KnowsVersion op request u) (hs : w.StaysSettled op request c u) : w.StaysSettled op request c (t.step op request u) := by
  intro c'' hc'' hgeneration
  obtain ⟨c', hc', hlater⟩ := ages_step hu c'' hc''
  obtain ⟨c₁, hc₁, hlater₁⟩ := hages c' hc'
  obtain rfl : c₁ = c := Option.some.inj (hc₁.symm.trans hfound)
  have hsame : c'.generation = c₁.generation := le_antisymm (hgeneration ▸ hlater.generation) hlater₁.generation
  obtain ⟨hsettled, halone⟩ := hs c' hc' hsame
  have hturn : u.LeavesAlone (t.step op request u) ∧ ∀ r ∈ (stored request (t.step op request u)).latest.items,
      ((c'.createKubernetesResources op).getResource r.kind r.name).isSome := by
    cases t with
    | edit | delete => exact ⟨fun _ _ _ _ => rfl, hsettled.kept⟩
    | reconcile env => exact CoherenceReconciler.leavesAlone_reconcile hu ht hc' hsettled
  have heq : c'.generation = c''.generation := hsame.trans hgeneration.symm
  exact ⟨hsettled.of_leavesAlone ⟨hlater.key, hlater.labels, heq.symm, hlater.spec heq⟩ hturn.1 hturn.2, halone.trans hturn.1⟩

end CoherenceTurn

end Reconcile

/-- The state after the first reconcile of a resource with a port. -/
def settledCluster : World := run (CoherenceTurn.step default ⟨"default", "storage"⟩) (tendedCluster withPort) [.reconcile {}]

end CoherenceOperator
