import CoherenceOperator.Footprint.Generated
import CoherenceOperator.Footprint.Guarding
import CoherenceOperator.Footprint.Reconcile

/-!
# What becomes of the objects of a version

The versions that are stored for a Coherence resource are made of what the builders generate for it, so there are no ConfigMaps
and no Secrets in them, and the reconcilers of these kinds have nothing to do (`exec_secondary_of_generated`). The reconciler of
Services deletes what is in the previous version only (`wp_reconcileStored_of_deletion`). No reconciler brings into being what
is not in the latest version (`keeps_absent`), and none touches what is stored (`path_reconcileStored`).
-/

namespace CoherenceOperator

open Effect Prog Storage

variable {op : Operator} {env : Env} {request : NamespacedName} {w u : World}

/-! ### Versions that are generated -/

/-- The owner of what is generated for the Coherence resource of a request. -/
def Owner.ofRequest (request : NamespacedName) : Owner := ⟨.coherence, request⟩

/-- Both versions are made of resources that were generated for the request. -/
structure Storage.IsGenerated (request : NamespacedName) (st : Storage) : Prop where
  latest : st.latest.IsGenerated (Owner.ofRequest request)
  previous : st.previous.IsGenerated (Owner.ofRequest request)

theorem Resource.IsGenerated.prepared {owner : Owner} {version h : String} {r : Resource} (hr : r.IsGenerated owner) :
    (r.prepared owner version h).IsGenerated owner := by
  obtain ⟨o, ho, hns, -⟩ := hr.spec
  exact ⟨hr.kind, o.prepared owner version h, congrArg (Option.map (Object.prepared owner version h)) ho, hns, .inr rfl⟩

theorem Resources.IsGenerated.prepared {owner : Owner} {version h : String} {res : Resources} (hres : res.IsGenerated owner) :
    (res.prepared owner version h).IsGenerated owner := by
  intro r hr
  obtain ⟨r', hr', rfl⟩ := List.mem_map.1 hr
  exact (hres r' hr').prepared

/-- The resources of a version keep their kinds and names when they are prepared. -/
theorem Resources.getResource_prepared_isSome {owner : Owner} {version h : String} {res : Resources} {r : Resource}
    (hr : r ∈ res.items) : ((res.prepared owner version h).getResource r.kind r.name).isSome := by
  rw [Resources.getResource_isSome]
  exact ⟨r.prepared owner version h, List.mem_map_of_mem hr, rfl, rfl⟩

namespace CoherenceReconciler

variable {c : Coherence} {h : String} {res : Resources} {st st' : Storage} {result : Result}

theorem Reaches.owner (hr : Reaches op env request w c) : c.toResource.owner = Owner.ofRequest request := by
  have hkey : c.key = request := w.coherence.filed _ _ hr.found
  rw [← hkey]
  rfl

/-- What is planned is prepared, from what is stored or from what the spec generates. -/
theorem Attempt.plan_eq (ha : Attempt op env request w c h res st st')
    (hw : (stored request w).latest.IsGenerated (Owner.ofRequest request)) :
    st'.latest = res ∧ res = (stored request w).latest.prepared c.toResource.owner op.version h ∨
      st'.latest = (stored request w).latest ∧
        res = (c.createKubernetesResources op).prepared c.toResource.owner op.version h := by
  have howner := ha.reaches.owner
  rcases plan_eq_ok ha.plan with ⟨-, hprepare, rfl⟩ | ⟨-, hprepare, rfl⟩
  · have hgen : st.latest.IsGenerated c.toResource.owner := by
      rw [ha.loads.latest, howner]
      exact hw
    rw [prepare_eq_ok hgen ha.hash, Except.ok.injEq] at hprepare
    exact .inl ⟨rfl, by rw [← hprepare, ha.loads.latest]⟩
  · rw [prepare_eq_ok c.isGenerated_createKubernetesResources ha.hash, Except.ok.injEq] at hprepare
    exact .inr ⟨ha.loads.latest, hprepare.symm⟩

/-- Where the resource is of a later version than 3.4.3, and what is stored is of another generation or not ready, the spec is
planned. -/
theorem Attempt.eq_prepared (ha : Attempt op env request w c h res st st') (hlegacy : c.toResource.isLegacy op = .ok false)
    (hstale : (stored request w).hash ≠ some h ∧ ¬ c.toResource.GlobalHash op h ∨ c.status.phase ≠ some .ready) :
    st'.latest = (stored request w).latest ∧
      res = (c.createKubernetesResources op).prepared c.toResource.owner op.version h := by
  have hgeneration : c.toResource.generationString op = .ok h := ha.hash
  rcases plan_eq_ok ha.plan with ⟨huses, -, -⟩ | ⟨-, hprepare, rfl⟩
  · rw [CoherenceResource.usesStored, hgeneration] at huses
    cases hst : st.hash with
    | none =>
      rw [hst] at huses
      cases huses
    | some x =>
      have hx : x ≠ h ∨ c.toResource.status.phase ≠ some .ready := by
        refine hstale.imp_left fun hstale hxh => ?_
        subst hxh
        exact (ha.loads.hash x hst).elim hstale.1 hstale.2
      simp only [hst, bind, Except.bind, hx, if_true, hlegacy] at huses
      cases huses
  · rw [prepare_eq_ok c.isGenerated_createKubernetesResources ha.hash, Except.ok.injEq] at hprepare
    exact ⟨ha.loads.latest, hprepare.symm⟩

/-- What is planned is generated, too. -/
theorem Attempt.isGenerated (ha : Attempt op env request w c h res st st')
    (hw : (stored request w).latest.IsGenerated (Owner.ofRequest request)) :
    res.IsGenerated (Owner.ofRequest request) ∧ st'.latest.IsGenerated (Owner.ofRequest request) := by
  have howner := ha.reaches.owner
  rcases ha.plan_eq hw with ⟨hst, hres⟩ | ⟨hst, hres⟩
  · have hgen : res.IsGenerated (Owner.ofRequest request) := by
      rw [hres, howner]
      exact hw.prepared
    exact ⟨hgen, hst ▸ hgen⟩
  · refine ⟨?_, hst ▸ hw⟩
    rw [hres, ← howner]
    exact Resources.IsGenerated.prepared c.isGenerated_createKubernetesResources

/-- Where a resource is no longer planned, the version in memory is the one that was stored. -/
theorem Attempt.latest_of_removed (ha : Attempt op env request w c h res st st')
    (hw : (stored request w).latest.IsGenerated (Owner.ofRequest request)) {r : Resource}
    (hr : r ∈ (stored request w).latest.items) (hnone : res.getResource r.kind r.name = none) :
    st'.latest = (stored request w).latest := by
  rcases ha.plan_eq hw with ⟨-, hres⟩ | ⟨hst, -⟩
  · have hsome : (res.getResource r.kind r.name).isSome := by
      rw [hres]
      exact Resources.getResource_prepared_isSome hr
    rw [hnone] at hsome
    cases hsome
  · exact hst

end CoherenceReconciler

/-! ### What is done for resources that are stored -/

/-- A set of acts with everything that may be done for stored resources that are generated. -/
structure Serves (A : Act → Prop) (request : NamespacedName) (st : Storage) : Prop where
  note : ∀ a, a.IsNote → A a
  delete : ∀ kind key, kind ≠ .secret → A (.call ⟨.delete, kind, key⟩) ∧ A (.deleteObject kind key)
  create : ∀ o, st.latest.Wants o.kind o.key ∨ o.kind = .job → A (.createObject o)
  update : ∀ r ∈ st.latest.items, ∀ o, o.kind = r.kind → o.key = ⟨request.ns, r.name⟩ → A (.updateObject o)
  scale : ∀ o, o.kind = .statefulSet → o.key = request → A (.updateObject o)
  validate : ∀ original desired, A (.validateStatefulSet request original desired)
  patch : ∀ p result, result.key = request → A (.patchStatefulSet p result)

section Serving

variable {A : Act → Prop} {st : Storage} {c : Coherence} {h : String}

/-- There is nothing to be done for the kinds that are not generated. -/
theorem exec_secondary_of_isGenerated {owner : Owner} (hlatest : st.latest.IsGenerated owner) (hprevious : st.previous.IsGenerated owner)
    {kind : ResourceType} (hk : kind = .configMap ∨ kind = .secret) {d : Deployment} :
    exec (Secondary.reconcileAllResourceOfKind op env kind request d st) w = (.ok {}, w) := by
  have hdeletions : (st.getDeletions.filter fun r => r.kind == kind) = [] := by
    refine List.filter_eq_nil_iff.2 fun r hr => ?_
    have hne := (hprevious r (List.mem_filter.1 hr).1).kind_ne
    rcases hk with rfl | rfl
    · simpa using hne.1
    · simpa using hne.2
  rw [Secondary.reconcileAllResourceOfKind, hdeletions, hlatest.getResourcesOfKind hk]
  rfl

theorem exec_secondary_of_generated (hst : st.IsGenerated request) {kind : ResourceType}
    (hk : kind = .configMap ∨ kind = .secret) {d : Deployment} :
    exec (Secondary.reconcileAllResourceOfKind op env kind request d st) w = (.ok {}, w) :=
  exec_secondary_of_isGenerated hst.latest hst.previous hk

theorem does_secondary_of_generated (hst : st.IsGenerated request) {kind : ResourceType}
    (hk : kind = .configMap ∨ kind = .secret) {d : Deployment} :
    Does A (Secondary.reconcileAllResourceOfKind op env kind request d st) := by
  intro w
  rw [exec_secondary_of_generated hst hk]
  exact .refl

theorem Serves.update_of_kind (hA : Serves A request st) {kind : ResourceType} {r : Resource}
    (hr : r ∈ st.latest.getResourcesOfKind kind) (o : Object) (ho : o.kind = kind) (hkey : o.key = ⟨request.ns, r.name⟩) :
    A (.updateObject o) := by
  obtain ⟨hmem, hkind⟩ := Resources.mem_getResourcesOfKind.1 hr
  exact hA.update r hmem o (ho.trans hkind.symm) hkey

/-- What is done for the resources of a kind that are in the latest version. -/
theorem Serves.does_latest (hA : Serves A request st) {d : Deployment} (hd : d.isNil = false) {kind : ResourceType}
    (hk : kind ≠ .secret) :
    Does A (ForM.forM (st.latest.getResourcesOfKind kind) (Secondary.reconcileResource op env kind request d st)) :=
  Secondary.does_reconcileLatest hd (fun a ha => hA.note a ha.isRemark.isNote) (fun _ _ _ _ => hA.delete _ _ hk)
    (fun o ho _ => hA.create o (.inl ho)) fun _ hr => hA.update_of_kind hr

theorem does_reconcilers (hA : Serves A request st) (hst : st.IsGenerated request) {x : Op Result}
    (hx : x ∈ CoherenceReconciler.reconcilers op env request (.coherence (some c)) st) : Does A x := by
  have hcall : ∀ a : Act, a.IsCall → A a := fun a ha => hA.note a ha.isRemark.isNote
  have hworkload : StatefulSetReconciler.Allows A request st :=
    ⟨hA.note, fun o ho => hA.create o (.inr ho), fun o ho _ => hA.create o (.inl ho), hA.scale, hA.validate, hA.patch⟩
  simp only [CoherenceReconciler.reconcilers, List.mem_cons, List.not_mem_nil, or_false] at hx
  rcases hx with rfl | rfl | rfl | rfl | rfl
  · exact does_secondary_of_generated hst (.inl rfl)
  · exact does_secondary_of_generated hst (.inr rfl)
  · exact Secondary.does_reconcileAllResourceOfKind rfl hcall (fun _ _ _ => hA.delete _ _ (by decide))
      (fun o ho _ => hA.create o (.inl ho)) fun _ hr => hA.update_of_kind hr
  · exact ServiceMonitor.does_reconcileAllResourceOfKind rfl hcall (fun _ _ _ => hA.delete _ _ (by decide))
      (fun o ho _ => hA.create o (.inl ho)) fun _ hr => hA.update_of_kind hr
  · exact StatefulSetReconciler.does_reconcileAllResourceOfKind hworkload rfl fun _ => hA.delete _ _ (by decide)

/-- **All that is done** for stored resources that are generated. -/
theorem does_reconcileStored (hA : Serves A request st) (hst : st.IsGenerated request) :
    Does A (CoherenceReconciler.reconcileStored op env request c h st) := by
  refine Does.of_keeps fun w => ?_
  refine Keeps.bind (CoherenceReconciler.keeps_reconcileSecondary (fun x hx => ?_) _) fun progress => ?_
  · exact (does_reconcilers hA hst hx).keeps_path
  · split
    · exact (note_of_remark CoherenceReconciler.note_finish).keeps fun a x ha p => p.tail ⟨a, hA.note a ha, rfl⟩
    · exact Keeps.throw _

end Serving

/-! ### What is not wanted does not come into being -/

/-- Acts that put nothing under the key of an object. -/
def Act.Leaves (kind : ResourceType) (key : NamespacedName) : Act → Prop
  | .createObject o | .updateObject o => o.ident ≠ (kind, key)
  | .patchStatefulSet _ result => result.toObject.ident ≠ (kind, key)
  | _ => True

/-- Acts that leave the secrets alone, and what is stored in them. -/
def Act.SparesSecrets : Act → Prop
  | .createObject o | .updateObject o => o.kind ≠ .secret
  | .deleteObject kind _ => kind ≠ .secret
  | .store _ _ _ | .putStore _ => False
  | _ => True

theorem Act.Leaves.get_eq_none {kind : ResourceType} {key : NamespacedName} {a : Act} (ha : a.Leaves kind key)
    (hw : w.objects.get (kind, key) = none) : (Acts.act a w).objects.get (kind, key) = none := by
  cases a with
  | createObject o | updateObject o => exact (Table.get_put_of_ne (Ne.symm ha)).trans hw
  | patchStatefulSet p result => exact (Table.get_put_of_ne (Ne.symm ha)).trans hw
  | deleteObject kind' key' =>
    simp only [Acts.act, Act.effect]
    split
    · exact hw
    · rw [Table.get_erase, hw, ite_self]
  | putStore s =>
    have herase : (w.objects.erase (.secret, s.key)).get (kind, key) = none := by rw [Table.get_erase, hw, ite_self]
    exact herase
  | coherenceMetadata | coherenceJobMetadata =>
    simp only [Acts.act, Act.effect]
    split <;> exact hw
  | _ => exact hw

theorem Act.SparesSecrets.store_eq {key : NamespacedName} {a : Act} (ha : a.SparesSecrets) :
    (Acts.act a w).store key = w.store key := by
  have hobjects : ∀ {x : World}, x.stores = w.stores → x.objects.get (.secret, key) = w.objects.get (.secret, key) →
      x.store key = w.store key := by
    intro x hstores hget
    rw [World.store, World.store, hstores, hget]
  cases a with
  | createObject o | updateObject o => exact hobjects rfl (Table.get_put_of_ne fun he => ha (Prod.mk.inj he).1.symm)
  | patchStatefulSet p result =>
    have hne : (ResourceType.secret, key) ≠ result.toObject.ident := fun he => by cases (Prod.mk.inj he).1
    exact hobjects rfl (Table.get_put_of_ne hne)
  | deleteObject kind key' =>
    have hne : (ResourceType.secret, key) ≠ (kind, key') := fun he => ha (Prod.mk.inj he).1.symm
    simp only [Acts.act, Act.effect]
    split
    · exact absurd rfl ha
    · exact hobjects rfl (Table.get_erase_of_ne hne)
  | store | putStore => exact ha.elim
  | coherenceMetadata | coherenceJobMetadata =>
    simp only [Acts.act, Act.effect]
    split <;> rfl
  | _ => rfl

section Removing

variable {st : Storage} {c : Coherence} {h name : String} {kind : ResourceType} {key : NamespacedName}

/-- The kinds of the resources that are generated besides the workload. -/
def ResourceType.IsSecondary (kind : ResourceType) : Prop := kind = .service ∨ kind = .serviceMonitor

theorem serves_leaves (hk : kind.IsSecondary) (hnone : st.latest.getResource kind name = none) :
    Serves (Act.Leaves kind ⟨request.ns, name⟩) request st := by
  have hunwanted := Resources.getResource_eq_none.1 hnone
  have hworkload : kind ≠ .statefulSet ∧ kind ≠ .job := by rcases hk with rfl | rfl <;> decide
  refine ⟨fun a ha => ?_, fun _ _ _ => ⟨trivial, trivial⟩, ?_, ?_, ?_, fun _ _ => trivial, ?_⟩
  · cases a with
    | createObject | updateObject | patchStatefulSet => exact ha.elim
    | _ => trivial
  · rintro o (⟨r, hr, o', ho', hkind, hkey⟩ | ho) he
    · obtain ⟨hk', hkey'⟩ := Prod.mk.inj he
      obtain ⟨hrk, hrn⟩ := r.filed o' ho'
      refine hunwanted r hr ⟨by rw [← hrk, hkind, hk'], ?_⟩
      rw [← hrn]
      have hname : o'.key.name = name := by rw [hkey, hkey']
      exact hname
    · exact hworkload.2 (by rw [← (Prod.mk.inj he).1, ho])
  · intro r hr o ho hkey he
    obtain ⟨hk', hkey'⟩ := Prod.mk.inj he
    refine hunwanted r hr ⟨by rw [← ho, hk'], ?_⟩
    rw [hkey] at hkey'
    exact congrArg NamespacedName.name hkey'
  · intro o ho _ he
    exact hworkload.1 (by rw [← (Prod.mk.inj he).1, ho])
  · intro p result _ he
    exact hworkload.1 (Prod.mk.inj he).1.symm

theorem serves_sparesSecrets (hst : st.IsGenerated request) : Serves Act.SparesSecrets request st := by
  refine ⟨fun a ha => ?_, fun _ _ hk => ⟨trivial, hk⟩, ?_, ?_, ?_, fun _ _ => trivial, fun _ _ _ => trivial⟩
  · cases a with
    | createObject | updateObject | deleteObject | store | putStore => exact ha.elim
    | _ => trivial
  · rintro o (⟨r, hr, o', ho', hkind, -⟩ | ho) hsecret
    · refine (hst.latest r hr).kind_ne.2 ?_
      rw [← (r.filed o' ho').1, hkind, hsecret]
    · rw [hsecret] at ho
      cases ho
  · intro r hr o ho _ hsecret
    exact (hst.latest r hr).kind_ne.2 (by rw [← ho, hsecret])
  · intro o ho _ hsecret
    rw [hsecret] at ho
    cases ho

theorem path_reconcileStored (hst : st.IsGenerated request) (w : World) :
    Path Act.SparesSecrets w (exec (CoherenceReconciler.reconcileStored op env request c h st) w).2 :=
  does_reconcileStored (serves_sparesSecrets hst) hst w

theorem ResourceType.IsSecondary.ne_secret (hk : kind.IsSecondary) : kind ≠ .secret := by
  rcases hk with rfl | rfl <;> decide

/-- What is not in the latest version, and is not there, does not come into being. -/
theorem keeps_absent (hst : st.IsGenerated request) (hk : kind.IsSecondary)
    (hnone : st.latest.getResource kind name = none) {x : Op Result}
    (hx : x ∈ CoherenceReconciler.reconcilers op env request (.coherence (some c)) st) :
    Keeps (fun x => x.find kind ⟨request.ns, name⟩ = none) x :=
  (does_reconcilers (serves_leaves hk hnone) hst hx).keeps fun a x ha hx => by
    rw [World.find_of_ne_secret _ hk.ne_secret] at hx ⊢
    exact ha.get_eq_none hx

theorem keeps_absent_reconcileStored (hst : st.IsGenerated request) (hk : kind.IsSecondary)
    (hnone : st.latest.getResource kind name = none) :
    Keeps (fun x => x.find kind ⟨request.ns, name⟩ = none)
      (CoherenceReconciler.reconcileStored op env request c h st) :=
  (does_reconcileStored (serves_leaves hk hnone) hst).keeps fun a x ha hx => by
    rw [World.find_of_ne_secret _ hk.ne_secret] at hx ⊢
    exact ha.get_eq_none hx

/-! ### What is in the previous version only -/

/-- No request to find or to delete the object fails. -/
def Env.CanDelete (env : Env) (kind : ResourceType) (key : NamespacedName) : Prop :=
  ∀ n, env.faults n ⟨.get, kind, key⟩ = none ∧ env.faults n ⟨.delete, kind, key⟩ = none

/-- The object is gone, or is not found or deleted because a request fails, which is no error. -/
theorem Secondary.wp_deleteIfExists (hk : kind ≠ .secret) : Wp (Secondary.deleteIfExists env kind key)
    (fun r v => r = .ok () ∧ (env.CanDelete kind key → v.find kind key = none)) w := by
  have hdelete : Calm (deleteObject env kind key) := Calm.change
  have hget : exec (Secondary.findResource env kind key) w =
      ((w.answer ⟨.get, kind, key⟩ env).map fun _ => w.find kind key, w.sent ⟨.get, kind, key⟩) := exec_read
  rw [Wp, Secondary.deleteIfExists, exec_bind, Op.attempt, exec_attempt, hget]
  cases ha : w.answer ⟨.get, kind, key⟩ env with
  | error e =>
    rw [Except.map, caught_error (w.isPanic_of_answer _ ha)]
    refine ⟨rfl, fun hcan => ?_⟩
    rw [World.answer_of_faults _ _ (hcan _).1] at ha
    cases ha
  | ok _ =>
    rw [Except.map, caught_ok]
    cases hfind : w.find kind key with
    | none => exact ⟨rfl, fun _ => hfind⟩
    | some o =>
      simp only
      rw [Secondary.delete, hdelete.exec_ignoreError]
      refine ⟨rfl, fun hcan => ?_⟩
      rw [deleteObject, change, exec_bind, exec_request, World.answer_of_faults _ _ (hcan _).2]
      simp only [exec_bind, exec_get, World.find_sent, hfind, exec_perform]
      rw [World.find_of_ne_secret _ hk]
      simp only [Acts.act, Act.effect]
      split
      · exact absurd rfl hk
      · exact Table.get_erase_self

theorem Secondary.keeps_absent_deleteIfExists {key' : NamespacedName} :
    Keeps (fun x : World => x.objects.get (kind, key) = none) (Secondary.deleteIfExists env kind key') :=
  (Secondary.does_deleteIfExists (A := Act.Leaves kind key) (fun a ha => by
    cases a with
    | call => trivial
    | _ => exact ha.elim) trivial trivial).keeps fun _ _ ha hx => ha.get_eq_none hx

/-- The Services that are in the previous version only are deleted, where no request fails. -/
theorem Secondary.wp_reconcile_of_deletion {d : Deployment} (hd : d.isNil = false) {r : Resource}
    (hr : r ∈ st.getDeletions) (hk : r.kind = .service) (hcan : env.CanDelete .service ⟨request.ns, r.name⟩) :
    Wp (Secondary.reconcileAllResourceOfKind op env .service request d st)
      (fun _ v => v.find .service ⟨request.ns, r.name⟩ = none) w := by
  obtain ⟨-, hremoved⟩ := List.mem_filter.1 hr
  have hnone : st.latest.getResource .service r.name = none := by simpa [hk] using hremoved
  have hserves : Serves (Act.Leaves .service ⟨request.ns, r.name⟩) request st := serves_leaves (.inl rfl) hnone
  have hmem : r ∈ st.getDeletions.filter fun r => r.kind == .service := List.mem_filter.2 ⟨hr, by simpa using hk⟩
  have hservice : ResourceType.service ≠ .secret := by decide
  simp only [World.find_of_ne_secret _ hservice]
  refine Wp.bind (P := fun x v => x = .ok ⟨⟩ ∧ v.objects.get (.service, ⟨request.ns, r.name⟩) = none) ?_ ?_ ?_
  · refine wp_forM_of_mem hmem (fun del s => ?_) (fun _ _ => keeps_absent_deleteIfExists) fun s => ?_
    · exact (Secondary.wp_deleteIfExists hservice).1
    · have hgone := (Secondary.wp_deleteIfExists (w := s) hservice).2 hcan
      rwa [World.find_of_ne_secret _ hservice] at hgone
  · rintro _ v ⟨-, hv⟩
    exact (Does.bind (hserves.does_latest hd hservice) fun _ => Does.pure _).keeps
      (I := fun x => x.objects.get (.service, ⟨request.ns, r.name⟩) = none) (fun _ _ ha hx => ha.get_eq_none hx) v hv
  · exact fun _ _ hv => hv.2

/-- What the first of the reconcilers establishes, and the others keep, holds at the end. -/
theorem CoherenceReconciler.wp_reconcileSecondary_cons {I : World → Prop} {x : Op Result} {rs : List (Op Result)} {p : Progress}
    (hx : Wp x (fun _ u => I u) w) (hrs : ∀ r ∈ rs, Keeps I r) :
    Wp (reconcileSecondary (x :: rs) p) (fun _ u => I u) w := by
  have hrest : ∀ {p : Progress} {u : World}, I u → Wp (reconcileSecondary rs p) (fun _ v => I v) u := fun hu =>
    CoherenceReconciler.keeps_reconcileSecondary hrs _ _ hu
  refine Wp.attempt_bind_ends (Wp.ends hx) (fun _ _ hu => hrest hu) fun _ _ hu => ⟨hrest hu, hu⟩

/-- A reconciler that has nothing to do. -/
theorem CoherenceReconciler.exec_reconcileSecondary_cons {x : Op Result} {rs : List (Op Result)} {p : Progress}
    (hx : exec x w = (.ok {}, w)) : exec (reconcileSecondary (x :: rs) p) w = exec (reconcileSecondary rs p) w := by
  rw [reconcileSecondary, exec_bind, Op.attempt, exec_attempt, hx]
  rfl

/-- **What is in the previous version only** is gone after the stored resources were reconciled, if it is a Service and no
request for it fails. -/
theorem wp_reconcileStored_of_deletion (hst : st.IsGenerated request) {r : Resource} (hr : r ∈ st.getDeletions)
    (hk : r.kind = .service) (hcan : env.CanDelete .service ⟨request.ns, r.name⟩) :
    Wp (CoherenceReconciler.reconcileStored op env request c h st)
      (fun _ v => v.find .service ⟨request.ns, r.name⟩ = none) w := by
  obtain ⟨-, hremoved⟩ := List.mem_filter.1 hr
  have hnone : st.latest.getResource .service r.name = none := by simpa [hk] using hremoved
  have hsecondary : Wp (reconcileSecondary (CoherenceReconciler.reconcilers op env request (.coherence (some c)) st) {})
      (fun _ v => v.find .service ⟨request.ns, r.name⟩ = none) w := by
    rw [Wp, CoherenceReconciler.reconcilers,
      CoherenceReconciler.exec_reconcileSecondary_cons (exec_secondary_of_generated hst (.inl rfl)),
      CoherenceReconciler.exec_reconcileSecondary_cons (exec_secondary_of_generated hst (.inr rfl))]
    refine CoherenceReconciler.wp_reconcileSecondary_cons (Secondary.wp_reconcile_of_deletion rfl hr hk hcan) ?_
    intro x hx
    exact keeps_absent hst (.inl rfl) hnone (List.mem_cons_of_mem _ (List.mem_cons_of_mem _ (List.mem_cons_of_mem _ hx)))
  refine Wp.bind hsecondary (fun progress v hv => ?_) fun _ _ hv => hv
  -- what comes after the secondary reconcilers are notes
  have hnote : ∀ (a : Act) (x : World), a.IsNote → x.find .service ⟨request.ns, r.name⟩ = none →
      (Acts.act a x).find .service ⟨request.ns, r.name⟩ = none := by
    intro a x ha hx
    rw [World.find_of_ne_secret _ (by decide)] at hx ⊢
    rw [ha.objects, hx]
  split
  · exact (note_of_remark CoherenceReconciler.note_finish).keeps hnote v hv
  · exact hv

end Removing

/-! ### A reconcile -/

/-- What a reconcile comes to for the versions that are stored and for the objects that are not wanted. -/
inductive Moved (op : Operator) (env : Env) (request : NamespacedName) (w v : World) : Prop
  /-- Nothing new is stored, and the objects are as they were. -/
  | stayed (latest : (stored request v).latest = (stored request w).latest)
      (previous : (stored request v).previous = (stored request w).previous)
      (objects : ∀ kind key, kind ≠ .secret → v.objects.get (kind, key) = w.objects.get (kind, key))
  /-- The resources that were planned are stored, and what is not among them does not come into being. -/
  | stored {c : Coherence} {h : String} {res : Resources} {st st' : Storage}
      (attempt : CoherenceReconciler.Attempt op env request w c h res st st')
      (latest : (stored request v).latest = st'.next res)
      (previous : (stored request v).previous = (stored request w).latest)
      (absent : ∀ kind name, kind.IsSecondary → res.getResource kind name = none →
        w.find kind ⟨request.ns, name⟩ = none → v.find kind ⟨request.ns, name⟩ = none)
      (deleted : ∀ r ∈ (stored request w).latest.items, r.kind = .service → res.getResource r.kind r.name = none →
        env.CanDelete .service ⟨request.ns, r.name⟩ → v.find .service ⟨request.ns, r.name⟩ = none)

/-- A version that comes into the store is the latest one then. -/
def World.SavesLatest (request : NamespacedName) (w v : World) : Prop :=
  ∀ s, .putStore s ∈ v.log → s.key = request → .putStore s ∈ w.log ∨ s.latest.getD {} = (stored request v).latest

theorem mem_log_of_path {A : Act → Prop} {v : World} (p : Path A w v) {a : Act} (ha : a ∈ v.log) : a ∈ w.log ∨ A a := by
  obtain ⟨as, hlog, hA⟩ := exists_log_of_path p
  rw [hlog] at ha
  rcases List.mem_append.1 ha with ha | ha
  · exact .inr (hA a ha)
  · exact .inl ha

theorem Quietly.moved {v : World} {H : String → Prop}
    (hv : Quietly request H (CoherenceReconciler.KeepsVersions op env request w) w v) :
    Moved op env request w v ∧ w.SavesLatest request v := by
  refine ⟨.stayed hv.latest hv.previous hv.objects, fun s hs hkey => ?_⟩
  rcases mem_log_of_path hv.path hs with hs | hs | hs
  · exact .inl hs
  · exact hs.elim
  · cases hs with
    | put _ hlatest => exact .inr (hlatest.trans hv.latest.symm)

open CoherenceReconciler in
/-- **One reconcile**, from versions that were generated. -/
theorem moved_reconcile (hw : (stored request w).IsGenerated request) :
    Moved op env request w (exec (reconcile op env request) w).2 ∧
      w.SavesLatest request (exec (reconcile op env request) w).2 := by
  have hrec : Wp (reconcile op env request) (Reconciled op env request w) w := wp_reconcile
  cases hrec with
  | quiet h => exact h.moved
  | upgraded _ _ _ _ h => exact h.moved
  | @stored c h res st st' u _ _ ha hs hrun =>
    obtain ⟨hres, hst'⟩ := ha.isGenerated hw.latest
    have hgen : Storage.IsGenerated request { st' with latest := st'.next res, previous := st'.latest, hash := some h } :=
      ⟨hres.next st', hst'⟩
    have hpath : Path Act.SparesSecrets u (exec (reconcileStored op env request (c.updateStatusVersion op env.now) h
        { st' with latest := st'.next res, previous := st'.latest, hash := some h }) u).2 := path_reconcileStored hgen u
    have hsame : stored request (exec (reconcile op env request) w).2 = stored request u := by
      have hstore : (exec (reconcile op env request) w).2.store request = u.store request := by
        rw [hrun] at hpath
        exact hpath.unchanged (f := fun x : World => x.store request) fun _ _ ha => ha.store_eq
      rw [Storage.stored, hstore, Storage.stored]
    have hmarshal : marshal (st'.next res) = st'.next res := (hres.next st').marshal
    have hlatest : (stored request (exec (reconcile op env request) w).2).latest = st'.next res := by
      rw [hsame, hs.latest, hmarshal]
    refine ⟨.stored ha hlatest (by rw [hsame, hs.previous]) ?_ ?_, ?_⟩
    · intro kind name hk hnone hfind
      have hu : u.find kind ⟨request.ns, name⟩ = none := by
        rwa [World.find_of_ne_secret _ hk.ne_secret, hs.objects _ _ hk.ne_secret, ← World.find_of_ne_secret _ hk.ne_secret]
      have hkeep : (exec (reconcileStored op env request (c.updateStatusVersion op env.now) h
          { st' with latest := st'.next res, previous := st'.latest, hash := some h }) u).2.find kind ⟨request.ns, name⟩ = none :=
        keeps_absent_reconcileStored hgen hk hnone u hu
      rw [hrun] at hkeep
      exact hkeep
    · intro r hr hk hnone hcan
      have hdeletion : r ∈ Storage.getDeletions
          { st' with latest := st'.next res, previous := st'.latest, hash := some h } := by
        refine List.mem_filter.2 ⟨?_, Option.isNone_iff_eq_none.2 hnone⟩
        rw [ha.latest_of_removed hw.latest hr hnone]
        exact hr
      exact (wp_reconcileStored_of_deletion hgen hdeletion hk hcan).elim hrun
    · intro s hs' hkey
      rw [hrun] at hpath
      rcases mem_log_of_path hpath hs' with hs' | hs'
      · rcases mem_log_of_path hs.path hs' with hs' | hs' | hs'
        · exact .inl hs'
        · exact hs'.elim
        · exact .inr (by rw [hs'.2, hlatest, hmarshal])
      · exact hs'.elim

/-- Where nothing is stored. -/
theorem isGenerated_of_none (hstore : w.store request = none) : (stored request w).IsGenerated request := by
  rw [stored, hstore]
  refine ⟨?_, ?_⟩ <;> rintro r ⟨⟩

/-! ### Turns -/

/-- What happens to a Coherence resource: it is reconciled, a user edits its spec, or asks for its deletion. -/
inductive CoherenceTurn where
  | reconcile (env : Env)
  | edit (spec : CoherenceStatefulSetResourceSpec)
  | delete (now : ℕ)

namespace CoherenceTurn

/-- An edited spec is a new generation. -/
def edited (spec : CoherenceStatefulSetResourceSpec) (c : Coherence) : Coherence :=
  { c with generation := c.generation + 1, spec }

/-- A resource that is to be deleted stays until its finalizers are removed. -/
def deleted (now : ℕ) (c : Coherence) : Coherence :=
  { c with metadata := { c.metadata with deletionTimestamp := some now } }

/-- The state after a turn of the resource of the request. -/
def step (op : Operator) (request : NamespacedName) (w : World) : CoherenceTurn → World
  | reconcile env => (exec (CoherenceReconciler.reconcile op env request) w).2
  | edit spec => w.modifyCoherence request (edited spec) fun _ => rfl
  | delete now => w.modifyCoherence request (deleted now) fun _ => rfl

/-- No request fails. -/
def IsReliable : CoherenceTurn → Prop
  | reconcile env => env.Reliable
  | _ => True

/-- The versions that are stored stay generated. -/
theorem isGenerated_step (hw : (stored request w).IsGenerated request) (t : CoherenceTurn) :
    (stored request (step op request w t)).IsGenerated request := by
  cases t with
  | edit | delete => exact hw
  | reconcile env =>
    have hmoved : Moved op env request w (exec (CoherenceReconciler.reconcile op env request) w).2 := (moved_reconcile hw).1
    rcases hmoved with ⟨hlatest, hprevious, -⟩ | ⟨ha, hlatest, hprevious, -, -⟩
    · exact ⟨hlatest ▸ hw.latest, hprevious ▸ hw.previous⟩
    · exact ⟨hlatest ▸ (ha.isGenerated hw.latest).1.next _, hprevious ▸ hw.latest⟩

end CoherenceTurn

/-- The object that is created. -/
def Act.created : Act → Option Object
  | .createObject o => some o
  | _ => none

end CoherenceOperator
