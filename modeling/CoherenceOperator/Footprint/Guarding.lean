import CoherenceOperator.Controllers.Coherence
import CoherenceOperator.Footprint.Errors
import CoherenceOperator.Footprint.Storing
import CoherenceOperator.Footprint.Workload

/-!
# What keeps the finalizer

The resource under a key is *guarded* as long as it has the finalizer. The only acts that could change that write the metadata
of the resource. An error that is handled is noted in the annotations of the latest version, with the finalizers
that this has, so that what is guarded stays guarded (`keeps_handleErrAndRequeue`), and with it through all that
a reconcile does after it has seen to the finalizer (`keeps_reconcileResources`).
-/

namespace CoherenceOperator

open Effect Prog

/-- The resource is there, with the finalizer. -/
def World.Guarded (key : NamespacedName) (w : World) : Prop :=
  ∃ c, w.coherence.get key = some c ∧ CoherenceFinalizer ∈ c.metadata.finalizers

/-- Acts that leave the finalizer where it is. -/
def Act.Spares (key : NamespacedName) : Act → Prop
  | .coherenceMetadata k _ finalizers => k = key → CoherenceFinalizer ∈ finalizers
  | _ => True

variable {op : Operator} {env : Env} {key request : NamespacedName} {w : World}

theorem Act.IsRemark.spares {a : Act} (h : a.IsRemark) : a.Spares key := by
  cases a with
  | coherenceMetadata => exact h.elim
  | _ => trivial

theorem guarded_modify {f : Coherence → Coherence} {hf : ∀ c, (f c).key = c.key} {k : NamespacedName}
    (hfinalizers : ∀ c, k = key → CoherenceFinalizer ∈ c.metadata.finalizers →
      CoherenceFinalizer ∈ (f c).metadata.finalizers) (h : w.Guarded key) :
    (w.modifyCoherence k f hf).Guarded key := by
  obtain ⟨c, hc, hmem⟩ := h
  by_cases hk : key = k
  · subst hk
    exact ⟨f c, by simp [World.modifyCoherence, hc], hfinalizers c rfl hmem⟩
  · exact ⟨c, by simp [World.modifyCoherence, Table.get_modify_of_ne hk, hc], hmem⟩

/-- What is guarded stays guarded. -/
theorem guarded_act (a : Act) (w : World) (ha : a.Spares key) (h : w.Guarded key) : (Acts.act a w).Guarded key := by
  cases a with
  | coherenceStatus k status =>
    have hmodify : (w.modifyCoherence k (·.withStatus status) (·.key_withStatus _)).Guarded key :=
      guarded_modify (fun _ _ => id) h
    exact hmodify
  | coherenceReplicas k replicas =>
    have hmodify : (w.modifyCoherence k (·.withReplicas replicas) (·.key_withReplicas _)).Guarded key :=
      guarded_modify (fun _ _ => id) h
    exact hmodify
  | coherenceMetadata k annotations finalizers =>
    have hmodify : (w.modifyCoherence k (·.withMetadata annotations finalizers)
        (·.key_withMetadata _ _)).Guarded key := guarded_modify (fun _ hk _ => ha hk) h
    simp only [Acts.act, Act.effect]
    split
    · rename_i hgone
      by_cases hk : key = k
      · subst hk
        have hempty : finalizers.isEmpty = true := by
          obtain ⟨c, hc, -⟩ := h
          rw [hc, Option.any_some, isGone, Bool.and_eq_true] at hgone
          exact hgone.2
        have hmem := ha rfl
        rw [List.isEmpty_iff.1 hempty] at hmem
        cases hmem
      · obtain ⟨c, hc, hmem⟩ := h
        exact ⟨c, by simp [Table.get_erase_of_ne hk, hc], hmem⟩
    · exact hmodify
  | deleteObject kind k =>
    obtain ⟨c, hc, hmem⟩ := h
    refine ⟨c, ?_, hmem⟩
    simp only [Acts.act, Act.effect]
    split <;> exact hc
  | coherenceJobMetadata k annotations finalizers =>
    obtain ⟨c, hc, hmem⟩ := h
    refine ⟨c, ?_, hmem⟩
    simp only [Acts.act, Act.effect]
    split <;> exact hc
  | _ => exact h

/-! ### Errors -/

/-- The version of the resource has the finalizer. -/
def CoherenceResource.IsGuarded (key : NamespacedName) (d : CoherenceResource) : Prop :=
  d.kind ≠ .coherenceJob → d.key = key → CoherenceFinalizer ∈ d.metadata.finalizers

/-- What is done about an error leaves the finalizer where it is. -/
theorem tolerates_guarded {kind : ResourceType} (hkind : kind = .coherence ∨ kind = .coherenceJob) :
    Tolerates op env (World.Guarded key) (fun d => d.kind = kind ∧ d.IsGuarded key) kind where
  sent u c hu := guarded_act (.call c) u trivial hu
  latest u d hu hd := by
    obtain ⟨hk, -⟩ := World.kind_of_resource hkind hd
    refine ⟨hk, fun hne hkey => ?_⟩
    rcases hkind with rfl | rfl
    · obtain ⟨c, hc, rfl⟩ := Option.map_eq_some_iff.1 hd
      obtain ⟨c', hc', hmem⟩ := hu
      rw [hkey, hc', Option.some.injEq] at hc
      exact hc ▸ hmem
    · exact absurd hk hne
  annotate u d annotations hu hd := by
    obtain ⟨rfl, hguarded⟩ := hd
    rcases hkind with hk | hk
    · rw [hk]
      exact guarded_act _ u (hguarded (by rw [hk]; decide)) hu
    · rw [hk]
      exact guarded_act _ u trivial hu
  condition u d _ _ hu _ := by
    rcases hkind with rfl | rfl
    · exact guarded_act _ u trivial hu
    · exact guarded_act _ u trivial hu

/-- **Handling an error** leaves the finalizer where it is. -/
theorem keeps_handleErrAndRequeue {e : GoError} {deployment : Deployment} :
    Keeps (World.Guarded key) (handleErrAndRequeue op env e deployment) :=
  keeps_handleErrAndRequeue_of (tolerates_guarded (.inl rfl)) (tolerates_guarded (.inr rfl))

/-! ### What comes after the finalizer -/

theorem handles_spares : Handles op env (Act.Spares key) (World.Guarded key) where
  stable := guarded_act
  handled _ _ := keeps_handleErrAndRequeue

theorem StatefulSetReconciler.permits_spares {st : Storage} : Permits (Act.Spares key) request st where
  remark _ ha := ha.spares
  action _ _ := trivial
  create _ _ _ := trivial
  update _ _ _ := trivial
  validate _ _ := trivial
  patch _ _ _ := trivial

/-- On an event of a StatefulSet. -/
theorem StatefulSetReconciler.keeps_guarded :
    Keeps (World.Guarded key) (StatefulSetReconciler.reconcile op env request) :=
  keeps_reconcile (fun _ => permits_spares) handles_spares ⟨trivial, trivial⟩

namespace Storage

variable {A : Act → Prop}

theorem does_save {owner : Owner} {desired : StoreSecret} (hcall : ∀ c, A (.call c)) (hput : A (.putStore desired))
    (hcreate : ∀ refs, A (.putStore { desired with metadata := { desired.metadata with ownerReferences := refs } })) :
    Does A (save env key owner desired) := by
  refine Does.bind (does_read (hcall _)) fun current => ?_
  cases current with
  | none =>
    refine Does.bind (Does.outcome _) fun refs => Does.bind (does_request (hcall _)) fun _ => ?_
    exact Does.perform (hcreate refs)
  | some current =>
    refine Does.ite (fun _ => Does.pure _) fun _ => Does.bind (does_request (hcall _)) fun _ => ?_
    exact Does.perform hput

/-- The secret that is read is under its key, and the one that is made in its place. -/
theorem returns_getSecret {st : Storage} : Returns (getSecret env st.key) fun secret =>
    (secret.getD (createSecretStruct st.key)).key = st.key := by
  intro w secret h
  rw [getSecret, exec_read] at h
  cases ha : w.answer ⟨.get, .secret, st.key⟩ env with
  | error e =>
    rw [ha] at h
    cases h
  | ok _ =>
    rw [ha] at h
    cases h
    exact key_getD_createSecretStruct

/-- A secret under the key of the store may be put there. -/
theorem does_store {st : Storage} {res : Resources} {owner : Deployment} (hcall : ∀ c, A (.call c))
    (hput : ∀ s, s.key = st.key → A (.putStore s)) (hstore : ∀ owner hash res, A (.store owner hash res)) :
    Does A (st.store op env res owner) := by
  refine Does.bind_of (does_read (hcall _)) returns_getSecret fun secret hkey => Does.bind (Does.outcome _) fun _ => ?_
  refine Does.bind (Does.outcome _) fun _ => Does.bind (Does.perform (hstore _ _ _)) fun _ => ?_
  refine Does.bind (Does.outcome _) fun _ => Does.bind ?_ fun _ => Does.pure _
  exact does_save hcall (hput _ hkey) fun _ => hput _ hkey

theorem does_resetHash {st : Storage} {owner : Deployment} (hcall : ∀ c, A (.call c))
    (hput : ∀ s, s.key = st.key → A (.putStore s)) : Does A (st.resetHash op env owner) := by
  have hset : Returns (st.setHash op env owner) fun r => r.1.key = st.key ∧ r.2.2.key = st.key := by
    refine Returns.bind returns_getSecret fun secret hkey => ?_
    refine Returns.bind' fun d => Returns.bind' fun hash => Returns.pure ⟨rfl, hkey⟩
  refine Does.bind_of ?_ hset fun r hr => ?_
  · refine Does.bind (does_read (hcall _)) fun _ => Does.bind (Does.outcome _) fun _ => ?_
    exact Does.bind (Does.outcome _) fun _ => Does.pure _
  · refine Does.bind ?_ fun _ => Does.pure _
    exact does_save hcall (hput _ hr.2) fun _ => hput _ hr.2

end Storage

theorem does_ensureOperatorSecret {A : Act → Prop} {d : CoherenceResource} (hcall : ∀ c, A (.call c))
    (hcreate : ∀ o, o.kind = .secret → A (.createObject o)) (hupdate : ∀ o, o.kind = .secret → A (.updateObject o))
    (hdelete : A (.deleteObject .secret ⟨d.ns, "coherence-operator-config"⟩)) :
    Does A (ensureOperatorSecret op env d) := by
  have hget : Returns (getObject env .secret ⟨d.ns, "coherence-operator-config"⟩) fun s => ∀ x ∈ s, x.kind = .secret :=
    fun w s hs x hx => (returns_getObject w s hs x hx).1
  refine Does.bind_of (does_read (hcall _)) hget fun s hs => ?_
  cases s with
  | none =>
    refine Does.bind (Op.does_ignoreError (does_change (hcall _) hdelete)) fun _ => ?_
    exact does_createObject (hcall _) (hcreate _ rfl)
  | some s =>
    refine Does.ite (fun _ => Does.pure _) fun _ => ?_
    exact does_change (hcall _) (hupdate _ rfl)

namespace CoherenceReconciler

variable {c : Coherence} {st : Storage} {hash : String} {result : Result}

/-- The secondary reconcilers but the last, that of the StatefulSet. -/
def firstReconcilers (op : Operator) (env : Env) (request : NamespacedName) (d : Deployment) (st : Storage) :
    List (Op Result) :=
  [ Secondary.reconcileAllResourceOfKind op env .configMap request d st,
    Secondary.reconcileAllResourceOfKind op env .secret request d st,
    Secondary.reconcileAllResourceOfKind op env .service request d st,
    ServiceMonitor.reconcileAllResourceOfKind op env request d st ]

/-- A set of acts with everything that the first reconcilers may do. -/
structure Tends (A : Act → Prop) : Prop where
  remark : ∀ a, a.IsRemark → A a
  delete : ∀ kind key, kind ≠ .statefulSet → A (.call ⟨.delete, kind, key⟩) ∧ A (.deleteObject kind key)
  create : ∀ o, o.kind ≠ .statefulSet → A (.createObject o)
  update : ∀ o, o.kind ≠ .statefulSet → A (.updateObject o)

theorem does_firstReconcilers {A : Act → Prop} (hA : Tends A) {x : Op Result}
    (hx : x ∈ firstReconcilers op env request (.coherence (some c)) st) : Does A x := by
  have hsecondary : ∀ kind, kind ≠ .statefulSet →
      Does A (Secondary.reconcileAllResourceOfKind op env kind request (.coherence (some c)) st) := fun kind hk =>
    Secondary.does_reconcileAllResourceOfKind rfl (fun a ha => hA.remark a ha.isRemark) (fun _ _ _ => hA.delete kind _ hk)
      (fun o _ ho => hA.create o (ho ▸ hk)) fun _ _ o ho _ => hA.update o (ho ▸ hk)
  simp only [firstReconcilers, List.mem_cons, List.not_mem_nil, or_false] at hx
  rcases hx with rfl | rfl | rfl | rfl
  · exact hsecondary _ (by decide)
  · exact hsecondary _ (by decide)
  · exact hsecondary _ (by decide)
  · have hk : (ResourceType.serviceMonitor : ResourceType) ≠ .statefulSet := by decide
    exact ServiceMonitor.does_reconcileAllResourceOfKind rfl (fun a ha => hA.remark a ha.isRemark) (fun _ _ _ => hA.delete _ _ hk)
      (fun o _ ho => hA.create o (ho ▸ hk)) fun _ _ o ho _ => hA.update o (ho ▸ hk)

/-- After the secondary reconcilers there is only the status to be written. -/
theorem note_finish : Does Act.IsRemark (finish op env request c hash result) := by
  refine Does.bind (Does.ite (fun _ => ?_) fun _ => Does.pure _) fun _ => ?_
  · exact Op.does_operation StatusManager.note_update
  · exact Does.bind (Op.does_operation StatusManager.note_update) fun _ => Does.pure _

theorem keeps_reconcileSecondary {I : World → Prop} {rs : List (Op Result)} (h : ∀ r ∈ rs, Keeps I r) (p : Progress) :
    Keeps I (reconcileSecondary rs p) := by
  induction rs generalizing p with
  | nil => exact Keeps.pure _
  | cons r rs ih =>
    have hrest := ih fun x hx => h x (List.mem_cons_of_mem _ hx)
    refine Keeps.bind (h r List.mem_cons_self).attempt fun outcome => ?_
    cases outcome with
    | ok result => exact hrest _
    | error e => exact hrest _

theorem keeps_reconcileStored :
    Keeps (World.Guarded key) (reconcileStored op env request c hash st) := by
  have htends : Tends (Act.Spares key) :=
    ⟨fun _ ha => ha.spares, fun _ _ _ => ⟨trivial, trivial⟩, fun _ _ => trivial, fun _ _ => trivial⟩
  refine Keeps.bind (keeps_reconcileSecondary (fun x hx => ?_) _) fun progress => ?_
  · change x ∈ firstReconcilers op env request (.coherence (some c)) st ++ [_] at hx
    rcases List.mem_append.1 hx with hx | hx
    · exact (does_firstReconcilers htends hx).keeps guarded_act
    · rw [List.mem_singleton.1 hx]
      exact StatefulSetReconciler.keeps_reconcileAllResourceOfKind StatefulSetReconciler.permits_spares handles_spares rfl
        fun _ => ⟨trivial, trivial⟩
  · split
    · exact note_finish.keeps fun a w ha => guarded_act a w ha.spares
    · exact Keeps.throw _

/-- **Once the finalizer was seen to**, it stays. -/
theorem keeps_reconcileResources : Keeps (World.Guarded key) (reconcileResources op env request c) := by
  have hremark : ∀ {α : Type} {x : Op α}, Does Act.IsRemark x → Keeps (World.Guarded key) x := fun hx =>
    hx.keeps fun a w ha => guarded_act a w ha.spares
  have hspares : ∀ {α : Type} {x : Op α}, Does (Act.Spares key) x → Keeps (World.Guarded key) x := fun hx =>
    hx.keeps guarded_act
  have hsecret : Does (Act.Spares key) (ensureOperatorSecret op env c.toResource) :=
    does_ensureOperatorSecret (fun _ => trivial) (fun _ _ => trivial) (fun _ _ => trivial) trivial
  refine Keeps.bind (hspares hsecret).attempt fun r => ?_
  cases r with
  | error e => exact keeps_handleErrAndRequeue
  | ok _ =>
    refine Keeps.bind (hremark note_new).attempt fun r => ?_
    cases r with
    | error e => exact keeps_handleErrAndRequeue
    | ok st =>
      refine Keeps.bind (Keeps.outcome _) fun legacy => Keeps.ite (fun _ => ?_) fun _ => ?_
      · refine Keeps.bind ?_ fun _ => Keeps.bind (Keeps.outcome _) fun _ => ?_
        · exact (hspares (Storage.does_resetHash (fun _ => trivial) fun _ _ => trivial)).mapError
        · exact Keeps.bind (hremark (Op.does_wrapError StatusManager.note_update)) fun _ => Keeps.pure _
      · refine Keeps.bind (Keeps.outcome _) fun hash => ?_
        refine Keeps.bind (Keeps.outcome _).mapError fun p => Keeps.bind ?_ fun st => keeps_reconcileStored
        exact (hspares (Storage.does_store (fun _ => trivial) (fun _ _ => trivial) fun _ _ _ => trivial)).mapError

/-- A resource that has the finalizer, and is to have it, keeps it. -/
theorem keeps_addOrUpdate (hguarded : c.spec.allowUnsafeDelete ≠ some true)
    (hfinalizer : CoherenceFinalizer ∈ c.metadata.finalizers) :
    Keeps (World.Guarded key) (addOrUpdate op env request c) := by
  have hremark : ∀ {α : Type} {x : Op α}, Does Act.IsRemark x → Keeps (World.Guarded key) x := fun hx =>
    hx.keeps fun a w ha => guarded_act a w ha.spares
  have hensure : ensureFinalizer env c = (Pure.pure false : Op Bool) := by
    rw [ensureFinalizer, if_neg hguarded, FinalizerManager.ensureFinalizerApplied, if_pos hfinalizer]
  rw [addOrUpdate, hensure]
  refine Keeps.bind (Keeps.pure _) fun changed => Keeps.ite (fun _ => Keeps.pure _) fun _ => ?_
  refine Keeps.bind (hremark ?_) fun _ => Keeps.ite (fun _ => ?_) fun _ => keeps_reconcileResources
  · unfold ensureStatus
    split
    · exact Does.pure _
    · exact StatusManager.note_update
  · have hpatch : Does (Act.Spares key) (patchReplicas env c) :=
      Op.does_wrapError (Op.does_wrapError (does_change trivial trivial))
    exact Keeps.bind (hpatch.keeps guarded_act) fun _ => Keeps.pure _

end CoherenceReconciler

end CoherenceOperator
