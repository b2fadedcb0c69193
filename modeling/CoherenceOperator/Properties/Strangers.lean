import CoherenceOperator.Footprint.Owners

/-!
# What the operator deletes

On an event of an object of a resource the reconciler of the kind looks for an object with the name of the resource.
If there is one that has nothing to do with the operator, it has no owner, and is deleted as if its owner
were gone. An object that is owned is the only other thing an event can delete, so this is
the only case in which something else is deleted.
-/

namespace CoherenceOperator

open Effect Prog

/-- Whatever the environment, what is deleted on the request is owned by a Coherence or a CoherenceJob. -/
def DeletesOnlyOwned (op : Operator) (kind : ResourceType) (request : NamespacedName) (w : World) : Prop :=
  ∀ (env : Env) (k : ResourceType) (key : NamespacedName) (o : Object),
    .deleteObject k key ∈ w.since (exec (reconcileSecondaryObject op env kind request) w).2 →
      w.find k key = some o → o.metadata.IsOwned

/-- Does the reconciler of the kind look at the object? Those of StatefulSets and of Jobs go by what is stored under
the name. -/
def IsLookedAt (kind : ResourceType) (request : NamespacedName) (w : World) : Prop :=
  match kind with
  | .statefulSet => (Storage.load request (w.store request)).isJob request = false
  | .job => (Storage.load request (w.store request)).isJob request = true
  | _ => True

/-- An object under the request's name that has nothing to do with the operator. -/
structure IsStranger (kind : ResourceType) (request : NamespacedName) (o : Object) (w : World) : Prop where
  found : w.find kind request = some o
  live : o.metadata.deletionTimestamp = none
  unowned : ¬ o.metadata.IsOwned
  lookedAt : IsLookedAt kind request w

/-- Acts that delete one object at most. -/
def Act.DeletesAt (kind : ResourceType) (key : NamespacedName) : Act → Prop
  | .deleteObject k key' => k = kind ∧ key' = key
  | _ => True

theorem Act.IsNote.deletesAt {kind : ResourceType} {key : NamespacedName} {a : Act} (h : a.IsNote) :
    a.DeletesAt kind key := by
  cases a with
  | deleteObject => exact h.elim
  | _ => trivial

theorem Act.IsRemark.deletesAt {kind : ResourceType} {key : NamespacedName} {a : Act} (h : a.IsRemark) :
    a.DeletesAt kind key := h.isNote.deletesAt

section

variable {op : Operator} {env : Env} {w : World} {kind : ResourceType} {request : NamespacedName} {o : Object}

/-- On a request nothing is deleted but the object of the kind under its name. -/
theorem does_reconcileSecondaryObject :
    Does (Act.DeletesAt kind request) (reconcileSecondaryObject op env kind request) := by
  have hsec : Does (Act.DeletesAt kind request) (Secondary.reconcile op env kind request) :=
    Secondary.does_reconcile (fun _ ha => ha.isRemark.deletesAt) ⟨trivial, rfl, rfl⟩ (fun _ _ _ => trivial)
      fun _ _ _ => trivial
  cases kind with
  | configMap | service => exact hsec
  | secret => exact Secondary.does_reconcileSecret (fun _ ha => ha.isRemark.deletesAt) hsec
  | serviceMonitor =>
    exact ServiceMonitor.does_reconcile (fun _ ha => ha.isRemark.deletesAt) ⟨trivial, rfl, rfl⟩ (fun _ _ => trivial)
      fun _ _ _ => trivial
  | statefulSet =>
    exact StatefulSetReconciler.does_reconcile (fun st => ⟨fun _ => Act.IsNote.deletesAt, fun _ _ => trivial,
      fun _ _ _ => trivial, fun _ _ _ => trivial, fun _ _ => trivial, fun _ _ _ => trivial⟩) ⟨trivial, rfl, rfl⟩
  | job =>
    exact JobReconciler.does_reconcile (fun st => ⟨fun _ => Act.IsNote.deletesAt, fun _ _ _ => trivial,
      fun _ _ _ => trivial⟩) ⟨trivial, rfl, rfl⟩
  | coherence | coherenceJob => exact Does.pure _

/-! ### Objects that are passed over -/

theorem Secondary.path_reconcile_of_terminating {u : World} (p : Path Act.IsKeeping w u)
    (h : u.find kind request = some o) (hown : ¬ o.metadata.IsOwned) (ht : o.metadata.deletionTimestamp ≠ none) :
    Wp (Secondary.reconcile op env kind request) (fun _ v => Path Act.IsKeeping w v) u := by
  unfold Secondary.reconcile
  split
  · exact p
  have hget := path_sent p (c := ⟨.get, kind, request⟩) (by simp)
  refine Wp.bind (P := fun _ v => Path Act.IsKeeping w v) ?_ (fun _ v (hv : Path Act.IsKeeping w v) => hv)
    fun _ _ hv => hv
  refine wp_read_bind (fun _ => hget) ?_
  simp only [World.find_sent, h]
  refine Wp.bind_ok (exec_ownerOf_of_unowned (by simpa using ObjectMeta.coherenceOwner_eq_none.2 hown)) ?_
  have hlive : Secondary.live (some o) = none := by
    rw [Secondary.live, Option.filter_eq_none_iff]
    rintro _ ⟨⟩
    simpa using ht
  simp only [Secondary.isStoreOf, Secondary.storageOf, Secondary.settle, Deployment.isNil, Wp, exec_bind, exec_pure,
    Bool.not_true, Bool.false_and, Bool.false_eq_true, if_false, if_true, hlive, Option.isSome_none]
  exact hget

theorem StatefulSetReconciler.path_reconcile_of_passedOver (h : w.find .statefulSet request = some o)
    (hp : o.metadata.deletionTimestamp ≠ none ∨ (Storage.load request (w.store request)).isJob request = true) :
    Wp (StatefulSetReconciler.reconcile op env request) (fun _ v => Path Act.IsKeeping w v) w := by
  unfold StatefulSetReconciler.reconcile
  split
  · exact .refl
  have hst := path_sent (w := w) .refl (c := ⟨.get, .secret, request⟩) (by simp)
  refine wp_new_bind (fun _ => hst) ?_
  unfold StatefulSetReconciler.reconcileAllResourceOfKind
  split
  · exact hst
  rename_i hjob
  have hget := path_sent hst (c := ⟨.get, .statefulSet, request⟩) (by simp)
  refine wp_read_bind (fun _ => hget) ?_
  obtain ⟨s, rfl⟩ := Object.exists_eq_toObject_of_kind (World.find_filed _ h).1
  have hs : w.statefulSet request = some s := World.statefulSet_eq_some.2 h
  have ht : s.metadata.deletionTimestamp.isSome := Option.isSome_iff_ne_none.2 (hp.resolve_right hjob)
  simp only [World.statefulSet_sent, hs, Option.any_some, ht, if_true]
  exact hget

theorem JobReconciler.path_reconcile_of_passedOver (h : w.find .job request = some o)
    (hp : o.metadata.deletionTimestamp ≠ none ∨ (Storage.load request (w.store request)).isJob request = false) :
    Wp (JobReconciler.reconcile op env request) (fun _ v => Path Act.IsKeeping w v) w := by
  unfold JobReconciler.reconcile
  split
  · exact .refl
  have hst := path_sent (w := w) .refl (c := ⟨.get, .secret, request⟩) (by simp)
  refine wp_new_bind (fun _ => hst) ?_
  unfold JobReconciler.reconcileAllResourceOfKind
  split
  · exact hst
  rename_i hjob
  have hget := path_sent hst (c := ⟨.get, .job, request⟩) (by simp)
  refine wp_read_bind (fun _ => hget) ?_
  obtain ⟨j, rfl⟩ := Object.exists_eq_toObject_of_kind_job (World.find_filed _ h).1
  have hj : w.job request = some j := World.job_eq_some.2 h
  have ht : j.metadata.deletionTimestamp.isSome :=
    Option.isSome_iff_ne_none.2 (hp.resolve_right fun hf => hjob (by simp [hf]))
  simp only [World.job_sent, hj, Option.any_some, ht, if_true]
  exact hget

/-- An unowned object that is no stranger stays. -/
theorem path_reconcileSecondaryObject_of_not_stranger (hk : canWatch kind = true) (h : w.find kind request = some o)
    (hown : ¬ o.metadata.IsOwned) (hs : ¬ IsStranger kind request o w) :
    Path Act.IsKeeping w (exec (reconcileSecondaryObject op env kind request) w).2 := by
  have hp : o.metadata.deletionTimestamp ≠ none ∨ ¬ IsLookedAt kind request w := by
    by_contra hc
    push Not at hc
    exact hs ⟨h, hc.1, hown, hc.2⟩
  cases kind with
  | configMap | service =>
    exact Secondary.path_reconcile_of_terminating .refl h hown (hp.resolve_right fun hl => hl trivial)
  | statefulSet =>
    exact StatefulSetReconciler.path_reconcile_of_passedOver h (hp.imp_right fun hl => by simpa [IsLookedAt] using hl)
  | job => exact JobReconciler.path_reconcile_of_passedOver h (hp.imp_right fun hl => by simpa [IsLookedAt] using hl)
  | secret | serviceMonitor => cases hk
  | coherence | coherenceJob => exact .refl

/-! ### Strangers are deleted -/

theorem exec_delete_of_reliable (henv : env.Reliable) (h : w.find kind request = some o) :
    exec (Secondary.delete env kind request) w =
      (.ok (), Acts.act (.deleteObject kind request) (w.sent ⟨.delete, kind, request⟩)) := by
  simp only [Secondary.delete, Op.ignoreError, Op.attempt, deleteObject, change, exec_bind, exec_attempt, exec_request,
    exec_get, World.answer_eq_ok _ _ henv, World.find_sent, h, exec_perform, caught_ok, exec_pure]

theorem did_delete (henv : env.Reliable) {u : World} {A : Act → Prop} (p : Path A w u)
    (h : u.find kind request = some o) :
    Wp (Secondary.delete env kind request) (fun r v => r = .ok () ∧ w.Did v (.deleteObject kind request)) u := by
  rw [Wp, exec_delete_of_reliable henv h]
  have hcall : Path (fun _ => True) u (u.sent ⟨.delete, kind, request⟩) := .single ⟨_, trivial, rfl⟩
  exact ⟨rfl, .of_path p (.of_path hcall World.did_act)⟩

theorem Secondary.did_reconcile (henv : env.Reliable) (hlocked : env.locked = false)
    (h : w.find kind request = some o) (ht : o.metadata.deletionTimestamp = none) (hown : ¬ o.metadata.IsOwned) :
    Wp (Secondary.reconcile op env kind request) (fun _ v => w.Did v (.deleteObject kind request)) w := by
  simp only [Secondary.reconcile, hlocked, Bool.false_eq_true, if_false]
  refine Wp.bind (P := fun _ v => w.Did v (.deleteObject kind request)) ?_
    (fun _ v (hv : w.Did v (.deleteObject kind request)) => hv) fun _ _ hv => hv
  have hget := path_sent (w := w) .refl (c := ⟨.get, kind, request⟩) (by simp)
  refine wp_read_bind_of_reliable henv ?_
  simp only [World.find_sent, h]
  refine Wp.bind_ok (exec_ownerOf_of_unowned (by simpa using ObjectMeta.coherenceOwner_eq_none.2 hown)) ?_
  have hlive : Secondary.live (some o) = some o := by simp [Secondary.live, ht]
  have hdel : Wp (Secondary.delete env kind request) _ _ := did_delete henv hget (o := o) h
  have hrest : exec (Secondary.delete env kind request) (w.sent ⟨.get, kind, request⟩) = exec (do
      if ← Secondary.isStoreOf kind request.name .nil then return ()
      else do
        let storage ← Secondary.storageOf env none .nil
        Secondary.settle op env kind request (some o) .nil storage) (w.sent ⟨.get, kind, request⟩) := by
    simp [Secondary.isStoreOf, Secondary.storageOf, Secondary.settle, Deployment.isNil, hlive]
  rw [Wp, ← hrest]
  exact hdel.2

theorem StatefulSetReconciler.did_reconcile (henv : env.Reliable) (hlocked : env.locked = false)
    (h : IsStranger .statefulSet request o w) :
    Wp (StatefulSetReconciler.reconcile op env request) (fun _ v => w.Did v (.deleteObject .statefulSet request)) w := by
  obtain ⟨h, ht, hown, hl⟩ := h
  have hl : (Storage.load request (w.store request)).isJob request = false := hl
  simp only [StatefulSetReconciler.reconcile, hlocked, Bool.false_eq_true, if_false]
  have hst := path_sent (w := w) .refl (c := ⟨.get, .secret, request⟩) (by simp)
  refine Wp.bind_ok (exec_new_of_reliable henv) ?_
  simp only [StatefulSetReconciler.reconcileAllResourceOfKind, hl, Bool.false_eq_true, if_false]
  have hget := path_sent hst (c := ⟨.get, .statefulSet, request⟩) (by simp)
  refine wp_read_bind_of_reliable henv ?_
  obtain ⟨s, rfl⟩ := Object.exists_eq_toObject_of_kind (World.find_filed _ h).1
  have hs : w.statefulSet request = some s := World.statefulSet_eq_some.2 h
  have hs' : s.metadata.deletionTimestamp.isSome = false := by simpa using ht
  simp only [World.statefulSet_sent, hs, Option.any_some, hs', Bool.false_eq_true, if_false]
  refine Wp.bind_ok (exec_ownerOf_of_unowned (by simpa using ObjectMeta.coherenceOwner_eq_none.2 hown)) ?_
  have hdel : Wp (Secondary.delete env .statefulSet request) _ _ := did_delete henv hget h
  refine Wp.bind_ok (a := true) rfl ?_
  refine Wp.bind hdel (fun _ v hv => ?_) fun _ _ hv => hv.2
  have hA : Permits (fun _ => True) request (Storage.load request (w.store request)) :=
    ⟨fun _ _ => trivial, fun _ _ => trivial, fun _ _ _ => trivial, fun _ _ _ => trivial, fun _ _ => trivial,
      fun _ _ _ => trivial⟩
  exact hv.2.trans_path (does_finish hA v)

theorem JobReconciler.did_reconcile (henv : env.Reliable) (hlocked : env.locked = false)
    (h : IsStranger .job request o w) :
    Wp (JobReconciler.reconcile op env request) (fun _ v => w.Did v (.deleteObject .job request)) w := by
  obtain ⟨h, ht, hown, hl⟩ := h
  have hl : (Storage.load request (w.store request)).isJob request = true := hl
  simp only [JobReconciler.reconcile, hlocked, Bool.false_eq_true, if_false]
  have hst := path_sent (w := w) .refl (c := ⟨.get, .secret, request⟩) (by simp)
  refine Wp.bind_ok (exec_new_of_reliable henv) ?_
  simp only [JobReconciler.reconcileAllResourceOfKind, hl, Bool.not_true, Bool.false_eq_true, if_false]
  have hget := path_sent hst (c := ⟨.get, .job, request⟩) (by simp)
  refine wp_read_bind_of_reliable henv ?_
  obtain ⟨j, rfl⟩ := Object.exists_eq_toObject_of_kind_job (World.find_filed _ h).1
  have hj : w.job request = some j := World.job_eq_some.2 h
  have hj' : j.metadata.deletionTimestamp.isSome = false := by simpa [Job.toObject] using ht
  simp only [World.job_sent, hj, Option.any_some, hj', Bool.false_eq_true, if_false]
  refine Wp.bind_ok (exec_ownerOf_of_unowned (by simpa using ObjectMeta.coherenceOwner_eq_none.2 hown)) ?_
  have hdel : Wp (Secondary.delete env .job request) _ _ := did_delete henv hget h
  refine Wp.bind_ok (a := true) rfl ?_
  refine Wp.bind hdel (fun _ v hv => ?_) fun _ _ hv => hv.2
  refine hv.2.trans_path (A := Act.IsRemark) ?_
  exact (Does.bind note_updateDeploymentStatus fun _ => Does.pure _) v

/-- A stranger is deleted when nothing fails. -/
theorem did_reconcileSecondaryObject (hk : canWatch kind = true) (henv : env.Reliable) (hlocked : env.locked = false)
    (h : IsStranger kind request o w) :
    w.Did (exec (reconcileSecondaryObject op env kind request) w).2 (.deleteObject kind request) := by
  cases kind with
  | configMap | service => exact Secondary.did_reconcile henv hlocked h.found h.live h.unowned
  | statefulSet => exact StatefulSetReconciler.did_reconcile henv hlocked h
  | job => exact JobReconciler.did_reconcile henv hlocked h
  | secret | serviceMonitor => cases hk
  | coherence | coherenceJob =>
    have hf := h.found
    rw [World.find_of_ne_secret _ (by decide)] at hf
    obtain ⟨hkind, -⟩ := Prod.mk.inj (w.objects.filed _ _ hf)
    obtain ⟨m, b⟩ := o
    cases b <;> cases hkind

/-! ### The result -/

/-- On a request only what is owned is deleted if and only if there is no stranger under its name. -/
theorem deletesOnlyOwned_iff_forall (hk : canWatch kind = true) :
    DeletesOnlyOwned op kind request w ↔ ∀ o, ¬ IsStranger kind request o w := by
  constructor
  · intro h o hs
    have hdid : w.Did (exec (reconcileSecondaryObject op {} kind request) w).2 (.deleteObject kind request) :=
      did_reconcileSecondaryObject hk rfl rfl hs
    exact hs.unowned (h {} kind request o hdid.mem_since hs.found)
  · intro h env k key o ho hf
    by_contra hown
    obtain ⟨rfl, rfl⟩ := mem_since_of_does (A := Act.DeletesAt kind request) does_reconcileSecondaryObject ho
    exact mem_since_of_path (path_reconcileSecondaryObject_of_not_stranger hk hf hown (h o)) ho

/-- **Only what is owned is deleted** on the requests of an event if and only if there is no stranger under the name of
one of these requests. -/
theorem deletesOnlyOwned_iff {owner : ResourceType} {e : Event} :
    (∀ request ∈ watchSecondaryResource kind owner e, DeletesOnlyOwned op kind request w) ↔
      ∀ request ∈ watchSecondaryResource kind owner e, ∀ o, ¬ IsStranger kind request o w := by
  refine forall₂_congr fun request hr => deletesOnlyOwned_iff_forall ?_
  by_contra hk
  simp [watchSecondaryResource, hk] at hr

end

/-- A Service of the operator. -/
def headlessService : Object where
  metadata := { ns := "default", name := "storage-sts", ownerReferences := [⟨"Coherence", "storage", true⟩] }
  body := .service {}

/-- A Service of somebody else, with the name of the Coherence resource. -/
def foreignService : Object where
  metadata := { ns := "default", name := "storage" }
  body := .service {}

/-- A cluster with both. -/
def sharedCluster : World :=
  { (default : World) with objects := (Table.empty.put headlessService).put foreignService }

/-- An update of the one Service deletes the other. -/
theorem not_forall_deletesOnlyOwned :
    ¬ ∀ (op : Operator) (kind owner : ResourceType) (e : Event) (w : World),
      ∀ request ∈ watchSecondaryResource kind owner e, DeletesOnlyOwned op kind request w := by
  intro h
  have hs : IsStranger .service ⟨"default", "storage"⟩ foreignService sharedCluster :=
    ⟨by rfl, rfl, by simp [ObjectMeta.IsOwned, foreignService], trivial⟩
  have hdid : sharedCluster.Did
      (exec (reconcileSecondaryObject default {} .service ⟨"default", "storage"⟩) sharedCluster).2
      (.deleteObject .service ⟨"default", "storage"⟩) := did_reconcileSecondaryObject (by rfl) rfl rfl hs
  exact hs.unowned (h default .service .coherence (.update headlessService headlessService) sharedCluster _
    (by decide) {} _ _ _ hdid.mem_since hs.found)

end CoherenceOperator
