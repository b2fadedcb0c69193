import CoherenceOperator.Footprint.Owners

/-!
# Orphans

An object whose owner is gone should be deleted by the reconciler of its kind. It never is: the owner that is
found is a nil pointer in an interface value that is not nil, so every reconciler takes it for an owner. Those of
ConfigMaps, Secrets and Services ask it for its name and panic; the others go on to update the
object on its behalf.
-/

namespace CoherenceOperator

open Effect Prog

/-- The object refers to a Coherence or a CoherenceJob that does not exist. -/
def IsOrphan (w : World) (m : ObjectMeta) : Prop :=
  ∃ owner, m.coherenceOwner = some owner ∧ (w.pointer owner).IsAbsent

/-- What it is to take the orphan branch: the deletion is asked for, nothing is created or changed, and nothing
is read of the owner that is not there. -/
structure TakesOrphanBranch (op : Operator) (env : Env) (kind : ResourceType) (key : NamespacedName) (w : World) :
    Prop where
  deletes : .call ⟨.delete, kind, key⟩ ∈ w.since (exec (reconcileSecondaryObject op env kind key) w).2
  only : ∀ c, .call c ∈ w.since (exec (reconcileSecondaryObject op env kind key) w).2 →
    c.verb = .get ∨ c.verb = .delete
  noPanic : ∀ e, (exec (reconcileSecondaryObject op env kind key) w).1 = .error e → e.isPanic = false

section

variable {op : Operator} {env : Env} {w : World} {key : NamespacedName} {o : Object}

theorem Secondary.path_reconcile_of_orphan {kind : ResourceType} {u : World} (p : Path Act.IsKeeping w u)
    (h : u.find kind key = some o) (ho : IsOrphan u o.metadata) :
    Wp (Secondary.reconcile op env kind key) (fun _ v => Path Act.IsKeeping w v) u := by
  obtain ⟨owner, howner, habsent⟩ := ho
  unfold Secondary.reconcile
  split
  · exact p
  have hget : Path Act.IsKeeping w (u.sent ⟨.get, kind, key⟩) := path_sent p (by simp)
  have hown : Path Act.IsKeeping w ((u.sent ⟨.get, kind, key⟩).sent owner.call) := path_sent hget (by simp [Owner.call])
  refine Wp.bind (P := fun _ v => Path Act.IsKeeping w v) ?_ (fun _ _ hv => hv) fun _ _ hv => hv
  refine wp_read_bind (fun _ => hget) ?_
  simp only [World.find_sent, h]
  refine wp_ownerOf_bind howner (fun _ => hown) ?_
  refine (Does.bind Secondary.does_isStoreOf fun b => Does.ite (fun _ => Does.pure _) fun _ => ?_).wp_trans hown
  refine Does.bind (Secondary.call_storageOf.mono fun _ ha => ha.isRemark.isKeeping) fun storage => ?_
  refine Secondary.does_settle ?_ (fun _ ha => ha.isRemark.isKeeping) ?_ (fun _ _ _ _ _ _ => trivial) fun _ _ _ => trivial
  · rintro _ ⟨⟩
    exact World.find_filed _ h
  · intro hnil
    rw [World.pointer_isNil] at hnil
    cases hnil

theorem Secondary.path_reconcileSecret_of_orphan (h : w.find .secret key = some o) (ho : IsOrphan w o.metadata) :
    Wp (Secondary.reconcileSecret op env key) (fun _ v => Path Act.IsKeeping w v) w := by
  have hget : Path Act.IsKeeping w (w.sent ⟨.get, .secret, key⟩) := path_sent .refl (by simp)
  have hrec : Wp (Secondary.reconcile op env .secret key) (fun _ v => Path Act.IsKeeping w v)
      (w.sent ⟨.get, .secret, key⟩) := Secondary.path_reconcile_of_orphan hget h ho
  refine Wp.bind (P := fun _ v => v = w.sent ⟨.get, .secret, key⟩) ?_ ?_ ?_
  · refine Wp.attempt ?_
    rw [Wp, Secondary.findResource, getObject, exec_read]
  · rintro r _ rfl
    split
    · split
      · exact hget
      · exact hrec
    · exact hrec
  · rintro e _ rfl
    exact hget

theorem ServiceMonitor.path_reconcile_of_orphan (h : w.find .serviceMonitor key = some o)
    (ho : IsOrphan w o.metadata) : Wp (ServiceMonitor.reconcile op env key) (fun _ v => Path Act.IsKeeping w v) w := by
  obtain ⟨owner, howner, habsent⟩ := ho
  unfold ServiceMonitor.reconcile
  split
  · exact .refl
  have hst : Path Act.IsKeeping w (w.sent ⟨.get, .secret, key⟩) := path_sent .refl (by simp)
  refine wp_new_bind (fun _ => hst) ?_
  refine Wp.bind (P := fun _ v => Path Act.IsKeeping w v) ?_ (fun _ _ hv => hv) fun _ _ hv => hv
  unfold ServiceMonitor.reconcileSingleResource
  split
  · exact hst
  have hget := path_sent hst (c := ⟨.get, .serviceMonitor, key⟩) (by simp)
  have hown := path_sent hget (c := owner.call) (by simp [Owner.call])
  refine wp_read_bind (fun _ => hget) ?_
  simp only [World.find_sent, h]
  refine wp_ownerOf_bind howner (fun _ => hown) ?_
  refine (ServiceMonitor.does_settle ?_ (fun _ ha => ha.isRemark.isKeeping) ?_ (fun _ _ _ => trivial)
    fun _ _ _ => trivial).wp_trans hown
  · rintro _ ⟨⟩
    exact World.find_filed _ h
  · intro hz
    simp [habsent.isNilOrZero] at hz

theorem StatefulSetReconciler.path_reconcile_of_orphan (h : w.find .statefulSet key = some o)
    (ho : IsOrphan w o.metadata) :
    Wp (StatefulSetReconciler.reconcile op env key) (fun _ v => Path Act.IsKeeping w v) w := by
  obtain ⟨owner, howner, habsent⟩ := ho
  unfold StatefulSetReconciler.reconcile
  split
  · exact .refl
  have hst : Path Act.IsKeeping w (w.sent ⟨.get, .secret, key⟩) := path_sent .refl (by simp)
  refine wp_new_bind (fun _ => hst) ?_
  unfold StatefulSetReconciler.reconcileAllResourceOfKind
  split
  · exact hst
  have hget := path_sent hst (c := ⟨.get, .statefulSet, key⟩) (by simp)
  have hown := path_sent hget (c := owner.call) (by simp [Owner.call])
  refine wp_read_bind (fun _ => hget) ?_
  obtain ⟨s, rfl⟩ := Object.exists_eq_toObject_of_kind (World.find_filed _ h).1
  have hs : w.statefulSet key = some s := World.statefulSet_eq_some.2 h
  simp only [World.statefulSet_sent, hs]
  split
  · exact hget
  refine wp_ownerOf_bind howner (fun _ => hown) ?_
  refine (StatefulSetReconciler.does_settle ⟨fun _ => Act.IsNote.isKeeping, fun _ _ => trivial, fun _ _ _ => trivial,
    fun _ _ _ => trivial, fun _ _ => trivial, fun _ _ _ => trivial⟩ ?_ ?_).wp_trans hown
  · rintro _ ⟨⟩
    exact (World.find_filed _ h).2
  · intro hz
    simp [habsent.isNilOrZero] at hz

theorem JobReconciler.path_reconcile_of_orphan (h : w.find .job key = some o) (ho : IsOrphan w o.metadata) :
    Wp (JobReconciler.reconcile op env key) (fun _ v => Path Act.IsKeeping w v) w := by
  obtain ⟨owner, howner, habsent⟩ := ho
  unfold JobReconciler.reconcile
  split
  · exact .refl
  have hst : Path Act.IsKeeping w (w.sent ⟨.get, .secret, key⟩) := path_sent .refl (by simp)
  refine wp_new_bind (fun _ => hst) ?_
  unfold JobReconciler.reconcileAllResourceOfKind
  split
  · exact hst
  have hget := path_sent hst (c := ⟨.get, .job, key⟩) (by simp)
  have hown := path_sent hget (c := owner.call) (by simp [Owner.call])
  refine wp_read_bind (fun _ => hget) ?_
  obtain ⟨j, rfl⟩ := Object.exists_eq_toObject_of_kind_job (World.find_filed _ h).1
  have hj : w.job key = some j := World.job_eq_some.2 h
  simp only [World.job_sent, hj]
  split
  · exact hget
  refine wp_ownerOf_bind howner (fun _ => hown) ?_
  refine (JobReconciler.does_settle ⟨fun _ => Act.IsNote.isKeeping, fun _ _ _ => trivial,
    fun _ _ _ => trivial⟩ ?_ ?_).wp_trans hown
  · rintro _ ⟨⟩
    exact (World.find_filed _ h).2
  · intro hz
    simp [habsent.isNilOrZero] at hz

/-- Whatever the kind, the deletion of an orphan is not asked for. -/
theorem path_reconcileSecondaryObject_of_orphan (h : w.find o.kind o.key = some o) (ho : IsOrphan w o.metadata) :
    Path Act.IsKeeping w (exec (reconcileSecondaryObject op env o.kind o.key) w).2 := by
  unfold reconcileSecondaryObject
  split
  · exact Secondary.path_reconcile_of_orphan .refl h ho
  · exact Secondary.path_reconcile_of_orphan .refl h ho
  · rename_i hk
    exact Secondary.path_reconcileSecret_of_orphan (hk ▸ h) ho
  · rename_i hk
    exact ServiceMonitor.path_reconcile_of_orphan (hk ▸ h) ho
  · rename_i hk
    exact StatefulSetReconciler.path_reconcile_of_orphan (hk ▸ h) ho
  · rename_i hk
    exact JobReconciler.path_reconcile_of_orphan (hk ▸ h) ho
  · exact .refl
  · exact .refl

/-- What becomes of an orphan of a kind without a reconciler of its own: the absent owner is asked for its name. -/
theorem Secondary.reconcile_of_orphan {kind : ResourceType} (henv : env.Reliable) (hlocked : env.locked = false)
    (h : w.find kind key = some o) (ho : IsOrphan w o.metadata) :
    (exec (Secondary.reconcile op env kind key) w).1 = .error nilDereference := by
  obtain ⟨owner, howner, habsent⟩ := ho
  have hderef : (w.pointer owner).deref = .error nilDereference := by
    cases hp : w.pointer owner with
    | nil => rw [hp] at habsent; exact habsent.elim
    | coherence c | coherenceJob c =>
      cases c with
      | none => rfl
      | some _ => rw [hp] at habsent; exact habsent.elim
  show Wp (Secondary.reconcile op env kind key) (fun r _ => r = .error nilDereference) w
  simp only [Secondary.reconcile, hlocked, Bool.false_eq_true, if_false]
  refine Wp.bind (P := fun r _ => r = .error nilDereference) ?_ (fun _ _ hr => nomatch hr) fun e _ hr => ?_
  · refine wp_read_bind_of_reliable henv ?_
    simp only [World.find_sent, h]
    refine Wp.bind_ok (exec_ownerOf_of_owned henv howner) ?_
    by_cases hsecret : kind = .secret
    · simp [Wp, exec_bind, Secondary.isStoreOf, World.pointer_isNil, hsecret, hderef]
    · simp [Wp, exec_bind, Secondary.isStoreOf, Secondary.storageOf, World.pointer_isNil, hsecret, hderef]
  · cases hr
    rfl

/-- **No orphan takes the orphan branch**, whatever its kind and whatever the environment of the reconcile. -/
theorem not_takesOrphanBranch (h : w.find o.kind o.key = some o) (ho : IsOrphan w o.metadata) :
    ¬ TakesOrphanBranch op env o.kind o.key w := fun hb =>
  mem_since_of_path (path_reconcileSecondaryObject_of_orphan h ho) hb.deletes rfl

end

/-- A Service whose owner is gone. -/
def orphan : Object where
  metadata := { ns := "default", name := "storage-wka", ownerReferences := [⟨"Coherence", "storage", true⟩] }
  body := .service {}

/-- A cluster with this Service and no Coherence resource. -/
def orphanedCluster : World := { (default : World) with objects := Table.empty.put orphan }

/-- The reconciler of Services panics on the Service. -/
theorem not_forall_takesOrphanBranch :
    ¬ ∀ (op : Operator) (env : Env) (w : World) (o : Object), w.find o.kind o.key = some o →
      IsOrphan w o.metadata → TakesOrphanBranch op env o.kind o.key w := by
  intro h
  have hpanic := (h default {} orphanedCluster orphan (by rfl)
    ⟨⟨.coherence, "default", "storage"⟩, by rfl, trivial⟩).noPanic nilDereference (by rfl)
  cases hpanic

/-- The Service is an orphan that stays. -/
theorem orphan_not_takesOrphanBranch : ¬ TakesOrphanBranch default {} orphan.kind orphan.key orphanedCluster :=
  not_takesOrphanBranch (o := orphan) (by rfl) ⟨⟨.coherence, "default", "storage"⟩, by rfl, trivial⟩

end CoherenceOperator
