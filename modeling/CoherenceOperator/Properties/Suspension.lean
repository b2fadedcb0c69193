import CoherenceOperator.Footprint.Owners
import CoherenceOperator.Footprint.Suspending
import CoherenceOperator.Lib.Run

/-!
# Services are suspended before members are stopped

Two controllers stop the members of a cluster: that of the resource lets it go when it was deleted, and both delete
its StatefulSet when it is scaled to zero. In every round of either the services were suspended then, or one of the
reasons holds not to (`MayFinalize`, `Suspended`).
-/

namespace CoherenceOperator

open Effect Prog

variable {op : Operator} {env : Env} {request key : NamespacedName} {c : Coherence} {sts : StatefulSet} {w u : World}
  {st : Storage} {hash : String}

/-! ### The rounds of the resource -/

namespace CoherenceReconciler

/-- The secondary reconcilers, of which the last comes to `Q` from a state that the others lead to. -/
theorem wp_reconcileSecondary {I : World → Prop} {rs : List (Op Result)} {last : Op Result}
    {Q : Except GoError Result → World → Prop} (hrs : ∀ x ∈ rs, Keeps I x) (hlast : ∀ u, I u → Wp last Q u) (p : Progress)
    (hw : I w) : Wp (reconcileSecondary (rs ++ [last]) p) (fun r u => (∃ e, r = .error e ∧ I u) ∨
      ∃ r', Q r' u ∧ ((∃ e, r' = .error e) → ∀ progress, r = .ok progress → progress.failures ≠ [])) w := by
  induction rs generalizing p w with
  | nil =>
    rcases hrun : exec last w with ⟨r', u⟩
    have hQ : Q r' u := (hlast w hw).elim hrun
    simp only [List.nil_append, reconcileSecondary, Wp, exec_bind, Op.attempt, exec_attempt, hrun]
    cases r' with
    | ok result => exact .inr ⟨_, hQ, by rintro ⟨_, ⟨⟩⟩⟩
    | error e =>
      cases hpanic : e.isPanic with
      | true =>
        simp only [caught, hpanic, if_true]
        exact .inr ⟨_, hQ, fun _ _ h => by cases h⟩
      | false =>
        rw [caught_error hpanic]
        refine .inr ⟨_, hQ, ?_⟩
        rintro - _ ⟨⟩
        simp [Progress.failed]
  | cons x rs ih =>
    have hx : Wp x (fun _ u => I u) w := hrs x List.mem_cons_self w hw
    have hrest : ∀ p u, I u → Wp (reconcileSecondary (rs ++ [last]) p) _ u := fun p u hu =>
      ih (fun y hy => hrs y (List.mem_cons_of_mem _ hy)) p hu
    refine Wp.attempt_bind_ends (Wp.ends hx) (fun result u hu => hrest _ u hu) fun e u hu => ⟨hrest _ u hu, ?_⟩
    exact .inl ⟨e, rfl, hu⟩

theorem passes_of_note {a : Act} (h : a.IsNote) : a.PassesStatefulSet key := by
  intro w
  rw [World.statefulSet, h.objects, ← World.statefulSet]

/-- The first reconcilers pass the StatefulSet by. -/
theorem tends_passes : Tends (Act.PassesStatefulSet key) where
  remark _ ha := passes_of_note ha.isNote
  delete kind k hk := by
    refine ⟨fun _ => rfl, fun w => ?_⟩
    have hne : (ResourceType.statefulSet, key) ≠ (kind, k) := fun h => hk (Prod.mk.inj h).1.symm
    rw [World.statefulSet, World.statefulSet]
    simp only [Acts.act, Act.effect]
    split
    · rfl
    · rw [Table.get_erase_of_ne hne]
  create o ho w := by
    have hne : (ResourceType.statefulSet, key) ≠ o.ident := fun h => ho (Prod.mk.inj h).1.symm
    show ((w.objects.put o).get (.statefulSet, key)).bind _ = _
    rw [Table.get_put_of_ne hne, World.statefulSet]
  update o ho w := by
    have hne : (ResourceType.statefulSet, key) ≠ o.ident := fun h => ho (Prod.mk.inj h).1.symm
    show ((w.objects.put o).get (.statefulSet, key)).bind _ = _
    rw [Table.get_put_of_ne hne, World.statefulSet]

/-- **What is stored is reconciled**: the StatefulSet comes last. -/
theorem wp_reconcileStored (hsts : w.statefulSet request = some sts) :
    Wp (reconcileStored op env request c hash st)
      (Stops op env c sts request (StatefulSetReconciler.IsDue c sts request st) w) w := by
  have hthere : ∀ {v : World}, Path (Act.PassesStatefulSet request) w v → v.statefulSet request = some sts := fun p =>
    (p.unchanged (f := fun x : World => x.statefulSet request) fun a x ha => ha x).trans hsts
  have hlast : ∀ v, Path (Act.PassesStatefulSet request) w v →
      Wp (StatefulSetReconciler.reconcileAllResourceOfKind op env request (.coherence (some c)) st)
        (Stops op env c sts request (StatefulSetReconciler.IsDue c sts request st) w) v := by
    intro v p
    refine Wp.mono (StatefulSetReconciler.wp_reconcileAllResourceOfKind (hthere p)) fun r u hu => ?_
    have hmono : Suspended op env c sts v u → Suspended op env c sts w u :=
      fun h => h.of_path (B := fun _ => True) p .refl
    exact ⟨hu.kept.imp_right fun h => ⟨h.1, hmono h.2⟩, fun hdue => (hu.failed hdue).imp_left hmono⟩
  have hfirst : ∀ x ∈ firstReconcilers op env request (.coherence (some c)) st,
      Keeps (Path (Act.PassesStatefulSet request) w) x := fun x hx =>
    (does_firstReconcilers tends_passes hx).keeps fun a _ ha p => p.tail ⟨a, ha, rfl⟩
  refine Wp.bind (wp_reconcileSecondary hfirst hlast {} .refl) (fun progress v hv => ?_) fun e v hv => ?_
  · rcases hv with ⟨e, he, -⟩ | ⟨r', hstops, hfailures⟩
    · cases he
    cases hprogress : progress.failures with
    | cons e es => exact ⟨hstops.kept, fun _ => .inr ⟨_, rfl⟩⟩
    | nil =>
      refine Wp.mono (note_finish.wp v) fun r u hu => ?_
      have hmono : Suspended op env c sts w v → Suspended op env c sts w u :=
        fun h => h.of_path (A := fun _ => True) .refl hu
      have hleaves : Path (Act.LeavesStatefulSet request) v u := hu.mono fun _ => Act.IsRemark.leavesStatefulSet
      refine ⟨hstops.kept.imp (hasStatefulSet_of_path hleaves) fun h => ⟨h.1, hmono h.2⟩, fun hdue => .inl ?_⟩
      rcases hstops.failed hdue with hsuspended | herror
      · exact hmono hsuspended
      · exact absurd hprogress (hfailures herror progress rfl)
  · rcases hv with ⟨e', -, p⟩ | ⟨r', hstops, -⟩
    · exact ⟨.inl (.of_some (hthere p)), fun _ => .inr ⟨e, rfl⟩⟩
    · exact ⟨hstops.kept, fun _ => .inr ⟨e, rfl⟩⟩

end CoherenceReconciler

/-- The round comes to the secondary reconcilers, with this store. -/
def ComesToSecondary (op : Operator) (env : Env) (request : NamespacedName) (w : World) (c : Coherence) (st : Storage) : Prop :=
  ∃ hash v, Path (fun _ => True) w v ∧ v.statefulSet request = w.statefulSet request ∧
    exec (CoherenceReconciler.reconcile op env request) w =
      exec (CoherenceReconciler.reconcileStored op env request (c.updateStatusVersion op env.now) hash st) v

/-- What a round of the resource may do to its members. -/
structure StopsSafely (op : Operator) (env : Env) (request : NamespacedName) (w : World) (r : Except GoError Result) (u : World) :
    Prop where
  finalizer : ∀ c, w.coherence.get request = some c → CoherenceFinalizer ∈ c.metadata.finalizers → u.Guarded request ∨
    (if c.metadata.deletionTimestamp.isSome then MayFinalize op env c w u else c.spec.allowUnsafeDelete = some true)
  statefulSet : ∀ sts, w.statefulSet request = some sts → u.HasStatefulSet request ∨
    ∃ c, w.coherence.get request = some c ∧ c.metadata.deletionTimestamp = none ∧ c.getReplicas = 0 ∧ Suspended op env c sts w u
  retriedFinalizer : ∀ c, w.coherence.get request = some c → CoherenceFinalizer ∈ c.metadata.finalizers →
    c.metadata.deletionTimestamp.isSome → ¬ MayFinalize op env c w u → Retried r
  retriedStatefulSet : ∀ c sts st, w.coherence.get request = some c → w.statefulSet request = some sts →
    ComesToSecondary op env request w c st → StatefulSetReconciler.IsDue c sts request st →
      ¬ Suspended op env c sts w u → Retried r

/-- The services are those of the spec. -/
theorem Suspended.of_spec {c' : Coherence} (h : Suspended op env c' sts w u) (hspec : c'.spec = c.spec) :
    Suspended op env c sts w u := by
  cases h with
  | flag h => exact .flag h
  | off h => exact .off (hspec ▸ h)
  | noAction h => exact .noAction (hspec ▸ h)
  | noPods h => exact .noPods h
  | accepted pod hpod active hactive hlisted h => exact .accepted pod hpod active (hspec ▸ hactive) hlisted h

namespace CoherenceReconciler

theorem guarded_of_remark (p : Path Act.IsRemark w u) (h : w.Guarded key) : u.Guarded key :=
  p.invariant (fun a x ha => guarded_act a x ha.spares) h

/-- **The finalizer** is removed only if the resource may be let go, or is not to have it. -/
theorem wp_reconcile_finalizer (hc : w.coherence.get request = some c)
    (hfinalizer : CoherenceFinalizer ∈ c.metadata.finalizers) :
    Wp (reconcile op env request) (fun r u => u.Guarded request ∧ (c.metadata.deletionTimestamp.isSome → Retried r) ∨
      if c.metadata.deletionTimestamp.isSome then MayFinalize op env c w u else c.spec.allowUnsafeDelete = some true) w := by
  have hguarded : w.Guarded request := ⟨c, hc, hfinalizer⟩
  unfold reconcile
  by_cases hlocked : env.locked = true
  · rw [if_pos hlocked]
    refine .inl ⟨hguarded, fun _ => ?_⟩
    rintro _ ⟨⟩
    exact Nat.succ_pos _
  rw [if_neg hlocked]
  let call : ApiCall := ⟨.get, .coherence, request⟩
  have hcall : Path Act.IsRemark w (w.sent call) := .single ⟨.call call, by simp [Act.IsRemark, Act.IsNote, call], rfl⟩
  have hsent : (w.sent call).Guarded request := hguarded
  refine wp_read_bind (fun e => .inl ⟨hsent, fun _ => retried_error e⟩) ?_
  simp only [World.coherence_sent, hc]
  unfold reconcileFound
  by_cases hdeleted : c.metadata.deletionTimestamp.isSome = true
  · rw [if_pos hdeleted]
    refine Wp.mono (wp_finalize (w := w.sent call) hfinalizer) fun r u hu => ?_
    rcases hu with hmay | ⟨hretried, p⟩
    · refine .inr ?_
      rw [if_pos hdeleted]
      exact hmay.of_path (A := Act.IsRemark) hcall .refl
    · exact .inl ⟨guarded_of_remark p hsent, fun _ => hretried⟩
  rw [if_neg hdeleted]
  by_cases hguarded : c.spec.allowUnsafeDelete = some true
  · refine Wp.mono (Q := fun _ _ => True) trivial fun r u _ => .inr ?_
    rw [if_neg hdeleted]
    exact hguarded
  · have hkept : ∀ {x : Op Result}, Keeps (World.Guarded request) x → Wp x (fun r u =>
        u.Guarded request ∧ (c.metadata.deletionTimestamp.isSome = true → Retried r) ∨
          if c.metadata.deletionTimestamp.isSome = true then MayFinalize op env c w u
          else c.spec.allowUnsafeDelete = some true) (w.sent call) := fun hx =>
      .inl ⟨hx _ hsent, fun h => absurd h hdeleted⟩
    cases hvalid : op.validateHealthMutatorConfiguration c with
    | some cause => exact hkept (note_rejectHealthMutatorConfiguration.keeps fun a x ha => guarded_act a x ha.spares)
    | none => exact hkept (keeps_addOrUpdate hguarded hfinalizer)

/-- **The StatefulSet** is deleted only if the resource has no replicas, and its services are suspended. -/
theorem hasStatefulSet_of_reconciled {r : Except GoError Result} (h : Reconciled op env request w r u)
    (hsts : w.statefulSet request = some sts) : u.HasStatefulSet request ∨
      ∃ c, w.coherence.get request = some c ∧ c.metadata.deletionTimestamp = none ∧ c.getReplicas = 0 ∧
        Suspended op env c sts w u := by
  have hsame : ∀ {v : World}, (∀ kind key, kind ≠ .secret → v.objects.get (kind, key) = w.objects.get (kind, key)) →
      v.statefulSet request = some sts := fun hobjects => by
    rw [World.statefulSet, hobjects _ _ (by decide), ← World.statefulSet, hsts]
  cases h with
  | quiet h => exact .inl (.of_some (hsame h.objects))
  | upgraded _ _ _ _ h => exact .inl (.of_some (hsame h.objects))
  | @stored c hash res st st' v r u hattempt hstores hrun =>
    have hstops := (wp_reconcileStored (hsame hstores.objects)).elim hrun
    refine hstops.kept.imp_right fun h => ⟨c, hattempt.reaches.found, ?_, h.1, ?_⟩
    · simpa using hattempt.reaches.live
    · have hpath : Path (fun _ => True) w v := hstores.path.mono fun _ _ => trivial
      exact (h.2.of_path (B := fun _ => True) hpath .refl).of_spec rfl

/-- **A round of the resource** is safe. -/
theorem stopsSafely (op : Operator) (env : Env) (request : NamespacedName) (w : World) :
    StopsSafely op env request w (exec (reconcile op env request) w).1 (exec (reconcile op env request) w).2 where
  finalizer c hc hfinalizer := by
    have h : Wp (reconcile op env request) _ w := wp_reconcile_finalizer hc hfinalizer
    exact Or.imp_left And.left h
  statefulSet sts hsts := hasStatefulSet_of_reconciled wp_reconcile hsts
  retriedFinalizer c hc hfinalizer hdeleted hnot := by
    have h : Wp (reconcile op env request) _ w := wp_reconcile_finalizer hc hfinalizer
    rcases h with h | h
    · exact h.2 hdeleted
    · rw [if_pos hdeleted] at h
      exact absurd h hnot
  retriedStatefulSet c sts st hc hsts hcomes hdue hnot := by
    obtain ⟨hash, v, hpath, hsame, hrun⟩ := hcomes
    rw [hrun] at hnot ⊢
    have hstops : Wp (reconcileStored op env request (c.updateStatusVersion op env.now) hash st) _ v :=
      wp_reconcileStored (hsame.trans hsts)
    rcases hstops.failed hdue with hsuspended | ⟨e, he⟩
    · have hsuspended : Suspended op env c sts w _ :=
        (hsuspended.of_path (B := fun _ => True) hpath .refl).of_spec rfl
      exact absurd hsuspended hnot
    · rw [he]
      exact retried_error e

end CoherenceReconciler

/-! ### The rounds of the StatefulSet -/

/-- What a round on an event of a StatefulSet may do. The StatefulSet of a resource that is gone, which it no longer refers
to, is deleted as it is. -/
structure StopsSafelyOnEvent (op : Operator) (env : Env) (request : NamespacedName) (w : World) (r : Except GoError Result)
    (u : World) : Prop where
  finalizer : ∀ key, w.Guarded key → u.Guarded key
  statefulSet : ∀ sts, w.statefulSet request = some sts → u.HasStatefulSet request ∨ sts.metadata.coherenceOwner = none ∨
    ∃ owner c, sts.metadata.coherenceOwner = some owner ∧ w.pointer owner = .coherence (some c) ∧ c.getReplicas = 0 ∧
      Suspended op env c sts w u
  retried : ∀ sts owner c, w.statefulSet request = some sts → sts.metadata.coherenceOwner = some owner →
    w.pointer owner = .coherence (some c) →
      StatefulSetReconciler.IsDue c sts request (Storage.load request (w.store request)) → ¬ Suspended op env c sts w u →
        Retried r

namespace StatefulSetReconciler

/-- The StatefulSet of an owner that is not a Coherence resource stays. -/
theorem does_settle_of_other {d : Deployment} (hnil : d.isNil = false) (hother : ∀ c, d ≠ .coherence (some c))
    (hkey : sts.key = request) :
    Does (Act.LeavesStatefulSet request) (settle op env request d (some sts) st) := by
  have hkeys : ∀ s ∈ some sts, s.key = request := by
    rintro _ ⟨⟩
    exact hkey
  have hallows : Allows (Act.LeavesStatefulSet request) request st := allows_leaves
  by_cases hzero : d.isNilOrZero = .ok true
  · have hspec : ∀ spec, d.getStatefulSetSpec = .ok spec → spec = none := by
      cases d with
      | nil => cases hnil
      | coherence c =>
        cases c with
        | none => rintro _ ⟨⟩
        | some c => exact absurd rfl (hother c)
      | coherenceJob c =>
        rintro _ ⟨⟩
        rfl
    have hsuspend : Returns (suspendBeforeDelete op env d sts) fun _ => False := by
      refine Returns.bind (Returns.outcome hspec) fun spec h => ?_
      subst h
      rintro _ _ ⟨⟩
    have hdelete : Does (Act.LeavesStatefulSet request) (deleteStatefulSet op env request d sts) := by
      rw [deleteStatefulSet, if_neg (by simp [hnil])]
      refine Does.bind ((Op.does_ignoreError note_changeStatus).mono fun _ => Act.IsRemark.leavesStatefulSet) fun _ => ?_
      exact Does.bind_of (note_suspendBeforeDelete.mono fun _ => Act.IsRemark.leavesStatefulSet) hsuspend
        fun _ hfalse => hfalse.elim
    rw [settle, hzero]
    exact Does.bind (Does.outcome _) fun b => Does.ite
      (fun _ => Does.bind hdelete fun _ => does_finish hallows.permits)
      fun _ => Does.bind (Does.of_keeps fun w => keeps_updateStatefulSet
        (hallows.permits.sustains (handles_path hallows.note w)) hkey) fun _ => does_finish hallows.permits
  · exact does_settle hallows hkeys fun h => absurd h hzero

/-- **A round of the StatefulSet** is safe. -/
theorem wp_reconcile_statefulSet (hsts : w.statefulSet request = some sts) :
    Wp (reconcile op env request) (fun r u => (u.HasStatefulSet request ∨ sts.metadata.coherenceOwner = none ∨
        ∃ owner c, sts.metadata.coherenceOwner = some owner ∧ w.pointer owner = .coherence (some c) ∧ c.getReplicas = 0 ∧
          Suspended op env c sts w u) ∧
      ∀ owner c, sts.metadata.coherenceOwner = some owner → w.pointer owner = .coherence (some c) →
        IsDue c sts request (Storage.load request (w.store request)) → Suspended op env c sts w u ∨ Retried r) w := by
  have hthere : w.HasStatefulSet request := .of_some hsts
  have hkey : sts.key = request := (Prod.mk.inj (w.objects.filed _ _ (World.statefulSet_eq_some.1 hsts))).2
  unfold reconcile
  by_cases hlocked : env.locked = true
  · rw [if_pos hlocked]
    refine ⟨.inl hthere, fun _ _ _ _ _ => .inr ?_⟩
    rintro _ ⟨⟩
    exact Nat.succ_pos _
  rw [if_neg hlocked]
  refine wp_new_bind (fun e => ⟨.inl hthere, fun _ _ _ _ _ => .inr (retried_error e)⟩) ?_
  unfold reconcileAllResourceOfKind
  by_cases hjob : (Storage.load request (w.store request)).isJob request = true
  · rw [if_pos hjob]
    refine ⟨.inl hthere, fun _ _ _ _ hdue => ?_⟩
    rw [hdue.2.2] at hjob
    cases hjob
  rw [if_neg hjob]
  refine wp_read_bind (fun e => ⟨.inl hthere, fun _ _ _ _ _ => .inr (retried_error e)⟩) ?_
  simp only [World.statefulSet_sent, hsts, Option.any_some]
  by_cases hterminating : sts.metadata.deletionTimestamp.isSome = true
  · simp only [hterminating, if_true]
    refine ⟨.inl hthere, fun _ _ _ _ hdue => ?_⟩
    rw [hdue.2.1] at hterminating
    cases hterminating
  simp only [hterminating]
  cases howner : sts.metadata.coherenceOwner with
  | none =>
    refine Wp.mono (Q := fun _ _ => True) trivial fun r u _ => ⟨.inr (.inl rfl), ?_⟩
    rintro _ _ ⟨⟩
  | some owner =>
    have howner' : sts.toObject.metadata.coherenceOwner = some owner := howner
    refine wp_ownerOf_bind howner' (fun e => ⟨.inl hthere, fun _ _ _ _ _ => .inr (retried_error e)⟩) ?_
    simp only [World.pointer_sent]
    let v : World := ((w.sent ⟨.get, .secret, request⟩).sent ⟨.get, .statefulSet, request⟩).sent owner.call
    have hpath : Path (fun _ => True) w v :=
      ((Relation.ReflTransGen.single ⟨.call _, trivial, rfl⟩).tail ⟨.call _, trivial, rfl⟩).tail ⟨.call _, trivial, rfl⟩
    cases hpointer : w.pointer owner with
    | coherence c? =>
      cases c? with
      | some c =>
        have hsettle : Wp (settle op env request (.coherence (some c)) (some sts) (Storage.load request (w.store request))) _ v :=
          wp_settle hkey hsts
        refine Wp.mono hsettle fun r u hu => ?_
        have hmono : Suspended op env c sts v u → Suspended op env c sts w u :=
          fun h => h.of_path (B := fun _ => True) hpath .refl
        refine ⟨hu.kept.imp_right fun h => .inr ⟨owner, c, rfl, hpointer, h.1, hmono h.2⟩, ?_⟩
        rintro _ c' ⟨⟩ hpointer' hdue
        rw [hpointer] at hpointer'
        cases hpointer'
        rcases hu.failed hdue.1 with hsuspended | ⟨e, rfl⟩
        · exact .inl (hmono hsuspended)
        · exact .inr (retried_error e)
      | none =>
        have hdoes : Does (Act.LeavesStatefulSet request) (settle op env request (.coherence none) (some sts)
            (Storage.load request (w.store request))) := does_settle_of_other rfl (by rintro _ ⟨⟩) hkey
        refine Wp.mono (hdoes.wp v) fun r u hu => ⟨.inl (hasStatefulSet_of_path hu hthere), ?_⟩
        rintro _ c' ⟨⟩ hpointer'
        rw [hpointer] at hpointer'
        cases hpointer'
    | nil | coherenceJob =>
      have hdoes : Does (Act.LeavesStatefulSet request) (settle op env request (w.pointer owner) (some sts)
          (Storage.load request (w.store request))) := by
        refine does_settle_of_other World.pointer_isNil (fun c h => ?_) hkey
        rw [hpointer] at h
        cases h
      rw [← hpointer]
      refine Wp.mono (hdoes.wp v) fun r u hu => ⟨.inl (hasStatefulSet_of_path hu hthere), ?_⟩
      rintro _ c' ⟨⟩ hpointer'
      rw [hpointer] at hpointer'
      cases hpointer'

theorem stopsSafely (op : Operator) (env : Env) (request : NamespacedName) (w : World) :
    StopsSafelyOnEvent op env request w (exec (reconcile op env request) w).1 (exec (reconcile op env request) w).2 where
  finalizer _ h := keeps_guarded _ h
  statefulSet _ hsts := (wp_reconcile_statefulSet hsts : Wp (reconcile op env request) _ w).1
  retried _ owner c hsts howner hpointer hdue hnot :=
    ((wp_reconcile_statefulSet hsts : Wp (reconcile op env request) _ w).2 owner c howner hpointer hdue).resolve_left hnot

end StatefulSetReconciler

/-! ### Runs -/

/-- What happens to a cluster: a round of one of the two controllers, or whatever others do to it. -/
inductive ClusterEvent where
  | coherence (env : Env) (request : NamespacedName)
  | statefulSet (env : Env) (request : NamespacedName)
  | others (edit : World → World)

namespace ClusterEvent

/-- The cluster after it. -/
def step (op : Operator) (w : World) : ClusterEvent → World
  | coherence env request => (exec (CoherenceReconciler.reconcile op env request) w).2
  | statefulSet env request => (exec (StatefulSetReconciler.reconcile op env request) w).2
  | others edit => edit w

/-- No members are stopped before their services are suspended. -/
def IsSafe (op : Operator) (w : World) : ClusterEvent → Prop
  | coherence env request => StopsSafely op env request w (exec (CoherenceReconciler.reconcile op env request) w).1
      (exec (CoherenceReconciler.reconcile op env request) w).2
  | statefulSet env request => StopsSafelyOnEvent op env request w (exec (StatefulSetReconciler.reconcile op env request) w).1
      (exec (StatefulSetReconciler.reconcile op env request) w).2
  | others _ => True

end ClusterEvent

/-- A resource scaled to nothing whose services are not suspended is reconciled again, whatever happens in the round. -/
def RetriesUntilSuspended (op : Operator) : ClusterEvent → World → Prop
  | .coherence env request, w => ∀ c sts, w.coherence.get request = some c → w.statefulSet request = some sts →
      c.metadata.deletionTimestamp = none → c.getReplicas = 0 → sts.metadata.deletionTimestamp = none →
        ¬ Suspended op env c sts w (exec (CoherenceReconciler.reconcile op env request) w).2 →
          Retried (exec (CoherenceReconciler.reconcile op env request) w).1
  | _, _ => True

/-- A resource that is scaled to nothing. -/
def stoppedCoherence : Coherence where
  metadata := { ns := "default", name := "storage", finalizers := [CoherenceFinalizer] }
  spec := { replicas := some 0 }
  status := { phase := some .ready }

/-- Its StatefulSet. -/
def stoppedSet : StatefulSet where
  metadata := { ns := "default", name := "storage", ownerReferences := [⟨"Coherence", "storage", true⟩] }
  spec := { replicas := some 3 }
  status := { readyReplicas := 3 }

/-- A cluster with both. -/
def stoppedCluster : World :=
  { (default : World) with coherence := Table.empty.put stoppedCoherence, objects := Table.empty.put stoppedSet.toObject }

/-- The operator may not read Secrets, and the members would not suspend their services. -/
def forbiddenSecrets : Env where
  faults _ call := if call.verb = .get ∧ call.kind = .secret then some (.other "secrets is forbidden") else none
  members _ := [{ name := "storage-0", phase := "Running" }]
  probeAction _ _ := .ok false

end CoherenceOperator
