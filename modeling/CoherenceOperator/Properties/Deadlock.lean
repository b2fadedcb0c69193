import CoherenceOperator.Footprint.Acting
import CoherenceOperator.Properties.StartOrder

/-!
# Resources that wait for each other

The start quorum of a resource may name a resource that waits for the first, or for itself, or for a third one that waits for the first; it may
name a resource that nobody makes. The operator does not look for this. Of a set of resources each of which waits for one of them, none is ever
started, and none gets ready, in whatever order they are reconciled, whatever requests fail and whatever becomes of the other resources and
of the objects in between (`always_stuck`): the status of a resource says that it is ready only after its StatefulSet was found.
-/

namespace CoherenceOperator

open Effect Prog

/-- An entry of the start quorum names one of these resources. -/
def Coherence.WaitsFor (S : Set NamespacedName) (c : Coherence) : Prop :=
  ∃ q ∈ c.spec.startQuorum, q.deployment ≠ "" ∧ q.key c.metadata.ns ∈ S

/-- Each of these resources that is there waits for one of them, and is not ready. -/
def World.Waits (S : Set NamespacedName) (w : World) : Prop :=
  ∀ key ∈ S, ∀ c, w.coherence.get key = some c → c.WaitsFor S ∧ c.status.phase ≠ some .ready

/-- They wait, and none of them has a StatefulSet. -/
structure World.IsStuck (S : Set NamespacedName) (w : World) : Prop where
  waits : w.Waits S
  missing : ∀ key ∈ S, w.find .statefulSet key = none

/-- They wait, and the one that is seen to has no StatefulSet, if it is one of them. -/
structure World.Holds (S : Set NamespacedName) (request : NamespacedName) (w : World) : Prop where
  waits : w.Waits S
  missing : request ∈ S → w.find .statefulSet request = none

/-- Acts that make none of the resources ready, and no StatefulSet for the one that is seen to, if it is one of them. -/
def Act.Holds (S : Set NamespacedName) (request : NamespacedName) : Act → Prop
  | .coherenceStatus key status => key ∈ S → status.phase ≠ some .ready
  | .createObject o | .updateObject o => o.kind = .statefulSet → request ∉ S
  | .patchStatefulSet _ _ => request ∉ S
  | _ => True

variable {op : Operator} {env : Env} {S : Set NamespacedName} {request key : NamespacedName} {w u : World} {a : Act} {c : Coherence} {st : Storage}
  {α : Type}

/-! ### What waiting rests on -/

/-- **A quorum of those who wait** is not met. -/
theorem World.Waits.not_quorumIsMet (h : w.Waits S) (hc : c.WaitsFor S) : ¬ c.toResource.QuorumIsMet w := by
  obtain ⟨q, hq, hname, hkey⟩ := hc
  intro hquorum
  obtain ⟨hmet, hcounted⟩ := hquorum q hq hname
  obtain ⟨dep, hdep, hready⟩ := StartQuorum.exists_ready hmet hcounted
  exact (h _ hkey dep hdep).2 hready

/-- One resource is changed: it waits as before, and gets ready only if it is none of these. -/
theorem World.Waits.modify {f : Coherence → Coherence} (h : w.Waits S) (hf : ∀ c, (f c).key = c.key)
    (hu : u.coherence = w.coherence.modify key f hf) (hwaits : ∀ c, c.WaitsFor S → (f c).WaitsFor S)
    (hphase : ∀ c, key ∈ S → c.status.phase ≠ some .ready → (f c).status.phase ≠ some .ready) : u.Waits S := by
  intro key' hkey' c' hc'
  rw [hu] at hc'
  by_cases hk : key' = key
  · subst hk
    rw [Table.get_modify_self, Option.map_eq_some_iff] at hc'
    obtain ⟨c, hc, rfl⟩ := hc'
    obtain ⟨hwait, hready⟩ := h key' hkey' c hc
    exact ⟨hwaits c hwait, hphase c hkey' hready⟩
  · rw [Table.get_modify_of_ne hk] at hc'
    exact h key' hkey' c' hc'

theorem World.Waits.of_coherence_eq (h : w.Waits S) (hu : u.coherence = w.coherence) : u.Waits S := by
  intro key hkey c hc
  rw [hu] at hc
  exact h key hkey c hc

theorem World.Waits.erase (h : w.Waits S) (hu : u.coherence = w.coherence.erase key) : u.Waits S := by
  intro key' hkey' c hc
  rw [hu, Table.get_erase] at hc
  split at hc
  · cases hc
  · exact h key' hkey' c hc

theorem Act.Holds.waits (ha : a.Holds S request) (h : w.Waits S) : (Acts.act a w).Waits S := by
  cases a with
  | coherenceStatus key status => exact h.modify (·.key_withStatus _) rfl (fun _ hc => hc) fun _ hkey _ => ha hkey
  | coherenceReplicas key replicas => exact h.modify (·.key_withReplicas _) rfl (fun _ hc => hc) fun _ _ hc => hc
  | coherenceMetadata key annotations finalizers =>
    simp only [Acts.act, Act.effect]
    split
    · exact h.erase rfl
    · exact h.modify (·.key_withMetadata _ _) rfl (fun _ hc => hc) fun _ _ hc => hc
  | deleteObject | coherenceJobMetadata =>
    simp only [Acts.act, Act.effect]
    split <;> exact h.of_coherence_eq rfl
  | _ => exact h.of_coherence_eq rfl

/-- **One act.** -/
theorem holds_act (a : Act) (w : World) (ha : a.Holds S request) (h : w.Holds S request) : (Acts.act a w).Holds S request := by
  refine ⟨ha.waits h.waits, fun hrequest => ?_⟩
  have hleaves : a.Leaves .statefulSet request := by
    cases a with
    | createObject o | updateObject o => exact fun he => ha (Prod.mk.inj he).1 hrequest
    | patchStatefulSet => exact absurd hrequest ha
    | _ => trivial
  have hnone := h.missing hrequest
  rw [World.find_of_ne_secret _ (by decide)] at hnone ⊢
  exact hleaves.get_eq_none hnone

theorem World.Holds.sent (h : w.Holds S request) (call : ApiCall) : (w.sent call).Holds S request := holds_act (.call call) w trivial h

theorem Act.IsPrelude.holds (h : a.IsPrelude) : a.Holds S request := by
  cases a with
  | coherenceStatus => exact fun _ => h
  | createObject | updateObject => exact fun hkind => absurd hkind h
  | patchStatefulSet => exact h.elim
  | _ => trivial

theorem holds_of_call (h : a.IsCall) : a.Holds S request := (prelude_of_call h).holds

/-! ### Notes -/

theorem keeps_holds {x : Op α} (hx : Does (Act.Holds S request) x) : Keeps (World.Holds S request) x := hx.keeps holds_act

theorem keeps_holds_of_prelude {x : Op α} (hx : Does Act.IsPrelude x) : Keeps (World.Holds S request) x :=
  keeps_holds (hx.mono fun _ ha => ha.holds)

theorem keeps_holds_of_call {x : Op α} (hx : Does Act.IsCall x) : Keeps (World.Holds S request) x :=
  keeps_holds (hx.mono fun _ => holds_of_call)

theorem tolerates_holds : Tolerates op env (World.Holds S request) (fun _ => True) .coherence where
  sent _ call hu := hu.sent call
  latest _ _ _ _ := trivial
  annotate u _ _ hu _ := holds_act _ u trivial hu
  condition u _ _ hready hu _ := holds_act _ u (fun _ => CoherenceResourceStatus.phase_setCondition_ne hready) hu

theorem tolerates_holds_job : Tolerates op env (World.Holds S request) (fun _ => True) .coherenceJob where
  sent _ call hu := hu.sent call
  latest _ _ _ _ := trivial
  annotate u _ _ hu _ := holds_act _ u trivial hu
  condition u _ _ _ hu _ := holds_act _ u trivial hu

theorem keeps_holds_handleErrAndRequeue {e : GoError} {d : Deployment} : Keeps (World.Holds S request) (handleErrAndRequeue op env e d) :=
  keeps_handleErrAndRequeue_of tolerates_holds tolerates_holds_job

/-- A resource is read. -/
theorem keeps_holds_getCoherence {s : String} {g : Option Coherence → Op α}
    (hg : ∀ found, (∀ c, found = some c → c.key = key ∧ (key ∈ S → c.status.phase ≠ some .ready)) →
      Keeps (World.Holds S request) (g found)) :
    Keeps (World.Holds S request) (Op.wrapError s (getCoherence env key) >>= g) := by
  intro u hu
  have hbind : Wp (Op.wrapError s (getCoherence env key) >>= g) (fun _ v => v.Holds S request) u := by
    refine wp_read_bind (fun _ => hu.sent _) ?_
    refine hg _ (fun c hc => ?_) _ (hu.sent _)
    rw [World.coherence_sent] at hc
    exact ⟨u.coherence.filed _ _ hc, fun hkey => (hu.waits key hkey c hc).2⟩
  exact hbind

/-- The StatefulSet is read. -/
theorem keeps_holds_getStatefulSet {s : String} {g : Option StatefulSet → Op α}
    (hg : ∀ sts, (∀ x ∈ sts, x.key = request) → (request ∈ S → sts = none) → Keeps (World.Holds S request) (g sts)) :
    Keeps (World.Holds S request) (Op.wrapError s (getStatefulSet env request) >>= g) := by
  intro u hu
  have hbind : Wp (Op.wrapError s (getStatefulSet env request) >>= g) (fun _ v => v.Holds S request) u := by
    refine wp_read_bind (fun _ => hu.sent _) ?_
    refine hg _ (fun x hx => ?_) (fun hrequest => ?_) _ (hu.sent _)
    · rw [World.statefulSet_sent] at hx
      exact (Prod.mk.inj (u.objects.filed _ _ (World.statefulSet_eq_some.1 hx))).2
    · have hnone := hu.missing hrequest
      rw [World.find_of_ne_secret _ (by decide)] at hnone
      rw [World.statefulSet_sent, World.statefulSet, hnone]
      rfl
  exact hbind

/-- A status in which the resource is not ready, unless it is none of these. -/
theorem holds_writeCoherenceStatus {verb : Verb} {status : CoherenceResourceStatus} (h : key ∈ S → status.phase ≠ some .ready) :
    Does (Act.Holds S request) (writeCoherenceStatus env verb key status) := does_change trivial h

theorem holds_patchStatus {status : CoherenceResourceStatus} (h : c.key ∈ S → status.phase ≠ some .ready) :
    Does (Act.Holds S request) (patchStatus env c.toResource status) :=
  Does.ite (fun _ => Does.pure _) fun _ => does_change trivial h

theorem keeps_holds_changeStatus {f : CoherenceResourceStatus → CoherenceResourceStatus}
    (hf : ∀ s, s.phase ≠ some .ready → (f s).phase ≠ some .ready) : Keeps (World.Holds S request) (changeStatus env key f) := by
  refine keeps_holds_getCoherence fun found hfound => ?_
  cases found with
  | none => exact Keeps.pure _
  | some c =>
    obtain ⟨rfl, hready⟩ := hfound c rfl
    refine Keeps.ite (fun _ => Keeps.pure _) fun _ => ?_
    exact (keeps_holds (holds_patchStatus fun hkey => hf _ (hready hkey))).mapError

theorem keeps_holds_updateDeploymentStatusActionsState {executed : Bool} :
    Keeps (World.Holds S request) (updateDeploymentStatusActionsState env key executed) := keeps_holds_changeStatus fun _ h => h

theorem StatusManager.keeps_holds_update {f : CoherenceResourceStatus → CoherenceResourceStatus}
    (hf : ∀ s, s.phase ≠ some .ready → (f s).phase ≠ some .ready) : Keeps (World.Holds S request) (StatusManager.update env key f) := by
  refine keeps_holds_getCoherence fun found hfound => ?_
  cases found with
  | none => exact Keeps.throw _
  | some c =>
    obtain ⟨rfl, hready⟩ := hfound c rfl
    exact (keeps_holds (holds_patchStatus fun hkey => hf _ (hready hkey))).mapError

theorem CoherenceResourceStatus.phase_setVersion {now : ℕ} {v : String} {s : CoherenceResourceStatus} :
    (s.setVersion now v).1.phase = s.phase := rfl

theorem StatusManager.keeps_holds_updateDeploymentStatusHash {hash : String} :
    Keeps (World.Holds S request) (StatusManager.updateDeploymentStatusHash op env key hash) := by
  refine keeps_holds_update fun s h => ?_
  rwa [CoherenceResourceStatus.phase_setVersion]

/-! ### The StatefulSet -/

namespace CoherenceResourceStatus

/-- Nothing makes a resource ready that has no StatefulSet. -/
theorem phase_update_none_ne {s : CoherenceResourceStatus} (h : s.phase ≠ some .ready) :
    (s.update op env.now c none).1.phase ≠ some .ready := by
  have hbegun : ((s.begun op env.now c.toResource).observe (currentOf none) (readyCountOf none)).phase ≠ some .ready := by
    show (s.begun op env.now c.toResource).phase ≠ some .ready
    rw [phase_begun, next]
    split_ifs
    · exact h
    · simp
    · simp
  have htargets : c.targets none = if c.IsStopped then [.stopped] else [] := by
    simp [Coherence.targets, Coherence.IsReady, Coherence.IsUpgrading]
  rw [update_eq, htargets]
  split
  · rw [moveTo_cons, moveTo_nil, phase_setPhase, next]
    split <;> simp
  · exact hbegun

end CoherenceResourceStatus

namespace StatefulSetReconciler

variable {deployment : Deployment}

/-- **The status** is not that of a resource that is ready, where there is no StatefulSet. -/
theorem keeps_holds_updateDeploymentStatus : Keeps (World.Holds S request) (updateDeploymentStatus op env request) := by
  refine keeps_holds_getStatefulSet fun sts _ hnone => keeps_holds_getCoherence fun found hfound => ?_
  cases found with
  | none => exact Keeps.pure _
  | some c =>
    obtain ⟨-, hready⟩ := hfound c rfl
    refine Keeps.ite (fun _ => Keeps.pure _) fun _ => Keeps.ite (fun _ => ?_) fun _ => Keeps.pure _
    have hstatus : request ∈ S → (c.status.update op env.now c (sts.map (·.status))).1.phase ≠ some .ready := by
      intro hrequest
      rw [hnone hrequest]
      exact CoherenceResourceStatus.phase_update_none_ne (hready hrequest)
    exact Keeps.bind (keeps_holds (holds_writeCoherenceStatus hstatus)) fun _ => Keeps.pure _

theorem holds_execActions : Does (Act.Holds S request) (execActions env deployment) := by
  refine does_execActions_of (fun _ ha => holds_of_call ha) (fun _ => trivial) fun o hjob hkind => ?_
  rw [hjob] at hkind
  cases hkind

theorem keeps_holds_finish {result : Result} : Keeps (World.Holds S request) (finish op env request deployment result) := by
  refine Keeps.bind keeps_holds_updateDeploymentStatus fun updated => Keeps.bind ?_ fun _ => Keeps.pure _
  cases updated with
  | none => exact Keeps.pure _
  | some c =>
    refine Keeps.ite (fun _ => Keeps.bind (Keeps.outcome _) fun _ => ?_) fun _ => Keeps.pure _
    refine Keeps.ite (fun _ => Keeps.bind (keeps_holds holds_execActions) fun _ => ?_) fun _ => Keeps.pure _
    exact keeps_holds_updateDeploymentStatusActionsState

theorem keeps_holds_deleteStatefulSet {sts : StatefulSet} :
    Keeps (World.Holds S request) (deleteStatefulSet op env request deployment sts) := by
  have hdelete : Keeps (World.Holds S request) (Secondary.delete env .statefulSet request) :=
    keeps_holds (Secondary.does_delete trivial trivial)
  refine Keeps.ite (fun _ => hdelete) fun _ => ?_
  refine Keeps.bind (Keeps.bind keeps_holds_updateDeploymentStatusActionsState.attempt fun _ => Keeps.pure _) fun _ => ?_
  exact Keeps.bind (keeps_holds_of_call call_suspendBeforeDelete) fun _ => hdelete

/-- What may be done for the StatefulSet of a resource that is none of these. -/
theorem sustains_holds (h : request ∉ S) : Sustains op env (World.Holds S request) request st where
  call := keeps_holds_of_call
  condition _ _ hready := tolerates_holds.keeps_updateStatusCondition (.inl rfl) hready
  create _ := keeps_holds (Secondary.does_create (fun _ ha => holds_of_call ha) fun _ _ _ _ _ => h)
  patch _ hkind hkey := keeps_holds (does_patchObject_of (fun _ ha => holds_of_call ha) hkind hkey fun _ _ _ _ => h)
  validate _ _ := keeps_holds (Does.perform trivial)
  send _ _ _ := keeps_holds (Does.perform h)
  handled _ _ := keeps_holds_handleErrAndRequeue

/-- **A resource that waits** is not started. -/
theorem keeps_holds_createStatefulSet (h : request ∈ S → ∃ c, deployment = .coherence (some c) ∧ c.WaitsFor S) :
    Keeps (World.Holds S request) (createStatefulSet op env deployment st) := by
  by_cases hrequest : request ∈ S
  swap
  · exact keeps_createStatefulSet (sustains_holds hrequest)
  obtain ⟨c, rfl, hwaits⟩ := h hrequest
  intro u hu
  have hcalls : Wp (canCreate env (.coherence (some c))) (fun _ v => v.Holds S request) u := keeps_holds_of_call call_canCreate u hu
  have hcreate : Wp (createStatefulSet op env (.coherence (some c)) st) (fun _ v => v.Holds S request) u := by
    rcases hrun : exec (canCreate env (.coherence (some c))) u with ⟨result, v⟩
    have hv : v.Holds S request := by
      have hsnd := hcalls
      rw [Wp, hrun] at hsnd
      exact hsnd
    rw [createStatefulSet, Wp, exec_bind, hrun]
    rcases result with e | _ | reason
    · exact hv
    · have hmet : c.toResource.QuorumIsMet u := quorumIsMet_of_canCreate rfl (congrArg Prod.fst hrun)
      exact absurd hmet (hu.waits.not_quorumIsMet hwaits)
    · have hwaiting : Keeps (World.Holds S request) (do
          let d ← outcome (Deployment.coherence (some c)).deref
          Op.ignoreError (updateCoherenceStatusCondition op env d.key
            { type := .waiting, status := .true, reason := "StatusQuorum", message := reason })
          return ({ requeueAfter := 30 } : Result)) := by
        refine Keeps.bind (Keeps.outcome _) fun d => Keeps.bind (Keeps.bind ?_ fun _ => Keeps.pure _) fun _ => Keeps.pure _
        exact (tolerates_holds.keeps_updateStatusCondition (.inl rfl) (by simp)).attempt
      exact hwaiting v hv
  exact hcreate

/-- The owner is not scaled to zero, and is one of these: it waits. -/
theorem keeps_holds_settle {sts : Option StatefulSet} (hsts : ∀ x ∈ sts, x.key = request) (hnone : request ∈ S → sts = none)
    (h : request ∈ S → deployment.isNilOrZero = .ok true ∨ ∃ c, deployment = .coherence (some c) ∧ c.WaitsFor S) :
    Keeps (World.Holds S request) (settle op env request deployment sts st) := by
  refine Keeps.bind_of (Keeps.outcome _) (Returns.outcome fun _ => id) fun b hb => Keeps.ite (fun hzero => ?_) fun hzero => ?_
  · cases sts with
    | none => exact Keeps.bind keeps_holds_updateDeploymentStatus fun _ => Keeps.pure _
    | some s => exact Keeps.bind keeps_holds_deleteStatefulSet fun _ => keeps_holds_finish
  · cases sts with
    | none =>
      refine Keeps.bind (keeps_holds_createStatefulSet fun hrequest => ?_) fun _ => keeps_holds_finish
      refine (h hrequest).resolve_left fun hnil => hzero ?_
      rw [hb, Except.ok.injEq] at hnil
      exact hnil
    | some s =>
      have hrequest : request ∉ S := fun hmem => by cases hnone hmem
      exact Keeps.bind (keeps_updateStatefulSet (sustains_holds hrequest) (hsts s rfl)) fun _ => keeps_holds_finish

/-- With a resource that is passed in. -/
theorem keeps_holds_reconcileAllResourceOfKind (h : request ∈ S → c.WaitsFor S) :
    Keeps (World.Holds S request) (reconcileAllResourceOfKind op env request (.coherence (some c)) st) := by
  refine Keeps.ite (fun _ => Keeps.pure _) fun _ => ?_
  refine keeps_holds_getStatefulSet fun sts hsts hnone => Keeps.ite (fun _ => Keeps.pure _) fun _ => ?_
  refine Keeps.bind_of (keeps_holds_of_call Secondary.call_ownerOf) (Secondary.returns_ownerOf rfl) fun d hd => ?_
  subst hd
  exact keeps_holds_settle hsts hnone fun hrequest => .inr ⟨c, rfl, h hrequest⟩

/-- **On an event.** -/
theorem keeps_holds_reconcile : Keeps (World.Holds S request) (reconcile op env request) := by
  refine Keeps.ite (fun _ => Keeps.pure _) fun _ => Keeps.bind (keeps_holds_of_call call_new) fun st => ?_
  refine Keeps.ite (fun _ => Keeps.pure _) fun _ => ?_
  refine keeps_holds_getStatefulSet fun sts hsts hnone => Keeps.ite (fun _ => Keeps.pure _) fun _ => ?_
  have howner : Returns (Secondary.ownerOf env .nil (sts.map (·.toObject))) fun d => request ∈ S → d = .nil := by
    intro w d hd hrequest
    rw [hnone hrequest] at hd
    exact (Except.ok.inj hd).symm
  refine Keeps.bind_of (keeps_holds_of_call Secondary.call_ownerOf) howner fun d hd => ?_
  refine keeps_holds_settle hsts hnone fun hrequest => .inl ?_
  rw [hd hrequest]
  rfl

end StatefulSetReconciler

/-! ### A reconcile -/

namespace CoherenceReconciler

variable {hash : String}

theorem keeps_holds_finalize : Keeps (World.Holds S request) (finalize op env c) := by
  refine Keeps.ite (fun _ => ?_) fun _ => Keeps.pure _
  refine Keeps.bind (keeps_holds_of_call call_finalizeDeployment).attempt fun r => ?_
  split
  · exact Keeps.pure _
  · refine Keeps.bind (keeps_holds_of_prelude prelude_ensureFinalizerRemoved).attempt fun r => ?_
    split
    · exact Keeps.pure _
    · exact Keeps.ite (fun _ => Keeps.pure _) fun _ => Keeps.throw _

theorem keeps_holds_rejectHealthMutatorConfiguration {cause : String} :
    Keeps (World.Holds S request) (rejectHealthMutatorConfiguration op env c cause) := by
  have hready : (CoherenceResourceStatus.setCondition op env.now c.toResource
      { type := .failed, status := .true, reason := "InvalidHealthMutatorConfiguration"
        message := s!"Invalid health mutator configuration: {cause}" }).1.phase ≠ some .ready :=
    CoherenceResourceStatus.phase_setCondition_ne (by simp)
  simp only [rejectHealthMutatorConfiguration]
  revert hready
  generalize CoherenceResourceStatus.setCondition op env.now c.toResource _ = r
  intro hready
  refine Keeps.ite (fun _ => Keeps.bind ?_ fun _ => Keeps.pure _) fun _ => Keeps.pure _
  have hstatus : ∀ conditions, Does (Act.Holds S request) (writeCoherenceStatus env .patchStatus c.key { r.1 with conditions }) := fun _ =>
    holds_writeCoherenceStatus fun _ => hready
  exact (keeps_holds (hstatus _)).mapError

theorem keeps_holds_finish {result : Result} : Keeps (World.Holds S request) (finish op env request c hash result) := by
  refine Keeps.bind (Keeps.ite (fun _ => ?_) fun _ => Keeps.pure _) fun _ => Keeps.bind ?_ fun _ => Keeps.pure _
  · have hstopped : Keeps (World.Holds S request) (StatusManager.updateCoherenceStatusPhase env request .stopped) :=
      StatusManager.keeps_holds_update fun _ _ => by simp
    exact hstopped.mapError
  · exact StatusManager.keeps_holds_updateDeploymentStatusHash.mapError

theorem keeps_holds_reconcileStored (h : request ∈ S → c.WaitsFor S) :
    Keeps (World.Holds S request) (reconcileStored op env request c hash st) := by
  refine Keeps.bind (keeps_reconcileSecondary (fun x hx => ?_) _) fun progress => ?_
  · change x ∈ firstReconcilers op env request (.coherence (some c)) st ++ [_] at hx
    rcases List.mem_append.1 hx with hx | hx
    · exact keeps_holds_of_prelude (prelude_firstReconcilers hx)
    · rw [List.mem_singleton.1 hx]
      exact StatefulSetReconciler.keeps_holds_reconcileAllResourceOfKind h
  · split
    · exact keeps_holds_finish
    · exact Keeps.throw _

theorem keeps_holds_reconcileWith (h : request ∈ S → c.WaitsFor S) : Keeps (World.Holds S request) (reconcileWith op env request c st) := by
  refine Keeps.bind (Keeps.outcome _) fun legacy => Keeps.ite (fun _ => ?_) fun _ => ?_
  · refine Keeps.bind ?_ fun _ => Keeps.bind (Keeps.outcome _) fun _ => Keeps.bind ?_ fun _ => Keeps.pure _
    · exact (keeps_holds (Storage.does_resetHash (fun _ => trivial) fun _ _ => trivial)).mapError
    · exact StatusManager.keeps_holds_updateDeploymentStatusHash.mapError
  · refine Keeps.bind (Keeps.outcome _) fun hash => Keeps.bind (Keeps.outcome _).mapError fun p => ?_
    refine Keeps.bind (keeps_holds_of_prelude prelude_store).mapError fun st => ?_
    exact keeps_holds_reconcileStored h

theorem keeps_holds_reconcileResources (h : request ∈ S → c.WaitsFor S) :
    Keeps (World.Holds S request) (reconcileResources op env request c) := by
  refine Keeps.bind (keeps_holds_of_prelude prelude_ensureOperatorSecret).attempt fun r => ?_
  cases r with
  | error e => exact keeps_holds_handleErrAndRequeue
  | ok _ =>
    refine Keeps.bind (keeps_holds_of_call call_new).attempt fun r => ?_
    cases r with
    | error e => exact keeps_holds_handleErrAndRequeue
    | ok st => exact keeps_holds_reconcileWith h

theorem keeps_holds_addOrUpdate (h : request ∈ S → c.WaitsFor S) : Keeps (World.Holds S request) (addOrUpdate op env request c) := by
  refine Keeps.bind (keeps_holds_of_prelude prelude_ensureFinalizer) fun changed => Keeps.ite (fun _ => Keeps.pure _) fun _ => ?_
  refine Keeps.bind (keeps_holds_of_prelude prelude_ensureStatus) fun _ => Keeps.ite (fun _ => ?_) fun _ => keeps_holds_reconcileResources h
  have hpatch : Does (Act.Holds S request) (patchReplicas env c) := Op.does_wrapError (Op.does_wrapError (does_change trivial trivial))
  exact Keeps.bind (keeps_holds hpatch) fun _ => Keeps.pure _

/-- **One reconcile** makes none of them ready, and starts none. -/
theorem keeps_holds_reconcile : Keeps (World.Holds S request) (reconcile op env request) := by
  intro u hu
  have hreconcile : Wp (reconcile op env request) (fun _ v => v.Holds S request) u := by
    unfold reconcile
    split
    · exact hu
    refine wp_read_bind (fun _ => hu.sent _) ?_
    rw [World.coherence_sent]
    cases hc : u.coherence.get request with
    | none => exact hu.sent _
    | some c =>
      have hfound : Keeps (World.Holds S request) (reconcileFound op env request c) := by
        refine Keeps.ite (fun _ => keeps_holds_finalize) fun _ => ?_
        split
        · exact keeps_holds_rejectHealthMutatorConfiguration
        · exact keeps_holds_addOrUpdate fun hrequest => (hu.waits request hrequest c hc).1
      exact hfound _ (hu.sent _)
  exact hreconcile

end CoherenceReconciler

/-! ### Runs -/

namespace ClusterTurn

/-- Who puts one of these resources leaves it waiting, and does not say that it is ready. -/
def LeavesWaiting (S : Set NamespacedName) : ClusterTurn → Prop
  | put c => c.key ∈ S → c.WaitsFor S ∧ c.status.phase ≠ some .ready
  | _ => True

theorem waits_step {t : ClusterTurn} (h : w.IsStuck S) (ht : t.LeavesWaiting S) : (t.step op w).Waits S := by
  cases t with
  | reconcile request env => exact (CoherenceReconciler.keeps_holds_reconcile w ⟨h.waits, h.missing request⟩).waits
  | event request env => exact (StatefulSetReconciler.keeps_holds_reconcile w ⟨h.waits, h.missing request⟩).waits
  | put c =>
    intro key hkey c' hc'
    simp only [step] at hc'
    by_cases hk : key = c.key
    · subst hk
      rw [Table.get_put_self, Option.some.injEq] at hc'
      subst hc'
      exact ht hkey
    · rw [Table.get_put_of_ne hk] at hc'
      exact h.waits key hkey c' hc'
  | drop key => exact h.waits.erase rfl
  | change o =>
    simp only [step]
    split
    · exact h.waits.of_coherence_eq rfl
    · exact h.waits
  | remove kind key =>
    simp only [step, Acts.act, Act.effect]
    split <;> exact h.waits.of_coherence_eq rfl

/-- **One turn.** -/
theorem isStuck_step {t : ClusterTurn} (hstores : w.StoresGenerated) (h : w.IsStuck S) (ht : t.LeavesWaiting S) : (t.step op w).IsStuck S := by
  refine ⟨waits_step h ht, fun key hkey => ?_⟩
  by_contra hsome
  obtain ⟨env, c, -, hc, hmet⟩ := isInOrder_of_storesGenerated hstores t key (h.missing key hkey) hsome
  exact h.waits.not_quorumIsMet (h.waits key hkey c hc).1 hmet

end ClusterTurn

/-- **Resources that wait for each other are never started** in a run that begins with nothing stored, however long it is: none of them has a
StatefulSet, and none is ready, as long as nobody makes one of them wait for another resource or says that it is ready. -/
theorem always_stuck {op : Operator} {w : World} (S : Set NamespacedName) (turns : List ClusterTurn) (hstores : ∀ key, w.store key = none)
    (hw : w.IsStuck S) (hturns : Along (ClusterTurn.step op) (fun _ t => t.LeavesWaiting S) w turns) :
    Always (ClusterTurn.step op) (World.IsStuck S) w turns := by
  have hall : Always (ClusterTurn.step op) (fun u => u.StoresGenerated ∧ u.IsStuck S) w turns :=
    hturns.always (fun u t hu ht => ⟨ClusterTurn.storesGenerated_step hu.1 t, ClusterTurn.isStuck_step hu.1 hu.2 ht⟩)
      ⟨fun key => isGenerated_of_none (hstores key), hw⟩
  exact fun n => (hall n).2

/-- Two resources. -/
def mutualKeys : Set NamespacedName := {⟨"default", "client"⟩, ⟨"default", "storage"⟩}

/-- A resource that is to start after another one. -/
def startingAfter (name deployment : String) : Coherence where
  metadata := { ns := "default", name, finalizers := [CoherenceFinalizer] }
  generation := 1
  spec := { replicas := some 1, startQuorum := [{ deployment }] }

/-- Each of them is to start after the other one. -/
def mutualTurns : List ClusterTurn :=
  [.put (startingAfter "client" "storage"), .put (startingAfter "storage" "client"), .reconcile ⟨"default", "client"⟩ {},
    .reconcile ⟨"default", "storage"⟩ {}, .reconcile ⟨"default", "client"⟩ {}]

/-- Neither of them is started. -/
theorem always_stuck_mutual : Always (ClusterTurn.step default) (World.IsStuck mutualKeys) default mutualTurns := by
  have hinitial : (default : World).IsStuck mutualKeys := by
    refine ⟨fun key _ c hc => ?_, fun _ _ => rfl⟩
    cases hc
  have hclient : (startingAfter "client" "storage").WaitsFor mutualKeys := ⟨_, List.mem_cons_self, by decide, .inr rfl⟩
  have hstorage : (startingAfter "storage" "client").WaitsFor mutualKeys := ⟨_, List.mem_cons_self, by decide, .inl rfl⟩
  refine always_stuck mutualKeys mutualTurns (fun _ => rfl) hinitial ⟨fun _ => ⟨hclient, ?_⟩, fun _ => ⟨hstorage, ?_⟩, ?_⟩
  · rintro ⟨⟩
  · rintro ⟨⟩
  · exact ⟨trivial, trivial, trivial, trivial⟩

/-- The first one waits. -/
example :
    ((run (ClusterTurn.step default) default mutualTurns).coherence.get ⟨"default", "client"⟩).bind (·.status.phase) = some .waiting := by
  decide +kernel

end CoherenceOperator
