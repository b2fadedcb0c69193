import CoherenceOperator.Footprint.Guarding
import CoherenceOperator.Footprint.Reconcile

/-!
# Before the members are stopped

What has to have happened before the StatefulSet of a resource is deleted or the resource is let go (`Suspended`,
`MayFinalize`), and that the two reconcilers go no further where it has not: `wp_suspendServicesWithError`, then the
finalization of a resource (`wp_finalize`) and the deletion of a StatefulSet (`wp_settle`).
-/

namespace CoherenceOperator

open Effect Prog

namespace CoherenceProbe

variable {op : Operator} {options : ProbeExecutionOptions} {action : Pod → Probe → Except ProbeError Bool}
  {p active : Probe} {pod : Pod} {pods : List Pod} {ha : Bool}

/-- The security of a member does not change what kind of action it is. -/
theorem legacyNoOpReason_activeProbe (h : activeProbe op options p pod = .ok active) :
    active.legacyNoOpReason = p.legacyNoOpReason := by
  have hsecure : ∀ c, secureProbe options c p = .ok active → active.legacyNoOpReason = p.legacyNoOpReason := by
    intro c hc
    unfold secureProbe at hc
    split at hc
    · unfold secureSuspend at hc
      split at hc
      · rename_i a ha
        split at hc
        · cases hc
          simp [Probe.legacyNoOpReason, ha]
        · cases hc
      · cases hc
    · split at hc
      · rename_i a ha
        split at hc
        · cases hc
          simp [Probe.legacyNoOpReason, ha]
        · cases hc
          rfl
      · cases hc
        rfl
  unfold activeProbe at h
  dsimp only at h
  split at h
  · split at h
    · cases h
    · split at h
      · cases h
      · split at h
        · exact hsecure _ h
        · cases h
          rfl
  · split at h
    · cases h
    · cases h
      rfl

/-- What the Pods come to is what one of them says. -/
theorem exists_of_executeOnPods (h : executeOnPods op action options p pods = .ok ha) :
    ∃ pod ∈ pods, ∃ active, activeProbe op options p pod = .ok active ∧ runProbe action pod active = .ok ha := by
  induction pods with
  | nil => cases h
  | cons pod pods ih =>
    have hrest : executeOnPods op action options p pods = .ok ha →
        ∃ q ∈ pod :: pods, ∃ active, activeProbe op options p q = .ok active ∧ runProbe action q active = .ok ha := by
      intro h
      obtain ⟨q, hq, hrun⟩ := ih h
      exact ⟨q, List.mem_cons_of_mem _ hq, hrun⟩
    unfold executeOnPods at h
    split at h
    · split at h
      · cases h
      · rename_i active hactive
        split at h
        · rename_i ha' hrun
          cases h
          exact ⟨pod, List.mem_cons_self, active, hactive, hrun⟩
        · split at h
          · cases h
          · exact hrest h
    · exact hrest h

/-- A suspension that does not fail is not executed at all, for want of an action or of Pods, or a Pod accepts it. -/
theorem of_suspensionOf_ne_failed {c : Coherence} {sts : StatefulSet} (h : suspensionOf op action c sts pods ≠ .failed) :
    c.spec.getSuspendProbe.legacyNoOpReason.isSome ∨ pods = [] ∨
      ∃ pod ∈ pods, ∃ active, activeProbe op { suspension := true } c.spec.getSuspendProbe pod = .ok active ∧
        action pod active = .ok true := by
  unfold suspensionOf at h
  dsimp only at h
  split at h
  · rename_i hok
    unfold executeProbeForPods at hok
    split at hok
    · cases hok
    · split at hok
      · cases hok
      · split at hok
        · rename_i hlen
          exact .inr (.inl (List.eq_nil_of_length_eq_zero hlen))
        · split at hok
          · cases hok
          · obtain ⟨pod, hpod, active, hactive, hrun⟩ := exists_of_executeOnPods hok
            unfold runProbe at hrun
            split at hrun
            · cases hrun
            · split at hrun
              · rename_i hnoop
                rw [legacyNoOpReason_activeProbe hactive] at hnoop
                exact .inl hnoop
              · exact .inr (.inr ⟨pod, hpod, active, hactive, hrun⟩)
  · exact absurd rfl h

end CoherenceProbe

variable {op : Operator} {env : Env} {c : Coherence} {sts : StatefulSet} {w w' u u' : World}

/-- The services of the members are suspended, or there is nothing to suspend. -/
inductive Suspended (op : Operator) (env : Env) (c : Coherence) (sts : StatefulSet) (w u : World) : Prop
  | flag (h : op.skipServiceSuspend = true)
  | off (h : c.spec.isSuspendServicesOnShutdown = false)
  | noAction (h : c.spec.getSuspendProbe.legacyNoOpReason.isSome)
  | noPods (h : env.members sts = [])
  | accepted (pod : Pod) (hpod : pod ∈ env.members sts) (active : Probe)
      (hactive : CoherenceProbe.activeProbe op { suspension := true } c.spec.getSuspendProbe pod = .ok active)
      (hlisted : w.Did u (.call ⟨.listPods, .statefulSet, sts.key⟩)) (h : env.probeAction pod active = .ok true)

/-- What was suspended between two states was so between an earlier and a later one. -/
theorem Suspended.of_path {A B : Act → Prop} (h : Suspended op env c sts w' u') (hw : Path A w w') (hu : Path B u' u) :
    Suspended op env c sts w u := by
  cases h with
  | flag h => exact .flag h
  | off h => exact .off h
  | noAction h => exact .noAction h
  | noPods h => exact .noPods h
  | accepted pod hpod active hactive hlisted h => exact .accepted pod hpod active hactive ((hlisted.of_path hw).trans_path hu) h

/-- **Suspension**: if it does not fail, the services are suspended. -/
theorem wp_suspendServicesWithError :
    Wp (CoherenceProbe.suspendServicesWithError op env (.coherence (some c)) sts)
      (Wp.Ends (fun s u => Path Act.IsRemark w u ∧ (s ≠ .failed → Suspended op env c sts w u)) (Path Act.IsRemark w)) w := by
  unfold CoherenceProbe.suspendServicesWithError
  dsimp only
  by_cases hflag : op.skipServiceSuspend = true
  · rw [if_pos hflag]
    exact ⟨.refl, fun _ => .flag hflag⟩
  rw [if_neg hflag]
  by_cases hoff : c.spec.isSuspendServicesOnShutdown = true
  · rw [if_neg (by simp [hoff])]
    by_cases hbad : CoherenceProbe.isMisconfigured c = true
    · rw [if_pos hbad]
      exact ⟨.refl, fun h => absurd rfl h⟩
    rw [if_neg hbad]
    let call : ApiCall := ⟨.listPods, .statefulSet, ⟨sts.metadata.ns, sts.metadata.name⟩⟩
    have hpath : Path Act.IsRemark w (w.sent call) := .single ⟨.call call, (by simp [Act.IsRemark, Act.IsNote, call]), rfl⟩
    have hlist : Wp (request env call) (Wp.Ends (fun _ u => u = w.sent call) fun u => u = w.sent call) w := by
      rw [Wp, exec_request]
      cases w.answer call env with
      | error e => rfl
      | ok _ => rfl
    refine Wp.attempt_bind_ends hlist ?_ ?_
    · rintro _ u rfl
      refine ⟨hpath, fun h => ?_⟩
      rcases CoherenceProbe.of_suspensionOf_ne_failed h with hnoop | hnil | ⟨pod, hpod, active, hactive, hok⟩
      · exact .noAction hnoop
      · exact .noPods hnil
      · exact .accepted pod hpod active hactive World.did_act hok
    · rintro e u rfl
      exact ⟨⟨hpath, fun h => absurd rfl h⟩, hpath⟩
  · rw [if_pos (by simp [hoff])]
    exact ⟨.refl, fun _ => .off (by simpa using hoff)⟩

/-! ### Finalization -/

/-- A resource that is being deleted may be let go. -/
inductive MayFinalize (op : Operator) (env : Env) (c : Coherence) (w u : World) : Prop
  | bypass (h : (c.metadata.annotations.lookup "coherence.oracle.com/finalizer-bypass").isSome)
  | flag (h : op.skipServiceSuspend = true)
  | off (h : c.spec.isSuspendServicesOnShutdown = false)
  | zero (h : c.getReplicas = 0)
  | missing (h : w.statefulSet c.key = none)
  | notReady (sts : StatefulSet) (hsts : w.statefulSet c.key = some sts) (h : sts.status.readyReplicas = 0)
  | suspended (sts : StatefulSet) (hsts : w.statefulSet c.key = some sts) (h : Suspended op env c sts w u)
  | failed (sts : StatefulSet) (hsts : w.statefulSet c.key = some sts) (v : World) (hv : Path Act.IsRemark w v)
      (hfailed : (exec (CoherenceProbe.suspendServicesWithError op env (.coherence (some c)) sts) v).1 = .ok .failed)
      (hcount : ∃ n ∈ errorCount c.metadata.annotations, 3 < n)

/-- What may be finalized between two states may be so between an earlier and a later one. -/
theorem MayFinalize.of_path {A : Act → Prop} (h : MayFinalize op env c w' u') (hw : Path Act.IsRemark w w')
    (hu : Path A u' u) : MayFinalize op env c w u := by
  have hsame : w'.statefulSet c.key = w.statefulSet c.key := statefulSet_of_note (hw.mono fun _ => Act.IsRemark.isNote)
  cases h with
  | bypass h => exact .bypass h
  | flag h => exact .flag h
  | off h => exact .off h
  | zero h => exact .zero h
  | missing h => exact .missing (hsame ▸ h)
  | notReady sts hsts h => exact .notReady sts (hsame ▸ hsts) h
  | suspended sts hsts h => exact .suspended sts (hsame ▸ hsts) (h.of_path hw hu)
  | failed sts hsts v hv hfailed hcount => exact .failed sts (hsame ▸ hsts) v (hw.trans hv) hfailed hcount

theorem wp_finalizeDeployment :
    Wp (FinalizerManager.finalizeDeployment op env c)
      (Wp.Ends (fun _ u => Path Act.IsRemark w u ∧ MayFinalize op env c w u) (Path Act.IsRemark w)) w := by
  unfold FinalizerManager.finalizeDeployment
  by_cases hbypass : (c.metadata.annotations.lookup "coherence.oracle.com/finalizer-bypass").isSome = true
  · rw [if_pos hbypass]
    exact ⟨.refl, .bypass hbypass⟩
  rw [if_neg hbypass]
  by_cases hflag : op.skipServiceSuspend = true
  · rw [if_pos hflag]
    exact ⟨.refl, .flag hflag⟩
  rw [if_neg hflag]
  by_cases hoff : (!c.spec.isSuspendServicesOnShutdown) = true
  · rw [if_pos hoff]
    exact ⟨.refl, .off (by simpa using hoff)⟩
  rw [if_neg hoff]
  by_cases hzero : c.getReplicas = 0
  · rw [if_pos hzero]
    exact ⟨.refl, .zero hzero⟩
  rw [if_neg hzero]
  let call : ApiCall := ⟨.get, .statefulSet, c.key⟩
  have hpath : Path Act.IsRemark w (w.sent call) := .single ⟨.call call, (by simp [Act.IsRemark, Act.IsNote, call]), rfl⟩
  have hget : Wp (getStatefulSet env c.key)
      (Wp.Ends (fun s u => u = w.sent call ∧ s = w.statefulSet c.key) fun u => u = w.sent call) w := by
    rw [Wp, getStatefulSet, exec_read]
    cases w.answer call env with
    | error e => rfl
    | ok _ => exact ⟨rfl, rfl⟩
  refine Wp.attempt_bind_ends hget ?_ ?_
  · rintro s u ⟨rfl, hs⟩
    cases hlive : w.statefulSet c.key with
    | none =>
      rw [hlive] at hs
      subst hs
      exact ⟨hpath, .missing hlive⟩
    | some sts =>
      rw [hlive] at hs
      subst hs
      by_cases hready : sts.status.readyReplicas = 0
      · simp only [hready, if_true]
        exact ⟨hpath, .notReady sts hlive hready⟩
      · simp only [hready, if_false]
        rcases hrun : exec (CoherenceProbe.suspendServicesWithError op env (.coherence (some c)) sts) (w.sent call) with ⟨r, u⟩
        have hspec := wp_suspendServicesWithError.elim hrun
        cases r with
        | error e =>
          rw [Wp, exec_bind_error hrun]
          exact hpath.trans hspec
        | ok s =>
          refine Wp.bind_ok hrun ?_
          have hu : Path Act.IsRemark w u := hpath.trans hspec.1
          cases s with
          | failed =>
            by_cases hcount : (errorCount c.metadata.annotations).any (· > 3) = true
            · simp only [hcount, if_true]
              refine ⟨hu, .failed sts hlive _ hpath (by rw [hrun]) ?_⟩
              cases hn : errorCount c.metadata.annotations with
              | none =>
                rw [hn] at hcount
                cases hcount
              | some n =>
                rw [hn] at hcount
                exact ⟨n, rfl, by simpa using hcount⟩
            · simp only [hcount]
              exact hu
          | skipped | successful =>
            have hsuspended : Suspended op env c sts (w.sent call) u := hspec.2 (by decide)
            exact ⟨hu, .suspended sts hlive (hsuspended.of_path (B := Act.IsRemark) hpath .refl)⟩
  · rintro e u rfl
    exact ⟨hpath, hpath⟩

/-- The request comes back: there is an error, or a time to wait. -/
def Retried (r : Except GoError Result) : Prop := ∀ result, r = .ok result → 0 < result.requeueAfter

theorem retried_error (e : GoError) : Retried (.error e) := by
  rintro _ ⟨⟩

/-- **Finalization**: a resource with the finalizer is let go if it may be, and else comes back as it was. -/
theorem wp_finalize (hfinalizer : CoherenceFinalizer ∈ c.metadata.finalizers) :
    Wp (CoherenceReconciler.finalize op env c)
      (fun r u => MayFinalize op env c w u ∨ Retried r ∧ Path Act.IsRemark w u) w := by
  rw [CoherenceReconciler.finalize, if_pos hfinalizer]
  refine Wp.attempt_bind_ends wp_finalizeDeployment ?_ ?_
  · rintro _ u ⟨-, hmay⟩
    refine Wp.mono (CoherenceReconciler.note_removeFinalizer.wp u) fun r v hv => .inl ?_
    exact hmay.of_path .refl hv
  · intro e u hu
    refine ⟨.inr ⟨?_, hu⟩, .inr ⟨retried_error e, hu⟩⟩
    rintro _ ⟨⟩
    exact Nat.succ_pos _

/-! ### The StatefulSet -/

/-- Acts that delete no StatefulSet of this name. -/
def Act.LeavesStatefulSet (key : NamespacedName) : Act → Prop
  | .deleteObject kind k => ¬ (kind = .statefulSet ∧ k = key)
  | _ => True

/-- Acts that leave the StatefulSet of this name as it is. -/
def Act.PassesStatefulSet (key : NamespacedName) (a : Act) : Prop :=
  ∀ w : World, (Acts.act a w).statefulSet key = w.statefulSet key

/-- The StatefulSet is there. -/
def World.HasStatefulSet (key : NamespacedName) (w : World) : Prop := (w.statefulSet key).isSome

variable {key request : NamespacedName} {st : Storage}

theorem hasStatefulSet_iff : w.HasStatefulSet key ↔ w.objects.get (.statefulSet, key) ≠ none := by
  rw [World.HasStatefulSet, Option.isSome_iff_ne_none, ne_eq, World.statefulSet_eq_none]

theorem World.HasStatefulSet.of_some (h : w.statefulSet key = some sts) : w.HasStatefulSet key := by
  rw [HasStatefulSet, h]
  rfl

theorem Act.IsRemark.leavesStatefulSet {a : Act} (h : a.IsRemark) : a.LeavesStatefulSet key := by
  cases a with
  | deleteObject => exact h.elim
  | _ => trivial

/-- A StatefulSet that is there stays there. -/
theorem hasStatefulSet_act (a : Act) (w : World) (ha : a.LeavesStatefulSet key) (h : w.HasStatefulSet key) :
    (Acts.act a w).HasStatefulSet key := by
  rw [hasStatefulSet_iff] at h ⊢
  have hput : ∀ o : Object, (w.objects.put o).get (.statefulSet, key) ≠ none := by
    intro o
    rw [Table.get_put]
    split
    · simp
    · exact h
  cases a with
  | createObject o | updateObject o => exact hput o
  | patchStatefulSet p result => exact hput _
  | deleteObject kind k =>
    simp only [Acts.act, Act.effect]
    split
    · exact h
    · rw [Table.get_erase, if_neg]
      · exact h
      · intro heq
        obtain ⟨hkind, hkey⟩ := Prod.mk.inj heq
        exact ha ⟨hkind.symm, hkey.symm⟩
  | putStore s =>
    show ((w.objects.erase (.secret, s.key)).get (.statefulSet, key)) ≠ none
    rw [Table.get_erase_of_ne fun heq => by cases (Prod.mk.inj heq).1]
    exact h
  | coherenceMetadata | coherenceJobMetadata =>
    simp only [Acts.act, Act.effect]
    split <;> exact h
  | _ => exact h

theorem hasStatefulSet_of_path (p : Path (Act.LeavesStatefulSet key) w u) (h : w.HasStatefulSet key) :
    u.HasStatefulSet key := p.invariant (fun a x ha => hasStatefulSet_act a x ha) h

/-- How the members are stopped: the StatefulSet is there, or its services are suspended; and where it was to be deleted, there
is an error if they are not. -/
structure Stops (op : Operator) (env : Env) (c : Coherence) (sts : StatefulSet) (key : NamespacedName) (due : Prop) (w : World)
    (r : Except GoError Result) (u : World) : Prop where
  kept : u.HasStatefulSet key ∨ c.getReplicas = 0 ∧ Suspended op env c sts w u
  failed : due → Suspended op env c sts w u ∨ ∃ e, r = .error e

namespace StatefulSetReconciler

/-- **Before the StatefulSet is deleted** its services are suspended. -/
theorem wp_suspendBeforeDelete :
    Wp (suspendBeforeDelete op env (.coherence (some c)) sts)
      (Wp.Ends (fun _ u => Path Act.IsRemark w u ∧ Suspended op env c sts w u) (Path Act.IsRemark w)) w := by
  refine Wp.bind_ok (a := some c.spec) rfl ?_
  by_cases hoff : c.spec.isSuspendServicesOnShutdown = true
  · simp only [hoff, if_true]
    refine Wp.bind_ends wp_suspendServicesWithError (fun s u hu => ?_) fun _ _ hu => hu
    cases s with
    | failed => exact hu.1
    | skipped | successful => exact ⟨hu.1, hu.2 (by decide)⟩
  · simp only [hoff]
    exact ⟨.refl, .off (by simpa using hoff)⟩

theorem allows_leaves : Allows (Act.LeavesStatefulSet request) request st where
  note a ha := by
    cases a with
    | deleteObject => exact ha.elim
    | _ => trivial
  action _ _ := trivial
  create _ _ _ := trivial
  update _ _ _ := trivial
  validate _ _ := trivial
  patch _ _ _ := trivial

theorem permits_all : Permits (fun _ => True) request st :=
  ⟨fun _ _ => trivial, fun _ _ => trivial, fun _ _ _ => trivial, fun _ _ _ => trivial, fun _ _ => trivial,
    fun _ _ _ => trivial⟩

/-- **The StatefulSet of a resource** is deleted only after its services were suspended. -/
theorem wp_settle (hkey : sts.key = request) (hsts : w.statefulSet request = some sts) :
    Wp (settle op env request (.coherence (some c)) (some sts) st)
      (Stops op env c sts request (c.getReplicas = 0) w) w := by
  have hthere : w.HasStatefulSet request := .of_some hsts
  by_cases hzero : c.getReplicas = 0
  · have hnil : (Deployment.coherence (some c)).isNilOrZero = .ok true := by
      show Except.ok (c.getReplicas == 0) = _
      rw [hzero]
      rfl
    rw [settle, hnil]
    refine Wp.bind_ok (a := true) rfl ?_
    have hsuspend : Wp (do
        Op.ignoreError (updateDeploymentStatusActionsState env request false)
        suspendBeforeDelete op env (.coherence (some c)) sts)
        (Wp.Ends (fun _ u => Path Act.IsRemark w u ∧ Suspended op env c sts w u) (Path Act.IsRemark w)) w := by
      have hignore : Wp (Op.ignoreError (updateDeploymentStatusActionsState env request false))
          (Wp.Ends (fun _ => Path Act.IsRemark w) (Path Act.IsRemark w)) w :=
        Wp.ends ((Op.does_ignoreError note_changeStatus).wp w)
      refine Wp.bind_ends hignore (fun _ u hu => ?_) fun _ _ hu => hu
      refine Wp.mono wp_suspendBeforeDelete fun r v hv => ?_
      cases r with
      | ok _ => exact ⟨hu.trans hv.1, hv.2.of_path (B := Act.IsRemark) hu .refl⟩
      | error e => exact hu.trans hv
    have hpermits : Permits (fun _ => True) request st := permits_all
    have hrest : Does (fun _ => True) (do
        Secondary.delete env .statefulSet request
        finish op env request (.coherence (some c)) {}) :=
      Does.bind (Secondary.does_delete trivial trivial) fun _ => does_finish hpermits
    show Wp (deleteStatefulSet op env request (.coherence (some c)) sts >>= fun _ =>
      finish op env request (.coherence (some c)) {}) _ w
    have hsplit : (deleteStatefulSet op env request (.coherence (some c)) sts >>= fun _ =>
        finish op env request (.coherence (some c)) {}) =
        ((do Op.ignoreError (updateDeploymentStatusActionsState env request false)
             suspendBeforeDelete op env (.coherence (some c)) sts) >>= fun _ => do
          Secondary.delete env .statefulSet request
          finish op env request (.coherence (some c)) {}) := by
      simp only [deleteStatefulSet, Deployment.isNil, Bool.false_eq_true, if_false, bind_assoc]
    rw [hsplit]
    refine Wp.bind_ends hsuspend (fun _ u hu => ?_) fun e u hu => ?_
    · refine Wp.mono (hrest.wp u) fun r v hv => ?_
      have hsuspended : Suspended op env c sts w v := hu.2.of_path (A := Act.IsRemark) .refl hv
      exact ⟨.inr ⟨hzero, hsuspended⟩, fun _ => .inl hsuspended⟩
    · have hpath : Path (Act.LeavesStatefulSet request) w u := hu.mono fun _ => Act.IsRemark.leavesStatefulSet
      exact ⟨.inl (hasStatefulSet_of_path hpath hthere), fun _ => .inr ⟨e, rfl⟩⟩
  · have hnil : (Deployment.coherence (some c)).isNilOrZero ≠ .ok true := by
      intro h
      have h : Except.ok (ε := GoError) (c.getReplicas == 0) = .ok true := h
      exact hzero (by simpa using Except.ok.inj h)
    have hkeys : ∀ s ∈ some sts, s.key = request := by
      rintro _ ⟨⟩
      exact hkey
    have hdoes : Does (Act.LeavesStatefulSet request) (settle op env request (.coherence (some c)) (some sts) st) :=
      does_settle allows_leaves hkeys fun h => absurd h hnil
    refine Wp.mono (hdoes.wp w) fun r u hu => ⟨.inl (hasStatefulSet_of_path hu hthere), fun h => absurd h hzero⟩

/-- The StatefulSet is to be deleted: the resource has no replicas, there is no Job in its place in the store, and it is not
being deleted yet. -/
def IsDue (c : Coherence) (sts : StatefulSet) (request : NamespacedName) (st : Storage) : Prop :=
  c.getReplicas = 0 ∧ sts.metadata.deletionTimestamp = none ∧ st.isJob request = false

theorem wp_reconcileAllResourceOfKind (hsts : w.statefulSet request = some sts) :
    Wp (reconcileAllResourceOfKind op env request (.coherence (some c)) st)
      (Stops op env c sts request (IsDue c sts request st) w) w := by
  have hthere : w.HasStatefulSet request := .of_some hsts
  unfold reconcileAllResourceOfKind
  by_cases hjob : st.isJob request = true
  · rw [if_pos hjob]
    refine ⟨.inl hthere, fun hdue => ?_⟩
    rw [hdue.2.2] at hjob
    cases hjob
  rw [if_neg hjob]
  refine wp_read_bind (fun e => ⟨.inl hthere, fun _ => .inr ⟨e, rfl⟩⟩) ?_
  simp only [World.statefulSet_sent, hsts, Option.any_some]
  by_cases hterminating : sts.metadata.deletionTimestamp.isSome = true
  · simp only [hterminating, if_true]
    refine ⟨.inl hthere, fun hdue => ?_⟩
    rw [hdue.2.1] at hterminating
    cases hterminating
  · simp only [hterminating]
    refine Wp.bind_ok (a := .coherence (some c)) rfl ?_
    have hkey : sts.key = request := (Prod.mk.inj (w.objects.filed _ _ (World.statefulSet_eq_some.1 hsts))).2
    have hsettle : Wp (settle op env request (.coherence (some c)) (some sts) st) _ (w.sent ⟨.get, .statefulSet, request⟩) :=
      wp_settle hkey hsts
    refine Wp.mono hsettle fun r u hu => ?_
    have hsent : Path (fun _ => True) w (w.sent ⟨.get, .statefulSet, request⟩) := .single ⟨.call _, trivial, rfl⟩
    have hmono : Suspended op env c sts (w.sent ⟨.get, .statefulSet, request⟩) u → Suspended op env c sts w u :=
      fun h => h.of_path (B := fun _ => True) hsent .refl
    exact ⟨hu.kept.imp_right fun h => ⟨h.1, hmono h.2⟩, fun hdue => (hu.failed hdue.1).imp_left hmono⟩

end StatefulSetReconciler

end CoherenceOperator
