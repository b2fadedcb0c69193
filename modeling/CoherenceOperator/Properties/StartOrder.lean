import CoherenceOperator.Properties.Presence
import CoherenceOperator.Properties.WriteAhead

/-!
# The order in which workloads start

A Coherence resource may ask for others to be ready before its own members are started. Whatever the order in which any number of
resources are reconciled, whatever requests fail, and whatever else happens to the objects and to the statuses in between, a StatefulSet
comes into being only in a reconcile of the resource that has its name, and only when the start quorum of this resource is met in the state
that the reconcile began with (`along_startsInOrder`).
-/

namespace CoherenceOperator

open Effect Prog Storage

/-! ### Before the StatefulSet is seen to -/

/-- Acts before the StatefulSet of a resource is seen to: none of them touches a StatefulSet, and no resource gets ready by them. -/
def Act.IsPrelude : Act → Prop
  | .call _ | .coherenceMetadata _ _ _ | .coherenceReplicas _ _ | .store _ _ _ | .putStore _ => True
  | .coherenceStatus _ status => status.phase ≠ some .ready
  | .createObject o | .updateObject o => o.kind ≠ .statefulSet
  | .deleteObject kind _ => kind ≠ .statefulSet
  | _ => False

/-- A resource that is ready in the second state was so, with the same status, in the first. -/
def World.ReadyBefore (w u : World) : Prop :=
  ∀ key c', u.coherence.get key = some c' → c'.status.phase = some .ready →
    ∃ c, w.coherence.get key = some c ∧ c.status = c'.status

section Prelude

variable {op : Operator} {env : Env} {request key : NamespacedName} {w u v : World} {a : Act} {d : CoherenceResource} {c : Coherence}
  {kind : ResourceType} {α : Type}

theorem World.ReadyBefore.refl : w.ReadyBefore w := fun _ c' hc' _ => ⟨c', hc', rfl⟩

theorem World.ReadyBefore.trans (h : w.ReadyBefore u) (h' : u.ReadyBefore v) : w.ReadyBefore v := by
  intro key c' hc' hready
  obtain ⟨c₁, hc₁, hstatus⟩ := h' key c' hc' hready
  obtain ⟨c, hc, hstatus'⟩ := h key c₁ hc₁ (by rw [hstatus, hready])
  exact ⟨c, hc, hstatus'.trans hstatus⟩

/-- One resource is changed, and gets another status only if it is not ready then. -/
theorem World.readyBefore_modify {f : Coherence → Coherence} (hf : ∀ c, (f c).key = c.key) (hu : u.coherence = w.coherence.modify key f hf)
    (h : ∀ c, (f c).status.phase = some .ready → (f c).status = c.status) : w.ReadyBefore u := by
  intro key' c' hc' hready
  rw [hu] at hc'
  by_cases hk : key' = key
  · subst hk
    rw [Table.get_modify_self, Option.map_eq_some_iff] at hc'
    obtain ⟨c, hc, rfl⟩ := hc'
    exact ⟨c, hc, (h c hready).symm⟩
  · rw [Table.get_modify_of_ne hk] at hc'
    exact ⟨c', hc', rfl⟩

theorem Act.IsPrelude.readyBefore (h : a.IsPrelude) : w.ReadyBefore (Acts.act a w) := by
  cases a with
  | coherenceStatus key status => exact World.readyBefore_modify (·.key_withStatus _) rfl fun c hready => absurd hready h
  | coherenceReplicas key replicas => exact World.readyBefore_modify (·.key_withReplicas _) rfl fun _ _ => rfl
  | coherenceMetadata key annotations finalizers =>
    simp only [Acts.act, Act.effect]
    split
    · intro key' c' hc' _
      simp only [Table.get_erase] at hc'
      split at hc'
      · cases hc'
      · exact ⟨c', hc', rfl⟩
    · exact World.readyBefore_modify (·.key_withMetadata _ _) rfl fun _ _ => rfl
  | call | store | putStore | createObject | updateObject => exact .refl
  | deleteObject =>
    simp only [Acts.act, Act.effect]
    split <;> exact .refl
  | _ => exact h.elim

/-- The StatefulSets are as they were. -/
theorem Act.IsPrelude.find (h : a.IsPrelude) : (Acts.act a w).find .statefulSet key = w.find .statefulSet key := by
  have hk : ResourceType.statefulSet ≠ .secret := by decide
  rw [World.find_of_ne_secret _ hk, World.find_of_ne_secret _ hk]
  cases a with
  | createObject o | updateObject o => exact Table.get_put_of_ne fun he => h (Prod.mk.inj he).1.symm
  | putStore s => exact Table.get_erase_of_ne fun he => hk (Prod.mk.inj he).1
  | deleteObject kind key' =>
    simp only [Acts.act, Act.effect]
    split
    · rfl
    · exact Table.get_erase_of_ne fun he => h (Prod.mk.inj he).1.symm
  | call | coherenceStatus | coherenceReplicas | store => rfl
  | coherenceMetadata =>
    simp only [Acts.act, Act.effect]
    split <;> rfl
  | _ => exact h.elim

theorem readyBefore_of_prelude (p : Path Act.IsPrelude w u) : w.ReadyBefore u :=
  p.invariant (I := fun x : World => w.ReadyBefore x) (fun _ _ ha hx => hx.trans ha.readyBefore) .refl

theorem find_of_prelude (p : Path Act.IsPrelude w u) (key : NamespacedName) : u.find .statefulSet key = w.find .statefulSet key :=
  p.unchanged (f := fun x : World => x.find .statefulSet key) fun _ _ ha => ha.find

/-- What meets an entry, and is ready as a whole if the entry counts its Pods, is a resource that is ready. -/
theorem StartQuorum.exists_ready {q : StartQuorum} {found : Option Coherence} (hmet : q.IsMet (.ok found))
    (hcounted : q.IsReadyIfCounted (.ok found)) : ∃ dep, found = some dep ∧ dep.status.phase = some .ready := by
  cases found with
  | none => exact hmet.elim
  | some dep =>
    refine ⟨dep, rfl, ?_⟩
    simp only [StartQuorum.IsMet, StartQuorum.IsReadyIfCounted] at hmet hcounted
    by_cases hcount : q.podCount > 0
    · exact hcounted hcount
    · rwa [if_neg hcount] at hmet

/-- A quorum that is met was met before. -/
theorem CoherenceResource.QuorumIsMet.of_readyBefore (h : d.QuorumIsMet u) (hw : w.ReadyBefore u) : d.QuorumIsMet w := by
  intro q hq hname
  obtain ⟨hmet, hcounted⟩ := h q hq hname
  obtain ⟨dep, hdep, hready⟩ := StartQuorum.exists_ready hmet hcounted
  obtain ⟨dep₀, hdep₀, hstatus⟩ := hw _ dep hdep hready
  rw [hdep] at hmet hcounted
  rw [hdep₀]
  simp only [StartQuorum.IsMet, StartQuorum.IsReadyIfCounted] at hmet hcounted ⊢
  rw [hstatus]
  exact ⟨hmet, hcounted⟩

/-! ### What is done before -/

theorem prelude_of_call (h : a.IsCall) : a.IsPrelude := by
  cases a with
  | call => trivial
  | _ => exact h.elim

theorem prelude_ensureFinalizerRemoved : Does Act.IsPrelude (FinalizerManager.ensureFinalizerRemoved env c) :=
  Does.ite (fun _ => does_change trivial trivial) fun _ => Does.pure _

theorem prelude_ensureFinalizer : Does Act.IsPrelude (CoherenceReconciler.ensureFinalizer env c) := by
  refine Does.ite (fun _ => ?_) fun _ => Does.ite (fun _ => Does.pure _) fun _ => Op.does_wrapError ?_
  · refine Does.bind prelude_ensureFinalizerRemoved.attempt fun r => ?_
    split
    · exact Does.pure _
    · exact Does.ite (fun _ => Does.pure _) fun _ => Does.throw _
  · unfold FinalizerManager.patchFinalizers
    split
    · exact Does.pure _
    · refine Does.bind (Op.does_wrapError ?_) fun _ => Does.pure _
      refine Does.bind (does_request trivial) fun _ => Does.bind Does.get fun w => ?_
      split
      · exact Does.throw _
      · exact Does.perform trivial

/-- The initial status is not that of a resource that is ready. -/
theorem prelude_ensureStatus : Does Act.IsPrelude (CoherenceReconciler.ensureStatus env request c) := by
  unfold CoherenceReconciler.ensureStatus
  split
  · exact Does.pure _
  · refine Does.bind (Op.does_wrapError (call_getCoherence.mono fun _ => prelude_of_call)) fun c => ?_
    cases c with
    | none => exact Does.throw _
    | some c =>
      refine Op.does_wrapError (Does.ite (fun _ => Does.pure _) fun _ => ?_)
      exact does_change trivial (by simp [Act.IsPrelude])

theorem prelude_ensureOperatorSecret : Does Act.IsPrelude (ensureOperatorSecret op env d) :=
  does_ensureOperatorSecret (fun _ => trivial) (fun o ho => by rw [Act.IsPrelude, ho]; decide)
    (fun o ho => by rw [Act.IsPrelude, ho]; decide) (by simp [Act.IsPrelude])

theorem prelude_store {st : Storage} {res : Resources} {deployment : Deployment} : Does Act.IsPrelude (st.store op env res deployment) :=
  does_store (fun _ => trivial) (fun _ _ => trivial) fun _ _ _ => trivial

/-- The reconcilers before the one of the StatefulSet. -/
theorem prelude_firstReconcilers {st : Storage} {x : Op Result}
    (hx : x ∈ CoherenceReconciler.firstReconcilers op env request (.coherence (some c)) st) : Does Act.IsPrelude x := by
  have hsecondary : ∀ kind, kind ≠ .statefulSet →
      Does Act.IsPrelude (Secondary.reconcileAllResourceOfKind op env kind request (.coherence (some c)) st) := fun kind hk =>
    Secondary.does_reconcileAllResourceOfKind rfl (fun _ => prelude_of_call) (fun _ _ _ => ⟨trivial, hk⟩)
      (fun o _ ho => by rw [Act.IsPrelude, ho]; exact hk) fun _ _ o ho _ => by rw [Act.IsPrelude, ho]; exact hk
  have hk : ResourceType.serviceMonitor ≠ .statefulSet := by decide
  simp only [CoherenceReconciler.firstReconcilers, List.mem_cons, List.not_mem_nil, or_false] at hx
  rcases hx with rfl | rfl | rfl | rfl
  · exact hsecondary _ (by decide)
  · exact hsecondary _ (by decide)
  · exact hsecondary _ (by decide)
  · exact ServiceMonitor.does_reconcileAllResourceOfKind rfl (fun _ => prelude_of_call) (fun _ _ _ => ⟨trivial, hk⟩)
      (fun o _ ho => by rw [Act.IsPrelude, ho]; exact hk) fun _ _ o ho _ => by rw [Act.IsPrelude, ho]; exact hk

end Prelude

/-! ### The StatefulSet -/

section Starting

variable {op : Operator} {env : Env} {request key : NamespacedName} {w u : World} {a : Act} {d : Deployment} {r : CoherenceResource}
  {st : Storage} {ns : String}

/-- What is found for an entry that names a resource, if anything is. -/
theorem exists_quorumFinds {qs : List StartQuorum} {q : StartQuorum} (hq : q ∈ qs) (hname : q.deployment ≠ "") :
    ∃ p ∈ quorumFinds env ns w qs, p.1 = q ∧ ∀ x, p.2 = .ok x → x = w.coherence.get (q.key ns) := by
  induction qs generalizing w with
  | nil => cases hq
  | cons q' qs ih =>
    rw [quorumFinds]
    rcases List.mem_cons.1 hq with rfl | hq
    · rw [if_neg hname]
      refine ⟨_, List.mem_cons_self, rfl, fun x hx => ?_⟩
      obtain ⟨_, -, rfl⟩ := map_eq_ok.1 hx
      rfl
    · split
      · exact ih hq
      · obtain ⟨p, hp, hfound⟩ := ih (w := w.sent ⟨.get, .coherence, q'.key ns⟩) hq
        exact ⟨p, List.mem_cons_of_mem _ hp, hfound⟩

/-- A resource is created only if its quorum is met. -/
theorem quorumIsMet_of_canCreate (hd : d.deref = .ok r) (h : (exec (canCreate env d) w).1 = .ok none) : r.QuorumIsMet w := by
  rw [canCreate_iff hd] at h
  intro q hq hname
  obtain ⟨p, hp, rfl, hfound⟩ := exists_quorumFinds hq hname
  obtain ⟨hmet, hcounted⟩ := h p hp
  cases hp2 : p.2 with
  | error e =>
    rw [hp2] at hmet
    exact hmet.elim
  | ok x =>
    rw [hp2, hfound x hp2] at hmet hcounted
    exact ⟨hmet, hcounted⟩

/-- No StatefulSet comes into being by these acts. -/
def Act.StartsNone (a : Act) : Prop := a.IsNote ∨ ∃ o : Object, a = .createObject o ∧ o.kind = .job

theorem Act.StartsNone.find (h : a.StartsNone) : (Acts.act a w).find .statefulSet key = w.find .statefulSet key := by
  have hk : ResourceType.statefulSet ≠ .secret := by decide
  rw [World.find_of_ne_secret _ hk, World.find_of_ne_secret _ hk]
  rcases h with h | ⟨o, rfl, ho⟩
  · rw [h.objects]
  · refine Table.get_put_of_ne fun he => ?_
    rw [← (Prod.mk.inj he).1] at ho
    cases ho

/-- A StatefulSet is there at the end only if the quorum was met at the start. -/
def StartsInOrder (r : CoherenceResource) (request : NamespacedName) (w u : World) : Prop :=
  u.find .statefulSet request = none ∨ r.QuorumIsMet w

theorem startsInOrder_of_does {α : Type} {x : Op α} (hx : Does Act.StartsNone x) (hnone : u.find .statefulSet request = none) :
    Wp x (fun _ v => StartsInOrder r request w v) u := by
  have hsame : (exec x u).2.find .statefulSet request = u.find .statefulSet request :=
    hx.unchanged (g := fun v : World => v.find .statefulSet request) (fun _ _ ha => ha.find) u
  exact .inl (hsame.trans hnone)

theorem startsNone_of_remark {α : Type} {x : Op α} (hx : Does Act.IsRemark x) : Does Act.StartsNone x := hx.mono fun _ ha => .inl ha.isNote

namespace StatefulSetReconciler

theorem startsNone_finish {result : Result} : Does Act.StartsNone (finish op env request d result) :=
  does_finish_of (fun _ ha => .inl ha.isNote) fun o ho => .inr ⟨o, rfl, ho⟩

/-- It is created if the quorum is met, and else it is waited for. -/
theorem startsInOrder_createStatefulSet (hd : d.deref = .ok r) (hnone : w.find .statefulSet request = none) :
    Wp (createStatefulSet op env d st) (fun _ u => StartsInOrder r request w u) w := by
  have hcalls : Path Act.IsCall w (exec (canCreate env d) w).2 := call_canCreate _
  rcases hrun : exec (canCreate env d) w with ⟨result, u⟩
  rw [hrun] at hcalls
  have hu : u.find .statefulSet request = none := (ServiceMonitor.find_of_calls hcalls _ _).trans hnone
  rw [createStatefulSet, Wp, exec_bind, hrun]
  rcases result with e | _ | reason
  · exact .inl hu
  · have hmet : r.QuorumIsMet w := quorumIsMet_of_canCreate hd (congrArg Prod.fst hrun)
    exact .inr hmet
  · have hwaits : Does Act.IsRemark (do
        let r ← outcome d.deref
        Op.ignoreError (updateCoherenceStatusCondition op env r.key
          { type := .waiting, status := .true, reason := "StatusQuorum", message := reason })
        return ({ requeueAfter := 30 } : Result)) := by
      refine Does.bind (Does.outcome _) fun r => Does.bind ?_ fun _ => Does.pure _
      exact Op.does_ignoreError note_updateCoherenceStatusCondition
    exact startsInOrder_of_does (startsNone_of_remark hwaits) hu

/-- **The reconciler of the StatefulSet** that is not there. -/
theorem startsInOrder_reconcileStatefulSet (hd : d.deref = .ok r) (hnil : d.isNil = false) (hnone : w.find .statefulSet request = none) :
    Wp (reconcileAllResourceOfKind op env request d st) (fun _ u => StartsInOrder r request w u) w := by
  unfold reconcileAllResourceOfKind
  split
  · exact .inl hnone
  refine wp_read_bind (fun _ => .inl hnone) ?_
  have hmissing : (w.sent ⟨.get, .statefulSet, request⟩).statefulSet request = none := by
    rw [World.find_of_ne_secret _ (by decide)] at hnone
    rw [World.statefulSet_sent, World.statefulSet, hnone]
    rfl
  rw [hmissing]
  simp only [Option.any_none, Bool.false_eq_true, if_false]
  refine Wp.bind_ok (exec_ownerOf hnil _) ?_
  have hsent : (w.sent ⟨.get, .statefulSet, request⟩).find .statefulSet request = none := hnone
  have hback : ∀ {α : Type} {x : Op α}, Wp x (fun _ u => StartsInOrder r request (w.sent ⟨.get, .statefulSet, request⟩) u)
      (w.sent ⟨.get, .statefulSet, request⟩) → Wp x (fun _ u => StartsInOrder r request w u) (w.sent ⟨.get, .statefulSet, request⟩) :=
    fun hx => Wp.mono hx fun _ _ h => h.imp id id
  refine hback (Wp.outcome_bind (fun b _ => ?_) fun _ _ => .inl hsent)
  cases b with
  | true =>
    have hreport : Does Act.IsRemark (do
        let _ ← updateDeploymentStatus op env request
        return ({} : Result)) := Does.bind note_updateDeploymentStatus fun _ => Does.pure _
    exact startsInOrder_of_does (startsNone_of_remark hreport) hsent
  | false =>
    refine Wp.bind (startsInOrder_createStatefulSet hd hsent) (fun result u hu => ?_) fun _ _ hu => hu
    rcases hu with hu | hmet
    · exact startsInOrder_of_does startsNone_finish hu
    · exact .inr hmet

end StatefulSetReconciler

/-! ### One reconcile -/

namespace CoherenceReconciler

variable {c : Coherence} {hash : String} {v : World}

/-- What the first reconcilers keep, and what comes of the last. -/
theorem wp_reconcileSecondary_last {I J : World → Prop} {x : Op Result} {rs : List (Op Result)} {p : Progress} (hIJ : ∀ u, I u → J u)
    (hrs : ∀ r ∈ rs, Keeps I r) (hx : ∀ u, I u → Wp x (fun _ v => J v) u) (hw : I w) :
    Wp (reconcileSecondary (rs ++ [x]) p) (fun _ v => J v) w := by
  induction rs generalizing p w with
  | nil => exact Wp.attempt_bind_ends (Wp.ends (hx w hw)) (fun _ _ hu => hu) fun _ _ hu => ⟨hu, hu⟩
  | cons r rs ih =>
    have hrest : ∀ {p : Progress} {u : World}, I u → Wp (reconcileSecondary (rs ++ [x]) p) (fun _ v => J v) u := fun hu =>
      ih (fun y hy => hrs y (List.mem_cons_of_mem _ hy)) hu
    have hr : Wp r (fun _ u => I u) w := hrs r List.mem_cons_self w hw
    exact Wp.attempt_bind_ends (Wp.ends hr) (fun _ _ hu => hrest hu) fun _ _ hu => ⟨hrest hu, hIJ _ hu⟩

/-- What comes first does not matter to the order. -/
theorem startsInOrder_of_prelude (p : Path Act.IsPrelude w u) (h : StartsInOrder r request u v) : StartsInOrder r request w v :=
  h.imp id fun hmet => hmet.of_readyBefore (readyBefore_of_prelude p)

theorem startsInOrder_reconcileStored (p : Path Act.IsPrelude w u) (hnone : w.find .statefulSet request = none) :
    Wp (reconcileStored op env request c hash st) (fun _ v => StartsInOrder c.toResource request w v) u := by
  have hI : ∀ x : World, Path Act.IsPrelude w x → x.find .statefulSet request = none := fun x hx => (find_of_prelude hx _).trans hnone
  have hall : Wp (reconcileSecondary (reconcilers op env request (.coherence (some c)) st) {})
      (fun _ v => StartsInOrder c.toResource request w v) u := by
    refine wp_reconcileSecondary_last (I := fun x => Path Act.IsPrelude w x) (fun x hx => .inl (hI x hx)) (fun x hx => (prelude_firstReconcilers hx).keeps_path) (fun x hx => ?_) p
    refine Wp.mono (StatefulSetReconciler.startsInOrder_reconcileStatefulSet rfl rfl (hI x hx)) fun _ y hy => ?_
    exact startsInOrder_of_prelude hx hy
  refine Wp.bind hall (fun progress v hv => ?_) fun _ _ hv => hv
  rcases hv with hv | hmet
  · split
    · exact startsInOrder_of_does (startsNone_of_remark note_finish) hv
    · exact .inl hv
  · exact .inr hmet

/-- The resources are stored, and then seen to. -/
theorem startsInOrder_storeAndReconcile (p : Path Act.IsPrelude w u) (hnone : w.find .statefulSet request = none) :
    Wp (storeAndReconcile op env request c st) (fun _ v => StartsInOrder c.toResource request w v) u := by
  have hnone' : ∀ {x : World}, Path Act.IsPrelude w x → StartsInOrder c.toResource request w x := fun hx =>
    .inl ((find_of_prelude hx _).trans hnone)
  refine Wp.outcome_bind (fun hash _ => ?_) fun _ _ => hnone' p
  have hplan : Does Act.IsPrelude (Op.operation "set_controller" (context c)
      (outcome (c.toResource.plan op (c.createKubernetesResources op) st))) := Op.does_operation (Does.outcome _)
  refine Wp.bind (hplan.wp_trans p) (fun planned x hx => ?_) fun _ _ hx => hnone' hx
  have hstore : Does Act.IsPrelude (Op.operation "store_state" (context c) (planned.2.store op env planned.1 (.coherence (some c)))) :=
    Op.does_operation prelude_store
  refine Wp.bind (hstore.wp_trans hx) (fun st' y hy => ?_) fun _ _ hy => hnone' hy
  have hstored : Wp (reconcileStored op env request (c.updateStatusVersion op env.now) hash st')
      (fun _ v => StartsInOrder (c.updateStatusVersion op env.now).toResource request w v) y := startsInOrder_reconcileStored hy hnone
  exact hstored

theorem startsInOrder_reconcileResources (p : Path Act.IsPrelude w u) (hnone : w.find .statefulSet request = none) :
    Wp (reconcileResources op env request c) (fun _ v => StartsInOrder c.toResource request w v) u := by
  have hfind : ∀ {x : World}, Path Act.IsPrelude w x → x.find .statefulSet request = none := fun hx => (find_of_prelude hx _).trans hnone
  have hnone' : ∀ {x : World}, Path Act.IsPrelude w x → StartsInOrder c.toResource request w x := fun hx => .inl (hfind hx)
  have herr : ∀ {x : World} {e : GoError}, Path Act.IsPrelude w x →
      Wp (handleErrAndRequeue op env e (.coherence (some c))) (fun _ v => StartsInOrder c.toResource request w v) x := fun hx =>
    startsInOrder_of_does (note_handleErrAndRequeue.mono fun _ ha => .inl ha) (hfind hx)
  refine Wp.attempt_bind_ends (Wp.ends (prelude_ensureOperatorSecret.wp_trans p)) (fun _ x hx => ?_) fun e x hx => ⟨herr hx, hnone' hx⟩
  have hnew : Does Act.IsPrelude (Storage.new env request) := call_new.mono fun _ => prelude_of_call
  refine Wp.attempt_bind_ends (Wp.ends (hnew.wp_trans hx)) (fun st y hy => ?_) fun e y hy => ⟨herr hy, hnone' hy⟩
  refine Wp.outcome_bind (fun legacy _ => ?_) fun _ _ => hnone' hy
  cases legacy with
  | true =>
    have hreset : Does Act.IsPrelude (Op.wrapError "error updating storage status hash"
        (st.resetHash op env (.coherence (some (c.updateStatusVersion op env.now))))) :=
      Op.does_wrapError (does_resetHash (fun _ => trivial) fun _ _ => trivial)
    refine Wp.bind (hreset.wp_trans hy) (fun _ z hz => ?_) fun _ _ hz => hnone' hz
    have hnote : Does Act.IsRemark (do
        let hashNew ← outcome ((c.updateStatusVersion op env.now).getGenerationString op)
        Op.wrapError "error updating deployment status hash"
          (StatusManager.updateDeploymentStatusHash op env request hashNew)
        return ({} : Result)) :=
      Does.bind (Does.outcome _) fun _ => Does.bind (Op.does_wrapError StatusManager.note_update) fun _ => Does.pure _
    exact startsInOrder_of_does (startsNone_of_remark hnote) (hfind hz)
  | false => exact startsInOrder_storeAndReconcile hy hnone

theorem startsInOrder_addOrUpdate (p : Path Act.IsPrelude w u) (hnone : w.find .statefulSet request = none) :
    Wp (addOrUpdate op env request c) (fun _ v => StartsInOrder c.toResource request w v) u := by
  have hnone' : ∀ {x : World}, Path Act.IsPrelude w x → StartsInOrder c.toResource request w x := fun hx =>
    .inl ((find_of_prelude hx _).trans hnone)
  refine Wp.bind (prelude_ensureFinalizer.wp_trans p) (fun changed x hx => ?_) fun _ _ hx => hnone' hx
  cases changed with
  | true => exact hnone' hx
  | false =>
    refine Wp.bind (prelude_ensureStatus.wp_trans hx) (fun _ y hy => ?_) fun _ _ hy => hnone' hy
    have hrest : Wp (if c.spec.replicas.isNone then do
        patchReplicas env c
        return ({} : Result)
      else reconcileResources op env request c) (fun _ v => StartsInOrder c.toResource request w v) y := by
      split
      · have hpatch : Does Act.IsPrelude (patchReplicas env c) :=
          Op.does_wrapError (Op.does_wrapError (does_change trivial trivial))
        exact hnone' ((Does.bind hpatch fun _ => Does.pure _).wp_trans hy)
      · exact startsInOrder_reconcileResources hy hnone
    exact hrest

/-- **One reconcile** of a resource whose StatefulSet is not there. -/
theorem startsInOrder_reconcile (hnone : w.find .statefulSet request = none) :
    Wp (reconcile op env request) (fun _ v => v.find .statefulSet request = none ∨
      ∃ c, w.coherence.get request = some c ∧ c.toResource.QuorumIsMet w) w := by
  unfold reconcile
  split
  · exact .inl hnone
  refine wp_read_bind (fun _ => .inl hnone) ?_
  cases hfound : w.coherence.get request with
  | none =>
    simp only [World.coherence_sent, hfound]
    exact .inl hnone
  | some c =>
    simp only [World.coherence_sent, hfound]
    have hsent : Path Act.IsPrelude w (w.sent ⟨.get, .coherence, request⟩) := .single ⟨.call _, trivial, rfl⟩
    have hnote : ∀ {x : Op Result}, Does Act.IsNote x →
        Wp x (fun _ v => StartsInOrder c.toResource request w v) (w.sent ⟨.get, .coherence, request⟩) := fun hx =>
      startsInOrder_of_does (hx.mono fun _ ha => .inl ha) hnone
    have hall : Wp (reconcileFound op env request c) (fun _ v => StartsInOrder c.toResource request w v)
        (w.sent ⟨.get, .coherence, request⟩) := by
      unfold reconcileFound
      split
      · exact hnote note_finalize
      split
      · exact hnote (note_of_remark note_rejectHealthMutatorConfiguration)
      · exact startsInOrder_addOrUpdate hsent hnone
    exact Wp.mono hall fun _ v hv => hv.imp id fun hmet => ⟨c, rfl, hmet⟩

end CoherenceReconciler

end Starting

/-! ### The other resources -/

/-- Acts that make and change no StatefulSet but that of the request, and save versions for it only. -/
def Act.KeepsTo (request : NamespacedName) : Act → Prop
  | .createObject o | .updateObject o => o.kind = .statefulSet → o.key = request
  | .patchStatefulSet _ result => result.key = request
  | .putStore s => s.key = request
  | _ => True

/-- What is stored for each resource was generated for it. -/
def World.StoresGenerated (w : World) : Prop := ∀ key, (stored key w).IsGenerated key

section Others

variable {op : Operator} {env : Env} {request key : NamespacedName} {w u : World} {a : Act} {st : Storage}

/-- A StatefulSet of another name does not come into being. -/
theorem Act.KeepsTo.find_eq_none (ha : a.KeepsTo request) (hne : key ≠ request) (hw : w.find .statefulSet key = none) :
    (Acts.act a w).find .statefulSet key = none := by
  have hk : ResourceType.statefulSet ≠ .secret := by decide
  rw [World.find_of_ne_secret _ hk] at hw ⊢
  have hleaves : a.Leaves .statefulSet key := by
    cases a with
    | createObject o | updateObject o =>
      intro he
      obtain ⟨hkind, hkey⟩ := Prod.mk.inj he
      exact hne (hkey.symm.trans (ha hkind))
    | patchStatefulSet p result =>
      intro he
      obtain ⟨-, hkey⟩ := Prod.mk.inj he
      exact hne (hkey.symm.trans ha)
    | _ => trivial
  exact hleaves.get_eq_none hw

/-- An act that saves no version for a resource leaves what is stored for it generated. -/
theorem isGenerated_act (h : ∀ s, a = .putStore s → s.key ≠ key) (hw : (stored key w).IsGenerated key) :
    (stored key (Acts.act a w)).IsGenerated key := by
  obtain ⟨hlatest, hprevious⟩ | ⟨hlatest, hprevious⟩ := versions_act (w := w) h
  · exact ⟨hlatest ▸ hw.latest, hprevious ▸ hw.previous⟩
  · refine ⟨?_, ?_⟩
    · rw [hlatest]
      rintro r ⟨⟩
    · rw [hprevious]
      rintro r ⟨⟩

theorem Act.KeepsTo.isGenerated (ha : a.KeepsTo request) (hne : key ≠ request) (hw : (stored key w).IsGenerated key) :
    (stored key (Acts.act a w)).IsGenerated key := by
  refine isGenerated_act (fun s hs => ?_) hw
  subst hs
  exact fun hkey => hne (hkey.symm.trans ha)

theorem keepsTo_of_isQuiet (h : a.IsQuiet) : a.KeepsTo request := by
  cases a with
  | createObject o | updateObject o =>
    intro hkind
    rw [h] at hkind
    cases hkind
  | patchStatefulSet | putStore => exact h.elim
  | _ => trivial

theorem keepsTo_of_isNote (h : a.IsNote) : a.KeepsTo request := keepsTo_of_isQuiet h.isQuiet

theorem keepsTo_of_keepsVersions (h : CoherenceReconciler.KeepsVersions op env request w a) : a.KeepsTo request := by
  cases h with
  | call => trivial
  | put hkey => exact hkey

theorem keepsTo_of_saves {latest : Resources} {S : Act → Prop} (h : a.Saves request latest S) : a.KeepsTo request := by
  cases a with
  | putStore s => exact h.1
  | createObject | updateObject | patchStatefulSet => exact h.elim
  | _ => trivial

/-- The StatefulSet that is generated has the name of the resource. -/
theorem key_of_wants {latest : Resources} (hlatest : latest.IsGenerated (Owner.ofRequest request)) {o : Object}
    (ho : latest.Wants o.kind o.key) (hkind : o.kind = .statefulSet) : o.key = request := by
  obtain ⟨r, hr, o', ho', hkind', hkey'⟩ := ho
  have hrk : r.kind = .statefulSet := (r.filed o' ho').1.symm.trans (hkind'.trans hkind)
  rcases (hlatest r hr).kind with hk | hk | ⟨-, hname⟩
  · rw [hk] at hrk
    cases hrk
  · rw [hk] at hrk
    cases hrk
  · rw [← hkey', (hlatest r hr).key ho', hname]
    rfl

theorem serves_keepsTo (hst : st.IsGenerated request) : Serves (Act.KeepsTo request) request st := by
  refine ⟨fun a ha => keepsTo_of_isNote ha, fun _ _ _ => ⟨trivial, trivial⟩, ?_, ?_, fun o _ hkey _ => hkey, fun _ _ => trivial,
    fun _ _ hkey => hkey⟩
  · rintro o (ho | hjob) hkind
    · exact key_of_wants hst.latest ho hkind
    · rw [hjob] at hkind
      cases hkind
  · intro r hr o hkind hkey hset
    rcases (hst.latest r hr).kind with hk | hk | ⟨-, hname⟩
    · rw [hkind, hk] at hset
      cases hset
    · rw [hkind, hk] at hset
      cases hset
    · rw [hkey, hname]
      rfl

/-- **One reconcile** keeps to its own resource. -/
theorem keepsTo_reconcile (hw : (stored request w).IsGenerated request) :
    Path (Act.KeepsTo request) w (exec (CoherenceReconciler.reconcile op env request) w).2 := by
  have hquiet : ∀ {v : World} {H : String → Prop}, Quietly request H (CoherenceReconciler.KeepsVersions op env request w) w v →
      Path (Act.KeepsTo request) w v := fun hv => hv.path.mono fun _ ha => ha.elim keepsTo_of_isQuiet keepsTo_of_keepsVersions
  have hrec : Wp (CoherenceReconciler.reconcile op env request) (CoherenceReconciler.Reconciled op env request w) w :=
    CoherenceReconciler.wp_reconcile
  cases hrec with
  | quiet h => exact hquiet h
  | upgraded _ _ _ _ h => exact hquiet h
  | @stored c h res st st' u _ _ ha hs hrun =>
    obtain ⟨hres, hst'⟩ := ha.isGenerated hw.latest
    have hst : Storage.IsGenerated request { st' with latest := st'.next res, previous := st'.latest, hash := some h } :=
      ⟨hres.next st', hst'⟩
    have hbefore : Path (Act.KeepsTo request) w u := hs.path.mono fun _ ha => ha.elim keepsTo_of_isQuiet keepsTo_of_saves
    refine hbefore.trans ?_
    rw [← congrArg Prod.snd hrun]
    exact does_reconcileStored (serves_keepsTo hst) hst u

namespace StatefulSetReconciler

/-- All that is done **on an event** of a StatefulSet. -/
theorem path_reconcile {A : Act → Prop} (hA : Serves A request (stored request w)) : Path A w (exec (reconcile op env request) w).2 := by
  have hallows : Allows A request (stored request w) :=
    ⟨hA.note, fun o ho => hA.create o (.inr ho), fun o ho _ => hA.create o (.inl ho), hA.scale, hA.validate, hA.patch⟩
  have hremark : ∀ a : Act, a.IsRemark → A a := fun a ha => hA.note a ha.isNote
  have hsent : Path A w (w.sent ⟨.get, .secret, request⟩) := .single ⟨.call _, hremark _ (by simp [Act.IsRemark, Act.IsNote]), rfl⟩
  have hwp : Wp (reconcile op env request) (fun _ v => Path A w v) w := by
    unfold reconcile
    split
    · exact .refl
    refine wp_new_bind (fun _ => hsent) ?_
    refine (Keeps.ite (fun _ => Keeps.pure _) fun _ => ?_) _ hsent
    have hget : Does A (Op.wrapError s!"getting StatefulSet {request.ns}/{request.name}" (getStatefulSet env request)) :=
      Op.does_wrapError (note_getStatefulSet.mono hremark)
    refine Keeps.bind_of hget.keeps_path returns_getStatefulSet.mapError fun sts hsts => Keeps.ite (fun _ => Keeps.pure _) fun _ => ?_
    exact Keeps.bind (Secondary.call_ownerOf.mono fun a ha => hremark a ha.isRemark).keeps_path fun d =>
      (does_settle hallows hsts fun _ => hA.delete _ _ (by decide)).keeps_path
  exact hwp

/-- On an event no StatefulSet is made that is not there. -/
theorem startsNone_reconcile (hnone : w.find .statefulSet request = none) :
    (exec (reconcile op env request) w).2.find .statefulSet request = none := by
  have hwp : Wp (reconcile op env request) (fun _ v => v.find .statefulSet request = none) w := by
    unfold reconcile
    split
    · exact hnone
    refine wp_new_bind (fun _ => hnone) ?_
    unfold reconcileAllResourceOfKind
    split
    · exact hnone
    refine wp_read_bind (fun _ => hnone) ?_
    have hmissing : ((w.sent ⟨.get, .secret, request⟩).sent ⟨.get, .statefulSet, request⟩).statefulSet request = none := by
      rw [World.find_of_ne_secret _ (by decide)] at hnone
      rw [World.statefulSet_sent, World.statefulSet_sent, World.statefulSet, hnone]
      rfl
    rw [hmissing]
    simp only [Option.any_none, Bool.false_eq_true, if_false]
    have howner : ∀ x : World, exec (Secondary.ownerOf env .nil none) x = (.ok .nil, x) := fun _ => rfl
    refine Wp.bind_ok (howner _) ?_
    have hreport : Does Act.IsRemark (do
        let _ ← updateDeploymentStatus op env request
        return ({} : Result)) := Does.bind note_updateDeploymentStatus fun _ => Does.pure _
    exact (startsNone_of_remark hreport).keeps (I := fun x : World => x.find .statefulSet request = none)
      (fun _ _ ha hx => ha.find.trans hx) _ hnone
  exact hwp

end StatefulSetReconciler

end Others

/-! ### Any number of resources -/

/-- What happens in a cluster: a Coherence resource is reconciled, or there is an event of a StatefulSet, which is reconciled; somebody makes or changes
a resource, or writes its status, or a resource is gone; an object that is there is changed, or is removed. -/
inductive ClusterTurn where
  | reconcile (request : NamespacedName) (env : Env)
  | event (request : NamespacedName) (env : Env)
  | put (c : Coherence)
  | drop (key : NamespacedName)
  | change (o : Object)
  | remove (kind : ResourceType) (key : NamespacedName)

namespace ClusterTurn

variable {op : Operator} {w : World} {key : NamespacedName}

/-- The state after a turn. -/
def step (op : Operator) (w : World) : ClusterTurn → World
  | reconcile request env => (exec (CoherenceReconciler.reconcile op env request) w).2
  | event request env => (exec (StatefulSetReconciler.reconcile op env request) w).2
  | put c => { w with coherence := w.coherence.put c }
  | drop key => { w with coherence := w.coherence.erase key }
  | change o => if (w.find o.kind o.key).isSome then Acts.act (.updateObject o) w else w
  | remove kind key => Acts.act (.deleteObject kind key) w

/-- A StatefulSet comes into being only in a reconcile of the resource that has its name, whose quorum is met then. -/
def IsInOrder (op : Operator) (w : World) (t : ClusterTurn) : Prop :=
  ∀ key, w.find .statefulSet key = none → (t.step op w).find .statefulSet key ≠ none →
    ∃ env c, t = .reconcile key env ∧ w.coherence.get key = some c ∧ c.toResource.QuorumIsMet w

/-- **What is stored stays generated.** -/
theorem storesGenerated_step (hw : w.StoresGenerated) (t : ClusterTurn) : (t.step op w).StoresGenerated := by
  intro key
  have hpath : ∀ {request : NamespacedName} {u : World}, Path (Act.KeepsTo request) w u → key ≠ request → (stored key u).IsGenerated key :=
    fun p hne => p.invariant (I := fun x : World => (stored key x).IsGenerated key) (fun _ _ ha hx => ha.isGenerated hne hx) (hw key)
  cases t with
  | reconcile request env =>
    by_cases hkey : key = request
    · subst hkey
      exact CoherenceTurn.isGenerated_step (hw key) (.reconcile env)
    · exact hpath (keepsTo_reconcile (hw request)) hkey
  | event request env =>
    by_cases hkey : key = request
    · subst hkey
      have hspares : Path Act.SparesSecrets w (exec (StatefulSetReconciler.reconcile op env key) w).2 :=
        StatefulSetReconciler.path_reconcile (serves_sparesSecrets (hw key))
      have hstore : (exec (StatefulSetReconciler.reconcile op env key) w).2.store key = w.store key :=
        hspares.unchanged (f := fun x : World => x.store key) fun _ _ ha => ha.store_eq
      rw [step, stored, hstore]
      exact hw key
    · exact hpath (StatefulSetReconciler.path_reconcile (serves_keepsTo (hw request))) hkey
  | put | drop => exact hw key
  | change o =>
    simp only [step]
    split
    · exact isGenerated_act (by simp) (hw key)
    · exact hw key
  | remove kind key' => exact isGenerated_act (by simp) (hw key)

/-- **One turn.** -/
theorem isInOrder_of_storesGenerated (hw : w.StoresGenerated) (t : ClusterTurn) : t.IsInOrder op w := by
  intro key hnone hsome
  have hpath : ∀ {request : NamespacedName} {u : World}, Path (Act.KeepsTo request) w u → key ≠ request → u.find .statefulSet key = none :=
    fun p hne => p.invariant (I := fun x : World => x.find .statefulSet key = none) (fun _ _ ha hx => ha.find_eq_none hne hx) hnone
  have hleaves : ∀ {a : Act}, a.Leaves .statefulSet key → (Acts.act a w).find .statefulSet key = none := by
    intro a ha
    rw [World.find_of_ne_secret _ (by decide)] at hnone ⊢
    exact ha.get_eq_none hnone
  cases t with
  | reconcile request env =>
    by_cases hkey : key = request
    · subst hkey
      have hstarts : Wp (CoherenceReconciler.reconcile op env key) (fun _ v => v.find .statefulSet key = none ∨
          ∃ c, w.coherence.get key = some c ∧ c.toResource.QuorumIsMet w) w := CoherenceReconciler.startsInOrder_reconcile hnone
      obtain h | ⟨c, hc, hmet⟩ := hstarts
      · exact absurd h hsome
      · exact ⟨env, c, rfl, hc, hmet⟩
    · exact absurd (hpath (keepsTo_reconcile (hw request)) hkey) hsome
  | event request env =>
    by_cases hkey : key = request
    · subst hkey
      exact absurd (StatefulSetReconciler.startsNone_reconcile hnone) hsome
    · exact absurd (hpath (StatefulSetReconciler.path_reconcile (serves_keepsTo (hw request))) hkey) hsome
  | put | drop => exact absurd hnone hsome
  | change o =>
    simp only [step] at hsome
    split at hsome
    · rename_i hthere
      refine absurd (hleaves (a := .updateObject o) fun he => ?_) hsome
      obtain ⟨hkind, hkey⟩ := Prod.mk.inj he
      rw [hkind, hkey, hnone] at hthere
      cases hthere
    · exact absurd hnone hsome
  | remove kind key' => exact absurd (hleaves (a := .deleteObject kind key') trivial) hsome

end ClusterTurn

/-- **Workloads start in order** in every run that begins with nothing stored, however many resources there are, and whatever happens to their
statuses, to their objects and to the requests of the operator in it. -/
theorem along_startsInOrder {op : Operator} {w : World} (turns : List ClusterTurn) (hstores : ∀ key, w.store key = none) :
    Along (ClusterTurn.step op) (ClusterTurn.IsInOrder op) w turns := by
  have hrun : Along (ClusterTurn.step op) (fun _ _ => True) w turns := along_of_forall (fun _ _ => trivial) w turns
  exact hrun.mono_of_invariant (I := World.StoresGenerated) (fun _ t hu _ => ClusterTurn.storesGenerated_step hu t)
    (fun _ t hu _ => ClusterTurn.isInOrder_of_storesGenerated hu t) fun key => isGenerated_of_none (hstores key)

/-- A resource that is to start after another one. -/
def followingCoherence : Coherence where
  metadata := { ns := "default", name := "client", finalizers := [CoherenceFinalizer] }
  generation := 1
  spec := { replicas := some 1, startQuorum := [{ deployment := "storage" }] }

/-- It is reconciled before the other one is ready, and then again. -/
def startedInOrder : List ClusterTurn :=
  [.put followingCoherence, .reconcile ⟨"default", "client"⟩ {}, .put ((tendedCoherence withPort).withStatus { phase := some .ready }),
    .reconcile ⟨"default", "client"⟩ {}]

/-- A run of two resources. -/
theorem along_startsInOrder_following : Along (ClusterTurn.step default) (ClusterTurn.IsInOrder default) (tendedCluster withPort) startedInOrder :=
  along_startsInOrder startedInOrder fun _ => rfl

/-- The second reconcile makes the StatefulSet. -/
example :
    ((run (ClusterTurn.step default) (tendedCluster withPort) (startedInOrder.take 2)).find .statefulSet ⟨"default", "client"⟩).isNone ∧
      ((run (ClusterTurn.step default) (tendedCluster withPort) startedInOrder).find .statefulSet ⟨"default", "client"⟩).isSome := by
  decide +kernel

end CoherenceOperator
