import CoherenceOperator.Footprint.Secondary

/-!
# What the reconcilers of the workload do

The same rules for the StatefulSet of a Coherence resource and for the Job of a CoherenceJob. The StatefulSet has
acts of its own, the check of an update and the patch, so that what holds of all patches can be said of the
log.
-/

namespace CoherenceOperator

open Effect Prog

variable {op : Operator} {env : Env} {A : Act → Prop} {I : World → Prop} {request : NamespacedName} {st : Storage}
  {deployment : Deployment}

/-- `I` is kept by the acts of `A`, and where an error is handled. -/
structure Handles (op : Operator) (env : Env) (A : Act → Prop) (I : World → Prop) : Prop where
  stable : ∀ a w, A a → I w → I (Acts.act a w)
  handled : ∀ e d, Keeps I (handleErrAndRequeue op env e d)

theorem Handles.does (hI : Handles op env A I) {α : Type} {x : Op α} (hx : Does A x) : Keeps I x := hx.keeps hI.stable

/-- A path is gone on with where an error is handled, if the acts include all notes. -/
theorem handles_path (hA : ∀ a, a.IsNote → A a) (w : World) : Handles op env A (Path A w) where
  stable a _ ha p := p.tail ⟨a, ha, rfl⟩
  handled _ _ _ p := p.trans (note_handleErrAndRequeue.mono hA _)

/-! ### The StatefulSet -/

/-- The StatefulSet that is read has the key that was asked for. -/
theorem returns_getStatefulSet : Returns (getStatefulSet env request) fun s => ∀ x ∈ s, x.key = request := by
  intro w s hs x hx
  simp only [getStatefulSet, exec_read] at hs
  cases ha : w.answer ⟨.get, .statefulSet, request⟩ env with
  | error e => simp [ha, Except.map] at hs
  | ok _ =>
    simp only [ha, Except.map, Except.ok.injEq] at hs
    exact (Prod.mk.inj (w.objects.filed _ _ (World.statefulSet_eq_some.1 (hs.trans hx)))).2

namespace StatefulSetReconciler

/-- A set of acts with everything that may be done for the StatefulSet but its deletion. -/
structure Allows (A : Act → Prop) (request : NamespacedName) (st : Storage) : Prop where
  note : ∀ a, a.IsNote → A a
  action : ∀ o, o.kind = .job → A (.createObject o)
  create : ∀ o, st.latest.Wants o.kind o.key → o.kind = .statefulSet → A (.createObject o)
  update : ∀ o, o.kind = .statefulSet → o.key = request → A (.updateObject o)
  validate : ∀ original desired, A (.validateStatefulSet request original desired)
  patch : ∀ p result, result.key = request → A (.patchStatefulSet p result)

/-- The same, but for the notes that handle an error. -/
structure Permits (A : Act → Prop) (request : NamespacedName) (st : Storage) : Prop where
  remark : ∀ a, a.IsRemark → A a
  action : ∀ o, o.kind = .job → A (.createObject o)
  create : ∀ o, st.latest.Wants o.kind o.key → o.kind = .statefulSet → A (.createObject o)
  update : ∀ o, o.kind = .statefulSet → o.key = request → A (.updateObject o)
  validate : ∀ original desired, A (.validateStatefulSet request original desired)
  patch : ∀ p result, result.key = request → A (.patchStatefulSet p result)

theorem Permits.call (hA : Permits A request st) (a : Act) (h : a.IsCall) : A a := hA.remark a h.isRemark

theorem Allows.permits (hA : Allows A request st) : Permits A request st where
  remark a ha := hA.note a ha.isNote
  action := hA.action
  create := hA.create
  update := hA.update
  validate := hA.validate
  patch := hA.patch

/-- What keeps `I`: everything that may be done for the StatefulSet, but to delete it, to go through the actions and to take its
status over. -/
structure Sustains (op : Operator) (env : Env) (I : World → Prop) (request : NamespacedName) (st : Storage) : Prop where
  call : ∀ {α : Type} {x : Op α}, Does Act.IsCall x → Keeps I x
  condition : ∀ key condition, condition.type ≠ .ready → Keeps I (updateCoherenceStatusCondition op env key condition)
  create : ∀ name, Keeps I (Secondary.create env .statefulSet name st)
  patch : ∀ patch : Object → Object, (∀ live, (patch live).kind = live.kind) → (∀ live, (patch live).key = live.key) →
    Keeps I (patchObject env .statefulSet request patch)
  validate : ∀ original desired, Keeps I (perform (.validateStatefulSet request original desired) : Op Unit)
  send : ∀ p result, result.key = request → Keeps I (perform (.patchStatefulSet p result) : Op Unit)
  handled : ∀ e d, Keeps I (handleErrAndRequeue op env e d)

theorem Sustains.phase (hI : Sustains op env I request st) (key : NamespacedName) {phase : ConditionType} (h : phase ≠ .ready) :
    Keeps I (updateCoherenceStatusPhase op env key phase) := hI.condition key _ h

/-- A phase is set if it can be. -/
theorem Sustains.tryPhase (hI : Sustains op env I request st) (key : NamespacedName) {phase : ConditionType} (h : phase ≠ .ready) :
    Keeps I (Op.ignoreError (updateCoherenceStatusPhase op env key phase)) :=
  Keeps.bind (hI.phase key h).attempt fun _ => Keeps.pure _

theorem Permits.sustains (hA : Permits A request st) (hI : Handles op env A I) : Sustains op env I request st where
  call hx := hI.does (hx.mono hA.call)
  condition _ _ _ := hI.does (note_updateCoherenceStatusCondition.mono hA.remark)
  create _ := hI.does (Secondary.does_create hA.call fun o ho hk _ => hA.create o ho hk)
  patch _ hkind hkey := hI.does (does_patchObject_of hA.call hkind hkey hA.update)
  validate _ _ := hI.does (Does.perform (hA.validate _ _))
  send _ _ hkey := hI.does (Does.perform (hA.patch _ _ hkey))
  handled := hI.handled

variable {current desired : StatefulSet}

theorem note_updateDeploymentStatus : Does Act.IsRemark (updateDeploymentStatus op env request) := by
  refine Does.bind (Op.does_wrapError note_getStatefulSet) fun sts => ?_
  refine Does.bind (Op.does_wrapError note_getCoherence) fun c => ?_
  cases c with
  | none => exact Does.pure _
  | some c =>
    refine Does.ite (fun _ => Does.pure _) fun _ => ?_
    exact Does.ite (fun _ => Does.bind (does_change (by simp [Act.IsRemark, Act.IsNote]) trivial) fun _ => Does.pure _)
      fun _ => Does.pure _

/-- The actions make Jobs. -/
theorem does_execActions_of (hcall : ∀ a, a.IsCall → A a) (hexecute : ∀ key, A (.executeActions key))
    (haction : ∀ o : Object, o.kind = .job → A (.createObject o)) :
    Does A (execActions env deployment) := by
  refine Does.bind (Does.outcome _) fun spec => ?_
  cases spec with
  | none => exact Does.pure _
  | some spec =>
    refine Does.bind (Does.outcome _) fun d => Does.bind (Does.perform (hexecute _)) fun _ => ?_
    refine Does.forM fun action _ => ?_
    split
    · exact Op.does_ignoreError (does_createObject (hcall _ (by simp [Act.IsCall])) (haction _ rfl))
    · exact Does.pure _

theorem does_maybeExecActions_of (hremark : ∀ a, a.IsRemark → A a) (haction : ∀ o : Object, o.kind = .job → A (.createObject o))
    {updated : Option Coherence} : Does A (maybeExecActions env request deployment updated) := by
  cases updated with
  | none => exact Does.pure _
  | some c =>
    refine Does.ite (fun _ => Does.bind (Does.outcome _) fun _ => ?_) fun _ => Does.pure _
    have hexec : Does A (execActions env deployment) :=
      does_execActions_of (fun _ ha => hremark _ ha.isRemark) (fun _ => hremark _ trivial) haction
    refine Does.ite (fun _ => Does.bind hexec fun _ => ?_) fun _ => Does.pure _
    exact note_changeStatus.mono hremark

/-- What comes last is about the status and the actions. -/
theorem does_finish_of (hremark : ∀ a, a.IsRemark → A a) (haction : ∀ o : Object, o.kind = .job → A (.createObject o)) {result : Result} :
    Does A (finish op env request deployment result) := by
  refine Does.bind (note_updateDeploymentStatus.mono hremark) fun updated => ?_
  exact Does.bind (does_maybeExecActions_of hremark haction) fun _ => Does.pure _

theorem kind_mapStatefulSet (f : StatefulSet → StatefulSet) (o : Object) : (o.mapStatefulSet f).kind = o.kind := by
  obtain ⟨m, b⟩ := o
  cases b <;> rfl

theorem key_mapStatefulSet_scaled (n : ℤ) (o : Object) :
    (o.mapStatefulSet (scaled current n)).key = o.key := by
  obtain ⟨m, b⟩ := o
  cases b <;> rfl

theorem keeps_parallelScale (hI : Sustains op env I request st) (hkey : current.key = request) {n : ℤ} :
    Keeps I (parallelScale op env deployment current n) := by
  subst hkey
  refine Keeps.bind (Keeps.outcome _) fun d => Keeps.bind (hI.tryPhase _ (by decide)) fun _ => ?_
  refine Keeps.bind (hI.patch _ (kind_mapStatefulSet _) (key_mapStatefulSet_scaled n)).mapError fun _ => ?_
  split <;> exact Keeps.pure _

theorem keeps_safeScale (hI : Sustains op env I request st) (hkey : current.key = request) {m n : ℤ} :
    Keeps I (safeScale op env deployment current m n) := by
  refine Keeps.ite (fun _ => ?_) fun _ => Keeps.pure _
  refine Keeps.bind (keeps_parallelScale hI hkey).attempt fun r => ?_
  split
  · split <;> exact Keeps.pure _
  · exact hI.handled _ _

theorem keeps_scale (hI : Sustains op env I request st) (hkey : current.key = request) {m n : ℤ} :
    Keeps I (scale op env deployment current m n) := by
  refine Keeps.bind (Keeps.outcome _) fun spec => Keeps.bind (Keeps.outcome _) fun d => ?_
  refine Keeps.bind (hI.tryPhase _ (by decide)) fun _ => ?_
  split
  · exact keeps_safeScale hI hkey
  · exact keeps_parallelScale hI hkey
  · exact Keeps.ite (fun _ => keeps_parallelScale hI hkey) fun _ => keeps_safeScale hI hkey

theorem keeps_sendPatch (hI : Sustains op env I request st) (hkey : current.key = request) {p : StatefulSetPatch}
    {patch : Object → Object} (hp : ∀ live, (patch live).key = live.key) :
    Keeps I (sendPatch env p current patch) := by
  subst hkey
  refine Keeps.bind (hI.call (does_request (by simp [Act.IsCall]))) fun _ => Keeps.bind (hI.call Does.get) fun w => ?_
  cases hw : w.statefulSet current.key with
  | none => exact Keeps.throw _
  | some live =>
    simp only
    split
    · rename_i result hr
      refine hI.send _ _ ?_
      have hlive := (Prod.mk.inj (w.objects.filed _ _ (World.statefulSet_eq_some.1 hw))).2
      have hres : result.toObject.key = live.toObject.key := by
        rw [← Object.eq_toObject_of_asStatefulSet hr, hp]
      exact hres.trans hlive
    · exact Keeps.throw _

theorem keeps_patchIfNeeded (hI : Sustains op env I request st) (hkey : current.key = request)
    {spec : CoherenceStatefulSetResourceSpec} {p : StatefulSetPatch} :
    Keeps I (patchIfNeeded op env deployment spec p current) := by
  refine Keeps.ite (fun _ => Keeps.throw _) fun _ => ?_
  split
  · exact Keeps.pure _
  · rename_i patch hp
    refine Keeps.ite (fun _ => ?_) fun _ => Keeps.pure _
    refine Keeps.bind (Keeps.outcome _) fun d => Keeps.bind (hI.tryPhase _ (by decide)) fun _ => ?_
    have hsend : Keeps I (sendPatch env p current patch) := keeps_sendPatch hI hkey (op.merge.key_patch hp)
    refine Keeps.bind hsend.mapError.attempt fun r => ?_
    split
    · exact Keeps.pure _
    · exact hI.handled _ _

theorem does_maybeRollingUpgrade : Does A (maybeRollingUpgrade env deployment current) := by
  refine Does.bind (Does.outcome _) fun spec => ?_
  cases spec with
  | none => exact Does.throw _
  | some spec => exact Does.ite (fun _ => Does.outcome _) fun _ => Does.pure _

theorem keeps_maybePatchStatefulSet (hI : Sustains op env I request st) (hkey : current.key = request) {allowScale : Bool} :
    Keeps I (maybePatchStatefulSet op env deployment current desired st allowScale) := by
  refine Keeps.ite (fun _ => hI.call does_maybeRollingUpgrade) fun _ => ?_
  refine Keeps.bind (hkey ▸ hI.validate _ _) fun _ => ?_
  split
  · refine Keeps.bind (Keeps.outcome _) fun spec => ?_
    cases spec with
    | none => exact Keeps.throw _
    | some spec => exact keeps_patchIfNeeded hI hkey
  · exact Keeps.throw _

theorem returns_reread (hkey : current.key = request) : Returns (reread current) fun s => s.key = request := by
  intro w s h
  simp only [reread, exec_bind, exec_get, exec_pure, Except.ok.injEq] at h
  subst h
  cases hs : w.statefulSet current.key with
  | none => exact hkey
  | some s => exact (Prod.mk.inj (w.objects.filed _ _ (World.statefulSet_eq_some.1 hs))).2.trans hkey

theorem keeps_scaleAndRequeue (hI : Sustains op env I request st) (hkey : current.key = request) {n : ℤ} :
    Keeps I (scaleAndRequeue op env deployment current n) :=
  Keeps.bind (keeps_scale hI hkey) fun _ => Keeps.pure _

theorem keeps_scaleStatefulSet (hI : Sustains op env I request st) (hkey : current.key = request) :
    Keeps I (scaleStatefulSet op env deployment current desired st) := by
  refine Keeps.bind (Keeps.outcome _) fun _ => ?_
  refine Keeps.ite (fun _ => ?_) fun _ => keeps_scaleAndRequeue hI hkey
  refine Keeps.ite (fun _ => keeps_maybePatchStatefulSet hI hkey) fun _ => ?_
  refine Keeps.bind (keeps_maybePatchStatefulSet hI hkey) fun _ => ?_
  refine Keeps.bind_of (hI.call (Does.bind Does.get fun _ => Does.pure _)) (returns_reread hkey) fun s hs => ?_
  exact keeps_scaleAndRequeue hI hs

theorem keeps_updateStatefulSet (hI : Sustains op env I request st) (hkey : current.key = request) :
    Keeps I (updateStatefulSet op env deployment current st) := by
  unfold updateStatefulSet
  split
  · exact Keeps.pure _
  · split
    · exact Keeps.pure _
    · split
      · exact Keeps.throw _
      · exact Keeps.ite (fun _ => keeps_scaleStatefulSet hI hkey) fun _ => keeps_maybePatchStatefulSet hI hkey

theorem keeps_createStatefulSet (hI : Sustains op env I request st) : Keeps I (createStatefulSet op env deployment st) := by
  refine Keeps.bind (hI.call call_canCreate) fun unmet => ?_
  cases unmet with
  | some _ =>
    refine Keeps.bind (Keeps.outcome _) fun d => ?_
    exact Keeps.bind (Keeps.bind (hI.condition _ _ (by simp)).attempt fun _ => Keeps.pure _) fun _ => Keeps.pure _
  | none =>
    refine Keeps.bind (Keeps.outcome _) fun d => Keeps.bind (hI.create _) fun _ => ?_
    exact Keeps.bind (hI.phase _ (by decide)).mapError fun _ => Keeps.pure _

theorem call_suspendBeforeDelete {sts : StatefulSet} : Does Act.IsCall (suspendBeforeDelete op env deployment sts) := by
  refine Does.bind (Does.outcome _) fun spec => ?_
  cases spec with
  | none => exact Does.throw _
  | some spec =>
    refine Does.ite (fun _ => Does.bind call_suspendServicesWithError fun r => ?_) fun _ => Does.pure _
    split
    · exact Does.throw _
    · exact Does.pure _

theorem note_suspendBeforeDelete {sts : StatefulSet} : Does Act.IsRemark (suspendBeforeDelete op env deployment sts) :=
  remark_of_call call_suspendBeforeDelete

theorem does_deleteStatefulSet {sts : StatefulSet} (hn : ∀ a, a.IsRemark → A a)
    (hd : A (.call ⟨.delete, .statefulSet, request⟩) ∧ A (.deleteObject .statefulSet request)) :
    Does A (deleteStatefulSet op env request deployment sts) := by
  refine Does.ite (fun _ => Secondary.does_delete hd.1 hd.2) fun _ => ?_
  refine Does.bind (Op.does_ignoreError (note_changeStatus.mono hn)) fun _ => ?_
  exact Does.bind (note_suspendBeforeDelete.mono hn) fun _ => Secondary.does_delete hd.1 hd.2

theorem does_finish (hA : Permits A request st) {result : Result} :
    Does A (finish op env request deployment result) := does_finish_of hA.remark hA.action

/-- The StatefulSet is deleted only if there is no owner, or one without replicas. -/
theorem keeps_settle (hA : Permits A request st) (hI : Handles op env A I) {sts : Option StatefulSet} (hsts : ∀ s ∈ sts, s.key = request)
    (hd : deployment.isNilOrZero = .ok true →
      A (.call ⟨.delete, .statefulSet, request⟩) ∧ A (.deleteObject .statefulSet request)) :
    Keeps I (settle op env request deployment sts st) := by
  refine Keeps.bind_of (Keeps.outcome _) (Returns.outcome fun _ => id) fun b hb => Keeps.ite (fun hzero => ?_) fun _ => ?_
  · subst hzero
    cases sts with
    | none => exact Keeps.bind (hI.does (note_updateDeploymentStatus.mono hA.remark)) fun _ => Keeps.pure _
    | some s => exact Keeps.bind (hI.does (does_deleteStatefulSet hA.remark (hd hb))) fun _ => hI.does (does_finish hA)
  · cases sts with
    | none => exact Keeps.bind (keeps_createStatefulSet (hA.sustains hI)) fun _ => hI.does (does_finish hA)
    | some s => exact Keeps.bind (keeps_updateStatefulSet (hA.sustains hI) (hsts s rfl)) fun _ => hI.does (does_finish hA)

/-- With an owner that is passed in. -/
theorem keeps_reconcileAllResourceOfKind (hA : Permits A request st) (hI : Handles op env A I) (hnil : deployment.isNil = false)
    (hd : deployment.isNilOrZero = .ok true →
      A (.call ⟨.delete, .statefulSet, request⟩) ∧ A (.deleteObject .statefulSet request)) :
    Keeps I (reconcileAllResourceOfKind op env request deployment st) := by
  refine Keeps.ite (fun _ => Keeps.pure _) fun _ => ?_
  refine Keeps.bind_of (hI.does (Op.does_wrapError (note_getStatefulSet.mono hA.remark))) returns_getStatefulSet.mapError
    fun sts hsts => Keeps.ite (fun _ => Keeps.pure _) fun _ => ?_
  refine Keeps.bind_of (hI.does (Secondary.call_ownerOf.mono hA.call)) (Secondary.returns_ownerOf hnil) fun d hd' => ?_
  subst hd'
  exact keeps_settle hA hI hsts hd

/-- On an event, with the owner that the StatefulSet refers to. -/
theorem keeps_reconcile (hA : ∀ st, Permits A request st) (hI : Handles op env A I)
    (hd : A (.call ⟨.delete, .statefulSet, request⟩) ∧ A (.deleteObject .statefulSet request)) :
    Keeps I (reconcile op env request) := by
  refine Keeps.ite (fun _ => Keeps.pure _) fun _ => ?_
  refine Keeps.bind (hI.does (note_new.mono (hA {key := request}).remark)) fun st => Keeps.ite (fun _ => Keeps.pure _) fun _ => ?_
  refine Keeps.bind_of (hI.does (Op.does_wrapError (note_getStatefulSet.mono (hA st).remark))) returns_getStatefulSet.mapError
    fun sts hsts => Keeps.ite (fun _ => Keeps.pure _) fun _ => ?_
  exact Keeps.bind (hI.does (Secondary.call_ownerOf.mono (hA st).call)) fun d => keeps_settle (hA st) hI hsts fun _ => hd

/-! With the notes that handle an error, the reconciler does no more than these acts. -/

theorem does_settle (hA : Allows A request st) {sts : Option StatefulSet} (hsts : ∀ s ∈ sts, s.key = request)
    (hd : deployment.isNilOrZero = .ok true →
      A (.call ⟨.delete, .statefulSet, request⟩) ∧ A (.deleteObject .statefulSet request)) :
    Does A (settle op env request deployment sts st) :=
  Does.of_keeps fun w => keeps_settle hA.permits (handles_path hA.note w) hsts hd

theorem does_reconcileAllResourceOfKind (hA : Allows A request st) (hnil : deployment.isNil = false)
    (hd : deployment.isNilOrZero = .ok true →
      A (.call ⟨.delete, .statefulSet, request⟩) ∧ A (.deleteObject .statefulSet request)) :
    Does A (reconcileAllResourceOfKind op env request deployment st) :=
  Does.of_keeps fun w => keeps_reconcileAllResourceOfKind hA.permits (handles_path hA.note w) hnil hd

theorem does_reconcile (hA : ∀ st, Allows A request st)
    (hd : A (.call ⟨.delete, .statefulSet, request⟩) ∧ A (.deleteObject .statefulSet request)) :
    Does A (reconcile op env request) :=
  Does.of_keeps fun w => keeps_reconcile (fun st => (hA st).permits) (handles_path (hA {key := request}).note w) hd

end StatefulSetReconciler

/-! ### The Job -/

/-- The Job that is read has the key that was asked for. -/
theorem returns_getJob : Returns (getJob env request) fun j => ∀ x ∈ j, x.key = request := by
  intro w s hs x hx
  simp only [getJob, exec_read] at hs
  cases ha : w.answer ⟨.get, .job, request⟩ env with
  | error e => simp [ha, Except.map] at hs
  | ok _ =>
    simp only [ha, Except.map, Except.ok.injEq] at hs
    exact (Prod.mk.inj (w.objects.filed _ _ (World.job_eq_some.1 (hs.trans hx)))).2

namespace JobReconciler

/-- What keeps `I`: everything that may be done for the Job, but to probe its Pods and to delete it. -/
structure Permits (op : Operator) (env : Env) (I : World → Prop) (request : NamespacedName) (st : Storage)
    (deployment : Deployment) : Prop where
  call : ∀ {α : Type} {x : Op α}, Does Act.IsCall x → Keeps I x
  condition : ∀ key condition, condition.type ≠ .ready → Keeps I (updateCoherenceJobStatusCondition op env key condition)
  create : ∀ name, Keeps I (Secondary.create env .job name st)
  patch : ∀ patch : Object → Object, (∀ live, (patch live).kind = live.kind) → (∀ live, (patch live).key = live.key) →
    Keeps I (patchObject env .job request patch)
  handled : ∀ e, Keeps I (handleErrAndRequeue op env e deployment)
  report : Keeps I (updateDeploymentStatus op env request [])

/-- Probe the Pods, and write down what comes of it. -/
def probeAndReport (op : Operator) (env : Env) (request : NamespacedName) (deployment : Deployment) (job : Job) : Op Unit :=
  maybeExecuteProbe env job deployment >>= updateDeploymentStatus op env request

variable {job desired : Job}

theorem note_updateDeploymentStatus {probes : List CoherenceJobProbeStatus} :
    Does Act.IsRemark (updateDeploymentStatus op env request probes) := by
  refine Does.bind (Op.does_wrapError note_getJob) fun job => ?_
  refine Does.bind (Op.does_wrapError note_getCoherenceJob) fun c => ?_
  cases c with
  | none => exact Does.pure _
  | some c =>
    refine Does.ite (fun _ => Does.pure _) fun _ => ?_
    exact Does.ite (fun _ => does_change (by simp [Act.IsRemark, Act.IsNote]) trivial) fun _ => Does.pure _

/-- Requests that delete nothing, and attempts of the ready action. -/
def IsProbe : Act → Prop
  | .call c => c.verb ≠ .delete
  | .attemptReadyAction _ _ => True
  | _ => False

theorem IsProbe.isRemark {a : Act} (h : IsProbe a) : a.IsRemark := by
  cases a with
  | call => exact h
  | attemptReadyAction => trivial
  | _ => exact h.elim

theorem does_executeProbes {status : CoherenceResourceStatus} {pods : List Pod} :
    Does IsProbe (executeProbes env status pods) := by
  induction pods with
  | nil => exact Does.pure _
  | cons pod pods ih =>
    unfold executeProbes
    split
    · exact Does.bind (Does.perform trivial) fun _ => Does.bind ih fun _ => Does.pure _
    · exact ih

theorem does_maybeExecuteProbe : Does IsProbe (maybeExecuteProbe env job deployment) := by
  refine Does.bind (Does.outcome _) fun spec => ?_
  cases spec with
  | none => exact Does.throw _
  | some spec =>
    simp only
    split
    · exact Does.pure _
    · refine Does.bind (Does.outcome _) fun d => Does.ite (fun _ => ?_) fun _ => Does.pure _
      exact Does.bind (Op.does_wrapError (does_request (by simp [IsProbe]))) fun _ => does_executeProbes

theorem keeps_applyPatch (hI : Permits op env I request st deployment) (hkey : job.key = request)
    {patch : Object → Object} (hkind : ∀ live, (patch live).kind = live.kind) (hp : ∀ live, (patch live).key = live.key) :
    Keeps I (applyPatch op env deployment job patch) := by
  subst hkey
  refine Keeps.bind (Keeps.outcome _) fun d => ?_
  refine Keeps.bind (Keeps.bind (hI.condition _ _ (by decide)).attempt fun _ => Keeps.pure _) fun _ => ?_
  refine Keeps.bind (hI.patch patch hkind hp).mapError.attempt fun r => ?_
  split
  · exact Keeps.pure _
  · exact hI.handled _

theorem keeps_patchJob (hI : Permits op env I request st deployment) (hkey : job.key = request) :
    Keeps I (patchJob op env deployment job desired st) := by
  refine Keeps.ite (fun _ => Keeps.pure _) fun _ => ?_
  simp only
  split
  · refine Keeps.bind (Keeps.outcome _) fun d => ?_
    split
    · exact Keeps.pure _
    · rename_i patch hp
      exact keeps_applyPatch hI hkey (op.merge.kind_patch hp) (op.merge.key_patch hp)
  · exact Keeps.throw _

theorem keeps_updateJob (hI : Permits op env I request st deployment) (hkey : job.key = request) :
    Keeps I (updateJob op env deployment job st) := by
  unfold updateJob
  split
  · exact Keeps.pure _
  · split
    · exact Keeps.pure _
    · split
      · exact Keeps.throw _
      · exact keeps_patchJob hI hkey

theorem keeps_createJob (hI : Permits op env I request st deployment) : Keeps I (createJob op env deployment st) := by
  refine Keeps.bind (hI.call call_canCreate) fun unmet => ?_
  cases unmet with
  | some _ =>
    refine Keeps.bind (Keeps.outcome _) fun d => ?_
    exact Keeps.bind (Keeps.bind (hI.condition _ _ (by simp)).attempt fun _ => Keeps.pure _) fun _ => Keeps.pure _
  | none =>
    refine Keeps.bind (Keeps.outcome _) fun d => Keeps.bind (hI.create _) fun _ => ?_
    exact Keeps.bind (hI.condition _ _ (by decide)).mapError fun _ => Keeps.pure _

theorem keeps_updateAndProbe (hI : Permits op env I request st deployment) (hkey : job.key = request)
    (hprobe : Keeps I (probeAndReport op env request deployment job)) :
    Keeps I (updateAndProbe op env request deployment job st) := by
  refine Keeps.bind (keeps_updateJob hI hkey) fun result => ?_
  have hboth : Keeps I (probeAndReport op env request deployment job >>= fun _ => Pure.pure result) :=
    Keeps.bind hprobe fun _ => Keeps.pure _
  exact hboth.bind_assoc

/-- The Job is deleted only if there is no owner, or one without replicas. -/
theorem keeps_settle (hI : Permits op env I request st deployment) {j : Option Job} (hj : ∀ x ∈ j, x.key = request)
    (hprobe : ∀ x ∈ j, Keeps I (probeAndReport op env request deployment x))
    (hd : ∀ x ∈ j, deployment.isNilOrZero = .ok true → Keeps I (deleteJob env request deployment)) :
    Keeps I (settle op env request deployment j st) := by
  refine Keeps.bind_of (Keeps.outcome _) (Returns.outcome fun _ => id) fun b hb =>
    Keeps.ite (fun hzero => ?_) fun _ => ?_
  · subst hzero
    cases j with
    | none => exact Keeps.bind hI.report fun _ => Keeps.pure _
    | some x => exact Keeps.bind (hd x rfl hb) fun _ => Keeps.bind hI.report fun _ => Keeps.pure _
  · cases j with
    | none => exact Keeps.bind (keeps_createJob hI) fun _ => Keeps.bind hI.report fun _ => Keeps.pure _
    | some x =>
      refine Keeps.ite (fun _ => Keeps.bind hI.report fun _ => Keeps.pure _) fun _ => ?_
      exact keeps_updateAndProbe hI (hj x rfl) (hprobe x rfl)

/-- With an owner that is passed in. -/
theorem keeps_reconcileAllResourceOfKind (hI : Permits op env I request st deployment) (hnil : deployment.isNil = false)
    (hprobe : ∀ x : Job, x.key = request → Keeps I (probeAndReport op env request deployment x))
    (hd : deployment.isNilOrZero = .ok true → Keeps I (deleteJob env request deployment)) :
    Keeps I (reconcileAllResourceOfKind op env request deployment st) := by
  refine Keeps.ite (fun _ => Keeps.pure _) fun _ => ?_
  refine Keeps.bind_of (hI.call (Op.does_wrapError call_getJob)) returns_getJob.mapError
    fun j hj => Keeps.ite (fun _ => Keeps.pure _) fun _ => ?_
  refine Keeps.bind_of (hI.call Secondary.call_ownerOf) (Secondary.returns_ownerOf hnil) fun d hd' => ?_
  subst hd'
  exact keeps_settle hI hj (fun x hx => hprobe x (hj x hx)) fun _ _ => hd

/-! A set of acts with all notes, and with all that may be done for the Job, has all that the reconciler does. -/

/-- A set of acts with everything that may be done for the Job but its deletion. -/
structure Allows (A : Act → Prop) (request : NamespacedName) (st : Storage) : Prop where
  note : ∀ a, a.IsNote → A a
  create : ∀ o, st.latest.Wants o.kind o.key → o.kind = .job → A (.createObject o)
  update : ∀ o, o.kind = .job → o.key = request → A (.updateObject o)

theorem Allows.remark (hA : Allows A request st) (a : Act) (h : a.IsRemark) : A a := hA.note a h.isNote

theorem Allows.call (hA : Allows A request st) (a : Act) (h : a.IsCall) : A a := hA.remark a h.isRemark

theorem Allows.permits (hA : Allows A request st) (w : World) : Permits op env (Path A w) request st deployment where
  call hx := (hx.mono hA.call).keeps_path
  condition _ _ _ := (note_updateCoherenceJobStatusCondition.mono hA.remark).keeps_path
  create _ := (Secondary.does_create hA.call fun o ho hk _ => hA.create o ho hk).keeps_path
  patch _ hkind hkey := (does_patchObject_of hA.call hkind hkey hA.update).keeps_path
  handled _ := (note_handleErrAndRequeue.mono hA.note).keeps_path
  report := (note_updateDeploymentStatus.mono hA.remark).keeps_path

theorem note_probeAndReport : Does Act.IsRemark (probeAndReport op env request deployment job) :=
  Does.bind (does_maybeExecuteProbe.mono fun _ => IsProbe.isRemark) fun _ => note_updateDeploymentStatus

theorem does_deleteJob (hn : ∀ a, a.IsRemark → A a)
    (hd : A (.call ⟨.delete, .job, request⟩) ∧ A (.deleteObject .job request)) :
    Does A (deleteJob env request deployment) := by
  refine Does.ite (fun _ => Secondary.does_delete hd.1 hd.2) fun _ => ?_
  exact Does.bind (Op.does_ignoreError (note_changeStatus.mono hn)) fun _ => Secondary.does_delete hd.1 hd.2

theorem does_settle (hA : Allows A request st) {j : Option Job} (hj : ∀ x ∈ j, x.key = request)
    (hd : deployment.isNilOrZero = .ok true →
      A (.call ⟨.delete, .job, request⟩) ∧ A (.deleteObject .job request)) :
    Does A (settle op env request deployment j st) :=
  Does.of_keeps fun w => keeps_settle (hA.permits w) hj (fun _ _ => (note_probeAndReport.mono hA.remark).keeps_path)
    fun _ _ hzero => (does_deleteJob hA.remark (hd hzero)).keeps_path

/-- On an event, with the owner that the Job refers to. -/
theorem does_reconcile (hA : ∀ st, Allows A request st)
    (hd : A (.call ⟨.delete, .job, request⟩) ∧ A (.deleteObject .job request)) :
    Does A (reconcile op env request) := by
  refine Does.ite (fun _ => Does.pure _) fun _ => ?_
  refine Does.bind (note_new.mono (hA {key := request}).remark) fun st => Does.ite (fun _ => Does.pure _) fun _ => ?_
  refine Does.bind_of (Op.does_wrapError (note_getJob.mono (hA st).remark)) returns_getJob.mapError
    fun j hj => Does.ite (fun _ => Does.pure _) fun _ => ?_
  exact Does.bind (Secondary.call_ownerOf.mono (hA st).call) fun d => does_settle (hA st) hj fun _ => hd

end JobReconciler

end CoherenceOperator
