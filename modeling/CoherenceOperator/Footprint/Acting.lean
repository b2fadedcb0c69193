import CoherenceOperator.Footprint.Errors
import CoherenceOperator.Footprint.Owners
import CoherenceOperator.Footprint.Remembering
import CoherenceOperator.Footprint.Workload

/-!
# Executions of the actions

A round of the StatefulSet goes through the actions of a resource if it reads a status that says that the resource is ready and that
they were not gone through, and then it writes down that they were. Before it comes to this it executes nothing, it leaves the flag of the
actions as it is, and it makes no resource ready (`Coherence.Rests`). What comes of a whole round is `Acted`.
-/

namespace CoherenceOperator

open Effect Prog

variable {op : Operator} {env : Env} {request : NamespacedName} {w u v : World} {st : Storage} {deployment : Deployment}

/-- Are the actions of a resource gone through? -/
def Act.isExecution : Act → Bool
  | .executeActions _ => true
  | _ => false

/-- How often the actions of a resource were gone through. -/
def World.executions (w : World) : ℕ := w.log.countP Act.isExecution

theorem World.executions_act {a : Act} (h : a.isExecution = false) : (Acts.act a w).executions = w.executions :=
  List.countP_cons_of_neg (by simp [h])

theorem World.executions_execute {key : NamespacedName} : (Acts.act (.executeActions key) w).executions = w.executions + 1 :=
  List.countP_cons_of_pos rfl

@[simp] theorem World.executions_sent {c : ApiCall} : (w.sent c).executions = w.executions := executions_act rfl

/-! ### What becomes of a resource -/

/-- No resource is made ready, and the flag of the actions stays. -/
structure Coherence.Rests (c c' : Coherence) : Prop where
  actionsExecuted : c'.status.actionsExecuted = c.status.actionsExecuted
  phase : c'.status.phase = some .ready → c.status.phase = some .ready
  deletionTimestamp : c'.metadata.deletionTimestamp = c.metadata.deletionTimestamp

instance : IsPreorder Coherence Coherence.Rests where
  refl _ := ⟨rfl, id, rfl⟩
  trans _ _ _ h h' := ⟨h'.actionsExecuted.trans h.actionsExecuted, h.phase ∘ h'.phase, h'.deletionTimestamp.trans h.deletionTimestamp⟩

/-- The flag of the actions stays. -/
structure Coherence.KeepsFlag (c c' : Coherence) : Prop where
  actionsExecuted : c'.status.actionsExecuted = c.status.actionsExecuted
  deletionTimestamp : c'.metadata.deletionTimestamp = c.metadata.deletionTimestamp

instance : IsPreorder Coherence Coherence.KeepsFlag where
  refl _ := ⟨rfl, rfl⟩
  trans _ _ _ h h' := ⟨h'.actionsExecuted.trans h.actionsExecuted, h'.deletionTimestamp.trans h.deletionTimestamp⟩

theorem Coherence.Rests.keepsFlag {c c' : Coherence} (h : c.Rests c') : c.KeepsFlag c' := ⟨h.actionsExecuted, h.deletionTimestamp⟩

/-- What is known to be executed stays so. -/
def Coherence.Remembers (c c' : Coherence) : Prop := c.status.actionsExecuted = true → c'.status.actionsExecuted = true

instance : IsPreorder Coherence Coherence.Remembers where
  refl _ := id
  trans _ _ _ h h' := h' ∘ h

theorem Coherence.KeepsFlag.remembers {c c' : Coherence} (h : c.KeepsFlag c') : c.Remembers c' := fun hflag =>
  h.actionsExecuted.trans hflag

/-- The resource was there. -/
def Coherence.IsLater (_ _ : Coherence) : Prop := True

instance : IsPreorder Coherence Coherence.IsLater where
  refl _ := trivial
  trans _ _ _ _ _ := trivial

/-- Nothing is executed, and the resource descends from what it was. -/
structure World.Idle (R : Coherence → Coherence → Prop) (request : NamespacedName) (w u : World) : Prop where
  executions : u.executions = w.executions
  resource : w.coherence.Descends R request u.coherence

/-- Acts that touch no Coherence resource, and execute nothing. -/
def Act.IsIdle : Act → Prop
  | .coherenceStatus _ _ | .coherenceMetadata _ _ _ | .coherenceReplicas _ _ | .executeActions _ => False
  | _ => True

theorem Act.IsIdle.coherence {a : Act} (h : a.IsIdle) : (Acts.act a u).coherence = u.coherence := by
  cases a with
  | coherenceStatus | coherenceMetadata | coherenceReplicas | executeActions => exact h.elim
  | deleteObject | coherenceJobMetadata =>
    simp only [Acts.act, Act.effect]
    split <;> rfl
  | _ => rfl

theorem Act.IsIdle.executions {a : Act} (h : a.IsIdle) : (Acts.act a u).executions = u.executions := by
  cases a with
  | executeActions => exact h.elim
  | _ => exact World.executions_act rfl

theorem isIdle_of_call {a : Act} (h : a.IsCall) : a.IsIdle := by
  cases a with
  | call => trivial
  | _ => exact h.elim

namespace World.Idle

variable {R S : Coherence → Coherence → Prop}

theorem mono (h : w.Idle R request u) (hRS : ∀ c c', R c c' → S c c') : w.Idle S request u :=
  ⟨h.executions, h.resource.mono hRS⟩

variable [IsPreorder Coherence R]

theorem refl : w.Idle R request w := ⟨rfl, .refl⟩

theorem trans (h : w.Idle R request u) (h' : u.Idle R request v) : w.Idle R request v :=
  ⟨h'.executions.trans h.executions, h.resource.trans h'.resource⟩

theorem act (h : w.Idle R request u) {a : Act} (ha : a.IsIdle) : w.Idle R request (Acts.act a u) := by
  refine h.trans ⟨ha.executions, ?_⟩
  rw [ha.coherence]
  exact .refl

theorem sent (h : w.Idle R request u) (c : ApiCall) : w.Idle R request (u.sent c) := h.act (a := .call c) trivial

theorem writeStatus (h : w.Idle R request u) {key : NamespacedName} {status : CoherenceResourceStatus}
    (hstatus : ∀ c, u.coherence.get key = some c → R c (c.withStatus status)) :
    w.Idle R request (Acts.act (.coherenceStatus key status) u) :=
  h.trans ⟨executions_act rfl, Table.Descends.modify (fun c => c.key_withStatus status) hstatus⟩

theorem writeMetadata (h : w.Idle R request u) {key : NamespacedName} {annotations : Labels} {finalizers : List String}
    (hmetadata : ∀ c, R c (c.withMetadata annotations finalizers)) :
    w.Idle R request (Acts.act (.coherenceMetadata key annotations finalizers) u) := by
  refine h.trans ⟨executions_act rfl, ?_⟩
  simp only [Acts.act, Act.effect]
  split
  · exact Table.Descends.erase
  · exact Table.Descends.modify (fun c => c.key_withMetadata annotations finalizers) fun c _ => hmetadata c

end World.Idle

theorem keeps_idle {R : Coherence → Coherence → Prop} [IsPreorder Coherence R] {α : Type} {x : Op α} (h : Does Act.IsIdle x) :
    Keeps (w.Idle R request) x :=
  h.keeps fun _ _ ha hu => hu.act ha

theorem keeps_idle_of_call {R : Coherence → Coherence → Prop} [IsPreorder Coherence R] {α : Type} {x : Op α}
    (h : Does Act.IsCall x) : Keeps (w.Idle R request) x := keeps_idle (h.mono fun _ => isIdle_of_call)

/-! ### Before the status is taken over -/

/-- A condition other than `Ready` makes no resource ready. -/
theorem CoherenceResourceStatus.phase_setCondition_ne {d : CoherenceResource} {condition : Condition} (h : condition.type ≠ .ready) :
    (CoherenceResourceStatus.setCondition op env.now d condition).1.phase ≠ some .ready := by
  rw [setCondition_eq, moveTo_cons, moveTo_nil, phase_setPhase, next]
  split
  · simp
  · simpa using h

theorem rests_setCondition {c : Coherence} {condition : Condition} (h : condition.type ≠ .ready) :
    c.Rests (c.withStatus (CoherenceResourceStatus.setCondition op env.now c.toResource condition).1) where
  actionsExecuted := CoherenceResourceStatus.remembers_setCondition.actionsExecuted
  phase hphase := absurd hphase (CoherenceResourceStatus.phase_setCondition_ne h)
  deletionTimestamp := rfl

/-- Notes about a Coherence resource. -/
theorem tolerates_rests : Tolerates op env (w.Idle Coherence.Rests request) (fun _ => True) .coherence where
  sent _ c hu := hu.sent c
  latest _ _ _ _ := trivial
  annotate _ _ _ hu _ := hu.writeMetadata fun _ => ⟨rfl, id, rfl⟩
  condition u d _ hready hu hd := by
    refine hu.writeStatus fun c hc => ?_
    obtain ⟨c', hc', rfl⟩ := Option.map_eq_some_iff.1 hd
    rw [hc, Option.some.injEq] at hc'
    subst hc'
    exact rests_setCondition hready

/-- Notes about a CoherenceJob. -/
theorem tolerates_rests_job : Tolerates op env (w.Idle Coherence.Rests request) (fun _ => True) .coherenceJob where
  sent _ c hu := hu.sent c
  latest _ _ _ _ := trivial
  annotate _ d annotations hu _ := hu.act (a := .coherenceJobMetadata d.key annotations d.metadata.finalizers) trivial
  condition _ d condition _ hu _ :=
    hu.act (a := .coherenceJobStatus d.key (CoherenceResourceStatus.setCondition op env.now d condition).1) trivial

theorem keeps_handleErrAndRequeue_rests {e : GoError} :
    Keeps (w.Idle Coherence.Rests request) (handleErrAndRequeue op env e deployment) :=
  keeps_handleErrAndRequeue_of tolerates_rests tolerates_rests_job

namespace StatefulSetReconciler

theorem sustains_rests : Sustains op env (w.Idle Coherence.Rests request) request st where
  call := keeps_idle_of_call
  condition _ _ h := tolerates_rests.keeps_updateStatusCondition (.inl rfl) h
  create _ := keeps_idle (Secondary.does_create (fun _ ha => isIdle_of_call ha) fun _ _ _ _ => trivial)
  patch _ hkind hkey :=
    keeps_idle (does_patchObject_of (fun _ ha => isIdle_of_call ha) hkind hkey fun _ _ _ => trivial)
  validate _ _ := keeps_idle (Does.perform trivial)
  send _ _ _ := keeps_idle (Does.perform trivial)
  handled _ _ := keeps_handleErrAndRequeue_rests

/-! ### The status, and the actions -/

/-- The status is taken over with the flag that it has. -/
theorem wp_updateDeploymentStatus : Wp (updateDeploymentStatus op env request)
    (Wp.Ends (fun c v => c = u.coherence.get request ∧ u.Idle Coherence.KeepsFlag request v) (u.Idle Coherence.KeepsFlag request)) u := by
  have hrefl : u.Idle Coherence.KeepsFlag request u := .refl
  have hsts := hrefl.sent ⟨.get, .statefulSet, request⟩
  have hget := hsts.sent ⟨.get, .coherence, request⟩
  refine wp_read_bind (fun _ => hsts) (wp_read_bind (fun _ => hget) ?_)
  simp only [World.coherence_sent]
  cases hc : u.coherence.get request with
  | none => exact ⟨rfl, hget⟩
  | some c =>
    simp only
    split
    · exact ⟨rfl, hget⟩
    · split
      · refine Wp.bind_ends (Q := fun _ v => u.Idle Coherence.KeepsFlag request v) (E := u.Idle Coherence.KeepsFlag request) ?_
          (fun _ v hv => ⟨rfl, hv⟩) fun _ _ hv => hv
        refine wp_change (fun _ => hget.sent _) fun _ _ => ?_
        refine (hget.sent ⟨.updateStatus, .coherence, request⟩).writeStatus fun c' hc' => ⟨?_, rfl⟩
        rw [World.coherence_sent, World.coherence_sent, World.coherence_sent, hc, Option.some.injEq] at hc'
        subst hc'
        exact CoherenceResourceStatus.remembers_update.actionsExecuted
      · exact ⟨rfl, hget⟩

/-- The status of the resource can be read and written. -/
structure CanMark (env : Env) (request : NamespacedName) : Prop where
  get : ∀ n, env.faults n ⟨.get, .coherence, request⟩ = none
  patch : ∀ n, env.faults n ⟨.patchStatus, .coherence, request⟩ = none

theorem keeps_changeStatus {R : Coherence → Coherence → Prop} [IsPreorder Coherence R] {key : NamespacedName}
    {f : CoherenceResourceStatus → CoherenceResourceStatus} (hf : ∀ c, R c (c.withStatus (f c.status))) :
    Keeps (w.Idle R request) (changeStatus env key f) := by
  intro u hu
  have hget := hu.sent ⟨.get, .coherence, key⟩
  have hbind : Wp (changeStatus env key f) (fun _ v => w.Idle R request v) u := by
    refine wp_read_bind (fun _ => hget) ?_
    simp only [World.coherence_sent]
    cases hc : u.coherence.get key with
    | none => exact hget
    | some c =>
      simp only
      split
      · exact hget
      · refine Wp.mapError ?_
        unfold patchStatus
        split
        · exact hget
        · refine wp_change (fun _ => hget.sent _) fun _ _ => (hget.sent _).writeStatus fun c' hc' => ?_
          have hkey : c.toResource.key = key := u.coherence.filed _ _ hc
          rw [World.coherence_sent, World.coherence_sent, hkey, hc, Option.some.injEq] at hc'
          subst hc'
          exact hf c
  exact hbind

/-- **The flag is set**, unless the resource is being deleted. -/
theorem wp_updateDeploymentStatusActionsState (hcan : CanMark env request) :
    Wp (updateDeploymentStatusActionsState env request true) (fun _ v => u.Idle Coherence.Remembers request v ∧
      ∀ c, u.coherence.get request = some c → c.metadata.deletionTimestamp = none →
        ∀ c', v.coherence.get request = some c' → c'.status.actionsExecuted = true) u := by
  have hkeeps : Wp (updateDeploymentStatusActionsState env request true) (fun _ v => u.Idle Coherence.Remembers request v) u :=
    keeps_changeStatus (fun c _ => rfl) u .refl
  refine hkeeps.and ?_
  refine wp_read_bind_iff (fun e hf => ?_) ?_
  · obtain ⟨n, f, hf⟩ := hf
    rw [hcan.get n] at hf
    cases hf
  simp only [World.coherence_sent]
  cases hc : u.coherence.get request with
  | none =>
    rintro _ ⟨⟩
  | some c =>
    have hkey : c.toResource.key = request := u.coherence.filed _ _ hc
    simp only
    split
    · rename_i hdeleted
      rintro _ ⟨⟩ hlive
      rw [hlive] at hdeleted
      cases hdeleted
    · refine Wp.mapError ?_
      unfold patchStatus
      split
      · rename_i hsame
        rintro _ ⟨⟩ - c' hc'
        rw [exec_pure, World.coherence_sent, hc, Option.some.injEq] at hc'
        subst hc'
        exact (congrArg CoherenceResourceStatus.actionsExecuted hsame).symm
      · rw [hkey]
        refine wp_change_iff (fun e he => ?_) fun _ _ => ?_
        · rcases he with ⟨n, f, hf⟩ | hnone
          · rw [hcan.patch n] at hf
            cases hf
          · rw [World.coherence_sent, World.coherence_sent, hc] at hnone
            cases hnone
        · rintro _ ⟨⟩ - c' hc'
          simp only [Acts.act, Act.effect, World.modifyCoherence, Table.get_modify_self, World.coherence_sent, hc, Option.map_some,
            Option.some.injEq] at hc'
          subst hc'
          rfl

/-- A loop that touches no Coherence resource, and none of whose steps fails. -/
theorem wp_forM_of_idle {γ : Type} {f : γ → Op PUnit} {cs : List γ} (hdoes : ∀ c, Does Act.IsIdle (f c))
    (hok : ∀ c x, (exec (f c) x).1 = .ok ⟨⟩) :
    Wp (forM cs f) (fun r v => r = .ok ⟨⟩ ∧ v.coherence = u.coherence ∧ v.executions = u.executions) u := by
  have hloop : Does Act.IsIdle (forM cs f) := Does.forM fun c _ => hdoes c
  have hruns : Wp (forM cs f) (fun r _ => r = .ok ⟨⟩ ∧ True) u :=
    wp_forM_of_keeps (I := fun _ => True) hok (fun _ _ _ _ => trivial) trivial
  exact ⟨hruns.1, hloop.unchanged (fun _ _ ha => ha.coherence) u, hloop.unchanged (fun _ _ ha => ha.executions) u⟩

/-- The actions of a Coherence resource are gone through, whatever comes of them. -/
theorem wp_execActions : Wp (execActions env deployment) (fun r v => v.coherence = u.coherence ∧
    (((∃ c, deployment = .coherence (some c)) ∧ r = .ok () ∧ v.executions = u.executions + 1) ∨
      (∀ c, deployment ≠ .coherence (some c)) ∧ v.executions = u.executions)) u := by
  cases deployment with
  | nil => exact ⟨rfl, .inr ⟨by simp, rfl⟩⟩
  | coherenceJob c => exact ⟨rfl, .inr ⟨by simp, rfl⟩⟩
  | coherence c =>
    cases c with
    | none => exact ⟨rfl, .inr ⟨by simp, rfl⟩⟩
    | some c =>
      refine Wp.bind_ok (exec_outcome _ _) (Wp.bind_ok (exec_outcome _ _) (Wp.bind_ok (exec_perform _ _) ?_))
      refine Wp.mono (wp_forM_of_idle (fun action => ?_) fun action x => ?_) fun r v hv => ?_
      · split
        · exact Op.does_ignoreError (does_createObject trivial trivial)
        · exact Does.pure _
      · split
        · rw [Calm.createObject.exec_ignoreError]
        · rfl
      · obtain ⟨hr, hcoherence, hcount⟩ := hv
        refine ⟨hcoherence, .inl ⟨⟨c, rfl⟩, hr, ?_⟩⟩
        rw [hcount, World.executions_execute]

/-! ### A round -/

/-- **The actions were gone through**: of a resource that is not scaled to zero, where the status was that of a resource that is ready and
whose actions were not. Unless it is being deleted, its status says now that they were. -/
structure Acted (request : NamespacedName) (deployment : Deployment) (w v : World) : Prop where
  executions : v.executions = w.executions + 1
  replicas : ∃ c, deployment = .coherence (some c) ∧ c.getReplicas ≠ 0
  resource : ∃ c, w.coherence.get request = some c ∧ c.status.phase = some .ready ∧ c.status.actionsExecuted = false ∧
    (c.metadata.deletionTimestamp = none → ∀ c', v.coherence.get request = some c' → c'.status.actionsExecuted = true)

/-- The actions, given the resource as it was read. -/
theorem wp_maybeExecActions (hcan : CanMark env request) {updated : Option Coherence} (hv : w.Idle Coherence.KeepsFlag request v)
    (hrests : ∀ c, updated = some c → ∃ c₀, w.coherence.get request = some c₀ ∧ c₀.Rests c) :
    Wp (maybeExecActions env request deployment updated)
      (fun _ x => w.Idle Coherence.Remembers request x ∨ Acted request deployment w x) v := by
  have hidle : w.Idle Coherence.Remembers request v := hv.mono fun _ _ => Coherence.KeepsFlag.remembers
  cases updated with
  | none => exact .inl hidle
  | some c =>
    obtain ⟨c₀, hc₀, hrests⟩ := hrests c rfl
    unfold maybeExecActions
    simp only
    split
    swap
    · exact .inl hidle
    rename_i hdue
    refine Wp.outcome_bind (fun replicas hreplicas => ?_) fun _ _ => .inl hidle
    split
    swap
    · exact .inl hidle
    rename_i hpositive
    refine Wp.bind wp_execActions (fun _ y hy => ?_) fun e y hy => ?_
    · obtain ⟨hcoherence, hcase⟩ := hy
      have hresource : w.coherence.Descends Coherence.KeepsFlag request y.coherence := hcoherence ▸ hv.resource
      refine Wp.mono (wp_updateDeploymentStatusActionsState hcan) fun r z hz => ?_
      obtain ⟨hremembers, hmarked⟩ := hz
      obtain ⟨⟨d, rfl⟩, -, hcount⟩ | ⟨-, hcount⟩ := hcase
      · refine .inr ⟨?_, ⟨d, rfl, ?_⟩, c₀, hc₀, hrests.phase hdue.1, ?_, fun hlive c' hc' => ?_⟩
        · rw [hremembers.executions, hcount, hv.executions]
        · rintro hzero
          rw [Deployment.getReplicas, hzero, Except.ok.injEq] at hreplicas
          exact hpositive hreplicas.symm
        · simpa [hrests.actionsExecuted] using hdue.2
        · obtain ⟨c₁, hc₁, -⟩ := hremembers.resource c' hc'
          obtain ⟨c₂, hc₂, hkeeps⟩ := hresource c₁ hc₁
          obtain rfl : c₀ = c₂ := Option.some.inj (hc₀.symm.trans hc₂)
          exact hmarked c₁ hc₁ (hkeeps.deletionTimestamp.trans hlive) c' hc'
      · have hy : w.Idle Coherence.Remembers request y :=
          ⟨hcount.trans hv.executions, hresource.mono fun _ _ => Coherence.KeepsFlag.remembers⟩
        exact .inl (hy.trans hremembers)
    · obtain ⟨hcoherence, ⟨-, hr, -⟩ | ⟨-, hcount⟩⟩ := hy
      · cases hr
      · exact .inl ⟨hcount.trans hv.executions, hcoherence ▸ hidle.resource⟩

/-- The end of a round in which no resource was made ready. -/
theorem wp_finish (hcan : CanMark env request) {result : Result} (h : w.Idle Coherence.Rests request u) :
    Wp (finish op env request deployment result)
      (fun _ v => w.Idle Coherence.Remembers request v ∨ Acted request deployment w v) u := by
  have hu : w.Idle Coherence.KeepsFlag request u := h.mono fun _ _ => Coherence.Rests.keepsFlag
  have hidle : ∀ {x}, u.Idle Coherence.KeepsFlag request x → w.Idle Coherence.Remembers request x :=
    fun hx => (hu.trans hx).mono fun _ _ => Coherence.KeepsFlag.remembers
  refine Wp.bind_ends wp_updateDeploymentStatus (fun c v hv => ?_) fun _ _ hv => .inl (hidle hv)
  obtain ⟨rfl, hv⟩ := hv
  exact Wp.bind_ends (Wp.ends (wp_maybeExecActions hcan (hu.trans hv) h.resource)) (fun _ _ hx => hx) fun _ _ hx => hx

/-- Nothing is executed for a resource that is scaled to zero. -/
theorem wp_finish_of_zero (hzero : deployment.getReplicas = .ok 0) {result : Result} (h : w.Idle Coherence.IsLater request u) :
    Wp (finish op env request deployment result) (fun _ v => w.Idle Coherence.IsLater request v) u := by
  have hidle : ∀ {x}, u.Idle Coherence.KeepsFlag request x → w.Idle Coherence.IsLater request x :=
    fun hx => h.trans (hx.mono fun _ _ _ => trivial)
  refine Wp.bind_ends wp_updateDeploymentStatus (fun c v hv => ?_) fun _ _ hv => hidle hv
  obtain ⟨rfl, hv⟩ := hv
  have hmaybe : Wp (maybeExecActions env request deployment (u.coherence.get request)) (fun _ x => x = v) v := by
    cases u.coherence.get request with
    | none => rfl
    | some c =>
      unfold maybeExecActions
      simp only
      split
      · rw [hzero]
        exact Wp.bind_ok (exec_outcome _ _) (by simp [Wp])
      · rfl
  refine Wp.bind_ends (Wp.ends hmaybe) (fun _ x hx => ?_) fun _ x hx => ?_
  · exact hx ▸ hidle hv
  · exact hx ▸ hidle hv

/-- What comes of a round: the flag stays set, or it may be reset since the resource is scaled to zero, or the actions are gone
through. -/
def Rounded (request : NamespacedName) (deployment : Deployment) (w v : World) : Prop :=
  w.Idle Coherence.Remembers request v ∨ (deployment.getReplicas = .ok 0 ∧ w.Idle Coherence.IsLater request v) ∨
    Acted request deployment w v

/-- The StatefulSet of a resource that is scaled to zero is deleted, and the flag is reset. -/
theorem keeps_deleteStatefulSet {sts : StatefulSet} :
    Keeps (w.Idle Coherence.IsLater request) (deleteStatefulSet op env request deployment sts) := by
  have hdelete : Keeps (w.Idle Coherence.IsLater request) (Secondary.delete env .statefulSet request) :=
    keeps_idle (Secondary.does_delete trivial trivial)
  refine Keeps.ite (fun _ => hdelete) fun _ => ?_
  refine Keeps.bind (Keeps.bind (keeps_changeStatus fun _ => trivial).attempt fun _ => Keeps.pure _) fun _ => ?_
  exact Keeps.bind (keeps_idle_of_call call_suspendBeforeDelete) fun _ => hdelete

/-- **With the owner that was found.** -/
theorem wp_settle_acted (hcan : CanMark env request) (h : w.Idle Coherence.Rests request u) {sts : Option StatefulSet}
    (hsts : ∀ s ∈ sts, s.key = request) :
    Wp (settle op env request deployment sts st) (fun _ v => Rounded request deployment w v) u := by
  have hidle : w.Idle Coherence.Remembers request u := h.mono fun _ _ hrests => hrests.keepsFlag.remembers
  have hlater : w.Idle Coherence.IsLater request u := h.mono fun _ _ _ => trivial
  have hfinish : ∀ {x : World} {result : Result}, w.Idle Coherence.Rests request x →
      Wp (finish op env request deployment result) (fun _ v => Rounded request deployment w v) x :=
    fun hx => Wp.mono (wp_finish hcan hx) fun _ v hv => hv.imp_right .inr
  have hrests : ∀ {x : World}, w.Idle Coherence.Rests request x → Rounded request deployment w x :=
    fun hx => .inl (hx.mono fun _ _ hrests => hrests.keepsFlag.remembers)
  refine Wp.outcome_bind (fun b hb => ?_) fun _ _ => .inl hidle
  split
  · cases sts with
    | none =>
      have hkeeps : ∀ {x}, u.Idle Coherence.KeepsFlag request x → Rounded request deployment w x :=
        fun hx => .inl (hidle.trans (hx.mono fun _ _ => Coherence.KeepsFlag.remembers))
      exact Wp.bind_ends wp_updateDeploymentStatus (fun _ x hx => hkeeps hx.2) fun _ x hx => hkeeps hx
    | some s =>
      by_cases hnil : deployment.isNil = true
      · have hdelete : Wp (deleteStatefulSet op env request deployment s) (fun _ x => w.Idle Coherence.Rests request x) u := by
          rw [deleteStatefulSet, if_pos hnil]
          exact keeps_idle (Secondary.does_delete trivial trivial) u h
        exact Wp.bind_ends (Wp.ends hdelete) (fun _ x hx => hfinish hx) fun _ x hx => hrests hx
      · have hzero : deployment.getReplicas = .ok 0 := by
          rename_i hb'
          subst hb'
          cases deployment with
          | nil => exact absurd rfl hnil
          | coherence c | coherenceJob c =>
            obtain ⟨n, hn, hz⟩ := map_eq_ok.1 hb
            rw [hn, eq_of_beq hz]
        have hdelete : Wp (deleteStatefulSet op env request deployment s) (fun _ x => w.Idle Coherence.IsLater request x) u :=
          keeps_deleteStatefulSet u hlater
        refine Wp.bind_ends (Wp.ends hdelete) (fun _ x hx => ?_) fun _ x hx => .inr (.inl ⟨hzero, hx⟩)
        exact Wp.mono (wp_finish_of_zero hzero hx) fun _ v hv => .inr (.inl ⟨hzero, hv⟩)
  · cases sts with
    | none =>
      have hcreate : Wp (createStatefulSet op env deployment st) (fun _ x => w.Idle Coherence.Rests request x) u :=
        keeps_createStatefulSet sustains_rests u h
      exact Wp.bind_ends (Wp.ends hcreate) (fun _ x hx => hfinish hx) fun _ x hx => hrests hx
    | some s =>
      have hupdate : Wp (updateStatefulSet op env deployment s st) (fun _ x => w.Idle Coherence.Rests request x) u :=
        keeps_updateStatefulSet sustains_rests (hsts s rfl) u h
      exact Wp.bind_ends (Wp.ends hupdate) (fun _ x hx => hfinish hx) fun _ x hx => hrests hx

/-- The owner that is found for the StatefulSet under a key. -/
def ownerFound (request : NamespacedName) (w : World) : Deployment :=
  ((w.statefulSet request).bind (·.metadata.coherenceOwner)).elim .nil w.pointer

/-- A round with a resource that is passed in. -/
theorem wp_reconcileAllResourceOfKind_acted (hcan : CanMark env request) (hnil : deployment.isNil = false) :
    Wp (reconcileAllResourceOfKind op env request deployment st) (fun _ v => Rounded request deployment w v) w := by
  have hrefl : w.Idle Coherence.Remembers request w := .refl
  unfold reconcileAllResourceOfKind
  split
  · exact .inl hrefl
  have hget : w.Idle Coherence.Rests request (w.sent ⟨.get, .statefulSet, request⟩) := .sent .refl _
  refine wp_read_bind (fun _ => .inl (hrefl.sent _)) ?_
  split
  · exact .inl (hrefl.sent _)
  rw [Secondary.ownerOf, if_neg (by simp [hnil])]
  refine Wp.bind_ok (exec_pure _ _) (wp_settle_acted hcan hget fun s hs => ?_)
  exact (Prod.mk.inj (w.objects.filed _ _ (World.statefulSet_eq_some.1 hs))).2

/-- **A round on an event**, with the owner that is found. -/
theorem wp_reconcile_acted (hcan : CanMark env request) :
    Wp (reconcile op env request) (fun _ v => Rounded request (ownerFound request w) w v) w := by
  have hrefl : w.Idle Coherence.Rests request w := .refl
  have hidle : ∀ {x}, w.Idle Coherence.Rests request x → Rounded request (ownerFound request w) w x :=
    fun hx => .inl (hx.mono fun _ _ hrests => hrests.keepsFlag.remembers)
  unfold reconcile
  split
  · exact hidle hrefl
  have hnew := hrefl.sent ⟨.get, .secret, request⟩
  refine wp_new_bind (fun _ => hidle hnew) ?_
  unfold reconcileAllResourceOfKind
  split
  · exact hidle hnew
  have hget := hnew.sent ⟨.get, .statefulSet, request⟩
  refine wp_read_bind (fun _ => hidle hget) ?_
  split
  · exact hidle hget
  simp only [World.statefulSet_sent]
  have hkey : ∀ s ∈ w.statefulSet request, s.key = request := fun s hs =>
    (Prod.mk.inj (w.objects.filed _ _ (World.statefulSet_eq_some.1 hs))).2
  cases hsts : w.statefulSet request with
  | none =>
    have hfound : ownerFound request w = .nil := by rw [ownerFound, hsts, Option.bind_none, Option.elim_none]
    rw [hfound]
    refine Wp.bind_ok (exec_ownerOf_of_unowned (by simp)) (wp_settle_acted hcan hget (by simp))
  | some s =>
    cases howner : s.metadata.coherenceOwner with
    | none =>
      have hfound : ownerFound request w = .nil := by rw [ownerFound, hsts, Option.bind_some, howner, Option.elim_none]
      rw [hfound]
      refine Wp.bind_ok (exec_ownerOf_of_unowned ?_) (wp_settle_acted hcan hget fun x hx => hkey x (hsts.trans hx))
      rintro _ ⟨⟩
      exact howner
    | some owner =>
      have hfound : ownerFound request w = w.pointer owner := by rw [ownerFound, hsts, Option.bind_some, howner, Option.elim_some]
      rw [hfound] at hidle ⊢
      refine wp_ownerOf_bind howner (fun _ => hidle (hget.sent _)) ?_
      exact wp_settle_acted hcan (hget.sent _) fun x hx => hkey x (hsts.trans hx)

end StatefulSetReconciler

end CoherenceOperator
