import CoherenceOperator.Controllers.Common
import CoherenceOperator.Footprint.Requests

/-!
# Notes

Much of what the operator does leaves no trace but in the resources themselves: it sends requests, and it writes
their status, annotations and finalizers. These acts are *notes*. No object and no store
changes by them, and a resource keeps its spec.

* `Act.IsNote`, and what a note leaves alone;
* the programs that do nothing but take notes: status updates, error handling, the start quorum.
-/

namespace CoherenceOperator

open Effect Prog

/-- Acts that leave everything but the status and the metadata of the resources alone. -/
def Act.IsNote : Act → Prop
  | .call c => c.verb ≠ .delete
  | .coherenceStatus _ _ | .coherenceMetadata _ _ _ | .coherenceJobStatus _ _ | .coherenceJobMetadata _ _ _ => True
  | .attemptReadyAction _ _ | .executeActions _ => True
  | _ => False

/-- Notes that leave the metadata of a Coherence resource alone. -/
def Act.IsRemark : Act → Prop
  | .coherenceMetadata _ _ _ => False
  | a => a.IsNote

theorem Act.IsRemark.isNote {a : Act} (h : a.IsRemark) : a.IsNote := by
  cases a with
  | coherenceMetadata => exact h.elim
  | _ => exact h

/-- Requests that delete nothing. -/
def Act.IsCall : Act → Prop
  | .call c => c.verb ≠ .delete
  | _ => False

theorem Act.IsCall.isRemark {a : Act} (h : a.IsCall) : a.IsRemark := by
  cases a with
  | call c => exact h
  | _ => exact h.elim

namespace Act.IsNote

variable {a : Act} {w : World}

theorem objects (h : a.IsNote) : (Acts.act a w).objects = w.objects := by
  cases a with
  | call | coherenceStatus | coherenceJobStatus | attemptReadyAction | executeActions => rfl
  | coherenceMetadata | coherenceJobMetadata =>
    simp only [Acts.act, Act.effect]
    split <;> rfl
  | _ => exact h.elim

theorem stores (h : a.IsNote) : (Acts.act a w).stores = w.stores := by
  cases a with
  | call | coherenceStatus | coherenceJobStatus | attemptReadyAction | executeActions => rfl
  | coherenceMetadata | coherenceJobMetadata =>
    simp only [Acts.act, Act.effect]
    split <;> rfl
  | _ => exact h.elim

end Act.IsNote

/-- Notes leave the StatefulSets alone. -/
theorem statefulSet_of_note {key : NamespacedName} {w u : World} (p : Path Act.IsNote w u) :
    u.statefulSet key = w.statefulSet key := by
  have hobj : u.objects = w.objects := p.unchanged fun _ _ ha => ha.objects
  simp only [World.statefulSet, hobj]

theorem note_of_remark {α : Type} {x : Op α} (h : Does Act.IsRemark x) : Does Act.IsNote x :=
  h.mono fun _ => Act.IsRemark.isNote

theorem remark_of_call {α : Type} {x : Op α} (h : Does Act.IsCall x) : Does Act.IsRemark x :=
  h.mono fun _ => Act.IsCall.isRemark

/-! ### Programs that take notes -/

section Notes

variable {op : Operator} {env : Env} {key : NamespacedName}

theorem call_getObject {kind : ResourceType} : Does Act.IsCall (getObject env kind key) := does_read (by simp [Act.IsCall])

theorem call_getStatefulSet : Does Act.IsCall (getStatefulSet env key) := does_read (by simp [Act.IsCall])

theorem call_getJob : Does Act.IsCall (getJob env key) := does_read (by simp [Act.IsCall])

theorem call_getCoherence : Does Act.IsCall (getCoherence env key) := does_read (by simp [Act.IsCall])

theorem call_getCoherenceJob : Does Act.IsCall (getCoherenceJob env key) := does_read (by simp [Act.IsCall])

theorem call_getResource {kind : ResourceType} : Does Act.IsCall (getResource env kind key) := by
  cases kind with
  | coherenceJob => exact Does.bind call_getCoherenceJob fun _ => Does.pure _
  | _ => exact Does.bind call_getCoherence fun _ => Does.pure _

theorem note_getObject {kind : ResourceType} : Does Act.IsRemark (getObject env kind key) :=
  remark_of_call call_getObject

theorem note_getStatefulSet : Does Act.IsRemark (getStatefulSet env key) := remark_of_call call_getStatefulSet

theorem note_getJob : Does Act.IsRemark (getJob env key) := remark_of_call call_getJob

theorem note_getCoherence : Does Act.IsRemark (getCoherence env key) := remark_of_call call_getCoherence

theorem note_getCoherenceJob : Does Act.IsRemark (getCoherenceJob env key) := remark_of_call call_getCoherenceJob

theorem note_getResource {kind : ResourceType} : Does Act.IsRemark (getResource env kind key) :=
  remark_of_call call_getResource

/-- The verbs that write the status or the metadata of a resource. -/
theorem note_writeStatus {verb : Verb} (hv : verb ≠ .delete) {kind : ResourceType}
    {status : CoherenceResourceStatus} : Does Act.IsRemark (writeStatus env verb kind key status) := by
  cases kind with
  | coherenceJob => exact does_change hv trivial
  | _ => exact does_change hv trivial

theorem note_writeMetadata {verb : Verb} (hv : verb ≠ .delete) {kind : ResourceType} {annotations : Labels}
    {finalizers : List String} : Does Act.IsNote (writeMetadata env verb kind key annotations finalizers) := by
  cases kind with
  | coherenceJob => exact does_change hv trivial
  | _ => exact does_change hv trivial

theorem note_patchStatus {d : CoherenceResource} {status : CoherenceResourceStatus} :
    Does Act.IsRemark (patchStatus env d status) :=
  Does.ite (fun _ => Does.pure _) fun _ => note_writeStatus (by decide)

theorem note_updateStatusCondition {kind : ResourceType} {condition : Condition} :
    Does Act.IsRemark (updateStatusCondition op env kind key condition) := by
  refine Does.bind (Op.does_wrapError note_getResource) fun d => ?_
  cases d with
  | none => exact Does.pure _
  | some d =>
    refine Does.ite (fun _ => Does.pure _) fun _ => ?_
    exact Does.ite (fun _ => Op.does_wrapError note_patchStatus) fun _ => Does.pure _

theorem calm_getResource {kind : ResourceType} : Calm (getResource env kind key) := by
  cases kind with
  | coherenceJob => exact Calm.bind Calm.read fun _ => Calm.pure _
  | _ => exact Calm.bind Calm.read fun _ => Calm.pure _

theorem calm_patchStatus {d : CoherenceResource} {status : CoherenceResourceStatus} :
    Calm (patchStatus env d status) := by
  have hwrite : ∀ kind, Calm (writeStatus env .patchStatus kind d.key status) := by
    intro kind
    cases kind with
    | coherenceJob => exact Calm.change
    | _ => exact Calm.change
  exact Calm.ite (Calm.pure _) (hwrite _)

/-- A change of a condition does not panic. -/
theorem calm_updateStatusCondition {kind : ResourceType} {condition : Condition} :
    Calm (updateStatusCondition op env kind key condition) := by
  refine Calm.bind (Calm.wrapError calm_getResource) fun d => ?_
  cases d with
  | none => exact Calm.pure _
  | some d =>
    refine Calm.ite (Calm.pure _) ?_
    exact Calm.ite (Calm.wrapError calm_patchStatus) (Calm.pure _)

theorem note_updateCoherenceStatusCondition {condition : Condition} :
    Does Act.IsRemark (updateCoherenceStatusCondition op env key condition) := note_updateStatusCondition

theorem note_updateCoherenceStatusPhase {phase : ConditionType} :
    Does Act.IsRemark (updateCoherenceStatusPhase op env key phase) := note_updateStatusCondition

theorem note_updateCoherenceJobStatusCondition {condition : Condition} :
    Does Act.IsRemark (updateCoherenceJobStatusCondition op env key condition) := note_updateStatusCondition

theorem note_changeStatus {f : CoherenceResourceStatus → CoherenceResourceStatus} :
    Does Act.IsRemark (changeStatus env key f) := by
  refine Does.bind (Op.does_wrapError note_getCoherence) fun c => ?_
  cases c with
  | none => exact Does.pure _
  | some c => exact Does.ite (fun _ => Does.pure _) fun _ => Op.does_wrapError note_patchStatus

theorem StatusManager.note_update {f : CoherenceResourceStatus → CoherenceResourceStatus} :
    Does Act.IsRemark (StatusManager.update env key f) := by
  refine Does.bind (Op.does_wrapError note_getCoherence) fun c => ?_
  cases c with
  | none => exact Does.throw _
  | some c => exact Op.does_wrapError note_patchStatus

theorem call_findOwner {ns : String} {refs : List OwnerReference} : Does Act.IsCall (findOwner env ns refs) := by
  induction refs with
  | nil => exact Does.pure _
  | cons ref refs ih =>
    refine Does.ite (fun _ => Does.bind call_getCoherence fun _ => Does.pure _) fun _ => ?_
    exact Does.ite (fun _ => Does.bind call_getCoherenceJob fun _ => Does.pure _) fun _ => ih

theorem call_findOwningCoherenceResource {o : Option ObjectMeta} :
    Does Act.IsCall (findOwningCoherenceResource env o) := by
  cases o with
  | none => exact Does.pure _
  | some m => exact call_findOwner

theorem call_new : Does Act.IsCall (Storage.new env key) :=
  Does.bind (does_read (by simp [Act.IsCall])) fun _ => Does.pure _

theorem note_new : Does Act.IsRemark (Storage.new env key) := remark_of_call call_new

/-- The storage that is loaded when no request fails. -/
theorem exec_new_of_reliable {w : World} (henv : env.Reliable) :
    exec (Storage.new env key) w = (.ok (Storage.load key (w.store key)), w.sent ⟨.get, .secret, key⟩) := by
  simp only [Storage.new, Storage.getSecret, exec_bind, exec_read, World.answer_eq_ok _ _ henv, Except.map, exec_pure]
  rfl

/-- Load the storage and go on, whatever comes of the request. -/
theorem wp_new_bind {β : Type} {g : Storage → Op β} {Q : Except GoError β → World → Prop} {w : World}
    (he : ∀ e, Q (.error e) (w.sent ⟨.get, .secret, key⟩))
    (hg : Wp (g (Storage.load key (w.store key))) Q (w.sent ⟨.get, .secret, key⟩)) :
    Wp (Storage.new env key >>= g) Q w := by
  rw [Wp, exec_bind, Storage.new, exec_bind, Storage.getSecret, exec_read]
  cases w.answer ⟨.get, .secret, key⟩ env with
  | error e => exact he e
  | ok _ => exact hg

theorem call_unmetQuorum {ns : String} {qs : List StartQuorum} : Does Act.IsCall (unmetQuorum env ns qs) := by
  induction qs with
  | nil => exact Does.pure _
  | cons q qs ih =>
    refine Does.ite (fun _ => ih) fun _ => Does.bind call_getCoherence.attempt fun _ => ?_
    exact Does.bind ih fun _ => Does.pure _

theorem call_canCreate {deployment : Deployment} : Does Act.IsCall (canCreate env deployment) := by
  refine Does.bind (Does.outcome _) fun d => Does.bind call_unmetQuorum fun quorum => ?_
  cases quorum with
  | nil => exact Does.pure _
  | cons _ _ => exact Does.pure _

theorem note_canCreate {deployment : Deployment} : Does Act.IsRemark (canCreate env deployment) :=
  remark_of_call call_canCreate

end Notes

/-- To suspend the services of the members is no more than a request. -/
theorem call_suspendServicesWithError {deployment : Deployment} {sts : StatefulSet} :
    Does Act.IsCall (CoherenceProbe.suspendServicesWithError op env deployment sts) := by
  unfold CoherenceProbe.suspendServicesWithError
  split
  · refine Does.ite (fun _ => Does.pure _) fun _ => Does.ite (fun _ => Does.pure _) fun _ => ?_
    refine Does.ite (fun _ => Does.pure _) fun _ => Does.bind (does_request (by simp [Act.IsCall])).attempt fun r => ?_
    cases r with
    | error _ => exact Does.pure _
    | ok _ => exact Does.pure _
  · exact Does.pure _
  · exact Does.throw _

theorem note_suspendServicesWithError {deployment : Deployment} {sts : StatefulSet} :
    Does Act.IsRemark (CoherenceProbe.suspendServicesWithError op env deployment sts) :=
  remark_of_call call_suspendServicesWithError

/-! ### Error handling -/

section ErrorHandling

variable {op : Operator} {env : Env} {d : CoherenceResource}

theorem note_getLatest : Does Act.IsNote (getLatest env d) := by
  refine Does.bind (note_of_remark note_getResource) fun latest => ?_
  cases latest with
  | none => exact Does.throw _
  | some _ => exact Does.pure _

theorem note_updateAnnotations {annotations : Labels} : Does Act.IsNote (updateAnnotations env d annotations) :=
  note_writeMetadata (by decide)

theorem note_recordIssue {notes : List (String × String)} {delay : ℕ} :
    Does Act.IsNote (recordIssue env d notes delay) :=
  Does.bind note_getLatest fun _ => Does.bind note_updateAnnotations fun _ => Does.pure _

theorem note_recoverFromServiceSuspensionFailure :
    Does Act.IsNote (recoverFromServiceSuspensionFailure env d) := by
  refine Does.bind note_getLatest fun latest => ?_
  exact Does.ite (fun _ => Does.bind note_updateAnnotations fun _ => Does.pure _) fun _ => Does.pure _

theorem note_recoverFrom {e : GoError} {latest : CoherenceResource} {annotations : Labels} :
    Does Act.IsNote (recoverFrom op env e d latest annotations) := by
  refine Does.ite (fun _ => note_recoverFromServiceSuspensionFailure) fun _ => ?_
  refine Does.ite (fun _ => note_recordIssue) fun _ => ?_
  refine Does.ite (fun _ => note_recordIssue) fun _ => ?_
  refine Does.ite (fun _ => note_recordIssue) fun _ => ?_
  refine Does.ite (fun _ => note_recordIssue) fun _ => ?_
  exact Does.bind (Op.does_ignoreError note_updateAnnotations) fun _ => Does.pure _

theorem note_attemptRecovery {e : GoError} : Does Act.IsNote (attemptRecovery op env e d) := by
  refine Does.bind note_getLatest fun latest => Does.ite (fun _ => Does.pure _) fun _ => ?_
  exact Does.bind note_updateAnnotations fun _ => note_recoverFrom

/-- Handling an error is taking notes. -/
theorem note_handleErrAndRequeue {e : GoError} {deployment : Deployment} :
    Does Act.IsNote (handleErrAndRequeue op env e deployment) := by
  refine Does.bind (Does.outcome _) fun d => ?_
  refine Does.bind (Op.does_ignoreError ?_) fun _ => Does.bind (Op.does_ignoreError ?_) fun _ => ?_
  · exact Does.bind note_getLatest fun _ => note_updateAnnotations
  · exact Does.bind note_getLatest fun _ => note_of_remark (note_writeStatus (by decide))
  · cases categorizeError e with
    | recoverable => exact note_attemptRecovery
    | _ => exact Does.pure _

end ErrorHandling

end CoherenceOperator
