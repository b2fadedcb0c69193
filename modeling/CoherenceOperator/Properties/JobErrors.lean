import CoherenceOperator.Controllers.CoherenceJob
import CoherenceOperator.Footprint.Tracking

/-!
# The errors of a CoherenceJob

When the secret of the operator or the state store of a CoherenceJob cannot be had, its controller hands the error over to the
handler that Coherence resources have, but without the resource. The handler asks it for its name first, so there is nothing that
the handler does: no error is counted, no status is set, and the reconcile ends with the call of a method of nothing
(`not_isHandled`).
-/

namespace CoherenceOperator

open Effect Prog

namespace CoherenceJobReconciler

variable (op : Operator) (env : Env) (request : NamespacedName)

/-- The secret of the operator or the state store cannot be had, in the cluster `u`, for the error `e`. -/
inductive FailsToOpen (c : CoherenceJob) (w : World) : GoError → World → Prop where
  | secret {e : GoError} {u : World} (failed : exec (ensureOperatorSecret op env c.toResource) w = (.error e, u)) :
    FailsToOpen c w (.wrap "ensuring Operator configuration secret" e) u
  | store {e : GoError} {v u : World} (ensured : exec (ensureOperatorSecret op env c.toResource) w = (.ok (), v))
      (failed : exec (Storage.new env request) v = (.error e, u)) :
    FailsToOpen c w (.wrap "obtaining desired state store" e) u

/-- **An early failure** of a reconcile that starts in `w`: with the resource `c` it gets as far as the secret and the store, which
cannot be had. -/
structure EarlyFailure (w : World) (c : CoherenceJob) (e : GoError) (u : World) : Prop where
  unlocked : env.locked = false
  reached : ∃ read w₁ w₂ w₃, exec (getCoherenceJob env request) w = (.ok (some read), w₁) ∧
    read.metadata.deletionTimestamp = none ∧ exec (ensureStatus op env request read) w₁ = (.ok (), w₂) ∧
    exec (ensureReplicas env read) w₂ = (.ok c, w₃) ∧ FailsToOpen op env request c w₃ e u

/-- What is to come of it: an error or a request that is queued again; the error is counted and the status is set as for any
resource that is handed to the handler; and no method of nothing is called. -/
structure IsHandled (c : CoherenceJob) (e : GoError) (u : World) (r : Except GoError Result × World) : Prop where
  returns : (∃ err, r.1 = .error err ∧ err.isPanic = false) ∨ ∃ result, r.1 = .ok result ∧ 0 < result.requeueAfter
  tracked : r.2 = (exec (handleErrAndRequeue op env e (.coherenceJob (some c))) u).2
  present : r.1 ≠ .error nilDereference

section

variable {op : Operator} {env : Env} {request : NamespacedName} {w u : World} {c : CoherenceJob} {e : GoError}

/-- Without a resource the handler fails at once. -/
theorem exec_handleErrAndRequeue_nil : exec (handleErrAndRequeue op env e .nil) w = (.error nilDereference, w) := rfl

theorem calm_ensureOperatorSecret {d : CoherenceResource} : Calm (ensureOperatorSecret op env d) := by
  refine Calm.bind Calm.read fun s => ?_
  cases s with
  | none =>
    have hdelete : Calm (deleteObject env .secret ⟨d.ns, "coherence-operator-config"⟩) := Calm.change
    refine Calm.bind (fun w e h => ?_) fun _ => Calm.createObject
    rw [hdelete.exec_ignoreError w] at h
    cases h
  | some s => exact Calm.ite (Calm.pure _) Calm.change

theorem calm_new {key : NamespacedName} : Calm (Storage.new env key) := Calm.bind Calm.read fun _ => Calm.pure _

/-- What cannot be had ends in the handler, without the resource. -/
theorem exec_reconcileResources_of_failsToOpen (h : FailsToOpen op env request c w e u) :
    exec (reconcileResources op env request c) w = exec (handleErrAndRequeue op env e .nil) u := by
  cases h with
  | @secret e u failed =>
    have hattempt : exec (Op.attempt (ensureOperatorSecret op env c.toResource)) w = (.ok (.error e), u) := by
      rw [Op.attempt, exec_attempt, failed, caught_error (calm_ensureOperatorSecret w e (by rw [failed]))]
    rw [reconcileResources, exec_bind_ok hattempt]
  | @store e v u ensured failed =>
    have hattempt : exec (Op.attempt (ensureOperatorSecret op env c.toResource)) w = (.ok (.ok ()), v) := by
      rw [Op.attempt, exec_attempt, ensured, caught_ok]
    have hstore : exec (Op.attempt (Storage.new env request)) v = (.ok (.error e), u) := by
      rw [Op.attempt, exec_attempt, failed, caught_error (calm_new v e (by rw [failed]))]
    rw [reconcileResources, exec_bind_ok hattempt]
    dsimp only
    rw [exec_bind_ok hstore]

/-- So does the reconcile. -/
theorem exec_reconcileDeployment_of_earlyFailure (h : EarlyFailure op env request w c e u) :
    exec (reconcileDeployment op env request) w = (.error nilDereference, u) := by
  obtain ⟨hlocked, read, w₁, w₂, w₃, hread, hdeleted, hstatus, hreplicas, hopen⟩ := h
  have hget : exec (Op.wrapError "getting CoherenceJob resource" (getCoherenceJob env request)) w = (.ok (some read), w₁) := by
    rw [Op.wrapError, exec_mapError, hread, wrapped_ok]
  rw [reconcileDeployment, hlocked]
  simp only [Bool.false_eq_true, if_false]
  rw [exec_bind_ok hget]
  simp only [hdeleted, Option.isSome_none, Bool.false_eq_true, if_false]
  rw [addOrUpdate, exec_bind_ok hstatus, exec_bind_ok hreplicas, exec_reconcileResources_of_failsToOpen hopen]
  rfl

/-- **The error path of a CoherenceJob**: no early failure is handled. The reconcile ends with the call of a method of a resource
that is not there, in the cluster in which the failure left it. -/
theorem not_isHandled (h : EarlyFailure op env request w c e u) :
    ¬IsHandled op env c e u (exec (reconcileDeployment op env request) w) ∧
      exec (reconcileDeployment op env request) w = (.error nilDereference, u) := by
  have hrun := exec_reconcileDeployment_of_earlyFailure h
  refine ⟨fun hhandled => hhandled.present ?_, hrun⟩
  rw [hrun]

end

/-! ### A secret that cannot be read -/

/-- A job with an initial status. -/
def initializedJob : CoherenceJob :=
  { metadata := { ns := "default", name := "loader" }, spec := { replicas := some 1 }, status := { phase := some .initialized } }

/-- The cluster with the job. -/
def initializedCluster : World := { (default : World) with coherenceJob := Table.empty.put initializedJob }

/-- The secret of the operator cannot be read. -/
def unreadableSecret : Env where
  faults _ c := if c.kind = .secret then some .serviceUnavailable else none

/-- The error of the secret. -/
def secretError : GoError :=
  .wrap "ensuring Operator configuration secret"
    (.fault ⟨.get, .secret, ⟨"default", "coherence-operator-config"⟩⟩ .serviceUnavailable)

theorem earlyFailure_initializedJob : ∃ u, EarlyFailure default unreadableSecret initializedJob.key initializedCluster initializedJob
    secretError u :=
  ⟨_, rfl, initializedJob, _, _, _, rfl, rfl, rfl, rfl, .secret rfl⟩

/-- The failure is not handled. -/
theorem not_forall_isHandled :
    ¬∀ (op : Operator) (env : Env) (request : NamespacedName) (w u : World) (c : CoherenceJob) (e : GoError),
      EarlyFailure op env request w c e u → IsHandled op env c e u (exec (reconcileDeployment op env request) w) := by
  intro h
  obtain ⟨u, hearly⟩ := earlyFailure_initializedJob
  exact (h _ _ _ _ _ _ _ hearly).present rfl

/-- It ends the reconcile of the job. -/
theorem not_isHandled_initializedJob : ∃ u,
    exec (reconcileDeployment default unreadableSecret initializedJob.key) initializedCluster = (.error nilDereference, u) := by
  obtain ⟨u, hearly⟩ := earlyFailure_initializedJob
  exact ⟨u, (not_isHandled hearly).2⟩

end CoherenceJobReconciler

end CoherenceOperator
