import CoherenceOperator.Footprint.Notes

/-!
# Handling an error

What is done about an error writes the annotations of the latest version of the resource, with the finalizers that this version
has, and a condition of its status. `Tolerates` says that this keeps an invariant, and `keeps_handleErrAndRequeue` that the
whole does. So does `keeps_updateStatusCondition`, for the other conditions that are set.
-/

namespace CoherenceOperator

open Effect Prog

/-- The resource of one of the two kinds under a key. -/
def World.resource (w : World) (kind : ResourceType) (key : NamespacedName) : Option CoherenceResource :=
  match kind with
  | .coherenceJob => (w.coherenceJob.get key).map CoherenceJob.toResource
  | _ => (w.coherence.get key).map Coherence.toResource

/-- To write the status of a resource of this kind. -/
def Act.status (kind : ResourceType) (key : NamespacedName) (status : CoherenceResourceStatus) : Act :=
  match kind with
  | .coherenceJob => .coherenceJobStatus key status
  | _ => .coherenceStatus key status

/-- To write the metadata of a resource of this kind. -/
def Act.metadata (kind : ResourceType) (key : NamespacedName) (annotations : Labels) (finalizers : List String) : Act :=
  match kind with
  | .coherenceJob => .coherenceJobMetadata key annotations finalizers
  | _ => .coherenceMetadata key annotations finalizers

variable {op : Operator} {env : Env} {I : World → Prop} {P : CoherenceResource → Prop} {kind : ResourceType}

/-- Annotations, and conditions other than `Ready`, of a resource of this kind keep `I`; `P` is what is known of a version that was
read. -/
structure Tolerates (op : Operator) (env : Env) (I : World → Prop) (P : CoherenceResource → Prop) (kind : ResourceType) :
    Prop where
  sent : ∀ u c, I u → I (u.sent c)
  latest : ∀ u d, I u → u.resource kind d.key = some d → P d
  annotate : ∀ u d annotations, I u → P d → I (Acts.act (.metadata kind d.key annotations d.metadata.finalizers) u)
  condition : ∀ u d condition, condition.type ≠ .ready → I u → u.resource kind d.key = some d →
    I (Acts.act (.status kind d.key (CoherenceResourceStatus.setCondition op env.now d condition).1) u)

/-- No error makes a resource ready. -/
theorem ErrorCategory.type_condition (category : ErrorCategory) : category.condition.type ≠ .ready := by
  cases category <;> decide

/-- A resource of this kind. -/
theorem World.kind_of_resource {w : World} (hkind : kind = .coherence ∨ kind = .coherenceJob) {key : NamespacedName}
    {d : CoherenceResource} (h : w.resource kind key = some d) : d.kind = kind ∧ d.key = key := by
  rcases hkind with rfl | rfl
  · obtain ⟨c, hc, rfl⟩ := Option.map_eq_some_iff.1 h
    exact ⟨rfl, w.coherence.filed _ _ hc⟩
  · obtain ⟨c, hc, rfl⟩ := Option.map_eq_some_iff.1 h
    exact ⟨rfl, w.coherenceJob.filed _ _ hc⟩

/-- A resource is read. -/
theorem wp_getResource {key : NamespacedName} {w : World} (hsent : ∀ c, I w → I (w.sent c)) (h : I w) :
    Wp (getResource env kind key) (Wp.Ends (fun d u => I u ∧ u.coherence = w.coherence ∧
      u.coherenceJob = w.coherenceJob ∧ d = w.resource kind key) I) w := by
  cases kind with
  | coherenceJob =>
    rw [Wp, getResource, exec_bind, getCoherenceJob, exec_read]
    cases w.answer ⟨.get, .coherenceJob, key⟩ env with
    | error e => exact hsent _ h
    | ok _ => exact ⟨hsent _ h, rfl, rfl, rfl⟩
  | _ =>
    rw [Wp, getResource, exec_bind, getCoherence, exec_read]
    · cases w.answer ⟨.get, .coherence, key⟩ env with
      | error e => exact hsent _ h
      | ok _ => exact ⟨hsent _ h, rfl, rfl, rfl⟩
    · rintro ⟨⟩

theorem wp_writeStatus {verb : Verb} {key : NamespacedName} {status : CoherenceResourceStatus} {w : World}
    (hsent : ∀ c, I (w.sent c)) (h : ∀ c, I (Acts.act (.status kind key status) (w.sent c))) :
    Wp (writeStatus env verb kind key status) (fun _ u => I u) w := by
  cases kind with
  | coherenceJob => exact wp_change (fun _ => hsent _) fun _ _ => h _
  | _ => exact wp_change (fun _ => hsent _) fun _ _ => h _

theorem wp_writeMetadata {verb : Verb} {key : NamespacedName} {annotations : Labels} {finalizers : List String} {w : World}
    (hsent : ∀ c, I (w.sent c)) (h : ∀ c, I (Acts.act (.metadata kind key annotations finalizers) (w.sent c))) :
    Wp (writeMetadata env verb kind key annotations finalizers) (fun _ u => I u) w := by
  cases kind with
  | coherenceJob => exact wp_change (fun _ => hsent _) fun _ _ => h _
  | _ => exact wp_change (fun _ => hsent _) fun _ _ => h _

namespace Tolerates

variable {d : CoherenceResource} (hI : Tolerates op env I P kind) (hkind : kind = .coherence ∨ kind = .coherenceJob)

include hI

/-- Annotations are written with the finalizers of the version. -/
theorem keeps_updateAnnotations {annotations : Labels} (hd : d.kind = kind) (hP : P d) :
    Keeps I (updateAnnotations env d annotations) := by
  subst hd
  intro u hu
  exact wp_writeMetadata (fun c => hI.sent u c hu) fun c => hI.annotate _ d annotations (hI.sent u c hu) hP

include hkind

/-- The latest version is read, and something is done with it. -/
theorem keeps_getLatest_bind {α : Type} {f : CoherenceResource → Op α} (hd : d.kind = kind)
    (hf : ∀ latest u, latest.kind = kind → P latest → I u → u.resource kind latest.key = some latest → I (exec (f latest) u).2) :
    Keeps I (getLatest env d >>= f) := by
  subst hd
  intro w hw
  have hlatest : Wp (getLatest env d) (Wp.Ends (fun latest u => I u ∧ latest.kind = d.kind ∧ P latest ∧
      u.resource d.kind latest.key = some latest) I) w := by
    refine Wp.bind_ends (wp_getResource (hI.sent w) hw) ?_ fun _ _ hu => hu
    rintro _ u ⟨hu, hcoherence, hjob, rfl⟩
    cases hr : w.resource d.kind d.key with
    | none => exact hu
    | some latest =>
      obtain ⟨hk, hkey⟩ := World.kind_of_resource hkind hr
      have hsame : u.resource d.kind latest.key = some latest := by
        simp only [World.resource, hcoherence, hjob, hkey]
        exact hr
      exact ⟨hu, hk, hI.latest u latest hu hsame, hsame⟩
  have hbind : Wp (getLatest env d >>= f) (fun _ u => I u) w := by
    refine Wp.bind_ends hlatest ?_ fun _ _ hu => hu
    rintro latest u ⟨hu, hk, hP, hr⟩
    exact hf latest u hk hP hu hr
  exact hbind

theorem keeps_recordIssue {notes : List (String × String)} {delay : ℕ} (hd : d.kind = kind) :
    Keeps I (recordIssue env d notes delay) :=
  hI.keeps_getLatest_bind hkind hd fun _ u hk hP hu _ =>
    Keeps.bind (hI.keeps_updateAnnotations hk hP) (fun _ => Keeps.pure _) u hu

theorem keeps_recoverFrom {e : GoError} {latest : CoherenceResource} {annotations : Labels} (hd : d.kind = kind)
    (hk : latest.kind = kind) (hP : P latest) : Keeps I (recoverFrom op env e d latest annotations) := by
  refine Keeps.ite (fun _ => ?_) fun _ => ?_
  · refine hI.keeps_getLatest_bind hkind hd fun l u hk hP hu _ => Keeps.ite (fun _ => ?_) (fun _ => Keeps.pure _) u hu
    exact Keeps.bind (hI.keeps_updateAnnotations hk hP) fun _ => Keeps.pure _
  refine Keeps.ite (fun _ => hI.keeps_recordIssue hkind hd) fun _ => ?_
  refine Keeps.ite (fun _ => hI.keeps_recordIssue hkind hd) fun _ => ?_
  refine Keeps.ite (fun _ => hI.keeps_recordIssue hkind hd) fun _ => ?_
  refine Keeps.ite (fun _ => hI.keeps_recordIssue hkind hd) fun _ => ?_
  refine Keeps.bind ?_ fun _ => Keeps.pure _
  exact Keeps.bind (hI.keeps_updateAnnotations hk hP).attempt fun _ => Keeps.pure _

/-- **Handling an error** keeps what its notes keep. -/
theorem keeps_handleErrAndRequeue {e : GoError} {deployment : Deployment}
    (hd : ∀ d, deployment.deref = .ok d → d.kind = kind) : Keeps I (handleErrAndRequeue op env e deployment) := by
  refine Keeps.bind_of (Keeps.outcome _) (Returns.outcome fun _ => id) fun d hderef => ?_
  have hd := hd d hderef
  refine Keeps.bind (Keeps.bind ?_ fun _ => Keeps.pure _) fun _ => ?_
  · refine (hI.keeps_getLatest_bind hkind hd fun _ u hk hP hu _ => ?_).attempt
    exact hI.keeps_updateAnnotations hk hP u hu
  refine Keeps.bind (Keeps.bind ?_ fun _ => Keeps.pure _) fun _ => ?_
  · refine (hI.keeps_getLatest_bind hkind hd fun latest u hk _ hu hr => ?_).attempt
    subst hk
    exact wp_writeStatus (fun c => hI.sent u c hu) fun c => hI.condition _ latest _ (categorizeError e).type_condition (hI.sent u c hu) hr
  cases categorizeError e with
  | recoverable =>
    refine hI.keeps_getLatest_bind hkind hd fun latest u hk hP hu _ => Keeps.ite (fun _ => Keeps.pure _) (fun _ => ?_) u hu
    exact Keeps.bind (hI.keeps_updateAnnotations hk hP) fun _ => hI.keeps_recoverFrom hkind hd hk hP
  | _ => exact Keeps.pure _

/-- A condition that is set keeps it, too. -/
theorem keeps_updateStatusCondition {key : NamespacedName} {condition : Condition} (hready : condition.type ≠ .ready) :
    Keeps I (updateStatusCondition op env kind key condition) := by
  intro w hw
  have hbind : Wp (updateStatusCondition op env kind key condition) (fun _ u => I u) w := by
    refine Wp.bind_ends (Wp.mapError_ends (wp_getResource (hI.sent w) hw)) ?_ fun _ _ hu => hu
    rintro _ u ⟨hu, hcoherence, hjob, rfl⟩
    cases hr : w.resource kind key with
    | none => exact hu
    | some d =>
      obtain ⟨rfl, rfl⟩ := World.kind_of_resource hkind hr
      have hsame : ∀ c, (u.sent c).resource d.kind d.key = some d := by
        intro c
        simp only [World.resource, World.coherence_sent, World.coherenceJob_sent, hcoherence, hjob]
        exact hr
      have hstatus : Wp (patchStatus env d (CoherenceResourceStatus.setCondition op env.now d condition).1)
          (fun _ v => I v) u := by
        unfold patchStatus
        split
        · exact hu
        · exact wp_writeStatus (fun c => hI.sent u c hu) fun c => hI.condition _ d condition hready (hI.sent u c hu) (hsame c)
      have hrest : Wp (if d.metadata.deletionTimestamp.isSome then (return () : Op Unit) else
          if (CoherenceResourceStatus.setCondition op env.now d condition).2 then
            Op.wrapError "updating Coherence resource status" (patchStatus env d
              (CoherenceResourceStatus.setCondition op env.now d condition).1)
          else return ()) (fun _ v => I v) u := by
        split
        · exact hu
        · split
          · exact Wp.mapError hstatus
          · exact hu
      exact hrest
  exact hbind

end Tolerates

/-- Whatever the resource is that an error is about. -/
theorem keeps_handleErrAndRequeue_of {Q : CoherenceResource → Prop} {e : GoError} {deployment : Deployment}
    (hI : Tolerates op env I P .coherence) (hJ : Tolerates op env I Q .coherenceJob) : Keeps I (handleErrAndRequeue op env e deployment) := by
  cases deployment with
  | nil =>
    refine hI.keeps_handleErrAndRequeue (.inl rfl) ?_
    rintro _ ⟨⟩
  | coherence c =>
    refine hI.keeps_handleErrAndRequeue (.inl rfl) ?_
    cases c <;> rintro _ ⟨⟩
    rfl
  | coherenceJob c =>
    refine hJ.keeps_handleErrAndRequeue (.inr rfl) ?_
    cases c <;> rintro _ ⟨⟩
    rfl

end CoherenceOperator
