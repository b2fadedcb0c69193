import CoherenceOperator.Footprint.Errors

/-!
# The tracking of errors

What the handler of errors does before it looks at the category: it counts the error in the annotations of the latest version
of the resource, and sets a condition of its status. Neither panics, and where the requests go through the count is the next one
(`wp_updateErrorTracking`), which the condition leaves alone (`wp_updateErrorStatus`).
-/

namespace CoherenceOperator

open Effect Prog

/-- The text of the error count of a resource. -/
def CoherenceResource.countText (d : CoherenceResource) : Option String := d.metadata.annotations.lookup AnnotationErrorCount

/-- The text of the error count of a resource in the cluster is `t`, if the resource is there. -/
def World.HasCount (w : World) (kind : ResourceType) (key : NamespacedName) (t : Option String) : Prop :=
  ∀ d, w.resource kind key = some d → d.countText = t

section

variable {op : Operator} {env : Env} {kind : ResourceType} {key : NamespacedName} {w : World} {d latest : CoherenceResource}
  {t : Option String}

/-- A pointer leads to a resource of one of the two kinds. -/
theorem Deployment.kind_of_resource {deployment : Deployment} (h : deployment.resource = some d) :
    d.kind = .coherence ∨ d.kind = .coherenceJob := by
  cases deployment with
  | nil => cases h
  | coherence c =>
    obtain ⟨c, -, rfl⟩ := Option.map_eq_some_iff.1 h
    exact .inl rfl
  | coherenceJob c =>
    obtain ⟨c, -, rfl⟩ := Option.map_eq_some_iff.1 h
    exact .inr rfl

@[simp] theorem World.resource_sent (w : World) (c : ApiCall) : (w.sent c).resource kind key = w.resource kind key := by
  cases kind <;> rfl

/-! ### Reading -/

/-- In a reliable environment a resource is read as it is. -/
theorem exec_getResource (henv : env.Reliable) : ∃ c, exec (getResource env kind key) w = (.ok (w.resource kind key), w.sent c) := by
  cases kind with
  | coherenceJob =>
    refine ⟨⟨.get, .coherenceJob, key⟩, ?_⟩
    rw [getResource, exec_bind, getCoherenceJob, exec_read, World.answer_eq_ok _ _ henv]
    rfl
  | _ =>
    refine ⟨⟨.get, .coherence, key⟩, ?_⟩
    rw [getResource, exec_bind, getCoherence, exec_read, World.answer_eq_ok _ _ henv]
    · rfl
    · rintro ⟨⟩

/-- In a reliable environment the latest version is read. -/
theorem exec_getLatest (henv : env.Reliable) (h : w.resource d.kind d.key = some latest) :
    ∃ c, exec (getLatest env d) w = (.ok latest, w.sent c) := by
  obtain ⟨c, hc⟩ := @exec_getResource _ d.kind d.key w henv
  refine ⟨c, ?_⟩
  rw [getLatest, exec_bind_ok hc, h]
  rfl

/-! ### Writing -/

theorem calm_getLatest : Calm (getLatest env d) := by
  refine Calm.bind calm_getResource fun latest => ?_
  cases latest with
  | none =>
    rintro w e ⟨⟩
    rfl
  | some latest => exact Calm.pure _

theorem calm_writeMetadata {verb : Verb} {annotations : Labels} {finalizers : List String} :
    Calm (writeMetadata env verb kind key annotations finalizers) := by
  cases kind with
  | coherenceJob => exact Calm.change
  | _ => exact Calm.change

theorem calm_writeStatus {verb : Verb} {status : CoherenceResourceStatus} : Calm (writeStatus env verb kind key status) := by
  cases kind with
  | coherenceJob => exact Calm.change
  | _ => exact Calm.change

theorem calm_updateErrorTracking {msg : String} : Calm (updateErrorTracking env d msg) :=
  Calm.bind calm_getLatest fun _ => calm_writeMetadata

theorem calm_updateErrorStatus {category : ErrorCategory} : Calm (updateErrorStatus op env d category) :=
  Calm.bind calm_getLatest fun _ => calm_writeStatus

/-- Metadata that is written is there, unless that was all that the resource waited for. -/
theorem World.annotations_of_metadata (hkind : kind = .coherence ∨ kind = .coherenceJob) {annotations : Labels}
    {finalizers : List String} (h : (Acts.act (Act.metadata kind key annotations finalizers) w).resource kind key = some d) :
    d.metadata.annotations = annotations := by
  obtain rfl | rfl := hkind
  · simp only [Act.metadata, Acts.act, Act.effect, World.resource, World.modifyCoherence] at h
    split at h
    · simp at h
    · rw [Table.get_modify_self] at h
      obtain ⟨c, hc, rfl⟩ := Option.map_eq_some_iff.1 h
      obtain ⟨c, -, rfl⟩ := Option.map_eq_some_iff.1 hc
      rfl
  · simp only [Act.metadata, Acts.act, Act.effect, World.resource, World.modifyCoherenceJob] at h
    split at h
    · simp at h
    · rw [Table.get_modify_self] at h
      obtain ⟨c, hc, rfl⟩ := Option.map_eq_some_iff.1 h
      obtain ⟨c, -, rfl⟩ := Option.map_eq_some_iff.1 hc
      rfl

/-- A status that is written leaves the metadata alone. -/
theorem World.hasCount_status (hkind : kind = .coherence ∨ kind = .coherenceJob) {status : CoherenceResourceStatus}
    (h : w.HasCount kind key t) : (Acts.act (Act.status kind key status) w).HasCount kind key t := by
  intro d hd
  obtain rfl | rfl := hkind
  · obtain ⟨c, hc, rfl⟩ := Option.map_eq_some_iff.1 hd
    simp only [Act.status, Acts.act, Act.effect, World.modifyCoherence, Table.get_modify_self] at hc
    obtain ⟨c, hget, rfl⟩ := Option.map_eq_some_iff.1 hc
    exact h c.toResource (congrArg (Option.map Coherence.toResource) hget)
  · obtain ⟨c, hc, rfl⟩ := Option.map_eq_some_iff.1 hd
    simp only [Act.status, Acts.act, Act.effect, World.modifyCoherenceJob, Table.get_modify_self] at hc
    obtain ⟨c, hget, rfl⟩ := Option.map_eq_some_iff.1 hc
    exact h c.toResource (congrArg (Option.map CoherenceJob.toResource) hget)

/-- In a reliable environment the metadata of a resource that is there is written. -/
theorem wp_writeMetadata_of_reliable (hkind : kind = .coherence ∨ kind = .coherenceJob) (henv : env.Reliable) {verb : Verb}
    {annotations : Labels} {finalizers : List String} (h : w.resource kind key = some latest) {Q : World → Prop}
    (hQ : ∀ c, Q (Acts.act (Act.metadata kind key annotations finalizers) (w.sent c))) :
    Wp (writeMetadata env verb kind key annotations finalizers) (fun _ u => Q u) w := by
  have hfault : ∀ c, ¬∃ n f, env.faults n c = some f := by
    rintro c ⟨n, f, hf⟩
    rw [henv] at hf
    cases hf
  obtain rfl | rfl := hkind
  · refine wp_change_iff (fun e he => ?_) fun _ _ => hQ _
    obtain he | he := he
    · exact absurd he (hfault _)
    · rw [World.coherence_sent] at he
      rw [World.resource, he] at h
      · cases h
      · rintro ⟨⟩
  · refine wp_change_iff (fun e he => ?_) fun _ _ => hQ _
    obtain he | he := he
    · exact absurd he (hfault _)
    · rw [World.coherenceJob_sent] at he
      rw [World.resource, he] at h
      cases h

/-! ### Tracking -/

/-- **The count** that is written is the next one. -/
theorem wp_updateErrorTracking (hkind : kind = .coherence ∨ kind = .coherenceJob) (henv : env.Reliable) (hd : d.kind = kind)
    (hkey : d.key = key) (h : w.resource kind key = some latest) {msg : String} :
    Wp (updateErrorTracking env d msg)
      (fun _ u => u.HasCount kind key (some (toString (nextCount (errorCount latest.metadata.annotations))))) w := by
  subst hd hkey
  obtain ⟨hk, hkey⟩ := World.kind_of_resource hkind h
  obtain ⟨c, hc⟩ := exec_getLatest henv h
  refine Wp.bind_ok hc ?_
  have hcount : errorCount (latest.metadata.annotations.set "coherence.oracle.com/last-error" msg) =
      errorCount latest.metadata.annotations := by
    rw [errorCount, errorCount, Labels.lookup_set, if_neg (by decide)]
  rw [updateAnnotations, hk, hkey, hcount]
  refine @wp_writeMetadata_of_reliable _ _ _ _ latest hkind henv _ _ _ ?_ _ fun _ d hd => ?_
  · rw [World.resource_sent]
    exact h
  · rw [CoherenceResource.countText, World.annotations_of_metadata hkind hd, Labels.lookup_set, if_pos rfl]

/-- **The condition** leaves the count alone. -/
theorem wp_updateErrorStatus (hkind : kind = .coherence ∨ kind = .coherenceJob) (hd : d.kind = kind) (hkey : d.key = key)
    (henv : env.Reliable) (h : w.HasCount kind key t) {category : ErrorCategory} :
    Wp (updateErrorStatus op env d category) (fun _ u => u.HasCount kind key t) w := by
  subst hd hkey
  cases hr : w.resource d.kind d.key with
  | none =>
    obtain ⟨c, hc⟩ := @exec_getResource _ d.kind d.key w henv
    have hlatest : exec (getLatest env d) w = (.error (.notFound ⟨.get, d.kind, d.key⟩), w.sent c) := by
      rw [getLatest, exec_bind_ok hc, hr]
      rfl
    rw [Wp, updateErrorStatus, exec_bind_error hlatest]
    intro d' hd'
    rw [World.resource_sent] at hd'
    exact h d' hd'
  | some latest =>
    obtain ⟨hk, hkey⟩ := World.kind_of_resource hkind hr
    obtain ⟨c, hc⟩ := exec_getLatest henv hr
    have hsent : ∀ c', ((w.sent c).sent c').HasCount d.kind d.key t := by
      intro c' d' hd'
      rw [World.resource_sent, World.resource_sent] at hd'
      exact h d' hd'
    refine Wp.bind_ok hc ?_
    rw [hk, hkey]
    exact wp_writeStatus hsent fun c' => World.hasCount_status hkind (hsent c')

/-! ### A transient error -/

/-- **A transient error** ends in a delay, and leaves the next count. -/
theorem exec_handleErrAndRequeue_of_transient (op : Operator) (hkind : kind = .coherence ∨ kind = .coherenceJob) (henv : env.Reliable)
    {e : GoError} (he : categorizeError e = .transient) {deployment : Deployment} (hdeployment : deployment.resource = some d)
    (hd : d.kind = kind) (hkey : d.key = key) (h : w.resource kind key = some latest) :
    (exec (handleErrAndRequeue op env e deployment) w).1 = .ok (handleTransientError d) ∧
      (exec (handleErrAndRequeue op env e deployment) w).2.HasCount kind key
        (some (toString (nextCount (errorCount latest.metadata.annotations)))) := by
  have hderef : exec (Prog.outcome deployment.deref : Op CoherenceResource) w = (.ok d, w) := by
    rw [exec_outcome, Deployment.deref, hdeployment]
  have hrun : exec (handleErrAndRequeue op env e deployment) w = (.ok (handleTransientError d),
      (exec (updateErrorStatus op env d .transient) (exec (updateErrorTracking env d e.text) w).2).2) := by
    rw [handleErrAndRequeue, exec_bind_ok hderef, exec_bind_ok (calm_updateErrorTracking.exec_ignoreError w),
      exec_bind_ok (calm_updateErrorStatus.exec_ignoreError _), he]
    rfl
  rw [hrun]
  refine ⟨rfl, ?_⟩
  exact wp_updateErrorStatus hkind hd hkey henv (wp_updateErrorTracking hkind henv hd hkey h)

end

end CoherenceOperator
