import CoherenceOperator.Api.Kubernetes

/-!
# Updates that are not allowed

Which changes of a `StatefulSet` or a `Job` the operator refuses before it makes a patch: the fields that
may change are taken over from the old object, and what is left has to be equal.
-/

namespace CoherenceOperator

/-- `newStatefulSetClone.Spec`: the new spec with the fields that may change as they were. -/
def StatefulSetSpec.withMutableOf (new old : StatefulSetSpec) : StatefulSetSpec :=
  { new with
    replicas := old.replicas
    template := old.template
    updateStrategy := old.updateStrategy
    minReadySeconds := old.minReadySeconds
    persistentVolumeClaimRetentionPolicy := old.persistentVolumeClaimRetentionPolicy }

/-- `ValidateStatefulSetUpdate`: the texts of its errors. -/
def validateStatefulSetUpdate (statefulSet oldStatefulSet : StatefulSet) : List String :=
  if statefulSet.spec.withMutableOf oldStatefulSet.spec ≠ oldStatefulSet.spec then
    ["spec: Forbidden: updates to StatefulSet spec for fields other than 'replicas', 'template', " ++
      "'updateStrategy', 'persistentVolumeClaimRetentionPolicy' and 'minReadySeconds' are forbidden"]
  else []

/-- `newJobClone.Spec`. -/
def JobSpec.withMutableOf (new old : JobSpec) : JobSpec :=
  { new with
    activeDeadlineSeconds := old.activeDeadlineSeconds
    backoffLimit := old.backoffLimit
    completionMode := old.completionMode
    parallelism := old.parallelism
    suspend := old.suspend
    template := old.template
    ttlSecondsAfterFinished := old.ttlSecondsAfterFinished
    podFailurePolicy := old.podFailurePolicy
    completions := old.completions }

/-- `ValidateJobUpdate`: the texts of its errors. -/
def validateJobUpdate (job oldJob : Job) : List String :=
  if job.spec.withMutableOf oldJob.spec ≠ oldJob.spec then
    ["spec: Forbidden: updates to Job spec for fields 'selector', 'manualSelector', are forbidden"]
  else []

/-- The fields of a `StatefulSet` spec that may not change. -/
structure StatefulSetSpec.Fixed where
  podManagementPolicy : String
  revisionHistoryLimit : Option ℤ
  serviceName : String
  selector : Labels
  volumeClaimTemplates : List PersistentVolumeClaim
  deriving DecidableEq

/-- What may not change of a spec. -/
def StatefulSetSpec.fixed (s : StatefulSetSpec) : StatefulSetSpec.Fixed :=
  ⟨s.podManagementPolicy, s.revisionHistoryLimit, s.serviceName, s.selector, s.volumeClaimTemplates⟩

/-- An update is refused when a field that may not change differs. -/
theorem validateStatefulSetUpdate_eq_nil {new old : StatefulSet} :
    validateStatefulSetUpdate new old = [] ↔ new.spec.fixed = old.spec.fixed := by
  unfold validateStatefulSetUpdate
  rw [ite_eq_right_iff]
  obtain ⟨_, ⟨_, _, _, _, _, _, _, _, _, _⟩, _⟩ := new
  obtain ⟨_, ⟨_, _, _, _, _, _, _, _, _, _⟩, _⟩ := old
  simp [StatefulSetSpec.withMutableOf, StatefulSetSpec.fixed]

/-- A `StatefulSet` is a valid update of itself. -/
theorem validateStatefulSetUpdate_self (s : StatefulSet) : validateStatefulSetUpdate s s = [] :=
  validateStatefulSetUpdate_eq_nil.2 rfl

end CoherenceOperator
