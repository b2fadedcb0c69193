import CoherenceOperator.Footprint.Removing

/-!
# The secondary reconcilers do not panic

A resource without a spec makes the reconcilers of its kind panic, and with a nil owner they panic, too. Neither is the case where
the versions are generated and the resource is passed in: the first reconcilers go through then, or fail with an error that
does not keep the others from being run (`calm_firstReconcilers`).
-/

namespace CoherenceOperator

open Effect Prog

variable {op : Operator} {env : Env} {α β : Type}

namespace Calm

theorem throw {e : GoError} (he : e.isPanic = false) : Calm (MonadExcept.throw e : Op α) := by
  intro w e' h
  cases h
  exact he

theorem outcome {r : Except GoError α} (hr : ∀ e, r = .error e → e.isPanic = false) : Calm (Prog.outcome r : Op α) :=
  fun _ e h => hr e h

/-- Sequencing, with what is known of the value that is handed over. -/
theorem bind_of {x : Op α} {f : α → Op β} {P : α → Prop} (hx : Calm x) (hP : Returns x P) (hf : ∀ a, P a → Calm (f a)) :
    Calm (x >>= f) := by
  intro w e h
  rcases hr : exec x w with ⟨e' | a, u⟩
  · rw [exec_bind_error hr] at h
    cases h
    exact hx w _ (by rw [hr])
  · rw [exec_bind_ok hr] at h
    exact hf a (hP w a (by rw [hr])) u e h

theorem attempt {x : Op α} (hx : Calm x) : Calm (Op.attempt x) := by
  intro w e h
  rw [Op.attempt, exec_attempt] at h
  cases hr : (exec x w).1 with
  | ok a =>
    rw [hr] at h
    cases h
  | error e' =>
    rw [hr, caught_error (hx w e' hr)] at h
    cases h

theorem forM {γ : Type} {f : γ → Op PUnit} {cs : List γ} (hf : ∀ c ∈ cs, Calm (f c)) : Calm (ForM.forM cs f) := by
  induction cs with
  | nil => exact pure _
  | cons c cs ih =>
    rw [List.forM_cons]
    exact (hf c List.mem_cons_self).bind fun _ => ih fun c' hc' => hf c' (List.mem_cons_of_mem _ hc')

theorem patchObject {kind : ResourceType} {key : NamespacedName} {patch : Object → Object} :
    Calm (CoherenceOperator.patchObject env kind key patch) := by
  intro w e h
  simp only [CoherenceOperator.patchObject, exec_bind, exec_request, exec_get] at h
  cases ha : w.answer ⟨.patch, kind, key⟩ env with
  | error e' =>
    rw [ha] at h
    cases h
    exact w.isPanic_of_answer _ ha
  | ok _ =>
    rw [ha] at h
    cases hf : (w.sent ⟨.patch, kind, key⟩).find kind key with
    | none =>
      simp only [hf, exec_throw] at h
      cases h
      rfl
    | some x =>
      simp only [hf, exec_perform] at h
      cases h

end Calm

variable {request key : NamespacedName} {c : Coherence} {st : Storage} {kind : ResourceType} {name : String}

/-- The owner that is passed in. -/
theorem calm_ownerOf {resource : Option Object} : Calm (Secondary.ownerOf env (.coherence (some c)) resource) := Calm.pure _

namespace Secondary

theorem calm_create (hst : ∀ r ∈ st.latest.items, r.spec.isSome) : Calm (create env kind name st) := by
  unfold create
  split
  · exact Calm.pure _
  · rename_i r hr
    split
    · rename_i hnone
      have hsome := hst r (Resources.getResource_eq_some hr).1
      rw [hnone] at hsome
      cases hsome
    · exact Calm.createObject.wrapError

theorem calm_update {current : Object} (hst : ∀ r ∈ st.latest.items, r.spec.isSome) :
    Calm (update op env kind name current st) := by
  refine Calm.ite (Calm.pure _) ?_
  split
  · exact Calm.pure _
  · rename_i r hr
    split
    · rename_i hnone
      have hsome := hst r (Resources.getResource_eq_some hr).1
      rw [hnone] at hsome
      cases hsome
    · unfold threeWayPatch
      dsimp only
      split
      · exact Calm.pure _
      · exact Calm.patchObject.wrapError

theorem calm_reconcileSingleResource (hst : ∀ r ∈ st.latest.items, r.spec.isSome) :
    Calm (reconcileSingleResource op env kind key (.coherence (some c)) (some st)) := by
  refine Calm.bind Calm.read.wrapError fun resource => Calm.bind_of calm_ownerOf (returns_ownerOf rfl) fun d hd => ?_
  subst hd
  have hstore : Calm (isStoreOf kind key.name (.coherence (some c))) := by
    refine Calm.ite (Calm.bind (Calm.outcome ?_) fun _ => Calm.pure _) (Calm.pure _)
    rintro _ ⟨⟩
  refine Calm.bind hstore fun b => Calm.ite (Calm.pure _) ?_
  refine Calm.bind_of (Calm.pure _) (P := fun storage => storage = some st) (Returns.pure rfl) fun storage hstorage => ?_
  subst hstorage
  unfold settle
  dsimp only [Deployment.isNil]
  split
  · exact calm_create hst
  · exact calm_update hst

theorem calm_delete : Calm (delete env kind key) := (Calm.attempt Calm.change).bind fun _ => Calm.pure _

theorem calm_reconcileAllResourceOfKind (hst : ∀ r ∈ st.latest.items, r.spec.isSome) :
    Calm (reconcileAllResourceOfKind op env kind request (.coherence (some c)) st) := by
  refine Calm.bind (Calm.forM fun del _ => ?_) fun _ => Calm.bind (Calm.forM fun r _ => ?_) fun _ => Calm.pure _
  · refine Calm.bind (Calm.attempt Calm.read) fun resource => ?_
    split
    · exact calm_delete
    · exact Calm.pure _
  · exact Calm.ite calm_delete (calm_reconcileSingleResource hst)

end Secondary

namespace ServiceMonitor

theorem calm_createServiceMonitor (hst : ∀ r ∈ st.latest.items, r.spec.isSome) :
    Calm (createServiceMonitor env name st) := by
  unfold createServiceMonitor
  split
  · exact Calm.throw rfl
  · rename_i r hr
    split
    · rename_i hnone
      have hsome := hst r (Resources.getResource_eq_some hr).1
      rw [hnone] at hsome
      cases hsome
    · exact Calm.createObject.wrapError

theorem calm_retryUpdate {desired : Object} {n : ℕ} {at' : Option NamespacedName} :
    Calm (retryUpdate env desired n at') := by
  induction n generalizing at' with
  | zero => exact Calm.pure _
  | succ n ih =>
    have hget : Calm (getByName env at') := by
      cases at' with
      | none => exact Calm.throw rfl
      | some k => exact Calm.read
    refine Calm.bind hget.attempt fun r => ?_
    split
    · exact ih
    · refine Calm.bind Calm.createObject.attempt fun r => ?_
      split
      · exact Calm.pure _
      · exact ih
    · refine Calm.bind (Calm.attempt Calm.change) fun r => ?_
      split
      · exact Calm.pure _
      · exact ih

theorem calm_updateServiceMonitor {current : Object} (hst : ∀ r ∈ st.latest.items, r.spec.isSome) :
    Calm (updateServiceMonitor op env name current st) := by
  refine Calm.ite (Calm.pure _) ?_
  split
  · exact Calm.throw rfl
  · rename_i r hr
    split
    · rename_i hnone
      have hsome := hst r (Resources.getResource_eq_some hr).1
      rw [hnone] at hsome
      cases hsome
    · unfold patchOrUpdate
      dsimp only
      split
      · exact Calm.pure _
      · refine Calm.bind (Calm.attempt Calm.patchObject.wrapError) fun r => ?_
        split
        · exact Calm.pure _
        · exact calm_retryUpdate

theorem calm_reconcileAllResourceOfKind (hst : ∀ r ∈ st.latest.items, r.spec.isSome) :
    Calm (reconcileAllResourceOfKind op env request (.coherence (some c)) st) := by
  refine Calm.bind (Calm.forM fun r _ => Calm.ite Calm.change ?_) fun _ => Calm.pure _
  refine Calm.ite (Calm.pure _) ?_
  refine Calm.bind Calm.read.wrapError fun sm => Calm.bind_of calm_ownerOf (Secondary.returns_ownerOf rfl) fun d hd => ?_
  subst hd
  refine Calm.bind (Calm.outcome ?_) fun zero => Calm.ite ?_ ?_
  · rintro _ ⟨⟩
  · exact Calm.ite Calm.change (Calm.pure _)
  · split
    · exact (calm_createServiceMonitor hst).wrapError
    · exact calm_updateServiceMonitor hst

end ServiceMonitor

/-- **The first reconcilers** do not panic. -/
theorem CoherenceReconciler.calm_firstReconcilers (hst : ∀ r ∈ st.latest.items, r.spec.isSome) {x : Op Result}
    (hx : x ∈ firstReconcilers op env request (.coherence (some c)) st) : Calm x := by
  simp only [firstReconcilers, List.mem_cons, List.not_mem_nil, or_false] at hx
  rcases hx with rfl | rfl | rfl | rfl
  · exact Secondary.calm_reconcileAllResourceOfKind hst
  · exact Secondary.calm_reconcileAllResourceOfKind hst
  · exact Secondary.calm_reconcileAllResourceOfKind hst
  · exact ServiceMonitor.calm_reconcileAllResourceOfKind hst

end CoherenceOperator
