import CoherenceOperator.Controllers.Coherence
import CoherenceOperator.Footprint.Notes

/-!
# Adding the finalizer

`EnsureFinalizerApplied` computes the strategic diff of two lists of finalizers, which names only what is added, and
sends it under the type of the patcher. Sent as a strategic merge patch it keeps the finalizers of others.
The controller sends it as a merge patch, which puts the list of the patch in place of the live
one: the finalizers of others are gone, unless there were none.
-/

namespace CoherenceOperator

open Effect Prog FinalizerManager

variable {env : Env} {type : PatchType} {c : Coherence} {w : World} {b : Bool}

/-- The finalizers of the live resource are those of `c` and the operator's. -/
def FinalizerAdded (c : Coherence) (w : World) : Prop :=
  ∃ live, w.coherence.get c.key = some live ∧
    ∀ f, f ∈ live.metadata.finalizers ↔ f ∈ c.metadata.finalizers ∨ f = CoherenceFinalizer

/-- The live resource after its finalizers were patched, unless nothing is left of them. -/
theorem get_of_sendFinalizers {patch : List String} {u : World} (hc : w.coherence.get c.key = some c)
    (hl : type.applyList c.metadata.finalizers patch ≠ [])
    (h : exec (sendFinalizers env type c.key patch) w = (.ok (), u)) :
    u.coherence.get c.key =
      some (c.withMetadata c.metadata.annotations (type.applyList c.metadata.finalizers patch)) := by
  simp only [sendFinalizers, exec_bind, exec_request, exec_get] at h
  cases ha : w.answer ⟨.patch, .coherence, c.key⟩ env with
  | error e => simp [ha] at h
  | ok _ =>
    have hgone : isGone c.metadata (type.applyList c.metadata.finalizers patch) = false := by
      simp [isGone, hl]
    simp only [ha, World.coherence_sent, hc, exec_perform, Prod.mk.injEq, true_and] at h
    subst h
    simp [Acts.act, Act.effect, hc, hgone, World.modifyCoherence]

/-- The live resource after the finalizer was applied to a resource without it. -/
theorem get_of_ensureFinalizerApplied (hc : w.coherence.get c.key = some c)
    (hf : CoherenceFinalizer ∉ c.metadata.finalizers)
    (h : (exec (ensureFinalizerApplied env type c) w).1 = .ok b) :
    (exec (ensureFinalizerApplied env type c) w).2.coherence.get c.key =
      some (c.withMetadata c.metadata.annotations
        (type.applyList c.metadata.finalizers [CoherenceFinalizer])) := by
  have hl : type.applyList c.metadata.finalizers [CoherenceFinalizer] ≠ [] := by
    cases type <;> simp [PatchType.applyList, hf]
  simp only [ensureFinalizerApplied, patchFinalizers, hf, if_false, strategicListDiff_append hf, Op.wrapError,
    Op.patching, exec_mapError, exec_bind] at h ⊢
  rcases hx : exec (sendFinalizers env type c.key [CoherenceFinalizer]) w with ⟨_ | a, u⟩
  · simp [hx, wrapped] at h
  · exact get_of_sendFinalizers hc hl hx

/-- Nothing happens to a resource that has the finalizer. -/
theorem ensureFinalizerApplied_of_mem (hf : CoherenceFinalizer ∈ c.metadata.finalizers) :
    exec (ensureFinalizerApplied env type c) w = (.ok false, w) := by
  simp [ensureFinalizerApplied, hf]

/-- A resource that has the finalizer is left as it is. -/
theorem finalizerAdded_of_mem (hc : w.coherence.get c.key = some c)
    (hf : CoherenceFinalizer ∈ c.metadata.finalizers) : FinalizerAdded c w :=
  ⟨c, hc, fun _ => ⟨.inl, fun h => h.elim id fun h => h ▸ hf⟩⟩

/-- **Under its own type** the patch adds the finalizer to those that are there. -/
theorem finalizerAdded_of_strategicMerge (hc : w.coherence.get c.key = some c)
    (h : (exec (ensureFinalizerApplied env .strategicMerge c) w).1 = .ok b) :
    FinalizerAdded c (exec (ensureFinalizerApplied env .strategicMerge c) w).2 := by
  by_cases hf : CoherenceFinalizer ∈ c.metadata.finalizers
  · rw [ensureFinalizerApplied_of_mem hf]
    exact finalizerAdded_of_mem hc hf
  · refine ⟨_, get_of_ensureFinalizerApplied hc hf h, fun f => ?_⟩
    simp [Coherence.withMetadata, ObjectMeta.withFinalizers, PatchType.applyList, hf]

/-- **Under the type of the controller** it does so if and only if there is nothing to lose: the resource has no
finalizers, or has this one. -/
theorem finalizerAdded_iff (hc : w.coherence.get c.key = some c)
    (h : (exec (ensureFinalizerApplied env CoherenceReconciler.patchType c) w).1 = .ok b) :
    FinalizerAdded c (exec (ensureFinalizerApplied env CoherenceReconciler.patchType c) w).2 ↔
      c.metadata.finalizers = [] ∨ CoherenceFinalizer ∈ c.metadata.finalizers := by
  by_cases hf : CoherenceFinalizer ∈ c.metadata.finalizers
  · rw [ensureFinalizerApplied_of_mem hf]
    exact iff_of_true (finalizerAdded_of_mem hc hf) (.inr hf)
  · have hlive := get_of_ensureFinalizerApplied hc hf h
    constructor
    · rintro ⟨live, hl, hmem⟩
      rw [hlive, Option.some.injEq] at hl
      subst hl
      refine .inl (List.eq_nil_iff_forall_not_mem.2 fun f hfc => hf ?_)
      have hfl := (hmem f).2 (.inl hfc)
      rw [List.mem_singleton.1 hfl] at hfc
      exact hfc
    · rintro (hnil | hmem)
      · refine ⟨_, hlive, fun f => ?_⟩
        simp [Coherence.withMetadata, ObjectMeta.withFinalizers, PatchType.applyList,
          CoherenceReconciler.patchType, hnil]
      · exact absurd hmem hf

/-- A resource that another controller has put its finalizer on. -/
def guarded : Coherence := { metadata := { ns := "default", name := "storage", finalizers := ["example.com/guard"] } }

/-- A cluster with this resource. -/
def guardedCluster : World := { (default : World) with coherence := Table.empty.put guarded }

/-- The finalizer of the other controller is lost. -/
theorem exists_not_finalizerAdded :
    ¬ ∀ (env : Env) (c : Coherence) (w : World) (b : Bool), w.coherence.get c.key = some c →
      (exec (ensureFinalizerApplied env CoherenceReconciler.patchType c) w).1 = .ok b →
        FinalizerAdded c (exec (ensureFinalizerApplied env CoherenceReconciler.patchType c) w).2 := by
  intro h
  obtain ⟨live, hl, hmem⟩ := h {} guarded guardedCluster true rfl rfl
  have hlive : some live = some (guarded.withMetadata ∅ [CoherenceFinalizer]) := hl.symm.trans (by rfl)
  cases hlive
  have := (hmem "example.com/guard").2 (.inl (by decide))
  revert this
  decide

/-- The condition at work, on a resource with a finalizer of another controller. -/
theorem finalizerAdded_iff_guarded :
    FinalizerAdded guarded
        (exec (ensureFinalizerApplied {} CoherenceReconciler.patchType guarded) guardedCluster).2 ↔
      guarded.metadata.finalizers = [] ∨ CoherenceFinalizer ∈ guarded.metadata.finalizers :=
  finalizerAdded_iff (b := true) rfl rfl

end CoherenceOperator
