import CoherenceOperator.Footprint.Scaling
import CoherenceOperator.Lib.Run

/-!
# Safe scaling

Round after round `updateStatefulSet` is run on the live StatefulSet, each time with what the world answers then, and with
whatever number of replicas is stored then. Under a safe policy the StatefulSet gets there one member at
a time, each of them with the consent of the members, and none of those that stay is restarted for it.
-/

namespace CoherenceOperator

open Effect Prog StatefulSetReconciler

/-- A round of `updateStatefulSet`: its environment, the resource, what is stored, and the status that the StatefulSet
has come to by then. -/
structure ScalingRound where
  env : Env
  deployment : Deployment
  st : Storage
  status : StatefulSetStatus

/-- The size of the StatefulSet under the key. -/
def World.size (w : World) (key : NamespacedName) : Option ℤ := (w.statefulSet key).map StatefulSet.getReplicas

namespace ScalingRound

variable (op : Operator) (key : NamespacedName)

/-- The cluster with the status of the round. -/
def observe (r : ScalingRound) (w : World) : World :=
  match w.statefulSet key with
  | some s => { w with objects := w.objects.put { s with status := r.status }.toObject }
  | none => w

/-- The cluster after the round. -/
def step (w : World) (r : ScalingRound) : World :=
  match (r.observe key w).statefulSet key with
  | some current => (exec (updateStatefulSet op r.env r.deployment current r.st) (r.observe key w)).2
  | none => w

/-- The size that is wanted in the round. -/
def desired (r : ScalingRound) : Option ℤ := desiredReplicas r.st key.name

/-- Where the round scales, the StatefulSet is of a version after 3.4.3 and the policy is `Safe`, or `ParallelUpSafeDown` on
the way down. -/
def IsUnderSafePolicy (w : World) (r : ScalingRound) : Prop :=
  ∀ current m, w.statefulSet key = some current → r.desired key = some m → m ≠ current.getReplicas →
    isVersionAnnotationEqualOrBefore op current.metadata "3.4.3" = .ok false ∧
      ∀ spec, r.deployment.getStatefulSetSpec = .ok spec →
        scalingPolicy spec = .safe ∨ scalingPolicy spec = .parallelUpSafeDown ∧ m ≤ current.getReplicas

/-- What a round may do to the StatefulSet. -/
structure ScalesSafely (r : ScalingRound) (current next : StatefulSet) : Prop where
  byOne : next.getReplicas = current.getReplicas ∨ ∃ m, r.desired key = some m ∧
    (current.getReplicas < m ∧ next.getReplicas = current.getReplicas + 1 ∨
      m < current.getReplicas ∧ next.getReplicas = current.getReplicas - 1)
  probed : next.getReplicas ≠ current.getReplicas → current.getReplicas = 1 ∨ r.env.isStatusHA
  partition : next.getReplicas ≠ current.getReplicas → current.spec.updateStrategy.type = .rollingUpdate →
    ∃ p, next.spec.updateStrategy.rollingUpdate = some { partition := some p } ∧
      min current.getReplicas next.getReplicas ≤ p
  template : ∀ m, r.desired key = some m → m ≠ current.getReplicas → next.spec.template = current.spec.template
  progress : ∀ m, r.desired key = some m → m ≠ current.getReplicas → r.env.Reliable →
    (∃ d, r.deployment.deref = .ok d) → current.getReplicas = 1 ∨ r.env.isStatusHA →
      next.getReplicas ≠ current.getReplicas

/-- The round is safe. -/
def IsSafe (w : World) (r : ScalingRound) : Prop :=
  ∀ current, w.statefulSet key = some current →
    ∃ next, (step op key w r).statefulSet key = some next ∧ ScalesSafely key r current next

/-- How many rounds change the size. -/
def moves : World → List ScalingRound → ℕ
  | _, [] => 0
  | w, r :: rs => (if (step op key w r).size key = w.size key then 0 else 1) + moves (step op key w r) rs

variable {op key} {w : World} {r : ScalingRound} {current : StatefulSet}

theorem key_of_statefulSet (h : w.statefulSet key = some current) : current.key = key :=
  (Prod.mk.inj (w.objects.filed _ _ (World.statefulSet_eq_some.1 h))).2

/-- The StatefulSet with its new status. -/
theorem statefulSet_observe (h : w.statefulSet key = some current) :
    (r.observe key w).statefulSet key = some { current with status := r.status } := by
  have hkey := key_of_statefulSet h
  rw [observe, h]
  subst hkey
  exact statefulSet_of_put (w := w) (s := { current with status := r.status }) rfl rfl

/-- **A round is safe** under a safe policy. -/
theorem isSafe_step (hmerge : op.merge.KeepsReplicas) (h : IsUnderSafePolicy op key w r) : IsSafe op key w r := by
  intro current hcurrent
  have hkey := key_of_statefulSet hcurrent
  have hname : current.metadata.name = key.name := by rw [← hkey]; rfl
  have hobserved := statefulSet_observe (r := r) hcurrent
  have hround : Updated r.env r.deployment { current with status := r.status } r.st (step op key w r) := by
    rw [step, hobserved]
    refine wp_updateStatefulSet hmerge ?_ fun m hm hne => ?_
    · rw [← hobserved, ← hkey]
      rfl
    · exact h current m hcurrent (by rw [desired, ← hname]; exact hm) hne
  have hdesired : desiredReplicas r.st current.metadata.name = r.desired key := by rw [desired, hname]
  cases hround with
  | patches hsize hkeeps =>
    obtain ⟨next, hnext, hreplicas⟩ := hkeeps
    have hsame : next.getReplicas = current.getReplicas := congrArg (·.getD 1) hreplicas
    have hat : ∀ m, r.desired key = some m → m = current.getReplicas := fun m hm => hsize m (hdesired.trans hm)
    refine ⟨next, hkey ▸ hnext, .inl hsame, fun hne => absurd hsame hne, fun hne => absurd hsame hne, ?_, ?_⟩
    · exact fun m hm hne => absurd (hat m hm) hne
    · exact fun m hm hne => absurd (hat m hm) hne
  | scales m hm hne hscaled =>
    replace hm : r.desired key = some m := hdesired.symm.trans hm
    cases hscaled with
    | stays hsts hfailed =>
      refine ⟨{ current with status := r.status }, hkey ▸ hsts, .inl rfl, fun hne => absurd rfl hne,
        fun hne => absurd rfl hne, fun _ _ _ => rfl, ?_⟩
      intro _ _ _ henv hd hsafe
      exact absurd ⟨henv, hd, hsafe⟩ hfailed
    | scales hsafe hsts =>
      have hsize : (scaled { current with status := r.status } (towards current.getReplicas m)
          { current with status := r.status }).getReplicas = towards current.getReplicas m := rfl
      have htowards : current.getReplicas < m ∧ towards current.getReplicas m = current.getReplicas + 1 ∨
          m < current.getReplicas ∧ towards current.getReplicas m = current.getReplicas - 1 := by
        have hne' : m ≠ current.getReplicas := hne
        unfold towards
        split <;> omega
      refine ⟨scaled { current with status := r.status } (towards current.getReplicas m) { current with status := r.status },
        hkey ▸ hsts, .inr ⟨m, hm, htowards⟩, fun _ => hsafe, ?_, fun _ _ _ => rfl, ?_⟩
      · intro _ htype
        refine ⟨min current.getReplicas (towards current.getReplicas m), ?_, le_rfl⟩
        simp only [scaled, htype]
        rfl
      · intro _ _ _ _ _ _
        rw [hsize]
        omega

/-- **A round on the way** to a size brings the StatefulSet nearer by as much as it moves. -/
theorem natAbs_step {next : StatefulSet} {m : ℤ} (hr : ScalesSafely key r current next) (hm : r.desired key = some m) :
    (m - next.getReplicas).natAbs + (if next.getReplicas = current.getReplicas then 0 else 1) =
      (m - current.getReplicas).natAbs := by
  rcases hr.byOne with hsame | ⟨m', hm', hmove⟩
  · rw [hsame, if_pos rfl, Nat.add_zero]
  · rw [hm, Option.some.injEq] at hm'
    subst hm'
    have hne : next.getReplicas ≠ current.getReplicas := by omega
    rw [if_neg hne]
    omega

/-- The rounds that are still to be made are those that do not change the size. -/
theorem natAbs_run {m : ℤ} {rounds : List ScalingRound} (hsafe : Along (step op key) (IsSafe op key) w rounds)
    (hm : ∀ r ∈ rounds, r.desired key = some m) (h : w.statefulSet key = some current) :
    ∃ next, (run (step op key) w rounds).statefulSet key = some next ∧
      (m - next.getReplicas).natAbs + moves op key w rounds = (m - current.getReplicas).natAbs := by
  induction rounds generalizing w current with
  | nil => exact ⟨current, h, rfl⟩
  | cons r rs ih =>
    obtain ⟨next, hnext, hscales⟩ := hsafe.1 current h
    obtain ⟨last, hlast, hsum⟩ := ih hsafe.2 (fun r' hr' => hm r' (List.mem_cons_of_mem _ hr')) hnext
    refine ⟨last, hlast, ?_⟩
    have hsize : (step op key w r).size key = w.size key ↔ next.getReplicas = current.getReplicas := by
      rw [World.size, World.size, hnext, h]
      simp
    have hstep := natAbs_step hscales (hm r List.mem_cons_self)
    rw [moves]
    simp only [hsize]
    omega

end ScalingRound

open ScalingRound

/-- **Safe scaling**: every round of a run under a safe policy is safe; and in a run towards one size the distance to it
shrinks by one with every round that scales, so it is reached after as many of these as it was away. -/
theorem safeScaling {op : Operator} (hmerge : op.merge.KeepsReplicas) (key : NamespacedName) (w : World)
    (rounds : List ScalingRound) (h : Along (ScalingRound.step op key) (IsUnderSafePolicy op key) w rounds) :
    Along (ScalingRound.step op key) (IsSafe op key) w rounds ∧
      ∀ current m, w.statefulSet key = some current → (∀ r ∈ rounds, r.desired key = some m) →
        ∃ next, (run (ScalingRound.step op key) w rounds).statefulSet key = some next ∧
          (m - next.getReplicas).natAbs + moves op key w rounds = (m - current.getReplicas).natAbs := by
  have hsafe : Along (ScalingRound.step op key) (IsSafe op key) w rounds :=
    h.mono_of_invariant (I := fun _ => True) (fun _ _ _ _ => trivial) (fun _ _ _ hr => isSafe_step hmerge hr) trivial
  exact ⟨hsafe, fun _ _ hcurrent hm => natAbs_run hsafe hm hcurrent⟩

/-- A resource that is scaled safely, down to one member. -/
def shrinking : Coherence :=
  { metadata := { ns := "default", name := "storage" }
    spec := { replicas := some 1, scaling := some { policy := some .safe } } }

/-- Its StatefulSet, with this many members. -/
def shrinkingSet (replicas : ℤ) : StatefulSet :=
  { metadata :=
      { ns := "default", name := "storage", annotations := (∅ : Labels).set AnnotationOperatorVersion "3.5.0" }
    spec := { replicas := some replicas } }

/-- A round towards one member. -/
def shrinkingRound (isStatusHA : Bool) : ScalingRound :=
  { env := { isStatusHA }
    deployment := .coherence (some shrinking)
    st :=
      { key := shrinking.key
        latest := { items := [{
          kind := .statefulSet, name := "storage", spec := some (shrinkingSet 1).toObject
          filed := by simp [Object.kind, StatefulSet.toObject, shrinkingSet] }] } }
    status := { readyReplicas := 3 } }

/-- A cluster with three members. -/
def shrinkingCluster : World := { (default : World) with objects := Table.empty.put (shrinkingSet 3).toObject }

/-- From three members to one, with a round in which they do not agree. -/
theorem safeScaling_shrinking :
    ∃ next, (run (ScalingRound.step default shrinking.key) shrinkingCluster
        [shrinkingRound true, shrinkingRound false, shrinkingRound true]).statefulSet shrinking.key = some next ∧
      (1 - next.getReplicas).natAbs + moves default shrinking.key shrinkingCluster
        [shrinkingRound true, shrinkingRound false, shrinkingRound true] = (1 - (3 : ℤ)).natAbs := by
  have hpolicy : ∀ w isStatusHA,
      (∀ current ∈ w.statefulSet shrinking.key,
        isVersionAnnotationEqualOrBefore default current.metadata "3.4.3" = .ok false) →
      IsUnderSafePolicy default shrinking.key w (shrinkingRound isStatusHA) := by
    intro w isStatusHA hversion current m hcurrent _ _
    refine ⟨hversion current hcurrent, ?_⟩
    rintro spec ⟨⟩
    exact .inl rfl
  have hmerge : (default : Operator).merge.KeepsReplicas := by
    intro o d c live live' p h
    cases h
  refine (safeScaling hmerge shrinking.key shrinkingCluster
    [shrinkingRound true, shrinkingRound false, shrinkingRound true]
    ⟨hpolicy _ _ ?_, hpolicy _ _ ?_, hpolicy _ _ ?_, trivial⟩).2 (shrinkingSet 3) 1 ?_ ?_
  · decide +kernel
  · decide +kernel
  · decide +kernel
  · rfl
  · decide +kernel

end CoherenceOperator
