import CoherenceOperator.Footprint.Workload

/-!
# How a StatefulSet is scaled

What `updateStatefulSet` makes of the number of replicas. A StatefulSet of a version after 3.4.3 that is not of the
desired size is scaled and not patched; one of the desired size is patched, and stays of that size.
-/

namespace CoherenceOperator

open Effect Prog

/-- A patch leaves the number of replicas alone that its three objects agree on. -/
def StrategicMerge.KeepsReplicas (merge : StrategicMerge) : Prop :=
  ∀ {o d c live live' : StatefulSet} {p : Object → Object},
    merge.createThreeWayPatch (some o.toObject) d.toObject c.toObject = some p →
      o.spec.replicas = c.spec.replicas → d.spec.replicas = c.spec.replicas → p live.toObject = live'.toObject →
        live'.spec.replicas = live.spec.replicas

/-- One replica more or less, towards the desired number. -/
def towards (current desired : ℤ) : ℤ := if desired > current then current + 1 else current - 1

namespace StatefulSetReconciler

variable {op : Operator} {env : Env} {w u : World} {st : Storage} {deployment : Deployment}
  {current desired : StatefulSet} {n : ℤ}

theorem statefulSet_of_put {s : StatefulSet} {o : Object} (ho : o = s.toObject) (hu : u.objects = w.objects.put o) :
    u.statefulSet s.key = some s := by
  subst ho
  rw [World.statefulSet_eq_some, hu]
  exact Table.get_put_self

/-! ### Scaling -/

/-- The number of replicas is `n` now, which a member or all of them agreed to; or the StatefulSet is as it was, because
they did not or a request failed. -/
inductive ScaledTo (env : Env) (deployment : Deployment) (current : StatefulSet) (n : ℤ) (u : World) : Prop where
  | scales (safe : current.getReplicas = 1 ∨ env.isStatusHA)
      (sts : u.statefulSet current.key = some (scaled current n current))
  | stays (sts : u.statefulSet current.key = some current)
      (failed : ¬ (env.Reliable ∧ (∃ d, deployment.deref = .ok d) ∧ (current.getReplicas = 1 ∨ env.isStatusHA)))

/-- The patch that scales it. -/
theorem wp_patchScaled (h : w.statefulSet current.key = some current) :
    Wp (patchObject env .statefulSet current.key (Object.mapStatefulSet (scaled current n))) (Wp.Ends
      (fun _ u => u.statefulSet current.key = some (scaled current n current))
      (fun u => u.statefulSet current.key = some current ∧ ¬ env.Reliable)) w := by
  refine wp_patchObject (fun e he => ?_) fun live hlive => ?_
  · refine ⟨h, fun henv => ?_⟩
    rcases he with he | he
    · exact he henv
    · rw [World.find_of_ne_secret _ (by decide), World.statefulSet_eq_some.1 h] at he
      cases he
  · rw [World.find_of_ne_secret _ (by decide), World.statefulSet_eq_some.1 h, Option.some.injEq] at hlive
    subst hlive
    exact statefulSet_of_put (w := w) (s := scaled current n current) rfl rfl

theorem wp_parallelScale (h : w.statefulSet current.key = some current) :
    Wp (parallelScale op env deployment current n) (Wp.Ends
      (fun _ u => u.statefulSet current.key = some (scaled current n current))
      (fun u => u.statefulSet current.key = some current ∧ ¬ (env.Reliable ∧ ∃ d, deployment.deref = .ok d))) w := by
  refine Wp.outcome_bind (fun d hd => ?_) fun e he => ?_
  · refine Wp.bind_ok (calm_updateStatusCondition.exec_ignoreError w) ?_
    have hv : (exec (updateCoherenceStatusPhase op env d.key .scaling) w).2.statefulSet current.key = some current := by
      rw [statefulSet_of_note (note_of_remark note_updateCoherenceStatusPhase w), h]
    refine Wp.bind_ends (Wp.mapError_ends (wp_patchScaled hv)) ?_ ?_
    · intro _ u hu
      exact hu
    · intro e u hu
      exact ⟨hu.1, fun hok => hu.2 hok.1⟩
  · refine ⟨h, fun hok => ?_⟩
    obtain ⟨d, hd⟩ := hok.2
    rw [he] at hd
    cases hd

theorem wp_safeScale (h : w.statefulSet current.key = some current) :
    Wp (safeScale op env deployment current n current.getReplicas)
      (fun _ u => ScaledTo env deployment current (towards current.getReplicas n) u) w := by
  unfold safeScale
  by_cases hsafe : current.getReplicas = 1 ∨ env.isStatusHA = true
  · rw [if_pos hsafe]
    refine Wp.attempt_bind_ends (wp_parallelScale h) (fun r u hu => ?_) fun e u hu => ?_
    · have hscaled : ScaledTo env deployment current (towards current.getReplicas n) u := .scales hsafe hu
      dsimp only
      split
      · exact hscaled
      · exact hscaled
    · have hstays : ScaledTo env deployment current (towards current.getReplicas n) u :=
        .stays hu.1 fun hok => hu.2 ⟨hok.1, hok.2.1⟩
      refine ⟨?_, hstays⟩
      refine Wp.mono (note_handleErrAndRequeue.wp u) fun _ v hv => ?_
      exact .stays ((statefulSet_of_note hv).trans hu.1) fun hok => hu.2 ⟨hok.1, hok.2.1⟩
  · rw [if_neg hsafe]
    exact .stays h fun hok => hsafe hok.2.2

/-- The policy under which a StatefulSet is scaled. -/
def scalingPolicy (spec : Option CoherenceStatefulSetResourceSpec) : ScalingPolicy :=
  (spec.map (·.getEffectiveScalingPolicy)).getD .safe

/-- **One step at a time**: under the policy `Safe`, and under `ParallelUpSafeDown` on the way down. -/
theorem wp_scale (h : w.statefulSet current.key = some current)
    (hpolicy : ∀ spec, deployment.getStatefulSetSpec = .ok spec →
      scalingPolicy spec = .safe ∨ scalingPolicy spec = .parallelUpSafeDown ∧ n ≤ current.getReplicas) :
    Wp (scale op env deployment current current.getReplicas n)
      (fun _ u => ScaledTo env deployment current (towards current.getReplicas n) u) w := by
  have hnone : ∀ {v : World} {e : GoError}, v.statefulSet current.key = some current → deployment.deref = .error e →
      ScaledTo env deployment current (towards current.getReplicas n) v := by
    intro v e hv he
    refine .stays hv fun hok => ?_
    obtain ⟨d, hd⟩ := hok.2.1
    rw [he] at hd
    cases hd
  refine Wp.outcome_bind (fun spec hspec => ?_) fun e he => ?_
  · refine Wp.outcome_bind (fun d hd => ?_) fun e he => hnone h he
    refine Wp.bind_ok (calm_updateStatusCondition.exec_ignoreError w) ?_
    have hv : (exec (updateCoherenceStatusPhase op env d.key .scaling) w).2.statefulSet current.key = some current := by
      rw [statefulSet_of_note (note_of_remark note_updateCoherenceStatusPhase w), h]
    have hsafe : Wp (safeScale op env deployment current n current.getReplicas) _ _ := wp_safeScale hv
    rcases hpolicy spec hspec with hp | ⟨hp, hle⟩
    · rw [scalingPolicy] at hp
      simp only [hp]
      exact hsafe
    · have hnot : ¬ n > current.getReplicas := by omega
      rw [scalingPolicy] at hp
      simp only [hp, hnot, if_false]
      exact hsafe
  · cases hd : deployment.deref with
    | error e' => exact hnone h hd
    | ok d =>
      cases deployment with
      | nil => cases hd
      | coherence c =>
        cases c with
        | none => cases hd
        | some c => cases he
      | coherenceJob c => cases he

/-! ### Patching -/

/-- The StatefulSet is there, of the same size. -/
def KeepsSize (current : StatefulSet) (u : World) : Prop :=
  ∃ next, u.statefulSet current.key = some next ∧ next.spec.replicas = current.spec.replicas

theorem keepsSize_of_note (h : w.statefulSet current.key = some current) (p : Path Act.IsNote w u) :
    KeepsSize current u := ⟨current, (statefulSet_of_note p).trans h, rfl⟩

theorem wp_sendPatch {p : StatefulSetPatch} {patch : Object → Object} (h : w.statefulSet current.key = some current)
    (hkey : ∀ live, (patch live).key = live.key)
    (hreplicas : ∀ live' : StatefulSet, patch current.toObject = live'.toObject → live'.spec.replicas = current.spec.replicas) :
    Wp (sendPatch env p current patch) (fun _ u => KeepsSize current u) w := by
  have hsent : KeepsSize current (w.sent ⟨.patch, .statefulSet, current.key⟩) := ⟨current, h, rfl⟩
  refine wp_request_bind (fun _ => hsent) ?_
  rw [Wp, exec_bind, exec_get]
  simp only [World.statefulSet_sent, h]
  split
  · rename_i result hresult
    have hobj := Object.eq_toObject_of_asStatefulSet hresult
    have hk : result.key = current.key := by
      have := hkey current.toObject
      rw [hobj] at this
      exact this
    refine ⟨result, ?_, hreplicas result hobj⟩
    rw [← hk]
    exact statefulSet_of_put (w := w) (s := result) rfl rfl
  · exact hsent

theorem wp_applyPatch {p : StatefulSetPatch} {patch : Object → Object} (h : w.statefulSet current.key = some current)
    (hkey : ∀ live, (patch live).key = live.key)
    (hreplicas : ∀ live' : StatefulSet, patch current.toObject = live'.toObject →
      live'.spec.replicas = current.spec.replicas) :
    Wp (applyPatch op env deployment p current patch) (fun _ u => KeepsSize current u) w := by
  refine Wp.outcome_bind (fun d _ => ?_) fun _ _ => ⟨current, h, rfl⟩
  refine Wp.bind_ok (calm_updateStatusCondition.exec_ignoreError w) ?_
  have hv : (exec (updateCoherenceStatusPhase op env d.key .rollingUpgrade) w).2.statefulSet current.key = some current := by
    rw [statefulSet_of_note (note_of_remark note_updateCoherenceStatusPhase w), h]
  refine Wp.attempt_bind_ends (Wp.mapError_ends (wp_sendPatch hv hkey hreplicas).ends) (fun _ _ hu => hu) ?_
  intro e u hu
  refine ⟨Wp.mono (note_handleErrAndRequeue.wp u) fun _ v hv => ?_, hu⟩
  obtain ⟨next, hnext, hsize⟩ := hu
  exact ⟨next, (statefulSet_of_note hv).trans hnext, hsize⟩

/-- **A patch that may not scale** leaves the number of replicas alone. -/
theorem keepsSize_maybePatchStatefulSet (hmerge : op.merge.KeepsReplicas) (h : w.statefulSet current.key = some current) :
    Wp (maybePatchStatefulSet op env deployment current desired st false) (fun _ u => KeepsSize current u) w := by
  unfold maybePatchStatefulSet
  split
  · have hw : (exec (maybeRollingUpgrade env deployment current) w).2 = w :=
      does_maybeRollingUpgrade.unchanged (A := fun _ => False) (g := id) (fun _ _ ha => ha.elim) w
    rw [Wp, hw]
    exact ⟨current, h, rfl⟩
  · refine Wp.bind_ok (exec_perform _ _) ?_
    generalize hv : Acts.act (Act.validateStatefulSet _ _ _) w = v
    have hv' : v.statefulSet current.key = some current := by
      subst hv
      exact h
    have hkeep : KeepsSize current v := ⟨current, hv', rfl⟩
    split
    · refine Wp.outcome_bind (fun spec _ => ?_) fun _ _ => hkeep
      cases spec with
      | none => exact hkeep
      | some spec =>
        dsimp only
        unfold patchIfNeeded
        split
        · exact hkeep
        · split
          · exact hkeep
          · rename_i patch hpatch
            split
            · refine wp_applyPatch hv' (op.merge.key_patch hpatch) fun live' hlive => ?_
              refine hmerge hpatch ?_ rfl hlive
              cases previousStatefulSet st current.metadata.name with
              | none => rfl
              | some original => rfl
            · exact hkeep
    · exact hkeep

/-! ### A round -/

/-- The number of replicas that is stored for a StatefulSet. -/
def desiredReplicas (st : Storage) (name : String) : Option ℤ :=
  (((st.latest.getResource .statefulSet name).bind (·.spec)).bind Object.asStatefulSet).map StatefulSet.getReplicas

/-- What `updateStatefulSet` makes of the size. -/
inductive Updated (env : Env) (deployment : Deployment) (current : StatefulSet) (st : Storage) (u : World) : Prop where
  | patches (size : ∀ m, desiredReplicas st current.metadata.name = some m → m = current.getReplicas)
      (keeps : KeepsSize current u)
  | scales (m : ℤ) (desired : desiredReplicas st current.metadata.name = some m) (ne : m ≠ current.getReplicas)
      (scaled : ScaledTo env deployment current (towards current.getReplicas m) u)

/-- **A round** scales the StatefulSet by one, or leaves its size alone. -/
theorem wp_updateStatefulSet (hmerge : op.merge.KeepsReplicas) (h : w.statefulSet current.key = some current)
    (hscale : ∀ m, desiredReplicas st current.metadata.name = some m → m ≠ current.getReplicas →
      isVersionAnnotationEqualOrBefore op current.metadata "3.4.3" = .ok false ∧
        ∀ spec, deployment.getStatefulSetSpec = .ok spec →
          scalingPolicy spec = .safe ∨ scalingPolicy spec = .parallelUpSafeDown ∧ m ≤ current.getReplicas) :
    Wp (updateStatefulSet op env deployment current st) (fun _ u => Updated env deployment current st u) w := by
  have hkeep : KeepsSize current w := ⟨current, h, rfl⟩
  unfold updateStatefulSet
  split
  · rename_i hres
    refine .patches (fun m hm => ?_) hkeep
    simp [desiredReplicas, hres] at hm
  · rename_i r hres
    split
    · rename_i hspec
      refine .patches (fun m hm => ?_) hkeep
      simp [desiredReplicas, hres, hspec] at hm
    · rename_i o hspec
      split
      · rename_i ho
        refine .patches (fun m hm => ?_) hkeep
        simp [desiredReplicas, hres, hspec, ho] at hm
      · rename_i desired ho
        have hdesired : desiredReplicas st current.metadata.name = some desired.getReplicas := by
          simp [desiredReplicas, hres, hspec, ho]
        split
        · rename_i hne
          obtain ⟨hversion, hpolicy⟩ := hscale _ hdesired (Ne.symm hne)
          rw [scaleStatefulSet, hversion]
          refine Wp.bind_ok (exec_outcome _ _) ?_
          rw [if_neg (by decide)]
          refine Wp.bind (wp_scale h hpolicy) (fun _ u hu => ?_) fun _ u hu => ?_
          · exact .scales _ hdesired (Ne.symm hne) hu
          · exact .scales _ hdesired (Ne.symm hne) hu
        · rename_i heq
          refine Wp.mono (keepsSize_maybePatchStatefulSet hmerge h) fun _ u hu => .patches (fun m hm => ?_) hu
          rw [hdesired, Option.some.injEq] at hm
          rw [← hm]
          exact (not_not.1 heq).symm

end StatefulSetReconciler

end CoherenceOperator
