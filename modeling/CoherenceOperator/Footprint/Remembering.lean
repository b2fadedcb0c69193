import CoherenceOperator.Phases.Calls

/-!
# What a status remembers

The hash, the flag of the actions and the statuses of the probes are what a status has to remember: whatever becomes of the
phase, of the conditions and of the numbers of replicas, these stay, but for the probes that `updateFromJob` is given.
-/

namespace CoherenceOperator

namespace CoherenceResourceStatus

/-- The hash, the flag of the actions and the statuses of the probes are the same. -/
structure Remembers (s s' : CoherenceResourceStatus) : Prop where
  hash : s'.hash = s.hash
  actionsExecuted : s'.actionsExecuted = s.actionsExecuted
  jobProbes : s'.jobProbes = s.jobProbes

variable {op : Operator} {now : ℕ} {s s' s'' : CoherenceResourceStatus} {d : CoherenceResource}

theorem Remembers.refl : s.Remembers s := ⟨rfl, rfl, rfl⟩

theorem Remembers.trans (h : s.Remembers s') (h' : s'.Remembers s'') : s.Remembers s'' :=
  ⟨h'.hash.trans h.hash, h'.actionsExecuted.trans h.actionsExecuted, h'.jobProbes.trans h.jobProbes⟩

theorem remembers_setPhase {phase : ConditionType} : s.Remembers (s.setPhase now phase).1 := by
  rw [setPhase_fst]
  exact ⟨rfl, rfl, rfl⟩

theorem remembers_moveTo {ts : List ConditionType} : s.Remembers (s.moveTo now ts) := by
  induction ts generalizing s with
  | nil => exact .refl
  | cons t ts ih =>
    rw [moveTo_cons]
    exact remembers_setPhase.trans ih

theorem remembers_begun : d.status.Remembers (d.status.begun op now d) := ⟨rfl, rfl, rfl⟩

theorem remembers_setCondition {c : Condition} : d.status.Remembers (setCondition op now d c).1 := by
  rw [setCondition_eq]
  exact remembers_begun.trans remembers_moveTo

theorem remembers_update {c : Coherence} {sts : Option StatefulSetStatus} :
    c.status.Remembers (c.status.update op now c sts).1 := by
  have hbegun : c.status.Remembers ((c.status.begun op now c.toResource).observe (currentOf sts) (readyCountOf sts)) :=
    ⟨rfl, rfl, rfl⟩
  rw [update_eq]
  exact hbegun.trans remembers_moveTo

/-- `UpdateFromJob` changes the probes that it is given, and no more of it. -/
theorem exists_updateFromJob_eq (c : CoherenceJob) (job : Option JobStatus) (probes : List CoherenceJobProbeStatus) :
    ∃ s updated, c.status.Remembers s ∧ c.status.updateFromJob op now c job probes = s.updateProbes probes updated := by
  have hbegun : c.status.Remembers ((c.status.begun op now c.toResource).observe (countOf job) (c.status.jobReadyOf job)) :=
    ⟨rfl, rfl, rfl⟩
  refine ⟨_, _, ?_, updateFromJob_eq c job probes⟩
  exact (hbegun.trans remembers_moveTo).trans ⟨rfl, rfl, rfl⟩

theorem hash_updateProbes {ps : List CoherenceJobProbeStatus} {updated : Bool} :
    (s.updateProbes ps updated).1.hash = s.hash := by
  unfold updateProbes
  split_ifs <;> rfl

theorem hash_updateFromJob {c : CoherenceJob} {job : Option JobStatus} {probes : List CoherenceJobProbeStatus} :
    (c.status.updateFromJob op now c job probes).1.hash = c.status.hash := by
  obtain ⟨s, updated, hs, h⟩ := exists_updateFromJob_eq c job probes
  rw [h, hash_updateProbes, hs.hash]

/-! ### The statuses of the probes -/

/-- The status of the probe of a Pod. -/
def statusOf (ps : List CoherenceJobProbeStatus) (pod : String) : Option CoherenceJobProbeStatus :=
  ps.find? fun p => p.pod = pod

/-- The probe was run before: `LastProbeTime.Before`. -/
def IsBefore (q p : CoherenceJobProbeStatus) : Prop :=
  ∃ t t', q.lastProbeTime = some t ∧ p.lastProbeTime = some t' ∧ t < t'

variable {ps qs : List CoherenceJobProbeStatus} {p q : CoherenceJobProbeStatus} {pod : String}

theorem findJobProbeStatus_eq : s.findJobProbeStatus pod = (statusOf s.jobProbes pod).getD { pod } := rfl

theorem pod_of_statusOf (h : statusOf ps pod = some p) : p.pod = pod := by simpa using List.find?_some h

theorem mem_of_statusOf (h : statusOf ps pod = some p) : p ∈ ps := List.mem_of_find?_eq_some h

theorem statusOf_cons : statusOf (p :: ps) pod = if p.pod = pod then some p else statusOf ps pod := by
  unfold statusOf
  rw [List.find?_cons]
  by_cases h : p.pod = pod <;> simp [h]

theorem statusOf_eq_none (h : pod ∉ ps.map (·.pod)) : statusOf ps pod = none := by
  refine List.find?_eq_none.2 fun p hp => ?_
  simp only [decide_eq_true_eq]
  rintro rfl
  exact h (List.mem_map_of_mem hp)

theorem statusOf_of_mem (hnodup : (ps.map (·.pod)).Nodup) (hp : p ∈ ps) : statusOf ps p.pod = some p := by
  induction ps with
  | nil => cases hp
  | cons q ps ih =>
    obtain ⟨hq, hnodup⟩ := List.nodup_cons.1 hnodup
    rw [statusOf_cons]
    rcases List.mem_cons.1 hp with rfl | hp
    · rw [if_pos rfl]
    · rw [if_neg, ih hnodup hp]
      intro he
      exact hq (List.mem_map.2 ⟨p, hp, he.symm⟩)

/-- A later status is taken over. -/
theorem updateProbe_of_isBefore (h : ∀ q, statusOf qs p.pod = some q → IsBefore q p) :
    (updateProbe p qs).2 = true ∧
      ∀ pod, statusOf (updateProbe p qs).1 pod = if p.pod = pod then some p else statusOf qs pod := by
  induction qs with
  | nil => exact ⟨rfl, fun pod => statusOf_cons⟩
  | cons q qs ih =>
    by_cases hq : q.pod = p.pod
    · obtain ⟨t, t', ht, ht', hlt⟩ := h q (by rw [statusOf_cons, if_pos hq])
      have hupdate : updateProbe p (q :: qs) = (p :: qs, true) := by
        simp only [updateProbe, hq, if_true, ht, ht', hlt, decide_true]
        rw [← ht']
      rw [hupdate]
      refine ⟨rfl, fun pod => ?_⟩
      rw [statusOf_cons, statusOf_cons, hq]
      split <;> rfl
    · obtain ⟨hflag, hstatus⟩ := ih fun q' hq' => h q' (by rw [statusOf_cons, if_neg hq, hq'])
      have hupdate : updateProbe p (q :: qs) = (q :: (updateProbe p qs).1, (updateProbe p qs).2) := by
        simp [updateProbe, hq]
      rw [hupdate]
      refine ⟨hflag, fun pod => ?_⟩
      rw [statusOf_cons, statusOf_cons, hstatus]
      by_cases hpod : p.pod = pod
      · rw [if_pos hpod, if_pos hpod, if_neg fun he => hq (he.trans hpod.symm)]
      · rw [if_neg hpod, if_neg hpod]

/-- Later statuses, one for each Pod, are all taken over. -/
theorem foldl_updateProbe_of_isBefore (acc : List CoherenceJobProbeStatus × Bool) (hnodup : (ps.map (·.pod)).Nodup)
    (h : ∀ p ∈ ps, ∀ q, statusOf acc.1 p.pod = some q → IsBefore q p) :
    ((ps.foldl (fun (acc : List CoherenceJobProbeStatus × Bool) p =>
        let (qs, changed) := updateProbe p acc.1
        (qs, acc.2 || changed)) acc).2 = (acc.2 || !ps.isEmpty)) ∧
      ∀ pod, statusOf (ps.foldl (fun (acc : List CoherenceJobProbeStatus × Bool) p =>
        let (qs, changed) := updateProbe p acc.1
        (qs, acc.2 || changed)) acc).1 pod = (statusOf ps pod).or (statusOf acc.1 pod) := by
  induction ps generalizing acc with
  | nil => simp [statusOf]
  | cons p ps ih =>
    obtain ⟨hp, hnodup⟩ := List.nodup_cons.1 hnodup
    obtain ⟨hflag, hstatus⟩ := updateProbe_of_isBefore fun q => h p List.mem_cons_self q
    have hne : ∀ p' ∈ ps, p.pod ≠ p'.pod := fun p' hp' he => hp (List.mem_map.2 ⟨p', hp', he.symm⟩)
    obtain ⟨hflags, hstatuses⟩ := ih ((updateProbe p acc.1).1, acc.2 || (updateProbe p acc.1).2) hnodup
      fun p' hp' q hq => by
        rw [hstatus, if_neg (hne p' hp')] at hq
        exact h p' (List.mem_cons_of_mem _ hp') q hq
    rw [List.foldl_cons]
    refine ⟨?_, fun pod => ?_⟩
    · rw [hflags, hflag]
      simp
    · rw [hstatuses, hstatus, statusOf_cons]
      by_cases hpod : p.pod = pod
      · rw [if_pos hpod, if_pos hpod, statusOf_eq_none (hpod ▸ hp)]
        rfl
      · rw [if_neg hpod, if_neg hpod]

/-- **Later statuses win**, in `UpdateFromJob`. -/
theorem statusOf_updateProbes {updated : Bool} (hnodup : (ps.map (·.pod)).Nodup)
    (h : ∀ p ∈ ps, ∀ q, statusOf s.jobProbes p.pod = some q → IsBefore q p) :
    (ps ≠ [] → (s.updateProbes ps updated).2 = true) ∧
      ∀ pod, statusOf (s.updateProbes ps updated).1.jobProbes pod = (statusOf ps pod).or (statusOf s.jobProbes pod) := by
  unfold updateProbes
  by_cases hps : ps = []
  · subst hps
    exact ⟨fun hne => absurd rfl hne, fun _ => rfl⟩
  by_cases hprobes : s.jobProbes = []
  · rw [if_neg hps, if_pos hprobes, hprobes]
    refine ⟨fun _ => rfl, fun pod => ?_⟩
    simp [statusOf]
  · rw [if_neg hps, if_neg hprobes]
    obtain ⟨hflags, hstatuses⟩ := foldl_updateProbe_of_isBefore (s.jobProbes, false) hnodup h
    refine ⟨fun _ => ?_, hstatuses⟩
    simp [hflags, hps]

end CoherenceResourceStatus

end CoherenceOperator
