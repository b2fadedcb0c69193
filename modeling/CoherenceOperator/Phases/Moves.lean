import CoherenceOperator.Phases.Conditions

/-!
# How the status moves from phase to phase

`setPhase` changes the phase and the conditions only; what it does to both is said here once, condition by
condition. The functions that write the status are then put together from it: `ensureInitialized` is the
introduction of the `Initialized` phase with a few fields, and `Update` and `UpdateFromJob` move through the list of phases
that the observation asks for (`targets`).
-/

namespace CoherenceOperator

namespace CoherenceResourceStatus

variable {op : Operator} {now : ℕ} {s : CoherenceResourceStatus} {p t : ConditionType}

/-! ### setPhase -/

@[simp] theorem phase_mark (status : ConditionStatus) : (s.mark now t status).phase = s.phase := rfl

theorem conditions_mark (status : ConditionStatus) :
    (s.mark now t status).conditions = (s.conditions.setCondition now { type := t, status := status }).1 := rfl

theorem setPhase_self (h : s.phase = some p) : s.setPhase now p = (s, false) := by
  rw [setPhase, if_pos h]

/-- The status after the old condition was turned off. -/
def leave (now : ℕ) (s : CoherenceResourceStatus) : CoherenceResourceStatus :=
  match s.phase with
  | some old => if isTransient old then s.mark now old .false else s
  | none => s

@[simp] theorem phase_leave : (s.leave now).phase = s.phase := by
  unfold leave
  split
  · split <;> rfl
  · rfl

/-- The phase after `setPhase`: the completed phase is not left. -/
def next (s : CoherenceResourceStatus) (p : ConditionType) : Option ConditionType :=
  if s.phase = some .completed then some .completed else some p

theorem setPhase_of_ne (h : s.phase ≠ some p) :
    s.setPhase now p = ({ s.leave now with phase := s.next p }.mark now p .true, true) := by
  rw [setPhase, if_neg h]
  simp only [Prod.mk.injEq, and_true]
  unfold leave next
  cases hs : s.phase with
  | none => simp [hs]
  | some old =>
    by_cases ht : isTransient old = true <;> by_cases hc : old = .completed <;> simp [hs, ht, hc, mark]
    · cases hc
      cases ht
    · cases s
      simp_all

theorem setPhase_snd (now : ℕ) : (s.setPhase now p).2 = decide (s.phase ≠ some p) := by
  by_cases h : s.phase = some p
  · rw [setPhase_self h]
    simp [h]
  · rw [setPhase_of_ne h]
    simp [h]

/-- Only the phase and the conditions change. -/
theorem setPhase_fst : (s.setPhase now p).1 =
    { s with phase := (s.setPhase now p).1.phase, conditions := (s.setPhase now p).1.conditions } := by
  by_cases h : s.phase = some p
  · rw [setPhase_self h]
  · rw [setPhase_of_ne h]
    unfold leave
    split
    · split <;> rfl
    · rfl

theorem phase_setPhase : (s.setPhase now p).1.phase = s.next p := by
  by_cases h : s.phase = some p
  · rw [setPhase_self h, next, h]
    split
    · assumption
    · rfl
  · rw [setPhase_of_ne h]
    rfl

theorem next_of_completed (h : s.phase = some .completed) : s.next p = some .completed := by
  rw [next, if_pos h]

theorem next_of_ne_completed (h : s.phase ≠ some .completed) : s.next p = some p := by
  rw [next, if_neg h]

theorem isTrue_leave : (s.leave now).conditions.IsTrue t ↔
    s.conditions.IsTrue t ∧ ¬ (s.phase = some t ∧ isTransient t = true) := by
  unfold leave
  cases hs : s.phase with
  | none => simp
  | some old =>
    by_cases hold : isTransient old = true
    · simp only [hold, if_true, conditions_mark]
      by_cases ht : t = old
      · subst ht
        simp [Conditions.isTrue_setCondition_self { type := t, status := .false }, hold]
      · rw [Conditions.isTrue_setCondition_of_ne { type := old, status := .false } ht]
        simp [Ne.symm ht]
    · simp only [hold, Option.some.injEq]
      constructor
      · intro h
        refine ⟨h, ?_⟩
        rintro ⟨rfl, h'⟩
        exact hold h'
      · exact fun h => h.1

/-- The conditions that are true after a move to another phase. -/
theorem isTrue_setPhase (h : s.phase ≠ some p) : (s.setPhase now p).1.conditions.IsTrue t ↔
    t = p ∨ (s.conditions.IsTrue t ∧ ¬ (s.phase = some t ∧ isTransient t = true)) := by
  rw [setPhase_of_ne h, conditions_mark]
  by_cases ht : t = p
  · subst ht
    simp [Conditions.isTrue_setCondition_self { type := t, status := .true }]
  · rw [Conditions.isTrue_setCondition_of_ne { type := p, status := .true } ht]
    simp [ht, isTrue_leave]

theorem has_leave (h : isTransient t = false) : (s.leave now).conditions.Has t ↔ s.conditions.Has t := by
  unfold leave
  split
  · rename_i old _
    split
    · rename_i hold
      rw [conditions_mark, Conditions.has_setCondition]
      constructor
      · rintro (rfl | hh)
        · rw [hold] at h
          cases h
        · exact hh
      · exact Or.inr
    · rfl
  · rfl

/-- Apart from those that are turned off, only the new condition is added. -/
theorem has_setPhase (h : isTransient t = false) : (s.setPhase now p).1.conditions.Has t ↔
    (t = p ∧ s.phase ≠ some p) ∨ s.conditions.Has t := by
  by_cases hp : s.phase = some p
  · rw [setPhase_self hp]
    simp [hp]
  · rw [setPhase_of_ne hp, conditions_mark, Conditions.has_setCondition]
    simp [hp, has_leave h]

/-- A condition of another type that `setPhase` does not turn off is not looked at. -/
theorem records_setPhase {c : Condition} (ht : isTransient c.type = false) (hp : c.type ≠ p) :
    (s.setPhase now p).1.conditions.Records c ↔ s.conditions.Records c := by
  by_cases h : s.phase = some p
  · rw [setPhase_self h]
  · rw [setPhase_of_ne h, conditions_mark,
      Conditions.records_setCondition_of_ne { type := p, status := .true } hp]
    unfold leave
    split
    · rename_i old _
      split
      · rename_i hold
        refine Conditions.records_setCondition_of_ne { type := old, status := .false } ?_
        rintro rfl
        rw [hold] at ht
        cases ht
      · rfl
    · rfl

/-! ### ensureInitialized -/

/-- The condition that records the version of the operator. -/
def versionedBy (op : Operator) : Condition := { type := .versioned, status := .true, message := op.version }

/-- Go to the phase `Initialized` if its condition is missing. -/
def introduce (now : ℕ) (s : CoherenceResourceStatus) : CoherenceResourceStatus :=
  if s.conditions.Has .initialized then s else (s.setPhase now .initialized).1

/-- The selector of the status of a resource. -/
def selectorOf (s : CoherenceResourceStatus) (d : CoherenceResource) : String :=
  if s.selector = "" then s!"coherenceCluster={d.clusterName},coherenceDeployment={d.name}" else s.selector

/-- The status that `ensureInitialized` leaves behind. -/
def begun (op : Operator) (now : ℕ) (d : CoherenceResource) (s : CoherenceResourceStatus) : CoherenceResourceStatus :=
  { s with
    hash := d.status.hash
    replicas := d.replicas
    coherenceCluster := d.clusterName
    selector := s.selectorOf d
    role := d.roleName
    type := some d.type
    phase := (s.introduce now).phase
    conditions := ((s.introduce now).conditions.setCondition now (versionedBy op)).1 }

/-- The first changes: they are forgotten when the `Initialized` phase is introduced. -/
def FirstChanges (d : CoherenceResource) (s : CoherenceResourceStatus) : Prop :=
  s.hash ≠ d.status.hash ∨ s.replicas ≠ d.replicas ∨ s.coherenceCluster ≠ d.clusterName

/-- The changes after the introduction of the `Initialized` phase. -/
def LaterChanges (op : Operator) (d : CoherenceResource) (s : CoherenceResourceStatus) : Prop :=
  s.selector = "" ∨ s.role ≠ d.roleName ∨ s.type ≠ some d.type ∨ ¬ s.conditions.Records (versionedBy op)

instance (d : CoherenceResource) : Decidable (s.FirstChanges d) := inferInstanceAs (Decidable (_ ∨ _ ∨ _))

instance (d : CoherenceResource) : Decidable (s.LaterChanges op d) := inferInstanceAs (Decidable (_ ∨ _ ∨ _ ∨ _))

/-- The other fields do not matter to `setPhase`. -/
theorem setPhase_of_same (now : ℕ) (p : ConditionType) (r : CoherenceResourceStatus) (hphase : r.phase = s.phase) (hcs : r.conditions = s.conditions) :
    r.setPhase now p = ({ r with phase := (s.setPhase now p).1.phase, conditions := (s.setPhase now p).1.conditions },
      (s.setPhase now p).2) := by
  by_cases h : s.phase = some p
  · rw [setPhase_self h, setPhase_self (by rw [hphase, h]), ← hphase, ← hcs]
  · rw [setPhase_of_ne h, setPhase_of_ne (by rw [hphase]; exact h)]
    cases hs : s.phase with
    | none => simp [leave, next, mark, hphase, hcs, hs]
    | some old => by_cases hold : isTransient old = true <;> simp [leave, next, mark, hphase, hcs, hs, hold]

theorem records_introduce : (s.introduce now).conditions.Records (versionedBy op) ↔ s.conditions.Records (versionedBy op) := by
  unfold introduce
  split
  · rfl
  · exact records_setPhase rfl (fun h => by cases h)

/-- **What `ensureInitialized` does**: the status it leaves, and when its flag is set. -/
theorem ensureInitialized_eq (d : CoherenceResource) : s.ensureInitialized op now d =
    (s.begun op now d, decide ((if s.conditions.Has .initialized then s.FirstChanges d
      else s.phase ≠ some .initialized) ∨ s.LaterChanges op d)) := by
  have hversion : ((s.introduce now).conditions.setCondition now (versionedBy op)).2 =
      decide (¬ s.conditions.Records (versionedBy op)) := by
    rw [Bool.eq_iff_iff, Conditions.setCondition_snd, records_introduce, decide_eq_true_iff]
  by_cases hhas : s.conditions.Has .initialized
  · have hintro : s.introduce now = s := if_pos hhas
    obtain ⟨c, hc⟩ := Option.ne_none_iff_exists'.1 hhas
    rw [hintro] at hversion
    simp only [ensureInitialized, hc, hhas, begun, hintro, setVersion, selectorOf, FirstChanges, LaterChanges]
    rw [versionedBy] at hversion
    by_cases hsel : s.selector = "" <;> simp [hsel, step, versionedBy, hversion, Bool.or_assoc]
  · have hintro : s.introduce now = (s.setPhase now .initialized).1 := if_neg hhas
    have hnone : s.conditions.getCondition .initialized = none := by simpa [Conditions.Has] using hhas
    rw [hintro] at hversion
    have hset := setPhase_of_same (s := s) now .initialized
      { s with hash := d.status.hash, replicas := d.replicas, coherenceCluster := d.clusterName } rfl rfl
    simp only [ensureInitialized, hnone, hhas, begun, hintro, setVersion, selectorOf, LaterChanges, hset]
    rw [versionedBy] at hversion
    obtain ⟨phase, cs, hs'⟩ : ∃ phase cs, (s.setPhase now .initialized).1 = { s with phase := phase, conditions := cs } :=
      ⟨_, _, setPhase_fst⟩
    rw [hs'] at hversion ⊢
    by_cases hsel : s.selector = "" <;> simp [hsel, step, versionedBy, hversion, setPhase_snd, Bool.or_assoc]

theorem ensureInitialized_fst {d : CoherenceResource} : (s.ensureInitialized op now d).1 = s.begun op now d := by
  rw [ensureInitialized_eq]

/-- The flag of `ensureInitialized` is false. -/
theorem ensureInitialized_snd_eq_false {d : CoherenceResource} : (s.ensureInitialized op now d).2 = false ↔
    (if s.conditions.Has .initialized then ¬ s.FirstChanges d else s.phase = some .initialized) ∧
      ¬ s.LaterChanges op d := by
  rw [ensureInitialized_eq]
  simp only [decide_eq_false_iff_not, not_or]
  split <;> simp

theorem introduce_of_has (h : s.conditions.Has .initialized) : s.introduce now = s := if_pos h

theorem introduce_of_phase (h : s.phase = some .initialized) : s.introduce now = s := by
  unfold introduce
  split
  · rfl
  · rw [setPhase_self h]

/-- After its introduction the phase is recorded, unless it was the phase already. -/
theorem has_introduce (now : ℕ) : (s.introduce now).conditions.Has .initialized ↔
    s.conditions.Has .initialized ∨ s.phase ≠ some .initialized := by
  unfold introduce
  split
  · rename_i h
    simp [h]
  · rename_i h
    rw [has_setPhase rfl]
    simp [h]

/-- The phase after `ensureInitialized`. -/
theorem phase_begun (op : Operator) (now : ℕ) (s : CoherenceResourceStatus) (d : CoherenceResource) : (s.begun op now d).phase =
    if s.conditions.Has .initialized then s.phase else s.next .initialized := by
  show (s.introduce now).phase = _
  unfold introduce
  split
  · rfl
  · exact phase_setPhase

/-- A status that has everything already is left as it is. -/
theorem begun_eq_self {d : CoherenceResource} (hintro : s.conditions.Has .initialized ∨ s.phase = some .initialized)
    (hfirst : ¬ s.FirstChanges d) (hlater : ¬ s.LaterChanges op d) : s.begun op now d = s := by
  have h : s.introduce now = s := by
    rcases hintro with hhas | hphase
    · exact introduce_of_has hhas
    · exact introduce_of_phase hphase
  simp only [FirstChanges, LaterChanges, not_or, not_not] at hfirst hlater
  obtain ⟨hhash, hreplicas, hcluster⟩ := hfirst
  obtain ⟨hselector, hrole, htype, hversion⟩ := hlater
  rw [begun, h, Conditions.setCondition_of_records hversion, selectorOf, if_neg hselector, ← hhash, ← hreplicas,
    ← hcluster, ← hrole, ← htype]

/-- Nothing to do, and no flag. -/
theorem ensureInitialized_eq_self {d : CoherenceResource}
    (hintro : s.conditions.Has .initialized ∨ s.phase = some .initialized) (hfirst : ¬ s.FirstChanges d)
    (hlater : ¬ s.LaterChanges op d) : s.ensureInitialized op now d = (s, false) := by
  have hflag : (s.ensureInitialized op now d).2 = false := by
    rw [ensureInitialized_snd_eq_false]
    refine ⟨?_, hlater⟩
    split
    · exact hfirst
    · rename_i hhas
      exact hintro.resolve_left hhas
  exact Prod.ext (ensureInitialized_fst.trans (begun_eq_self hintro hfirst hlater)) hflag

theorem has_begun (op : Operator) (now : ℕ) (s : CoherenceResourceStatus) (d : CoherenceResource) : (s.begun op now d).conditions.Has .initialized ↔
    s.conditions.Has .initialized ∨ s.phase ≠ some .initialized := by
  rw [← has_introduce now, begun, Conditions.has_setCondition]
  simp [versionedBy]

theorem selectorOf_ne (d : CoherenceResource) : s.selectorOf d ≠ "" := by
  unfold selectorOf
  split
  · intro h
    simp only [String.append_eq_empty_iff] at h
    exact absurd h.1.1.1 (by decide)
  · assumption

/-- What `ensureInitialized` wrote it does not write again. -/
theorem not_changes_begun (op : Operator) (now : ℕ) (s : CoherenceResourceStatus) (d : CoherenceResource) :
    ¬ (s.begun op now d).FirstChanges d ∧ ¬ (s.begun op now d).LaterChanges op d := by
  refine ⟨by simp [FirstChanges, begun], ?_⟩
  have hversion : (s.begun op now d).conditions.Records (versionedBy op) :=
    Conditions.records_setCondition_self _ _ _
  simp [LaterChanges, hversion]
  exact ⟨selectorOf_ne d, rfl, rfl⟩

/-- `ensureInitialized` changes nothing exactly if there is nothing to change. -/
theorem begun_eq_self_iff {d : CoherenceResource} : s.begun op now d = s ↔
    (s.conditions.Has .initialized ∨ s.phase = some .initialized) ∧ ¬ s.FirstChanges d ∧ ¬ s.LaterChanges op d := by
  constructor
  · intro h
    have hno := not_changes_begun op now s d
    have hhas := has_begun op now s d
    rw [h] at hno hhas
    refine ⟨?_, hno⟩
    by_cases hphase : s.phase = some .initialized
    · exact Or.inr hphase
    · exact Or.inl (hhas.2 (Or.inr hphase))
  · exact fun h => begun_eq_self h.1 h.2.1 h.2.2

end CoherenceResourceStatus

end CoherenceOperator
