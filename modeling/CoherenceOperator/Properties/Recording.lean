import CoherenceOperator.Phases.Calls

/-!
# What is left of a condition that is set

A status is handed a condition with a reason and a message, such as the quorum that a resource waits for. `SetCondition` makes the
type of the condition the phase, and the phase sets a condition of its own, with neither a reason nor a message; if the status is
at the phase already, nothing is set. So the condition is in the list afterwards only if it says nothing, or was there before
(`contains_setCondition_iff`).
-/

namespace CoherenceOperator

namespace Conditions

variable {cs : Conditions} {c new : Condition} {t : ConditionType} {now : ℕ}

/-- The conditions of a type. -/
def ofType (cs : Conditions) (t : ConditionType) : Conditions := cs.filter fun c => c.type = t

/-- There is a condition of the type of `c` with the status, the reason and the message of `c`. -/
def Contains (cs : Conditions) (c : Condition) : Prop :=
  ∃ x ∈ cs, x.type = c.type ∧ x.status = c.status ∧ x.reason = c.reason ∧ x.message = c.message

/-- There is such a condition besides the first one of the type. A list that was made by `SetCondition` has only one. -/
def ContainsAgain (cs : Conditions) (c : Condition) : Prop := Contains (cs.ofType c.type).tail c

theorem ofType_cons (c : Condition) (cs : Conditions) (t : ConditionType) :
    ofType (c :: cs) t = if c.type = t then c :: cs.ofType t else cs.ofType t := by
  rw [ofType, List.filter_cons]
  by_cases h : c.type = t
  · simp [h, ofType]
  · simp [h, ofType]

theorem contains_ofType : (cs.ofType c.type).Contains c ↔ cs.Contains c := by
  constructor
  · rintro ⟨x, hx, h⟩
    exact ⟨x, (List.mem_filter.1 hx).1, h⟩
  · rintro ⟨x, hx, htype, h⟩
    exact ⟨x, List.mem_filter.2 ⟨hx, decide_eq_true htype⟩, htype, h⟩

/-- The first condition of the type is replaced. -/
theorem ofType_setCondition_self (now : ℕ) (new : Condition) (cs : Conditions) :
    ∃ time, (cs.setCondition now new).1.ofType new.type = { new with lastTransitionTime := time } :: (cs.ofType new.type).tail := by
  induction cs with
  | nil => exact ⟨now, by simp [setCondition, ofType]⟩
  | cons c cs ih =>
    obtain ⟨time, ih⟩ := ih
    rw [setCondition]
    by_cases h : c.type = new.type
    · rw [if_pos h]
      refine ⟨if c.status = new.status then c.lastTransitionTime else now, ?_⟩
      rw [ofType_cons, ofType_cons, if_pos rfl, if_pos h, List.tail_cons]
    · rw [if_neg h]
      refine ⟨time, ?_⟩
      rw [ofType_cons, ofType_cons, if_neg h, if_neg h]
      exact ih

/-- The conditions of another type stay as they are. -/
theorem ofType_setCondition_of_ne (h : t ≠ new.type) : (cs.setCondition now new).1.ofType t = cs.ofType t := by
  induction cs with
  | nil => simp [setCondition, ofType, Ne.symm h]
  | cons c cs ih =>
    rw [setCondition]
    by_cases hc : c.type = new.type
    · rw [if_pos hc, ofType_cons, ofType_cons, if_neg (Ne.symm h), if_neg (by rw [hc]; exact Ne.symm h)]
    · rw [if_neg hc, ofType_cons, ofType_cons]
      rw [ih]

theorem contains_setCondition_of_ne (h : c.type ≠ new.type) : (cs.setCondition now new).1.Contains c ↔ cs.Contains c := by
  rw [← contains_ofType, ofType_setCondition_of_ne h, contains_ofType]

theorem containsAgain_setCondition (new : Condition) : (cs.setCondition now new).1.ContainsAgain c ↔ cs.ContainsAgain c := by
  unfold ContainsAgain
  by_cases h : c.type = new.type
  · obtain ⟨time, hof⟩ := ofType_setCondition_self now new cs
    rw [h, hof, List.tail_cons]
  · rw [ofType_setCondition_of_ne h]

/-- After a condition of its type was set, a condition is there if it says the same. -/
theorem contains_setCondition_self (h : c.type = new.type) : (cs.setCondition now new).1.Contains c ↔
    (new.status = c.status ∧ new.reason = c.reason ∧ new.message = c.message) ∨ cs.ContainsAgain c := by
  obtain ⟨time, hof⟩ := ofType_setCondition_self now new cs
  rw [← contains_ofType, h, hof, ContainsAgain, h]
  unfold Contains
  simp [h]

end Conditions

/-- The condition says nothing but its type and its status. -/
def Condition.IsPlain (c : Condition) : Prop := c.reason = "" ∧ c.message = ""

namespace CoherenceResourceStatus

variable {op : Operator} {now : ℕ} {s : CoherenceResourceStatus} {p t : ConditionType} {c : Condition} {d : CoherenceResource}

/-- The status is at the phase `t`, and does not go through `Initialized` on the way to it. -/
def StaysAt (s : CoherenceResourceStatus) (t : ConditionType) : Prop :=
  s.phase = some t ∧ (s.conditions.Has .initialized ∨ t = .initialized ∨ t = .completed)

/-- What the condition `c` has to be, and the status before, for the condition to be there afterwards. -/
def WillContain (op : Operator) (s : CoherenceResourceStatus) (c : Condition) : Prop :=
  (¬s.StaysAt c.type ∧ c.IsPlain) ∨
    (s.StaysAt c.type ∧ c.type ≠ .versioned ∧ s.conditions.Contains c) ∨
    (s.StaysAt c.type ∧ c.type = .versioned ∧ c.reason = "" ∧ c.message = op.version) ∨
    s.conditions.ContainsAgain c

/-! ### A move to another phase -/

theorem containsAgain_leave : (s.leave now).conditions.ContainsAgain c ↔ s.conditions.ContainsAgain c := by
  unfold leave
  split
  · split
    · exact Conditions.containsAgain_setCondition _
    · rfl
  · rfl

theorem containsAgain_setPhase : (s.setPhase now p).1.conditions.ContainsAgain c ↔ s.conditions.ContainsAgain c := by
  by_cases h : s.phase = some p
  · rw [setPhase_self h]
  · rw [setPhase_of_ne h, conditions_mark, Conditions.containsAgain_setCondition]
    exact containsAgain_leave

/-- The condition of the phase that is entered is plain. -/
theorem contains_setPhase_self (hstatus : c.status = .true) (h : s.phase ≠ some c.type) :
    (s.setPhase now c.type).1.conditions.Contains c ↔ c.IsPlain ∨ s.conditions.ContainsAgain c := by
  rw [setPhase_of_ne h, conditions_mark,
    @Conditions.contains_setCondition_self _ c { type := c.type, status := .true } _ rfl]
  refine or_congr ⟨fun h => ⟨h.2.1.symm, h.2.2.symm⟩, fun h => ⟨hstatus.symm, h.1.symm, h.2.symm⟩⟩ containsAgain_leave

/-- A condition of another type stays, unless its phase is left. -/
theorem contains_setPhase_of_ne (hp : c.type ≠ p) (hleft : isTransient c.type = false) :
    (s.setPhase now p).1.conditions.Contains c ↔ s.conditions.Contains c := by
  by_cases h : s.phase = some p
  · rw [setPhase_self h]
  · rw [setPhase_of_ne h, conditions_mark, Conditions.contains_setCondition_of_ne hp]
    unfold leave
    split
    · rename_i old _
      split
      · rename_i hold
        refine Conditions.contains_setCondition_of_ne ?_
        rintro rfl
        rw [hold] at hleft
        cases hleft
      · rfl
    · rfl

/-! ### The initialisation of the status -/

theorem containsAgain_introduce : (s.introduce now).conditions.ContainsAgain c ↔ s.conditions.ContainsAgain c := by
  unfold introduce
  split
  · rfl
  · exact containsAgain_setPhase

theorem containsAgain_begun : (s.begun op now d).conditions.ContainsAgain c ↔ s.conditions.ContainsAgain c := by
  rw [begun, Conditions.containsAgain_setCondition]
  exact containsAgain_introduce

/-- A status that stays at the phase is at it once it is initialised. -/
theorem phase_begun_of_staysAt (h : s.StaysAt t) : (s.begun op now d).phase = some t := by
  obtain ⟨hphase, hhas | rfl | rfl⟩ := h
  · rw [phase_begun, if_pos hhas, hphase]
  · rw [phase_begun, next, hphase]
    simp
  · rw [phase_begun, next, hphase]
    simp

/-- Any other status that is at the phase once it is initialised has just entered `Initialized`. -/
theorem introduced_of_not_staysAt (h : ¬s.StaysAt t) (hphase : (s.begun op now d).phase = some t) :
    t = .initialized ∧ ¬s.conditions.Has .initialized ∧ s.phase ≠ some .initialized := by
  rw [phase_begun] at hphase
  split at hphase
  · rename_i hhas
    exact absurd ⟨hphase, .inl hhas⟩ h
  · rename_i hhas
    rw [next] at hphase
    split at hphase
    · rename_i hcompleted
      obtain rfl := Option.some.inj hphase
      exact absurd ⟨hcompleted, .inr (.inr rfl)⟩ h
    · obtain rfl := Option.some.inj hphase
      exact ⟨rfl, hhas, fun hinit => h ⟨hinit, .inr (.inl rfl)⟩⟩

/-- Where the status stays, its conditions stay, but for the version. -/
theorem contains_begun_of_staysAt (h : s.StaysAt c.type) (hc : c.type ≠ .versioned) :
    (s.begun op now d).conditions.Contains c ↔ s.conditions.Contains c := by
  rw [begun, Conditions.contains_setCondition_of_ne (by simpa [versionedBy] using hc)]
  obtain ⟨hphase, hhas | htype | htype⟩ := h
  · rw [introduce_of_has hhas]
  · rw [introduce_of_phase (hphase.trans (congrArg some htype))]
  · unfold introduce
    split
    · rfl
    · refine contains_setPhase_of_ne ?_ ?_
      · rw [htype]
        decide
      · rw [htype]
        rfl

/-! ### Setting a condition -/

/-- **A condition that is set** is there afterwards exactly if it says nothing that the phase does not, or was there already. -/
theorem contains_setCondition_iff (op : Operator) (now : ℕ) (d : CoherenceResource) (hstatus : c.status = .true) :
    (setCondition op now d c).1.conditions.Contains c ↔ d.status.WillContain op c := by
  rw [setCondition_eq]
  show ((d.status.begun op now d).setPhase now c.type).1.conditions.Contains c ↔ _
  by_cases hstays : d.status.StaysAt c.type
  · rw [setPhase_self (phase_begun_of_staysAt hstays)]
    by_cases htype : c.type = .versioned
    · have hversion : (d.status.begun op now d).conditions.Contains c ↔
          (c.reason = "" ∧ c.message = op.version) ∨ d.status.conditions.ContainsAgain c := by
        rw [begun, Conditions.contains_setCondition_self (by simpa [versionedBy] using htype), containsAgain_introduce]
        exact or_congr_left ⟨fun h => ⟨h.2.1.symm, h.2.2.symm⟩, fun h => ⟨hstatus.symm, h.1.symm, h.2.symm⟩⟩
      rw [hversion, WillContain]
      tauto
    · rw [contains_begun_of_staysAt hstays htype, WillContain]
      have hagain : d.status.conditions.ContainsAgain c → d.status.conditions.Contains c := by
        rintro ⟨x, hx, h⟩
        exact ⟨x, (List.mem_filter.1 (List.mem_of_mem_tail hx)).1, h⟩
      tauto
  · rw [WillContain]
    have hplain : ((d.status.begun op now d).setPhase now c.type).1.conditions.Contains c ↔
        c.IsPlain ∨ d.status.conditions.ContainsAgain c := by
      by_cases hphase : (d.status.begun op now d).phase = some c.type
      · -- `Initialized` was entered when the status was initialised
        obtain ⟨htype, hhas, hne⟩ := introduced_of_not_staysAt hstays hphase
        rw [setPhase_self hphase, begun,
          Conditions.contains_setCondition_of_ne (by rw [htype]; simp [versionedBy]), introduce, if_neg hhas, ← htype]
        exact contains_setPhase_self hstatus (by rwa [htype])
      · rw [contains_setPhase_self hstatus hphase, containsAgain_begun]
    rw [hplain]
    tauto

/-- A reason is not in the list unless it was. -/
theorem contains_of_setCondition (hstatus : c.status = .true) (hreason : c.reason ≠ "")
    (h : (setCondition op now d c).1.conditions.Contains c) : d.status.conditions.Contains c := by
  obtain ⟨-, hplain⟩ | ⟨-, -, hcontains⟩ | ⟨-, -, hplain, -⟩ | ⟨x, hx, hagain⟩ :=
    (contains_setCondition_iff op now d hstatus).1 h
  · exact absurd hplain.1 hreason
  · exact hcontains
  · exact absurd hplain hreason
  · exact ⟨x, (List.mem_filter.1 (List.mem_of_mem_tail hx)).1, hagain⟩

end CoherenceResourceStatus

/-! ### A quorum that is not met -/

/-- A resource that was created, and waits now. -/
def quorumLess : Coherence :=
  { metadata := { ns := "default", name := "storage" }, status := { phase := some .initialized } }

/-- What it waits for. -/
def quorumCondition : Condition :=
  { type := .waiting, status := .true, reason := "StatusQuorum"
    message := "Waiting for start quorum to be met: \"deployment data should have 3 ready Pods but has 0\"" }

/-- The reason is lost. -/
theorem not_contains_quorumCondition :
    ¬∀ (op : Operator) (now : ℕ) (d : CoherenceResource) (c : Condition), c.status = .true →
      (CoherenceResourceStatus.setCondition op now d c).1.conditions.Contains c := by
  intro h
  obtain ⟨x, hx, -, -, hreason, -⟩ := h default 1 quorumLess.toResource quorumCondition rfl
  have hnone : ∀ x ∈ (CoherenceResourceStatus.setCondition default 1 quorumLess.toResource quorumCondition).1.conditions,
      x.reason ≠ quorumCondition.reason := by decide +kernel
  exact hnone x hx hreason

/-- Without a reason the condition is there. -/
theorem contains_ready :
    (CoherenceResourceStatus.setCondition default 1 quorumLess.toResource { type := .ready, status := .true }).1.conditions.Contains
      { type := .ready, status := .true } :=
  (CoherenceResourceStatus.contains_setCondition_iff default 1 quorumLess.toResource rfl).2
    (.inl ⟨fun h => absurd h.1 (by decide), rfl, rfl⟩)

end CoherenceOperator
