import CoherenceOperator.Phases.Calls

/-!
# The phase and the conditions that exclude each other

An abstract status: the phase, which of the conditions that exclude each other are true, and whether the
`Initialized` condition was recorded. A move to a phase changes these three only by what they are
(`Lights.move`), and `setPhase` is this move on the lights of a status (`lights_setPhase`). Nothing else of a status, no clock
and no other condition, has a say in where the phase goes.
-/

namespace CoherenceOperator

/-- The conditions of which at most one is to be true. -/
def isExclusive : ConditionType → Bool
  | .ready | .scaling | .rollingUpgrade | .waiting | .stopped | .failed => true
  | _ => false

/-- Every phase that is turned off when it is left is exclusive; `Failed` is not turned off. -/
theorem isExclusive_iff {t : ConditionType} :
    isExclusive t = true ↔ CoherenceResourceStatus.isTransient t = true ∨ t = .failed := by
  cases t <;> simp [isExclusive, CoherenceResourceStatus.isTransient]

/-- The phase, the exclusive conditions that are true, and whether `Initialized` was recorded. -/
@[ext] structure Lights where
  phase : Option ConditionType
  on : ConditionType → Prop
  introduced : Prop

namespace Lights

open CoherenceResourceStatus (isTransient)

variable (l : Lights) {p t : ConditionType} {ts : List ConditionType}

/-- Move to a phase. -/
def move (p : ConditionType) : Lights :=
  if l.phase = some p then l
  else
    { phase := if l.phase = some .completed then some .completed else some p
      on := fun t => isExclusive t = true ∧ (t = p ∨ (l.on t ∧ ¬ (l.phase = some t ∧ isTransient t = true)))
      introduced := l.introduced ∨ p = .initialized }

/-- Move from phase to phase. -/
def moveTo (ts : List ConditionType) : Lights := ts.foldl move l

@[simp] theorem moveTo_nil : l.moveTo [] = l := rfl

@[simp] theorem moveTo_cons : l.moveTo (t :: ts) = (l.move t).moveTo ts := rfl

/-- The condition that is true is the one that the phase names. -/
def Agrees : Prop := ∀ t, l.on t → l.phase = some t

/-- No exclusive phase comes after `Completed`. -/
def Finishes : List ConditionType → Prop
  | [] => True
  | t :: ts => (t = .completed → ∀ u ∈ ts, isExclusive u = false) ∧ Finishes ts

variable {l}

theorem move_self (h : l.phase = some p) : l.move p = l := if_pos h

theorem move_of_ne (h : l.phase ≠ some p) : l.move p =
    { phase := if l.phase = some .completed then some .completed else some p
      on := fun t => isExclusive t = true ∧ (t = p ∨ (l.on t ∧ ¬ (l.phase = some t ∧ isTransient t = true)))
      introduced := l.introduced ∨ p = .initialized } := if_neg h

theorem moveTo_append (ts us : List ConditionType) : l.moveTo (ts ++ us) = (l.moveTo ts).moveTo us := List.foldl_append

/-- **One move**: from lights that agree, a move keeps the agreement unless it asks for an exclusive phase after the
completion, or leaves `Failed` behind. -/
theorem agrees_move (hl : l.Agrees) (hp : l.phase ≠ some p) :
    (l.move p).Agrees ↔ (l.phase = some .completed → isExclusive p = false) ∧ ¬ l.on .failed := by
  simp only [Agrees, move, if_neg hp]
  constructor
  · intro h
    constructor
    · intro hc
      by_contra hex
      have hon := h p ⟨by simpa using hex, Or.inl rfl⟩
      rw [if_pos hc, Option.some.injEq] at hon
      rw [← hon] at hex
      exact hex rfl
    · intro hfailed
      have hphase : l.phase = some .failed := hl _ hfailed
      have hon := h .failed ⟨rfl, Or.inr ⟨hfailed, fun h => by cases h.2⟩⟩
      rw [hphase, if_neg (by decide), Option.some.injEq] at hon
      rw [hphase, hon] at hp
      exact hp rfl
  · rintro ⟨hcompleted, hfailed⟩ t ⟨hex, rfl | ⟨hon, hoff⟩⟩
    · rw [if_neg]
      intro hc
      rw [hcompleted hc] at hex
      cases hex
    · have hphase := hl t hon
      rcases isExclusive_iff.1 hex with htrans | rfl
      · exact absurd ⟨hphase, htrans⟩ hoff
      · exact absurd hon hfailed

/-- A move to a phase that is not exclusive leaves at most `Failed` on. -/
theorem on_move_of_agrees (hl : l.Agrees) (hp : isExclusive p = false) (hon : (l.move p).on t) :
    (l.move p).phase = some t ∨ t = .failed := by
  by_cases h : l.phase = some p
  · rw [move_self h] at hon ⊢
    exact Or.inl (hl t hon)
  · rw [move_of_ne h] at hon
    obtain ⟨hex, rfl | ⟨ht, hoff⟩⟩ := hon
    · rw [hp] at hex
      cases hex
    · rcases isExclusive_iff.1 hex with htrans | hfailed
      · exact absurd ⟨hl t ht, htrans⟩ hoff
      · exact Or.inr hfailed

/-- A move to `Failed`, unless the resource is complete. -/
theorem agrees_move_failed (hl : ∀ t, l.on t → l.phase = some t ∨ t = .failed) :
    (l.move .failed).Agrees ↔ l.phase ≠ some .completed := by
  by_cases h : l.phase = some .failed
  · rw [move_self h, h]
    refine ⟨fun _ => by decide, fun _ t ht => ?_⟩
    rcases hl t ht with ht | rfl
    · exact ht
    · exact h
  · rw [move_of_ne h]
    constructor
    · intro hag hc
      have hfailed := hag .failed ⟨rfl, Or.inl rfl⟩
      rw [if_pos hc] at hfailed
      cases hfailed
    · rintro hc t ⟨hex, rfl | ⟨ht, hoff⟩⟩
      · exact if_neg hc
      · rcases hl t ht with hphase | rfl
        · rcases isExclusive_iff.1 hex with htrans | rfl
          · exact absurd ⟨hphase, htrans⟩ hoff
          · exact absurd hphase h
        · exact if_neg hc

theorem phase_move_eq_completed (hp : p ≠ .completed) :
    (l.move p).phase = some .completed ↔ l.phase = some .completed := by
  by_cases h : l.phase = some p
  · rw [move_self h]
  · rw [move_of_ne h]
    by_cases hc : l.phase = some .completed <;> simp [hc, hp]

/-- What was introduced stays introduced. -/
theorem introduced_moveTo_of_introduced (h : l.introduced) : (l.moveTo ts).introduced := by
  induction ts generalizing l with
  | nil => exact h
  | cons t ts ih =>
    refine ih ?_
    by_cases ht : l.phase = some t
    · rw [move_self ht]
      exact h
    · rw [move_of_ne ht]
      exact Or.inl h

/-- Moves to other phases do not introduce. -/
theorem introduced_moveTo (hts : .initialized ∉ ts) : (l.moveTo ts).introduced ↔ l.introduced := by
  induction ts generalizing l with
  | nil => rfl
  | cons t ts ih =>
    rw [List.mem_cons, not_or] at hts
    rw [moveTo_cons, ih hts.2]
    by_cases ht : l.phase = some t
    · rw [move_self ht]
    · rw [move_of_ne ht]
      simp [Ne.symm hts.1]

/-- Moves to other phases leave the phase `Initialized`, and do not come back. -/
theorem phase_moveTo_eq_initialized (hts : .initialized ∉ ts) :
    (l.moveTo ts).phase = some .initialized ↔ l.phase = some .initialized ∧ ts = [] := by
  induction ts generalizing l with
  | nil => simp
  | cons t ts ih =>
    rw [List.mem_cons, not_or] at hts
    have hmove : (l.move t).phase ≠ some .initialized := by
      by_cases ht : l.phase = some t
      · rw [move_self ht, ht]
        simpa using Ne.symm hts.1
      · rw [move_of_ne ht]
        dsimp only
        split
        · decide
        · simpa using Ne.symm hts.1
    rw [moveTo_cons, ih hts.2]
    simp [hmove]

/-- After the completion, a light that is on stays on. -/
theorem not_agrees_of_completed (hphase : l.phase = some .completed) (hon : l.on t) (ht : isExclusive t = true) :
    ¬ (l.moveTo ts).Agrees := by
  induction ts generalizing l with
  | nil =>
    intro h
    have hnamed : l.phase = some t := h t hon
    rw [hphase, Option.some.injEq] at hnamed
    rw [← hnamed] at ht
    cases ht
  | cons u us ih =>
    rw [moveTo_cons]
    by_cases hu : l.phase = some u
    · rw [move_self hu]
      exact ih hphase hon
    · refine ih ?_ ?_
      · rw [move, if_neg hu, if_pos hphase]
      · rw [move, if_neg hu]
        refine ⟨ht, Or.inr ⟨hon, fun h => ?_⟩⟩
        rw [hphase, Option.some.injEq] at h
        rw [← h.1] at ht
        cases ht

/-- `Failed` stays on when it is not the phase any more. -/
theorem not_agrees_of_failed (hphase : l.phase ≠ some .failed) (hon : l.on .failed) (hts : .failed ∉ ts) :
    ¬ (l.moveTo ts).Agrees := by
  induction ts generalizing l with
  | nil => exact fun h => hphase (h _ hon)
  | cons u us ih =>
    rw [List.mem_cons, not_or] at hts
    rw [moveTo_cons]
    by_cases hu : l.phase = some u
    · rw [move_self hu]
      exact ih hphase hon hts.2
    · refine ih ?_ ?_ hts.2
      · rw [move, if_neg hu]
        dsimp only
        split
        · decide
        · rw [Ne, Option.some.injEq]
          exact Ne.symm hts.1
      · rw [move, if_neg hu]
        exact ⟨rfl, Or.inr ⟨hon, fun h => hphase h.1⟩⟩

/-- **Moves**: from lights that agree, moves to phases other than `Failed` end in lights that agree exactly if
there is none when `Failed` is on, and no exclusive phase is asked for after the completion. -/
theorem agrees_moveTo (hl : l.Agrees) (hts : .failed ∉ ts) : (l.moveTo ts).Agrees ↔
    (l.on .failed → ts = []) ∧ (l.phase = some .completed → ∀ t ∈ ts, isExclusive t = false) ∧ Finishes ts := by
  induction ts generalizing l with
  | nil => simp [hl, Finishes]
  | cons p ps ih =>
    rw [List.mem_cons, not_or] at hts
    rw [moveTo_cons]
    by_cases hp : l.phase = some p
    · have hfailed : ¬ l.on .failed := by
        intro h
        have := hl _ h
        rw [hp, Option.some.injEq] at this
        exact hts.1 this.symm
      rw [move_self hp, ih hl hts.2, hp, Option.some.injEq]
      simp only [hfailed, Finishes, List.forall_mem_cons, false_implies, true_and]
      constructor
      · rintro ⟨h, hfin⟩
        exact ⟨fun hc => ⟨by rw [hc]; rfl, h hc⟩, h, hfin⟩
      · exact fun ⟨_, h⟩ => h
    · by_cases hfailed : l.on .failed
      · have hphase : (l.move p).phase ≠ some .failed := by
          rw [move, if_neg hp, hl _ hfailed]
          simpa using Ne.symm hts.1
        have hon : (l.move p).on .failed := by
          rw [move, if_neg hp]
          exact ⟨rfl, Or.inr ⟨hfailed, fun h => by cases h.2⟩⟩
        simp [not_agrees_of_failed hphase hon hts.2, hfailed]
      · have hon : ¬ (l.move p).on .failed := by
          rw [move, if_neg hp]
          rintro ⟨-, rfl | h⟩
          · exact hts.1 rfl
          · exact hfailed h.1
        by_cases hc : l.phase = some .completed
        · have hphase : (l.move p).phase = some .completed := by rw [move, if_neg hp, if_pos hc]
          by_cases hex : isExclusive p = true
          · have hp' : (l.move p).on p := by
              rw [move, if_neg hp]
              exact ⟨hex, Or.inl rfl⟩
            simp [not_agrees_of_completed hphase hp' hex, hc, hex]
          · rw [Bool.not_eq_true] at hex
            rw [ih ((agrees_move hl hp).2 ⟨fun _ => hex, hfailed⟩) hts.2, hphase, hc]
            simp only [hon, hfailed, hex, Finishes, List.forall_mem_cons, false_implies, true_and, forall_const]
            constructor
            · exact fun h => ⟨h.1, fun _ => h.1, h.2⟩
            · exact fun h => ⟨h.1, h.2.2⟩
        · have hphase : (l.move p).phase = some p := by rw [move, if_neg hp, if_neg hc]
          rw [ih ((agrees_move hl hp).2 ⟨fun h => absurd h hc, hfailed⟩) hts.2, hphase, Option.some.injEq]
          simp only [hon, hfailed, hc, Finishes, false_implies, true_and]

end Lights

/-! ### The lights of a status -/

namespace CoherenceResourceStatus

variable {op : Operator} {now : ℕ} {s : CoherenceResourceStatus} {p t : ConditionType}

/-- The lights of a status. -/
def lights (s : CoherenceResourceStatus) : Lights where
  phase := s.phase
  on := fun t => isExclusive t = true ∧ s.conditions.IsTrue t
  introduced := s.conditions.Has .initialized

/-- The lights are those of the phase and the conditions. -/
theorem lights_congr {s' : CoherenceResourceStatus} (hphase : s'.phase = s.phase) (hcs : s'.conditions = s.conditions) :
    s'.lights = s.lights := by
  rw [lights, lights, hphase, hcs]

/-- **`setPhase` is the move** on the lights of a status. -/
theorem lights_setPhase : (s.setPhase now p).1.lights = s.lights.move p := by
  by_cases h : s.phase = some p
  · rw [setPhase_self h, Lights.move_self (l := s.lights) h]
  · rw [Lights.move_of_ne (l := s.lights) h]
    ext t
    · simp only [lights]
      rw [phase_setPhase]
      exact Iff.rfl
    · simp only [lights]
      rw [isTrue_setPhase h]
      constructor
      · rintro ⟨hex, rfl | ⟨htrue, hoff⟩⟩
        · exact ⟨hex, Or.inl rfl⟩
        · exact ⟨hex, Or.inr ⟨⟨hex, htrue⟩, hoff⟩⟩
      · rintro ⟨hex, rfl | ⟨⟨-, htrue⟩, hoff⟩⟩
        · exact ⟨hex, Or.inl rfl⟩
        · exact ⟨hex, Or.inr ⟨htrue, hoff⟩⟩
    · simp only [lights]
      rw [has_setPhase rfl, or_comm, eq_comm (a := p), and_iff_left h]

theorem lights_moveTo (ts : List ConditionType) : (s.moveTo now ts).lights = s.lights.moveTo ts := by
  induction ts generalizing s with
  | nil => rfl
  | cons t ts ih => rw [moveTo_cons, ih, lights_setPhase, Lights.moveTo_cons]

/-- The phases that a call asks for, the introduction first. -/
theorem lights_begun (d : CoherenceResource) :
    (s.begun op now d).lights = s.lights.moveTo (if s.conditions.Has .initialized then [] else [.initialized]) := by
  have hversioned : (s.begun op now d).lights = (s.introduce now).lights := by
    ext t
    · rfl
    · simp only [lights, begun]
      constructor
      · rintro ⟨hex, h⟩
        refine ⟨hex, (Conditions.isTrue_setCondition_of_ne (versionedBy op) ?_).1 h⟩
        rintro rfl
        cases hex
      · rintro ⟨hex, h⟩
        refine ⟨hex, (Conditions.isTrue_setCondition_of_ne (versionedBy op) ?_).2 h⟩
        rintro rfl
        cases hex
    · simp only [lights, begun]
      rw [Conditions.has_setCondition]
      simp [versionedBy]
  rw [hversioned, introduce]
  split
  · rfl
  · rw [lights_setPhase]
    rfl

end CoherenceResourceStatus

/-- All phases that a call asks for, with the introduction. -/
def StatusCall.moves (s : CoherenceResourceStatus) (call : StatusCall) : List ConditionType :=
  (if s.conditions.Has .initialized then [] else [.initialized]) ++ call.targets s

/-- **A call moves the lights** through the phases that it asks for. -/
theorem StatusCall.lights_apply {op : Operator} {now : ℕ} {s : CoherenceResourceStatus} (call : StatusCall) :
    (call.apply op now s).1.lights = s.lights.moveTo (call.moves s) := by
  obtain ⟨r, hrphase, hrcs, hphase, hcs⟩ := call.apply_eq op now s
  rw [CoherenceResourceStatus.lights_congr hphase hcs, CoherenceResourceStatus.lights_moveTo,
    CoherenceResourceStatus.lights_congr hrphase hrcs, CoherenceResourceStatus.lights_begun, moves, Lights.moveTo_append]

end CoherenceOperator
