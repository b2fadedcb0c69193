/-!
# Runs of labelled steps

A system takes one step after the other, each with a label: what is asked of it and
what the world answers. `run` is the state after a list of steps, and `Along C` says that every
step of the run is taken in a state, with a label, that satisfies `C`.
-/

namespace Effect

variable {σ ℓ : Type}

/-- The state after the steps `ls`. -/
def run (step : σ → ℓ → σ) (s : σ) (ls : List ℓ) : σ := ls.foldl step s

@[simp] theorem run_nil (step : σ → ℓ → σ) (s : σ) : run step s [] = s := rfl

@[simp] theorem run_cons (step : σ → ℓ → σ) (s : σ) (l : ℓ) (ls : List ℓ) :
    run step s (l :: ls) = run step (step s l) ls := rfl

/-- Every step of the run satisfies `C`. -/
def Along (step : σ → ℓ → σ) (C : σ → ℓ → Prop) (s : σ) : List ℓ → Prop
  | [] => True
  | l :: ls => C s l ∧ Along step C (step s l) ls

/-- What a step that satisfies `C` keeps, a run all of whose steps satisfy `C` keeps. -/
theorem Along.invariant {step : σ → ℓ → σ} {C : σ → ℓ → Prop} {I : σ → Prop}
    (hstep : ∀ s l, I s → C s l → I (step s l)) {s : σ} {ls : List ℓ} (h : Along step C s ls) (hs : I s) :
    I (run step s ls) := by
  induction ls generalizing s with
  | nil => exact hs
  | cons l ls ih => exact ih h.2 (hstep s l hs h.1)

/-- Where `I` is kept, and a step from `I` that satisfies `C` satisfies `D`, all steps of a run satisfy `D` that satisfy `C`. -/
theorem Along.mono_of_invariant {step : σ → ℓ → σ} {C D : σ → ℓ → Prop} {I : σ → Prop}
    (hstep : ∀ s l, I s → C s l → I (step s l)) (hD : ∀ s l, I s → C s l → D s l) {s : σ} {ls : List ℓ}
    (h : Along step C s ls) (hs : I s) : Along step D s ls := by
  induction ls generalizing s with
  | nil => trivial
  | cons l ls ih => exact ⟨hD s l hs h.1, ih h.2 (hstep s l hs h.1)⟩

/-- A run that goes on with a second list of steps. -/
theorem along_append {step : σ → ℓ → σ} {C : σ → ℓ → Prop} {s : σ} {ls ls' : List ℓ} :
    Along step C s (ls ++ ls') ↔ Along step C s ls ∧ Along step C (run step s ls) ls' := by
  induction ls generalizing s with
  | nil => simp [Along]
  | cons l ls ih => simp [Along, ih, and_assoc]

/-- A condition that every step satisfies. -/
theorem along_of_forall {step : σ → ℓ → σ} {C : σ → ℓ → Prop} (h : ∀ s l, C s l) (s : σ) (ls : List ℓ) :
    Along step C s ls := by
  induction ls generalizing s with
  | nil => trivial
  | cons l ls ih => exact ⟨h s l, ih _⟩

/-- What every step of the run keeps, the run keeps. -/
theorem run_invariant {step : σ → ℓ → σ} {I : σ → Prop} {ls : List ℓ}
    (hstep : ∀ l ∈ ls, ∀ s, I s → I (step s l)) {s : σ} (hs : I s) : I (run step s ls) := by
  induction ls generalizing s with
  | nil => exact hs
  | cons l ls ih =>
    exact ih (fun l' hl' => hstep l' (List.mem_cons_of_mem _ hl')) (hstep l List.mem_cons_self s hs)

/-- `I` holds of the first state and after each of the steps. -/
def Always (step : σ → ℓ → σ) (I : σ → Prop) (s : σ) (ls : List ℓ) : Prop := ∀ n, I (run step s (ls.take n))

theorem always_cons {step : σ → ℓ → σ} {I : σ → Prop} {s : σ} {l : ℓ} {ls : List ℓ} :
    Always step I s (l :: ls) ↔ I s ∧ Always step I (step s l) ls := by
  constructor
  · exact fun h => ⟨h 0, fun n => h (n + 1)⟩
  · rintro ⟨hs, h⟩ (_ | n)
    · exact hs
    · exact h n

/-- Two conditions that every step satisfies. -/
theorem Along.and {step : σ → ℓ → σ} {C D : σ → ℓ → Prop} {s : σ} {ls : List ℓ} (hC : Along step C s ls)
    (hD : Along step D s ls) : Along step (fun s l => C s l ∧ D s l) s ls := by
  induction ls generalizing s with
  | nil => trivial
  | cons l ls ih => exact ⟨⟨hC.1, hD.1⟩, ih hC.2 hD.2⟩

/-- What a step that satisfies `C` keeps is kept all along a run of such steps. -/
theorem Along.always {step : σ → ℓ → σ} {C : σ → ℓ → Prop} {I : σ → Prop}
    (hstep : ∀ s l, I s → C s l → I (step s l)) {s : σ} {ls : List ℓ} (h : Along step C s ls) (hs : I s) :
    Always step I s ls := by
  induction ls generalizing s with
  | nil =>
    intro n
    simpa using hs
  | cons l ls ih => exact always_cons.2 ⟨hs, ih h.2 (hstep s l hs h.1)⟩

/-- **Exactly these runs**: where a step that meets `P` keeps `I` exactly if it satisfies `C`, a run whose steps meet `P`
is always in `I` exactly if all its steps satisfy `C`. -/
theorem always_iff_along {step : σ → ℓ → σ} {P C : σ → ℓ → Prop} {I : σ → Prop}
    (hstep : ∀ s l, I s → P s l → (I (step s l) ↔ C s l)) {s : σ} {ls : List ℓ} (hP : Along step P s ls) (hs : I s) :
    Always step I s ls ↔ Along step C s ls := by
  induction ls generalizing s with
  | nil => simp [Always, Along, hs]
  | cons l ls ih =>
    rw [always_cons]
    constructor
    · rintro ⟨-, h⟩
      have hl : I (step s l) := h 0
      exact ⟨(hstep s l hs hP.1).1 hl, (ih hP.2 hl).1 h⟩
    · rintro ⟨hC, h⟩
      have hl : I (step s l) := (hstep s l hs hP.1).2 hC
      exact ⟨hs, (ih hP.2 hl).2 h⟩

/-! ### Single steps of a run -/

/-- The step with this number satisfies `P`. -/
def At (step : σ → ℓ → σ) (P : σ → ℓ → Prop) (s : σ) (ls : List ℓ) (i : Nat) : Prop :=
  ∃ l, ls[i]? = some l ∧ P (run step s (ls.take i)) l

section Latch

variable {step : σ → ℓ → σ} {C P R : σ → ℓ → Prop} {I : σ → Prop} {s : σ} {l : ℓ} {ls : List ℓ} {i j : Nat}

theorem at_cons_zero : At step P s (l :: ls) 0 ↔ P s l := by simp [At]

theorem at_cons_succ : At step P s (l :: ls) (i + 1) ↔ At step P (step s l) ls i := by simp [At]

theorem not_at_nil : ¬ At step P s [] i := by simp [At]

/-- In a state in which no `P` is possible, an `R` comes before the next `P`. -/
theorem exists_at_of_latched (hkeep : ∀ s l, C s l → I s → ¬ R s l → I (step s l) ∧ ¬ P s l) (h : Along step C s ls) (hs : I s)
    (hj : At step P s ls j) : ∃ k, k ≤ j ∧ At step R s ls k := by
  induction ls generalizing s j with
  | nil => exact absurd hj not_at_nil
  | cons l ls ih =>
    obtain ⟨hl, hls⟩ := h
    by_cases hR : R s l
    · exact ⟨0, Nat.zero_le j, at_cons_zero.2 hR⟩
    obtain ⟨hnext, hnot⟩ := hkeep s l hl hs hR
    cases j with
    | zero => exact absurd (at_cons_zero.1 hj) hnot
    | succ j =>
      obtain ⟨k, hk, hat⟩ := ih hls hnext (at_cons_succ.1 hj)
      exact ⟨k + 1, by omega, at_cons_succ.2 hat⟩

/-- **A latch**: where `P` leads to a state in which no `P` is possible until there is an `R`, there is an `R` between any two
`P`. -/
theorem Along.exists_at_between (hset : ∀ s l, C s l → P s l → I (step s l))
    (hkeep : ∀ s l, C s l → I s → ¬ R s l → I (step s l) ∧ ¬ P s l) (h : Along step C s ls) (hij : i < j)
    (hi : At step P s ls i) (hj : At step P s ls j) : ∃ k, i < k ∧ k ≤ j ∧ At step R s ls k := by
  induction ls generalizing s i j with
  | nil => exact absurd hi not_at_nil
  | cons l ls ih =>
    obtain ⟨hl, hls⟩ := h
    obtain ⟨j, rfl⟩ : ∃ j', j = j' + 1 := ⟨j - 1, by omega⟩
    have hj := at_cons_succ.1 hj
    cases i with
    | zero =>
      obtain ⟨k, hk, hat⟩ := exists_at_of_latched hkeep hls (hset s l hl (at_cons_zero.1 hi)) hj
      exact ⟨k + 1, by omega, by omega, at_cons_succ.2 hat⟩
    | succ i =>
      obtain ⟨k, hik, hkj, hat⟩ := ih hls (by omega) (at_cons_succ.1 hi) hj
      exact ⟨k + 1, by omega, by omega, at_cons_succ.2 hat⟩

end Latch

end Effect
