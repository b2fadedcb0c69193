import Mathlib.Logic.Relation

/-!
# Programs that fail and leave their effects behind

A `Prog σ ε α` reads and changes a state `σ`, and either returns an `α` or fails
with an `ε`; a failure does not undo what was done before it. Programs change the
state by *acts* only (`Acts.act`), so what a program can do is said once, as the
set of acts it performs (`Does`), and every invariant of the state is then a fact
about acts.

* `exec` runs a program, `Wp` states what holds of its result and its final state;
* `Does A x`: from every state, `x` goes to its final state by acts of `A`;
* `Along` and `run`: sequences of labelled steps, and the invariants they keep.
-/

namespace Effect

/-- A program over the state `σ` that returns an `α` or fails with an `ε`. -/
abbrev Prog (σ ε α : Type) := ExceptT ε (StateM σ) α

namespace Prog

variable {σ ε α β : Type}

/-- Run a program from a state. -/
def exec (x : Prog σ ε α) (s : σ) : Except ε α × σ := x.run.run s

/-- Run a program and hand its outcome over, failure or not. -/
def observe (x : Prog σ ε α) : Prog σ ε (Except ε α) := fun s => (.ok (exec x s).1, (exec x s).2)

@[simp] theorem exec_pure (a : α) (s : σ) : exec (pure a : Prog σ ε α) s = (.ok a, s) := rfl

@[simp] theorem exec_throw (e : ε) (s : σ) : exec (throw e : Prog σ ε α) s = (.error e, s) := rfl

@[simp] theorem exec_get (s : σ) : exec (get : Prog σ ε σ) s = (.ok s, s) := rfl

@[simp] theorem exec_modify (f : σ → σ) (s : σ) : exec (modify f : Prog σ ε Unit) s = (.ok (), f s) := rfl

@[simp] theorem exec_observe (x : Prog σ ε α) (s : σ) :
    exec (observe x) s = (.ok (exec x s).1, (exec x s).2) := rfl

@[simp] theorem exec_ite (c : Prop) [Decidable c] (x y : Prog σ ε α) (s : σ) :
    exec (if c then x else y) s = if c then exec x s else exec y s := by split <;> rfl

theorem exec_bind (x : Prog σ ε α) (f : α → Prog σ ε β) (s : σ) :
    exec (x >>= f) s =
      match exec x s with
      | (.ok a, s') => exec (f a) s'
      | (.error e, s') => (.error e, s') := by
  show (do let r ← x.run; match r with
        | .ok a => (f a).run
        | .error e => pure (.error e) : StateM σ (Except ε β)).run s = _
  simp only [exec, StateT.run_bind]
  rcases h : x.run.run s with ⟨r, s'⟩
  cases r <;> simp <;> rfl

theorem exec_bind_ok {x : Prog σ ε α} {f : α → Prog σ ε β} {s s' : σ} {a : α}
    (h : exec x s = (.ok a, s')) : exec (x >>= f) s = exec (f a) s' := by
  rw [exec_bind, h]

theorem exec_bind_error {x : Prog σ ε α} {f : α → Prog σ ε β} {s s' : σ} {e : ε}
    (h : exec x s = (.error e, s')) : exec (x >>= f) s = (.error e, s') := by
  rw [exec_bind, h]

/-- A bind that returns: both halves returned. -/
theorem exec_bind_eq_ok {x : Prog σ ε α} {f : α → Prog σ ε β} {s s' : σ} {b : β} :
    exec (x >>= f) s = (.ok b, s') ↔ ∃ a u, exec x s = (.ok a, u) ∧ exec (f a) u = (.ok b, s') := by
  rw [exec_bind]
  rcases exec x s with ⟨_ | a, u⟩
  · simp
  · constructor
    · exact fun h => ⟨a, u, rfl, h⟩
    · rintro ⟨_, _, ⟨⟩, h⟩
      exact h

theorem map_eq_ok {x : Except ε α} {f : α → β} {b : β} : x.map f = .ok b ↔ ∃ a, x = .ok a ∧ f a = b := by
  cases x with
  | error e => simp [Except.map]
  | ok a => simp [Except.map]

/-- An outcome of two parts: both returned. -/
theorem bind_eq_ok {x : Except ε α} {f : α → Except ε β} {b : β} :
    (x >>= f) = .ok b ↔ ∃ a, x = .ok a ∧ f a = .ok b := by
  cases x with
  | error e =>
    constructor
    · intro h
      cases h
    · rintro ⟨_, h, _⟩
      cases h
  | ok a =>
    constructor
    · exact fun h => ⟨a, rfl, h⟩
    · rintro ⟨_, ⟨⟩, h⟩
      exact h

/-- Run a value that is already an outcome. -/
def outcome (r : Except ε α) : Prog σ ε α := fun s => (r, s)

@[simp] theorem exec_outcome (r : Except ε α) (s : σ) : exec (outcome r) s = (r, s) := rfl

/-- An outcome handed over as a value, unless it is a failure that is `fatal`. -/
def caught (fatal : ε → Bool) : Except ε α → Except ε (Except ε α)
  | .ok a => .ok (.ok a)
  | .error e => if fatal e then .error e else .ok (.error e)

/-- An outcome with another failure, unless it is `fatal`. -/
def wrapped (fatal : ε → Bool) (f : ε → ε) : Except ε α → Except ε α
  | .ok a => .ok a
  | .error e => .error (if fatal e then e else f e)

/-- Run a program and hand its outcome over, unless it fails in a way that is `fatal`. -/
def attempt (fatal : ε → Bool) (x : Prog σ ε α) : Prog σ ε (Except ε α) :=
  fun s => (caught fatal (exec x s).1, (exec x s).2)

/-- Run a program and change its failures, unless they are `fatal`. -/
def mapError (fatal : ε → Bool) (f : ε → ε) (x : Prog σ ε α) : Prog σ ε α :=
  fun s => (wrapped fatal f (exec x s).1, (exec x s).2)

@[simp] theorem exec_attempt (fatal : ε → Bool) (x : Prog σ ε α) (s : σ) :
    exec (attempt fatal x) s = (caught fatal (exec x s).1, (exec x s).2) := rfl

@[simp] theorem exec_mapError (fatal : ε → Bool) (f : ε → ε) (x : Prog σ ε α) (s : σ) :
    exec (mapError fatal f x) s = (wrapped fatal f (exec x s).1, (exec x s).2) := rfl

@[simp] theorem caught_ok (fatal : ε → Bool) (a : α) : caught fatal (.ok a : Except ε α) = .ok (.ok a) := rfl

@[simp] theorem wrapped_ok (fatal : ε → Bool) (f : ε → ε) (a : α) :
    wrapped fatal f (.ok a : Except ε α) = .ok a := rfl

theorem caught_error {fatal : ε → Bool} {e : ε} (h : fatal e = false) :
    caught fatal (.error e : Except ε α) = .ok (.error e) := by
  simp [caught, h]

/-- What is handed over is the outcome. -/
theorem eq_of_caught_eq_ok {fatal : ε → Bool} {r r' : Except ε α} (h : caught fatal r = .ok r') : r = r' := by
  cases r with
  | ok a => simpa [caught] using h
  | error e => cases hf : fatal e <;> simp_all [caught]

@[simp] theorem wrapped_eq_ok {fatal : ε → Bool} {f : ε → ε} {r : Except ε α} {a : α} :
    wrapped fatal f r = .ok a ↔ r = .ok a := by
  cases r <;> simp [wrapped]

/-! ### Weakest preconditions -/

/-- `Wp x Q s`: run from `s`, the program `x` ends with an outcome and a state that satisfy `Q`. -/
def Wp (x : Prog σ ε α) (Q : Except ε α → σ → Prop) (s : σ) : Prop := Q (exec x s).1 (exec x s).2

/-- Every value that `x` returns satisfies `P`. -/
def Returns (x : Prog σ ε α) (P : α → Prop) : Prop := ∀ s a, (exec x s).1 = .ok a → P a

namespace Returns

variable {x : Prog σ ε α} {P : α → Prop}

theorem pure {a : α} (h : P a) : Returns (Pure.pure a : Prog σ ε α) P := by
  rintro s _ ⟨⟩
  exact h

theorem outcome {r : Except ε α} (h : ∀ a, r = .ok a → P a) : Returns (Prog.outcome r : Prog σ ε α) P :=
  fun _ a ha => h a ha

theorem mapError {fatal : ε → Bool} {g : ε → ε} (h : Returns x P) : Returns (Prog.mapError fatal g x) P := by
  intro s a ha
  exact h s a (wrapped_eq_ok.1 ha)

theorem attempt {fatal : ε → Bool} (h : Returns x P) :
    Returns (Prog.attempt fatal x) fun r => ∀ a, r = .ok a → P a := by
  rintro s r hr a rfl
  exact h s a (eq_of_caught_eq_ok hr)

theorem bind {f : α → Prog σ ε β} {Q : β → Prop} (hx : Returns x P) (hf : ∀ a, P a → Returns (f a) Q) :
    Returns (x >>= f) Q := by
  intro s b hb
  rcases h : exec x s with ⟨e | a, u⟩
  · rw [exec_bind_error h] at hb
    cases hb
  · rw [exec_bind_ok h] at hb
    exact hf a (hx s a (by rw [h])) u b hb

/-- What is returned whatever the first half returns. -/
theorem bind' {f : α → Prog σ ε β} {Q : β → Prop} (hf : ∀ a, Returns (f a) Q) : Returns (x >>= f) Q :=
  bind (P := fun _ => True) (fun _ _ _ => trivial) fun a _ => hf a

end Returns

namespace Wp

variable {x : Prog σ ε α} {f : α → Prog σ ε β} {s : σ}

theorem mono {Q Q' : Except ε α → σ → Prop} (h : Wp x Q s) (hQ : ∀ r s', Q r s' → Q' r s') : Wp x Q' s :=
  hQ _ _ h

theorem and {Q Q' : Except ε α → σ → Prop} (h : Wp x Q s) (h' : Wp x Q' s) :
    Wp x (fun r u => Q r u ∧ Q' r u) s := ⟨h, h'⟩

/-- The outcome and the state of a run, and what they satisfy. -/
theorem elim {Q : Except ε α → σ → Prop} (h : Wp x Q s) {r : Except ε α} {s' : σ}
    (hx : exec x s = (r, s')) : Q r s' := by
  rw [Wp, hx] at h
  exact h

/-- **Sequencing**: the second half runs where the first returned, and a failure of the first half is a failure
of the whole. -/
theorem bind {P : Except ε α → σ → Prop} {Q : Except ε β → σ → Prop} (hx : Wp x P s)
    (hf : ∀ a u, P (.ok a) u → Wp (f a) Q u) (he : ∀ e u, P (.error e) u → Q (.error e) u) :
    Wp (x >>= f) Q s := by
  rcases h : exec x s with ⟨e | a, u⟩
  · rw [Wp, exec_bind_error h]
    exact he e u (hx.elim h)
  · rw [Wp, exec_bind_ok h]
    exact hf a u (hx.elim h)

/-- Sequencing, where the first half returns. -/
theorem bind_ok {Q : Except ε β → σ → Prop} {a : α} {u : σ} (hx : exec x s = (.ok a, u)) (hf : Wp (f a) Q u) :
    Wp (x >>= f) Q s := by
  rw [Wp, exec_bind_ok hx]
  exact hf

/-- Sequencing, where the first half is an outcome. -/
theorem outcome_bind {r : Except ε α} {Q : Except ε β → σ → Prop} (hok : ∀ a, r = .ok a → Wp (f a) Q s)
    (herr : ∀ e, r = .error e → Q (.error e) s) : Wp (outcome r >>= f) Q s := by
  cases r with
  | ok a => exact bind_ok (exec_outcome _ _) (hok a rfl)
  | error e =>
    rw [Wp, exec_bind_error (exec_outcome _ _)]
    exact herr e rfl

/-- A failure that is not fatal is handed over. -/
theorem attempt {fatal : ε → Bool} {Q : Except ε (Except ε α) → σ → Prop}
    (h : Wp x (fun r u => Q (caught fatal r) u) s) : Wp (Prog.attempt fatal x) Q s := h

theorem mapError {fatal : ε → Bool} {g : ε → ε} {Q : Except ε α → σ → Prop}
    (h : Wp x (fun r u => Q (wrapped fatal g r) u) s) : Wp (Prog.mapError fatal g x) Q s := h

/-! A postcondition that asks nothing of a failure but what it asks of the state. -/

/-- A value and a state that satisfy `Q`, or a failure in a state that satisfies `E`. -/
def Ends (Q : α → σ → Prop) (E : σ → Prop) : Except ε α → σ → Prop
  | .ok a, s => Q a s
  | .error _, s => E s

variable {Q : α → σ → Prop} {E : σ → Prop}

@[simp] theorem ends_ok {a : α} : Ends Q E (.ok a : Except ε α) s ↔ Q a s := Iff.rfl

@[simp] theorem ends_error {e : ε} : Ends Q E (.error e : Except ε α) s ↔ E s := Iff.rfl

/-- What holds of every final state, together with what is known of the value. -/
theorem ends_of_returns {P : σ → Prop} {V : α → Prop} (h : Wp x (fun _ u => P u) s) (hv : Returns x V) :
    Wp x (Ends (fun a u => P u ∧ V a) P) s := by
  rcases hx : exec x s with ⟨e | a, u⟩
  · rw [Wp, hx]
    exact h.elim hx
  · rw [Wp, hx]
    exact ⟨h.elim hx, hv s a (by rw [hx])⟩

/-- What holds of every final state. -/
theorem ends {P : σ → Prop} (h : Wp x (fun _ u => P u) s) : Wp x (Ends (fun _ => P) P) s :=
  Wp.mono (ends_of_returns (V := fun _ => True) h fun _ _ _ => trivial) fun r _ hr => by
    cases r with
    | ok a => exact hr.1
    | error e => exact hr

/-- A change of the failure does not matter. -/
theorem mapError_ends {fatal : ε → Bool} {g : ε → ε} (h : Wp x (Ends Q E) s) :
    Wp (Prog.mapError fatal g x) (Ends Q E) s := by
  refine Wp.mapError (Wp.mono h fun r u hr => ?_)
  cases r with
  | ok a => exact hr
  | error e => exact hr

/-- Sequencing: the second half runs from a state of the first. -/
theorem bind_ends {R : Except ε β → σ → Prop} (hx : Wp x (Ends Q E) s) (hf : ∀ a u, Q a u → Wp (f a) R u)
    (he : ∀ e u, E u → R (.error e) u) : Wp (x >>= f) R s := Wp.bind hx hf he

/-- What is handed over is the value, or a failure. -/
theorem attempt_bind_ends {fatal : ε → Bool} {k : Except ε α → Prog σ ε β} {R : Except ε β → σ → Prop}
    (hx : Wp x (Ends Q E) s) (hok : ∀ a u, Q a u → Wp (k (.ok a)) R u)
    (herr : ∀ e u, E u → Wp (k (.error e)) R u ∧ R (.error e) u) : Wp (Prog.attempt fatal x >>= k) R s := by
  rcases h : exec x s with ⟨e | a, u⟩
  · have hE : E u := hx.elim h
    rw [Wp, exec_bind, exec_attempt, h]
    cases hf : fatal e with
    | true =>
      simp only [caught, hf, if_true]
      exact (herr e u hE).2
    | false =>
      rw [caught_error hf]
      exact (herr e u hE).1
  · have hQ : Q a u := hx.elim h
    rw [Wp, exec_bind, exec_attempt, h]
    exact hok a u hQ

end Wp

/-! ### Invariants -/

/-- `Keeps I x`: run from a state that satisfies `I`, the program `x` ends in one that does. -/
def Keeps (I : σ → Prop) (x : Prog σ ε α) : Prop := ∀ s, I s → I (exec x s).2

namespace Keeps

variable {I : σ → Prop} {x : Prog σ ε α} {f : α → Prog σ ε β}

theorem pure (a : α) : Keeps I (Pure.pure a : Prog σ ε α) := fun _ hs => hs

theorem throw (e : ε) : Keeps I (MonadExcept.throw e : Prog σ ε α) := fun _ hs => hs

theorem outcome (r : Except ε α) : Keeps I (Prog.outcome r : Prog σ ε α) := fun _ hs => hs

/-- Sequencing, with what is known of the value that is handed over. -/
theorem bind_of {P : α → Prop} (hx : Keeps I x) (hP : Returns x P) (hf : ∀ a, P a → Keeps I (f a)) :
    Keeps I (x >>= f) := fun s hs => by
  have h := hx s hs
  rcases hr : exec x s with ⟨e | a, u⟩
  · rw [exec_bind_error hr]
    rw [hr] at h
    exact h
  · rw [exec_bind_ok hr]
    rw [hr] at h
    exact hf a (hP s a (by rw [hr])) u h

theorem bind (hx : Keeps I x) (hf : ∀ a, Keeps I (f a)) : Keeps I (x >>= f) :=
  bind_of (P := fun _ => True) hx (fun _ _ _ => trivial) fun a _ => hf a

/-- It does not matter where the brackets are. -/
theorem bind_assoc {γ : Type} {g : β → Prog σ ε γ} (h : Keeps I (x >>= f >>= g)) : Keeps I (x >>= fun a => f a >>= g) := by
  intro s hs
  have hs' := h s hs
  rcases hx : exec x s with ⟨e | a, u⟩
  · rw [exec_bind_error (exec_bind_error hx)] at hs'
    rw [exec_bind_error hx]
    exact hs'
  · rw [exec_bind, exec_bind_ok hx] at hs'
    rw [exec_bind_ok hx, exec_bind]
    exact hs'

theorem attempt {fatal : ε → Bool} (hx : Keeps I x) : Keeps I (Prog.attempt fatal x) := fun s hs => hx s hs

theorem mapError {fatal : ε → Bool} {g : ε → ε} (hx : Keeps I x) : Keeps I (Prog.mapError fatal g x) :=
  fun s hs => hx s hs

theorem ite {c : Prop} [Decidable c] {y : Prog σ ε α} (hx : c → Keeps I x) (hy : ¬ c → Keeps I y) :
    Keeps I (if c then x else y) := by
  split
  · exact hx ‹_›
  · exact hy ‹_›

/-- What each step of a loop keeps, the loop keeps. -/
theorem forM {γ : Type} {g : γ → Prog σ ε PUnit} {cs : List γ} (hg : ∀ c ∈ cs, Keeps I (g c)) : Keeps I (ForM.forM cs g) := by
  induction cs with
  | nil => exact pure _
  | cons c cs ih =>
    rw [List.forM_cons]
    exact (hg c List.mem_cons_self).bind fun _ => ih fun c' hc' => hg c' (List.mem_cons_of_mem _ hc')

end Keeps

end Prog

/-! ### Loops none of whose steps fails -/

section Loops

variable {σ ε γ : Type} {f : γ → Prog σ ε PUnit} {I : σ → Prop}

open Prog

theorem exec_forM_cons {c : γ} {cs : List γ} {s : σ} (h : (exec (f c) s).1 = .ok ⟨⟩) :
    exec (ForM.forM (c :: cs) f) s = exec (ForM.forM cs f) (exec (f c) s).2 := by
  rw [List.forM_cons]
  exact exec_bind_ok (Prod.ext h rfl)

/-- What every step keeps is kept, and no step fails. -/
theorem wp_forM_of_keeps {cs : List γ} (hok : ∀ c s, (exec (f c) s).1 = .ok ⟨⟩) (hkeep : ∀ c ∈ cs, Keeps I (f c)) {s : σ}
    (hs : I s) : Wp (ForM.forM cs f) (fun r u => r = .ok ⟨⟩ ∧ I u) s := by
  induction cs generalizing s with
  | nil => exact ⟨rfl, hs⟩
  | cons c cs ih =>
    rw [Wp, exec_forM_cons (hok c s)]
    exact ih (fun c' hc' => hkeep c' (List.mem_cons_of_mem _ hc')) (hkeep c List.mem_cons_self s hs)

/-- What one of the steps establishes, and every step keeps, holds at the end. -/
theorem wp_forM_of_mem {cs : List γ} {c : γ} (hc : c ∈ cs) (hok : ∀ c s, (exec (f c) s).1 = .ok ⟨⟩)
    (hkeep : ∀ c ∈ cs, Keeps I (f c)) (hstep : ∀ s, I (exec (f c) s).2) {s : σ} :
    Wp (ForM.forM cs f) (fun r u => r = .ok ⟨⟩ ∧ I u) s := by
  induction cs generalizing s with
  | nil => cases hc
  | cons c' cs ih =>
    have hkeep' : ∀ x ∈ cs, Keeps I (f x) := fun x hx => hkeep x (List.mem_cons_of_mem _ hx)
    rw [Wp, exec_forM_cons (hok c' s)]
    rcases List.mem_cons.1 hc with rfl | hc
    · exact wp_forM_of_keeps hok hkeep' (hstep s)
    · exact ih hc hkeep'

/-- Where every step succeeds and keeps `I`, and what one step establishes the others keep, all of it holds at the end. -/
theorem wp_forM_of_establishes {P : γ → σ → Prop} {cs : List γ}
    (hstep : ∀ c ∈ cs, ∀ s, I s → Wp (f c) (fun r u => r = .ok ⟨⟩ ∧ I u ∧ P c u) s)
    (hkeep : ∀ c ∈ cs, ∀ c' ∈ cs, Keeps (P c') (f c)) {s : σ} (hs : I s) :
    Wp (ForM.forM cs f) (fun r u => r = .ok ⟨⟩ ∧ I u ∧ ∀ c ∈ cs, P c u) s := by
  induction cs generalizing s I with
  | nil => exact ⟨rfl, hs, fun _ hc => absurd hc List.not_mem_nil⟩
  | cons c cs ih =>
    obtain ⟨hok, hI, hc⟩ := hstep c List.mem_cons_self s hs
    rw [Wp, exec_forM_cons hok]
    -- what the first step established is kept by the rest
    obtain ⟨hrest, ⟨hI', hc'⟩, hall⟩ := ih (I := fun s => I s ∧ P c s)
      (fun x hx t ht => by
        obtain ⟨hx₁, hx₂, hx₃⟩ := hstep x (List.mem_cons_of_mem _ hx) t ht.1
        exact ⟨hx₁, ⟨hx₂, hkeep x (List.mem_cons_of_mem _ hx) c List.mem_cons_self t ht.2⟩, hx₃⟩)
      (fun x hx y hy => hkeep x (List.mem_cons_of_mem _ hx) y (List.mem_cons_of_mem _ hy)) ⟨hI, hc⟩
    exact ⟨hrest, hI', List.forall_mem_cons.2 ⟨hc', hall⟩⟩

end Loops

/-! ### Acts -/

/-- The ways in which the state can change. -/
class Acts (σ : Type) (ι : outParam Type) where
  /-- The state after an act. -/
  act : ι → σ → σ

section Does

variable {σ ι ε α β : Type} [Acts σ ι]

open Relation Prog

/-- Do one act. -/
def perform (a : ι) : Prog σ ε Unit := modify (Acts.act a)

@[simp] theorem exec_perform (a : ι) (s : σ) :
    exec (perform a : Prog σ ε Unit) s = (.ok (), Acts.act a s) := rfl

/-- `Path A s s'`: acts of `A`, one after the other, lead from `s` to `s'`. -/
def Path (A : ι → Prop) : σ → σ → Prop := ReflTransGen fun s s' => ∃ a, A a ∧ s' = Acts.act a s

theorem Path.mono {A B : ι → Prop} (h : ∀ a, A a → B a) {s s' : σ} (p : Path A s s') : Path B s s' :=
  ReflTransGen.mono (fun _ _ hst => hst.imp fun a ha => ⟨h a ha.1, ha.2⟩) _ _ p

/-- What every act of `A` keeps, a path keeps. -/
theorem Path.invariant {A : ι → Prop} {I : σ → Prop} (h : ∀ a s, A a → I s → I (Acts.act a s)) {s s' : σ}
    (p : Path A s s') (hs : I s) : I s' := by
  induction p with
  | refl => exact hs
  | tail _ hstep ih =>
    obtain ⟨a, ha, rfl⟩ := hstep
    exact h a _ ha ih

/-- What no act of `A` changes, a path does not change. -/
theorem Path.unchanged {A : ι → Prop} {γ : Sort*} {f : σ → γ} (h : ∀ a s, A a → f (Acts.act a s) = f s)
    {s s' : σ} (p : Path A s s') : f s' = f s :=
  p.invariant (I := fun u => f u = f s) (fun a u ha hu => (h a u ha).trans hu) rfl

/-- `Does A x`: from every state, the program `x` gets to its final state by acts of `A`. -/
def Does (A : ι → Prop) (x : Prog σ ε α) : Prop := ∀ s, Path A s (exec x s).2

namespace Does

variable {A B : ι → Prop} {x : Prog σ ε α} {f : α → Prog σ ε β}

theorem mono (h : Does A x) (hAB : ∀ a, A a → B a) : Does B x := fun s => Path.mono hAB (h s)

/-- A program that leaves the state alone does nothing. -/
theorem idle (h : ∀ s, (exec x s).2 = s) : Does A x := fun s => by
  rw [h s]
  exact ReflTransGen.refl

theorem pure (a : α) : Does A (Pure.pure a : Prog σ ε α) := idle fun _ => rfl

theorem throw (e : ε) : Does A (MonadExcept.throw e : Prog σ ε α) := idle fun _ => rfl

theorem get : Does A (MonadState.get : Prog σ ε σ) := idle fun _ => rfl

theorem outcome (r : Except ε α) : Does A (Prog.outcome r : Prog σ ε α) := idle fun _ => rfl

theorem perform {a : ι} (h : A a) : Does A (Effect.perform a : Prog σ ε Unit) :=
  fun _ => ReflTransGen.single ⟨a, h, rfl⟩

theorem bind (hx : Does A x) (hf : ∀ a, Does A (f a)) : Does A (x >>= f) := fun s => by
  have h := hx s
  rw [exec_bind]
  rcases hs : exec x s with ⟨_ | a, u⟩
  · rw [hs] at h
    exact h
  · rw [hs] at h
    exact h.trans (hf a u)

/-- Sequencing, with what is known of the value that is handed over. -/
theorem bind_of {P : α → Prop} (hx : Does A x) (hP : Returns x P) (hf : ∀ a, P a → Does A (f a)) :
    Does A (x >>= f) := fun s => by
  have h := hx s
  rcases hs : exec x s with ⟨e | a, u⟩
  · rw [exec_bind_error hs]
    rw [hs] at h
    exact h
  · rw [exec_bind_ok hs]
    rw [hs] at h
    exact h.trans (hf a (hP s a (by rw [hs])) u)

theorem observe (hx : Does A x) : Does A (Prog.observe x) := fun s => hx s

theorem attempt {fatal : ε → Bool} (hx : Does A x) : Does A (Prog.attempt fatal x) := fun s => hx s

theorem mapError {fatal : ε → Bool} {g : ε → ε} (hx : Does A x) : Does A (Prog.mapError fatal g x) :=
  fun s => hx s

theorem ite {c : Prop} [Decidable c] {y : Prog σ ε α} (hx : c → Does A x) (hy : ¬ c → Does A y) :
    Does A (if c then x else y) := by
  split
  · exact hx ‹_›
  · exact hy ‹_›

theorem forM {γ : Type} {g : γ → Prog σ ε PUnit} {cs : List γ} (h : ∀ c ∈ cs, Does A (g c)) :
    Does A (ForM.forM cs g) := by
  induction cs with
  | nil => exact pure _
  | cons c cs ih =>
    rw [List.forM_cons]
    exact (h c List.mem_cons_self).bind fun _ => ih fun c' hc' => h c' (List.mem_cons_of_mem _ hc')

/-- What is kept by the acts of a program is kept by it. -/
theorem keeps (hx : Does A x) {I : σ → Prop} (h : ∀ a s, A a → I s → I (Acts.act a s)) : Keeps I x :=
  fun s hs => (hx s).invariant h hs

/-- A path is gone on with. -/
theorem keeps_path (hx : Does A x) {s : σ} : Keeps (Path A s) x := fun u p => ReflTransGen.trans p (hx u)

/-- A program that keeps every path by acts of `A` does only these. -/
theorem of_keeps (h : ∀ s, Keeps (Path A s) x) : Does A x := fun s => h s s ReflTransGen.refl

/-- What a program does, as a rule about its final state. -/
theorem wp (hx : Does A x) (s : σ) : Wp x (fun _ u => Path A s u) s := hx s

/-- A path that a program goes on with. -/
theorem wp_trans (hx : Does A x) {s u : σ} (p : Path A s u) : Wp x (fun _ v => Path A s v) u :=
  ReflTransGen.trans p (hx u)

/-- What every act of `A` keeps, the program keeps. -/
theorem invariant (hx : Does A x) {I : σ → Prop} (h : ∀ a s, A a → I s → I (Acts.act a s)) {s : σ}
    (hs : I s) : I (exec x s).2 := (hx s).invariant h hs

/-- What no act of `A` changes, the program does not change. -/
theorem unchanged (hx : Does A x) {γ : Sort*} {g : σ → γ} (h : ∀ a s, A a → g (Acts.act a s) = g s) (s : σ) :
    g (exec x s).2 = g s := (hx s).unchanged h

end Does

end Does

end Effect
