/-!
# Logs

A log has the last event first. `Preceded R` says that every event of the log has what it needs among the events before it, as it
does when a system writes down what it is about to do before it does it.
-/

namespace Effect

variable {α : Type}

/-- Every event of the log satisfies `R` with the events before it. -/
def Preceded (R : α → List α → Prop) : List α → Prop
  | [] => True
  | a :: log => R a log ∧ Preceded R log

section Preceded

variable {R : α → List α → Prop} {a : α} {log : List α}

@[simp] theorem preceded_nil : Preceded R [] := trivial

@[simp] theorem preceded_cons : Preceded R (a :: log) ↔ R a log ∧ Preceded R log := Iff.rfl

/-- Wherever the log is cut. -/
theorem preceded_iff : Preceded R log ↔ ∀ as a bs, log = as ++ a :: bs → R a bs := by
  induction log with
  | nil =>
    constructor
    · intro _ as a bs h
      cases as <;> cases h
    · exact fun _ => trivial
  | cons b log ih =>
    constructor
    · rintro ⟨hb, hlog⟩ as a bs h
      cases as with
      | nil =>
        obtain ⟨rfl, rfl⟩ := List.cons.inj h
        exact hb
      | cons c as =>
        obtain ⟨-, h⟩ := List.cons.inj h
        exact ih.1 hlog as a bs h
    · intro h
      refine ⟨h [] b log rfl, ih.2 fun as a bs hlog => h (b :: as) a bs ?_⟩
      rw [hlog, List.cons_append]

end Preceded

end Effect
