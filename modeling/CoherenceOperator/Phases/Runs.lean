import CoherenceOperator.Lib.Run
import CoherenceOperator.Phases.Lights

/-!
# The status, written again and again

Two writers share the status of a resource: `StatusManager` puts a phase into it and nothing else, and the calls of
the reconcilers move through phases and record their conditions.
-/

namespace CoherenceOperator

/-- An operation that writes the status. -/
inductive StatusOp where
  /-- `UpdateCoherenceStatusPhase`. -/
  | phase (p : ConditionType)
  | call (call : StatusCall)

namespace StatusOp

/-- The status after an operation, at a time. -/
def step (op : Operator) (s : CoherenceResourceStatus) : ℕ × StatusOp → CoherenceResourceStatus
  | (_, phase p) => { s with phase := some p }
  | (now, call c) => (c.apply op now s).1

/-- What the operation does to the lights. -/
theorem lights_step (op : Operator) (s : CoherenceResourceStatus) (now : ℕ) (o : StatusOp) :
    (step op s (now, o)).lights =
      match o with
      | phase p => { s.lights with phase := some p }
      | call c => s.lights.moveTo (c.moves s) := by
  cases o with
  | phase p => rfl
  | call c => exact c.lights_apply

end StatusOp

end CoherenceOperator
