import Mathlib.Logic.Function.Basic
import Mathlib.Order.Defs.Unbundled

/-!
# Tables

A table holds values under keys that the values themselves carry: `key a` is where `a` is found. What
is looked up under a key therefore has that key, and putting a value under a wrong one is not possible.
-/

/-- The values of a table, each under its own key. -/
structure Table {κ α : Type} (key : α → κ) where
  get : κ → Option α
  filed : ∀ k a, get k = some a → key a = k

namespace Table

variable {κ α : Type} [DecidableEq κ] {key : α → κ}

/-- The table with nothing in it. -/
def empty : Table key := ⟨fun _ => none, fun _ _ h => nomatch h⟩

instance : Inhabited (Table key) := ⟨empty⟩

/-- Put a value where it belongs. -/
def put (a : α) (t : Table key) : Table key where
  get := Function.update t.get (key a) (some a)
  filed k b h := by
    by_cases hk : k = key a
    · subst hk
      simp only [Function.update_self, Option.some.injEq] at h
      rw [h]
    · rw [Function.update_of_ne hk] at h
      exact t.filed k b h

/-- Take out what is under a key. -/
def erase (k : κ) (t : Table key) : Table key where
  get := Function.update t.get k none
  filed k' b h := by
    by_cases hk : k' = k
    · subst hk
      simp at h
    · rw [Function.update_of_ne hk] at h
      exact t.filed k' b h

/-- Change what is under a key by a function that keeps the key. -/
def modify (k : κ) (f : α → α) (hf : ∀ a, key (f a) = key a) (t : Table key) : Table key where
  get := Function.update t.get k ((t.get k).map f)
  filed k' b h := by
    by_cases hk : k' = k
    · subst hk
      simp only [Function.update_self, Option.map_eq_some_iff] at h
      obtain ⟨a, ha, rfl⟩ := h
      rw [hf, t.filed _ a ha]
    · rw [Function.update_of_ne hk] at h
      exact t.filed k' b h

variable {t : Table key} {a : α} {k k' : κ}

omit [DecidableEq κ] in
@[simp] theorem get_empty : (empty : Table key).get k = none := rfl

@[simp] theorem get_put_self : (t.put a).get (key a) = some a := Function.update_self ..

theorem get_put_of_ne (h : k ≠ key a) : (t.put a).get k = t.get k := Function.update_of_ne h ..

theorem get_put : (t.put a).get k = if k = key a then some a else t.get k := Function.update_apply ..

@[simp] theorem get_erase_self : (t.erase k).get k = none := Function.update_self ..

theorem get_erase_of_ne (h : k' ≠ k) : (t.erase k).get k' = t.get k' := Function.update_of_ne h ..

theorem get_erase : (t.erase k).get k' = if k' = k then none else t.get k' := Function.update_apply ..

variable {f : α → α} {hf : ∀ a, key (f a) = key a}

@[simp] theorem get_modify_self : (t.modify k f hf).get k = (t.get k).map f := Function.update_self ..

theorem get_modify_of_ne (h : k' ≠ k) : (t.modify k f hf).get k' = t.get k' := Function.update_of_ne h ..

/-! ### Descent -/

/-- What is under a key in the later table descends by `R` from what was there. -/
def Descends (R : α → α → Prop) (k : κ) (t u : Table key) : Prop := ∀ b, u.get k = some b → ∃ a, t.get k = some a ∧ R a b

namespace Descends

variable {R S : α → α → Prop} {u v : Table key}

omit [DecidableEq κ] in
theorem refl [IsPreorder α R] : Descends R k t t := fun b hb => ⟨b, hb, IsPreorder.toRefl.refl b⟩

omit [DecidableEq κ] in
theorem trans [IsPreorder α R] (h : Descends R k t u) (h' : Descends R k u v) : Descends R k t v := by
  intro c hc
  obtain ⟨b, hb, hbc⟩ := h' c hc
  obtain ⟨a, ha, hab⟩ := h b hb
  exact ⟨a, ha, IsTrans.trans a b c hab hbc⟩

omit [DecidableEq κ] in
theorem mono (h : Descends R k t u) (hRS : ∀ a b, R a b → S a b) : Descends S k t u := fun b hb =>
  (h b hb).imp fun a hab => ⟨hab.1, hRS a b hab.2⟩

theorem erase [IsPreorder α R] : Descends R k t (t.erase k') := by
  intro b hb
  rw [get_erase] at hb
  split at hb
  · cases hb
  · exact refl b hb

theorem modify [IsPreorder α R] (hf : ∀ a, key (f a) = key a) (h : ∀ a, t.get k' = some a → R a (f a)) :
    Descends R k t (t.modify k' f hf) := by
  intro b hb
  by_cases hk : k = k'
  · subst hk
    rw [get_modify_self, Option.map_eq_some_iff] at hb
    obtain ⟨a, ha, rfl⟩ := hb
    exact ⟨a, ha, h a ha⟩
  · rw [get_modify_of_ne hk] at hb
    exact refl b hb

end Descends

end Table
