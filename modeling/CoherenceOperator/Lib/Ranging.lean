import CoherenceOperator.Lib.Groups

/-!
# Going through maps

A computation that goes through maps does so each time in an order of its own: `Ranging` numbers the times and is given the
order of each. What it comes to may depend on none of the orders (`Yields`) or on one (`Uses`); filling a map
from another one depends on none (`Yields.rangeInsert`).
-/

namespace Effect

variable {κ ν α β : Type}

/-- A computation that goes through maps, in one order after the other. -/
abbrev Ranging (κ α : Type) := ReaderT (ℕ → MapOrder κ) (StateM ℕ) α

/-- The order of this time. -/
def nextOrder : Ranging κ (MapOrder κ) := do
  let orders ← read
  modifyGet fun n => (orders n, n + 1)

namespace Ranging

/-- What the computation comes to, from the `n`-th order on, and how many orders it has gone through then. -/
def eval (x : Ranging κ α) (orders : ℕ → MapOrder κ) (n : ℕ) : α × ℕ := (x.run orders).run n

variable {x : Ranging κ α} {f : α → Ranging κ β} {orders : ℕ → MapOrder κ} {n : ℕ} {a : α} {b : β}

theorem eval_pure : eval (pure a : Ranging κ α) orders n = (a, n) := rfl

theorem eval_bind : eval (x >>= f) orders n = eval (f (eval x orders n).1) orders (eval x orders n).2 := rfl

theorem eval_nextOrder : eval nextOrder orders n = (orders n, n + 1) := rfl

end Ranging

open Ranging

/-! ### Which orders count -/

/-- The computation comes to `a`, whatever the orders. -/
def Yields (x : Ranging κ α) (a : α) : Prop := ∀ orders n, (eval x orders n).1 = a

/-- Of the orders one counts at most: in the order `o` the computation comes to `F o`. -/
def Uses (x : Ranging κ α) (F : MapOrder κ → α) : Prop := ∀ orders n, ∃ k, (eval x orders n).1 = F (orders k)

variable {x : Ranging κ α} {f : α → Ranging κ β} {a : α} {b : β} {F : MapOrder κ → α}

theorem Yields.pure (a : α) : Yields (Pure.pure a : Ranging κ α) a := fun _ _ => rfl

theorem Yields.bind (hx : Yields x a) (hf : Yields (f a) b) : Yields (x >>= f) b := fun orders n => by
  rw [eval_bind, hx]
  exact hf _ _

theorem Yields.map {g : α → β} (hx : Yields x a) : Yields (g <$> x) (g a) := by
  rw [← bind_pure_comp]
  exact hx.bind (.pure _)

/-- One computation for each element. -/
theorem Yields.mapM {γ : Type} {f : γ → Ranging κ α} {g : γ → α} (h : ∀ c, Yields (f c) (g c)) (l : List γ) :
    Yields (l.mapM f) (l.map g) := by
  induction l with
  | nil => exact .pure _
  | cons c l ih =>
    rw [List.mapM_cons, List.map_cons]
    exact (h c).bind (ih.bind (.pure _))

theorem Yields.uses (hx : Yields x a) : Uses x fun _ => a := fun orders n => ⟨n, hx orders n⟩

theorem Uses.bind {G : MapOrder κ → β} (hx : Uses x F) (hf : ∀ o, Yields (f (F o)) (G o)) : Uses (x >>= f) G := by
  intro orders n
  obtain ⟨k, hk⟩ := hx orders n
  refine ⟨k, ?_⟩
  rw [eval_bind, hk]
  exact hf _ _ _

theorem Yields.bind_uses {G : MapOrder κ → β} (hx : Yields x a) (hf : Uses (f a) G) : Uses (x >>= f) G := fun orders n => by
  rw [eval_bind, hx]
  exact hf _ _

/-- **Independence**: where one order counts at most, the computation comes to the same in all orders exactly if it does so in
the one that counts. -/
theorem Uses.eval_eq_iff (h : Uses x F) :
    (∀ orders orders', (eval x orders 0).1 = (eval x orders' 0).1) ↔ ∀ o o', F o = F o' := by
  constructor
  · intro heq o o'
    obtain ⟨_, ho⟩ := h (fun _ => o) 0
    obtain ⟨_, ho'⟩ := h (fun _ => o') 0
    exact ho.symm.trans ((heq _ _).trans ho')
  · intro heq orders orders'
    obtain ⟨k, hk⟩ := h orders 0
    obtain ⟨k', hk'⟩ := h orders' 0
    exact hk.trans ((heq _ _).trans hk'.symm)

/-! ### Going through a map -/

section

variable [DecidableEq κ]

/-- The entries of the map, in the order. -/
def MapOrder.entries (order : MapOrder κ) (m : Finmap fun _ : κ => ν) : List (κ × ν) :=
  (order.list m.keys).filterMap fun k => (m.lookup k).map fun v => (k, v)

/-- `for k, v := range m { b = f(b, k, v) }`. -/
def rangeFold (m : Finmap fun _ : κ => ν) (f : β → κ → ν → β) (b : β) : Ranging κ β := do
  let order ← nextOrder
  return (order.entries m).foldl (fun b e => f b e.1 e.2) b

/-- `for k, v := range m { b[k] = v }`. -/
def rangeInsert (b m : Finmap fun _ : κ => ν) : Ranging κ (Finmap fun _ : κ => ν) := rangeFold m (fun b k v => b.insert k v) b

variable {order : MapOrder κ} {m m' : Finmap fun _ : κ => ν} {k : κ} {v : ν}

theorem MapOrder.mem_entries {e : κ × ν} : e ∈ order.entries m ↔ m.lookup e.1 = some e.2 := by
  obtain ⟨k, v⟩ := e
  simp only [entries, List.mem_filterMap, Option.map_eq_some_iff, Prod.mk.injEq]
  constructor
  · rintro ⟨_, _, _, h, rfl, rfl⟩
    exact h
  · intro h
    refine ⟨k, ?_, v, h, rfl, rfl⟩
    rw [order.mem_list, Finmap.mem_keys]
    exact Finmap.mem_of_lookup_eq_some h

theorem MapOrder.map_fst_entries : (order.entries m).map Prod.fst = order.list m.keys := by
  have h : ∀ ks : List κ, (∀ k ∈ ks, k ∈ m) → ((ks.filterMap fun k => (m.lookup k).map fun v => (k, v)).map Prod.fst) = ks := by
    intro ks hks
    induction ks with
    | nil => rfl
    | cons k ks ih =>
      obtain ⟨v, hv⟩ := Finmap.mem_iff.1 (hks k List.mem_cons_self)
      rw [List.filterMap_cons, hv, Option.map_some, List.map_cons, ih fun k' hk' => hks k' (List.mem_cons_of_mem _ hk')]
  exact h _ fun k hk => by rwa [order.mem_list, Finmap.mem_keys] at hk

/-- What is filled from entries of `m` has these entries, and besides what there was. -/
theorem lookup_foldl_insert {es : List (κ × ν)} (hes : ∀ e ∈ es, m.lookup e.1 = some e.2) :
    (es.foldl (fun b e => b.insert e.1 e.2) m').lookup k = if k ∈ es.map Prod.fst then m.lookup k else m'.lookup k := by
  induction es generalizing m' with
  | nil => rfl
  | cons e es ih =>
    rw [List.foldl_cons, ih fun e' he' => hes e' (List.mem_cons_of_mem _ he')]
    by_cases hk : k ∈ es.map Prod.fst
    · have hk' : k ∈ (e :: es).map Prod.fst := List.mem_cons_of_mem _ hk
      rw [if_pos hk, if_pos hk']
    · rw [if_neg hk]
      by_cases he : k = e.1
      · rw [he, Finmap.lookup_insert, if_pos (by simp), hes e List.mem_cons_self]
      · rw [Finmap.lookup_insert_of_ne _ he, if_neg (by simpa [he] using hk)]

/-- **A map is filled from another one** in whatever order. -/
theorem Yields.rangeInsert (b m : Finmap fun _ : κ => ν) : Yields (rangeInsert b m) (m ∪ b) := by
  intro orders n
  show ((orders n).entries m).foldl (fun b e => b.insert e.1 e.2) b = m ∪ b
  refine Finmap.ext_lookup fun k => ?_
  rw [lookup_foldl_insert fun e he => MapOrder.mem_entries.1 he, MapOrder.map_fst_entries]
  by_cases hk : k ∈ m
  · rw [if_pos (by rwa [(orders n).mem_list, Finmap.mem_keys]), Finmap.lookup_union_left hk]
  · rw [if_neg (by rwa [(orders n).mem_list, Finmap.mem_keys]), Finmap.lookup_union_right hk]

/-- What is made of the entries, in the order. -/
theorem uses_rangeFold (m : Finmap fun _ : κ => ν) (f : β → κ → ν → β) (b : β) :
    Uses (rangeFold m f b) fun o => (o.entries m).foldl (fun b e => f b e.1 e.2) b := fun _ n => ⟨n, rfl⟩

end

end Effect
