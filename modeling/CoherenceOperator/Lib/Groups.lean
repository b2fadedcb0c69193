import Mathlib.Data.Finmap
import Mathlib.Data.Finset.Card
import Mathlib.Data.List.Sort

/-!
# Maps of lists

Elements are put into a map under a key, one after the other, so that under each key those are listed that were put
there. A map has no order of its own: a program that goes through it does so in some order (`MapOrder`), which
may be any.

* `Groups.add`, and what is under a key after a list of elements was grouped (`IsGrouping`);
* `MapOrder`: the order in which the keys of a map are gone through.
-/

namespace Effect

variable {κ α : Type} [DecidableEq κ]

/-- Lists of elements under keys. -/
abbrev Groups (κ α : Type) := Finmap fun _ : κ => List α

namespace Groups

/-- What is under a key. -/
def under (m : Groups κ α) (k : κ) : List α := (m.lookup k).getD []

/-- Put an element under a key. -/
def add (m : Groups κ α) (k : κ) (a : α) : Groups κ α := m.insert k (under m k ++ [a])

variable {m : Groups κ α} {k k' : κ} {a : α}

theorem under_add : under (add m k a) k' = if k' = k then under m k ++ [a] else under m k' := by
  by_cases hk : k' = k
  · rw [if_pos hk, hk, add, under, Finmap.lookup_insert, Option.getD_some]
  · rw [if_neg hk, add, under, Finmap.lookup_insert_of_ne _ hk, ← under]

theorem mem_add : k' ∈ add m k a ↔ k' = k ∨ k' ∈ m := Finmap.mem_insert

/-- The elements of the list are in the map, each under its key and in the order of the list, and nothing else is. -/
structure IsGrouping (f : α → κ) (as : List α) (m : Groups κ α) : Prop where
  under_eq : ∀ k, under m k = as.filter fun a => f a = k
  mem_iff : ∀ k, k ∈ m ↔ ∃ a ∈ as, f a = k

/-- The empty map groups nothing. -/
theorem isGrouping_empty (f : α → κ) : IsGrouping f [] (∅ : Groups κ α) where
  under_eq _ := rfl
  mem_iff _ := by simp [Finmap.notMem_empty]

/-- One more element. -/
theorem IsGrouping.add {f : α → κ} {as : List α} (h : IsGrouping f as m) (a : α) :
    IsGrouping f (as ++ [a]) (Groups.add m (f a) a) where
  under_eq k := by
    rw [under_add, List.filter_append]
    by_cases hk : k = f a
    · subst hk
      simp [h.under_eq]
    · rw [if_neg hk, h.under_eq]
      simp [Ne.symm hk]
  mem_iff k := by
    rw [mem_add, h.mem_iff]
    constructor
    · rintro (rfl | ⟨b, hb, rfl⟩)
      · exact ⟨a, by simp, rfl⟩
      · exact ⟨b, by simp [hb], rfl⟩
    · rintro ⟨b, hb, rfl⟩
      rcases List.mem_append.1 hb with hb | hb
      · exact .inr ⟨b, hb, rfl⟩
      · rw [List.mem_singleton.1 hb]
        exact .inl rfl

end Groups

/-- An order in which the keys of any map are gone through. -/
structure MapOrder (κ : Type) where
  list : Finset κ → List κ
  nodup : ∀ s, (list s).Nodup
  mem_list : ∀ s k, k ∈ list s ↔ k ∈ s

namespace MapOrder

variable {κ : Type} (order : MapOrder κ)

/-- The first key of a map is one of its keys. -/
theorem mem_of_list_eq_cons {s : Finset κ} {k : κ} {ks : List κ} (h : order.list s = k :: ks) : k ∈ s := by
  rw [← order.mem_list, h]
  exact List.mem_cons_self

/-- A map with keys has a first one. -/
theorem exists_list_eq_cons {s : Finset κ} (h : s.Nonempty) : ∃ k ks, order.list s = k :: ks := by
  cases hl : order.list s with
  | cons k ks => exact ⟨k, ks, rfl⟩
  | nil =>
    obtain ⟨k, hk⟩ := h
    rw [← order.mem_list, hl] at hk
    cases hk

/-- The keys from the least to the greatest. -/
def sorted [LinearOrder κ] : MapOrder κ where
  list s := Quot.liftOn s.val (List.insertionSort (· ≤ ·)) fun a b h =>
    List.Perm.eq_of_pairwise (fun _ _ _ _ hle hge => le_antisymm hle hge) (List.pairwise_insertionSort _ a)
      (List.pairwise_insertionSort _ b) ((List.perm_insertionSort _ a).trans (h.trans (List.perm_insertionSort _ b).symm))
  nodup s := by
    obtain ⟨⟨l⟩, hl⟩ := s
    exact (List.perm_insertionSort _ l).nodup_iff.2 hl
  mem_list s k := by
    obtain ⟨⟨l⟩, hl⟩ := s
    exact (List.perm_insertionSort _ l).mem_iff

/-- The keys of the list first, as far as the map has them, and the others in the order. -/
def startingWith [DecidableEq κ] (ks : List κ) (hks : ks.Nodup) : MapOrder κ where
  list s := ks.filter (· ∈ s) ++ (order.list s).filter (· ∉ ks)
  nodup s := by
    refine (hks.filter _).append ((order.nodup s).filter _) fun k hk hk' => ?_
    simp only [List.mem_filter, decide_eq_true_eq] at hk hk'
    exact hk'.2 hk.1
  mem_list s k := by
    simp only [List.mem_append, List.mem_filter, decide_eq_true_eq, order.mem_list]
    constructor
    · rintro (h | h)
      · exact h.2
      · exact h.1
    · intro h
      by_cases hk : k ∈ ks
      · exact .inl ⟨hk, h⟩
      · exact .inr ⟨h, hk⟩

end MapOrder

end Effect
