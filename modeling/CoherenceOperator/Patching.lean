import CoherenceOperator.Api.Kubernetes

/-!
# Patches

A patch is made by one algorithm, the strategic three-way merge, and sent under the type that the patcher
is set to. Where only maps and single values change both ways of applying it agree; for
the list of finalizers they do not.

* `PatchType`: how the API server applies the list of a patch;
* `StrategicMerge`: the merge of whole objects, as the library computes it and the API server applies it.
-/

namespace CoherenceOperator

/-! ### Merge lists -/

/-- `types.PatchType`. -/
inductive PatchType where
  | merge | strategicMerge
  deriving DecidableEq, Repr

/-- The strategic diff of a list whose field has the patch strategy `merge`: the elements that are
added, or nothing if there are none. -/
def strategicListDiff (current desired : List String) : Option (List String) :=
  match desired.filter fun f => f ∉ current with
  | [] => none
  | added => some added

/-- The diff has the one element that is added. -/
theorem strategicListDiff_append {fs : List String} {f : String} (h : f ∉ fs) :
    strategicListDiff fs (fs ++ [f]) = some [f] := by
  have hf : (fs ++ [f]).filter (fun g => g ∉ fs) = [f] := by
    rw [List.filter_append, List.filter_eq_nil_iff.2 (by simp)]
    simp [h]
  simp only [strategicListDiff, hf]

/-- The list in the live object after a patch of this type: a merge patch puts its own list in
place of the live one, a strategic merge patch adds what is not there. -/
def PatchType.applyList : PatchType → List String → List String → List String
  | .merge, _, patch => patch
  | .strategicMerge, live, patch => live ++ patch.filter fun f => f ∉ live

/-! ### Objects -/

/-- The three-way merge of `strategicpatch` and its application by the API server, which keeps the kind,
the namespace and the name of an object. An empty patch is `none`. -/
structure StrategicMerge where
  createThreeWayPatch : Option Object → Object → Object → Option (Object → Object)
  kind_patch : ∀ {o d c p}, createThreeWayPatch o d c = some p → ∀ live, (p live).kind = live.kind
  key_patch : ∀ {o d c p}, createThreeWayPatch o d c = some p → ∀ live, (p live).key = live.key

/-- A merge that never finds anything to patch. -/
instance : Inhabited StrategicMerge := ⟨{ createThreeWayPatch := fun _ _ _ => none, kind_patch := nofun, key_patch := nofun }⟩

/-- What the merge does to the entries of a `StatefulSet`, its fields and the items of its lists: it
adds those that are desired and removes those of `original` that are not, and leaves the rest alone. -/
structure StatefulSetEntries (merge : StrategicMerge) where
  Entry : Type
  has : StatefulSet → Entry → Prop
  patch : ∀ {o d c p live live'},
    merge.createThreeWayPatch (some o.toObject) d.toObject c.toObject = some p →
    p live.toObject = live'.toObject →
    ∀ e, (has live e ↔ has c e) → (has live' e ↔ has d e ∨ (has live e ∧ ¬ has o e))

namespace StrategicMerge

variable (merge : StrategicMerge)

/-- A patched `StatefulSet` is a `StatefulSet`. -/
theorem exists_patch_toObject {o : Option Object} {d c : Object} {p : Object → Object}
    (h : merge.createThreeWayPatch o d c = some p) (live : StatefulSet) :
    ∃ live' : StatefulSet, p live.toObject = live'.toObject := by
  have hk : (p live.toObject).kind = .statefulSet := merge.kind_patch h _
  generalize p live.toObject = x at hk ⊢
  obtain ⟨m, b⟩ := x
  cases b with
  | statefulSet spec status => exact ⟨⟨m, spec, status⟩, rfl⟩
  | _ => simp [Object.kind] at hk

end StrategicMerge

end CoherenceOperator
