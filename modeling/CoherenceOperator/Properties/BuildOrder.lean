import CoherenceOperator.Footprint.Building
import Mathlib.Data.String.Basic

/-!
# The order of the maps

Two builds of the same resource go through its maps in orders of their own. They come to the same objects unless more than one
service is to be resumed: these are written into a text one after the other, and in another order the
text is another one, so the pods of an unchanged resource are not the same from one reconcile to the next.
-/

namespace CoherenceOperator

open Effect

/-! ### The text of the services -/

variable {k k' : String} {b b' : Bool}

/-- What follows the key of a service. -/
def entryEnd (b : Bool) : List Char := ("=" ++ toString b ++ ",").toList

theorem serviceEntry_eq (k : String) (b : Bool) :
    serviceEntry k b = Char.ofNat 34 :: (escapeQuotes k.toList ++ Char.ofNat 34 :: entryEnd b) := rfl

theorem quote_notMem_entryEnd (b : Bool) : Char.ofNat 34 ∉ entryEnd b := by
  cases b <;> decide +kernel

theorem exists_entryEnd_eq (b : Bool) : ∃ l, entryEnd b = l ++ [Char.ofNat 44] := by
  cases b with
  | false => exact ⟨"=false".toList, by decide +kernel⟩
  | true => exact ⟨"=true".toList, by decide +kernel⟩

/-- A quotation mark of a key has a backslash before it. -/
theorem escapeQuotes_eq_append {key l r : List Char} (h : escapeQuotes key = l ++ Char.ofNat 34 :: r) :
    ∃ l', l = l' ++ [Char.ofNat 92] := by
  induction key generalizing l with
  | nil => simp [escapeQuotes] at h
  | cons c key ih =>
    have hcons : escapeQuotes (c :: key) =
        (if c = Char.ofNat 34 then [Char.ofNat 92, c] else [c]) ++ escapeQuotes key := rfl
    rw [hcons] at h
    have hbackslash : Char.ofNat 92 ≠ Char.ofNat 34 := by decide
    by_cases hc : c = Char.ofNat 34
    · rw [if_pos hc] at h
      match l, h with
      | [], h => exact absurd (List.cons.inj h).1 hbackslash
      | [x], h => exact ⟨[], by rw [← (List.cons.inj h).1, List.nil_append]⟩
      | x :: y :: l, h =>
        obtain ⟨l', rfl⟩ := ih (List.cons.inj (List.cons.inj h).2).2
        exact ⟨x :: y :: l', rfl⟩
    · rw [if_neg hc] at h
      match l, h with
      | [], h => exact absurd (List.cons.inj h).1 hc
      | x :: l, h =>
        obtain ⟨l', rfl⟩ := ih (List.cons.inj h).2
        exact ⟨x :: l', rfl⟩

/-- An entry is no end of another one in which a comma comes before it: it starts with a quotation mark. -/
theorem serviceEntry_ne_append {t : List Char} : serviceEntry k b ≠ t ++ Char.ofNat 44 :: serviceEntry k' b' := by
  intro h
  rw [serviceEntry_eq, serviceEntry_eq] at h
  match t, h with
  | [], h => exact absurd (List.cons.inj h).1 (by decide)
  | _ :: t, h =>
    have htail : escapeQuotes k.toList ++ Char.ofNat 34 :: entryEnd b =
        t ++ Char.ofNat 44 :: Char.ofNat 34 :: (escapeQuotes k'.toList ++ Char.ofNat 34 :: entryEnd b') :=
      (List.cons.inj h).2
    rcases List.append_eq_append_iff.1 htail with ⟨r, -, hr⟩ | ⟨r, hkey, hr⟩
    · -- the comma comes after the key: there is no quotation mark any more
      match r, hr with
      | [], hr => exact absurd (List.cons.inj hr).1 (by decide)
      | _ :: r, hr =>
        refine quote_notMem_entryEnd b ?_
        rw [(List.cons.inj hr).2]
        simp
    · match r, hr with
      | [], hr => exact absurd (List.cons.inj hr).1 (by decide)
      | [x], hr =>
        -- the comma ends the key
        refine quote_notMem_entryEnd b ?_
        rw [← (List.cons.inj (List.cons.inj hr).2).2]
        simp
      | x :: y :: r, hr =>
        -- the comma is in the key, where a backslash would come before the quotation mark
        have hx : Char.ofNat 44 = x := (List.cons.inj hr).1
        have hy : Char.ofNat 34 = y := (List.cons.inj (List.cons.inj hr).2).1
        subst hx hy
        have hsplit : escapeQuotes k.toList = (t ++ [Char.ofNat 44]) ++ Char.ofNat 34 :: r := by simp [hkey]
        obtain ⟨l, hl⟩ := escapeQuotes_eq_append hsplit
        exact absurd (List.append_inj_right' hl rfl) (by decide)

/-- An entry that goes on after another one, and ends with it, is this one. -/
theorem serviceEntry_eq_of_append {r : List Char} (hl : serviceEntry k' b' = serviceEntry k b ++ r)
    (hr : serviceEntry k' b' = r ++ serviceEntry k b) : serviceEntry k b = serviceEntry k' b' := by
  rcases List.eq_nil_or_concat' r with rfl | ⟨t, x, rfl⟩
  · rw [hl, List.append_nil]
  · exfalso
    obtain ⟨l, hend⟩ := exists_entryEnd_eq b'
    rw [← List.append_assoc, serviceEntry_eq, hend] at hl
    have hlast : (Char.ofNat 34 :: (escapeQuotes k'.toList ++ Char.ofNat 34 :: l)) ++ [Char.ofNat 44] =
        serviceEntry k b ++ t ++ [x] := by simpa using hl
    have hx : Char.ofNat 44 = x := (List.cons.inj (List.append_inj_right' hlast rfl)).1
    subst hx
    rw [List.append_assoc, List.singleton_append] at hr
    exact serviceEntry_ne_append hr

/-- **Two entries do not commute** unless they are the same. -/
theorem serviceEntry_comm (h : serviceEntry k b ++ serviceEntry k' b' = serviceEntry k' b' ++ serviceEntry k b) :
    serviceEntry k b = serviceEntry k' b' := by
  rcases List.append_eq_append_iff.1 h with ⟨r, hl, hr⟩ | ⟨r, hl, hr⟩
  · exact serviceEntry_eq_of_append hl hr
  · exact (serviceEntry_eq_of_append hl hr).symm

/-- The key can be read back. -/
theorem escapeQuotes_injective : Function.Injective escapeQuotes := by
  have hcons : ∀ c l, escapeQuotes (c :: l) =
      (if c = Char.ofNat 34 then [Char.ofNat 92, c] else [c]) ++ escapeQuotes l := fun _ _ => rfl
  -- a key that starts with a quotation mark is not one that starts with a backslash
  have hquote : ∀ {l r : List Char}, escapeQuotes l ≠ Char.ofNat 34 :: r := by
    intro l r h
    obtain ⟨l', hl'⟩ := escapeQuotes_eq_append (l := []) h
    simp at hl'
  intro l
  induction l with
  | nil =>
    rintro (_ | ⟨c, l'⟩) h
    · rfl
    · rw [hcons] at h
      split at h <;> cases h
  | cons c l ih =>
    rintro (_ | ⟨c', l'⟩) h
    · rw [hcons] at h
      split at h <;> cases h
    · rw [hcons, hcons] at h
      by_cases hc : c = Char.ofNat 34 <;> by_cases hc' : c' = Char.ofNat 34
      · rw [if_pos hc, if_pos hc'] at h
        rw [hc, hc', ih (List.cons.inj (List.cons.inj h).2).2]
      · rw [if_pos hc, if_neg hc', hc] at h
        exact absurd (List.cons.inj h).2.symm hquote
      · rw [if_neg hc, if_pos hc', hc'] at h
        exact absurd (List.cons.inj h).2 hquote
      · rw [if_neg hc, if_neg hc'] at h
        rw [(List.cons.inj h).1, ih (List.cons.inj h).2]

/-- Different services have different entries. -/
theorem serviceEntry_injective (h : serviceEntry k b = serviceEntry k' b') : k = k' := by
  have htail := (List.cons.inj h).2
  have hnil : ∀ {b b' : Bool} {r : List Char}, Char.ofNat 34 :: entryEnd b = r ++ Char.ofNat 34 :: entryEnd b' → r = [] := by
    intro b b' r hr
    match r, hr with
    | [], _ => rfl
    | x :: r, hr =>
      refine absurd ?_ (quote_notMem_entryEnd b)
      rw [(List.cons.inj hr).2]
      simp
  rcases List.append_eq_append_iff.1 htail with ⟨r, hk, hr⟩ | ⟨r, hk, hr⟩
  · rw [hnil hr, List.append_nil] at hk
    exact String.toList_injective (escapeQuotes_injective hk.symm)
  · rw [hnil hr, List.append_nil] at hk
    exact String.toList_injective (escapeQuotes_injective hk)

/-! ### The encoding -/

theorem encodeBuffer_injective : Function.Injective encodeBuffer := by
  intro l l' h
  have hbytes := Base64.encode_injective (String.ofList_injective h)
  have harray : (String.ofList l).toByteArray = (String.ofList l').toByteArray := ByteArray.ext (Array.toList_inj.1 hbytes)
  exact String.ofList_injective (String.toByteArray_inj.1 harray)

variable {m : Finmap fun _ : String => Bool} {order order' : MapOrder String}

theorem encodeServices_eq_iff : encodeServices order m = encodeServices order' m ↔
    (order.entries m).flatMap (fun e => serviceEntry e.1 e.2) = (order'.entries m).flatMap fun e => serviceEntry e.1 e.2 := by
  rw [List.flatMap_eq_foldl, List.flatMap_eq_foldl]
  exact encodeBuffer_injective.eq_iff

/-- The entries of a map that is gone through from some of its keys on. -/
theorem entries_startingWith {ks : List String} (hks : ks.Nodup) (hm : ∀ k ∈ ks, k ∈ m) :
    ((order.startingWith ks hks).entries m) =
      (ks.filterMap fun k => (m.lookup k).map fun v => (k, v)) ++
        ((order.list m.keys).filter (· ∉ ks)).filterMap fun k => (m.lookup k).map fun v => (k, v) := by
  have hall : ks.filter (· ∈ m.keys) = ks := List.filter_eq_self.2 fun k hk => by simpa [Finmap.mem_keys] using hm k hk
  rw [MapOrder.entries, MapOrder.startingWith]
  dsimp only
  rw [hall, List.filterMap_append]

/-- **One service at most**: it is then that all orders give the same text. -/
theorem encodeServices_eq_all_iff :
    (∀ order order', encodeServices order m = encodeServices order' m) ↔ m.keys.card ≤ 1 := by
  constructor
  · intro h
    by_contra hcard
    obtain ⟨k, hk, k', hk', hne⟩ := Finset.one_lt_card.1 (not_le.1 hcard)
    rw [Finmap.mem_keys] at hk hk'
    obtain ⟨b, hb⟩ := Finmap.mem_iff.1 hk
    obtain ⟨b', hb'⟩ := Finmap.mem_iff.1 hk'
    have hsame := encodeServices_eq_iff.1 (h (MapOrder.sorted.startingWith [k, k'] (by simp [hne]))
      (MapOrder.sorted.startingWith [k', k] (by simp [hne.symm])))
    rw [entries_startingWith _ (by simp [hk, hk']), entries_startingWith _ (by simp [hk, hk'])] at hsame
    have hrest : ((MapOrder.sorted.list m.keys).filter fun x => x ∉ [k', k]) =
        (MapOrder.sorted.list m.keys).filter fun x => x ∉ [k, k'] := by
      refine List.filter_congr fun x _ => ?_
      simp [and_comm]
    rw [hrest] at hsame
    simp only [List.filterMap_cons, hb, hb', Option.map_some, List.filterMap_nil, List.cons_append, List.nil_append,
      List.flatMap_cons, ← List.append_assoc] at hsame
    exact hne (serviceEntry_injective (serviceEntry_comm (List.append_cancel_right hsame)))
  · intro hcard order order'
    have hlist : order.list m.keys = order'.list m.keys := by
      have hperm : (order.list m.keys).Perm (order'.list m.keys) :=
        (List.perm_ext_iff_of_nodup (order.nodup _) (order'.nodup _)).2 fun k => by rw [order.mem_list, order'.mem_list]
      have hlength : (order.list m.keys).length ≤ 1 := by
        have hcard' : (order.list m.keys).toFinset = m.keys := by
          ext k
          rw [List.mem_toFinset, order.mem_list]
        rwa [← List.toFinset_card_of_nodup (order.nodup _), hcard']
      match hl : order.list m.keys, hlength with
      | [], _ => exact (hl ▸ hperm).nil_eq
      | [x], _ => exact List.singleton_perm.1 (hl ▸ hperm)
    rw [encodeServices, MapOrder.entries, hlist, ← MapOrder.entries, ← encodeServices]

/-! ### The resources -/

section

variable {op : Operator} {c : Coherence}

/-- The pods tell the services apart. -/
theorem resumeServices_eq_of_resources {services services' : String}
    (h : c.createKubernetesResources (Ranged.withServices op c (some services)) =
      c.createKubernetesResources (Ranged.withServices op c (some services'))) : services = services' := by
  have hlast : ∀ op, (c.createKubernetesResources op).items.getLast? = some (c.createStatefulSet op).toObject.toResource := by
    intro op
    rw [Coherence.createKubernetesResources, List.getLast?_append]
    rfl
  have hsts := congrArg (fun r : Resources => r.items.getLast?) h
  simp only [hlast, Option.some.injEq] at hsts
  have htemplate : c.templateWith op (some services) = c.templateWith op (some services') := by
    have hbody := congrArg (fun r : Resource => r.spec.bind fun o => o.asStatefulSet.map fun s => s.spec.template) hsts
    exact Option.some.inj hbody
  obtain ⟨x, xs, hx, hcarries⟩ := carries_templateWith op c services
  obtain ⟨x', xs', hx', hcarries'⟩ := carries_templateWith op c services'
  rw [htemplate, hx'] at hx
  obtain ⟨rfl, -⟩ := List.cons.inj hx
  have henv : findEnv EnvVarOperatorResumeServices x'.env = _ := hcarries.env
  rw [show findEnv EnvVarOperatorResumeServices x'.env = _ from hcarries'.env] at henv
  exact (congrArg EnvVar.value (Option.some.inj henv)).symm

/-- **Building does not depend on the order of the maps** exactly if there is one service to resume at most. -/
theorem sameInAllOrders_iff (op : Operator) (c : Coherence) :
    (∀ orders orders' : ℕ → MapOrder String,
      ((Ranged.createKubernetesResources op c).eval orders 0).1 =
        ((Ranged.createKubernetesResources op c).eval orders' 0).1) ↔
      ∀ services, c.spec.autoResumeServices = some services → services.keys.card ≤ 1 := by
  rw [Ranged.uses_createKubernetesResources.eval_eq_iff]
  have hservices : ∀ order, Ranged.resumeServices c.toResource order =
      c.spec.autoResumeServices.map (encodeServices order) := fun _ => rfl
  simp only [hservices]
  cases hresume : c.spec.autoResumeServices with
  | none => simp
  | some services =>
    simp only [Option.map_some, Option.some.injEq, forall_eq', ← encodeServices_eq_all_iff]
    constructor
    · exact fun h order order' => resumeServices_eq_of_resources (h order order')
    · intro h order order'
      rw [h order order']

end

/-- Two services. -/
def twoServices : Finmap fun _ : String => Bool := ((∅ : Finmap fun _ : String => Bool).insert "a" true).insert "b" true

/-- A resource that resumes both. -/
def resuming : Coherence where
  metadata := { ns := "default", name := "storage" }
  spec := { replicas := some 3, autoResumeServices := some twoServices }

/-- In one order the services are `"a"=true,"b"=true,`, in the other `"b"=true,"a"=true,`. -/
theorem not_forall_sameInAllOrders : ¬ ∀ (op : Operator) (c : Coherence) (orders orders' : ℕ → MapOrder String),
    ((Ranged.createKubernetesResources op c).eval orders 0).1 =
      ((Ranged.createKubernetesResources op c).eval orders' 0).1 := by
  intro h
  have hall := Ranged.uses_createKubernetesResources.eval_eq_iff.1 (h default resuming)
  have hsame : encodeServices .sorted twoServices =
      encodeServices (MapOrder.sorted.startingWith ["b"] (by decide)) twoServices :=
    resumeServices_eq_of_resources (hall _ _)
  exact absurd hsame (by decide +kernel)

end CoherenceOperator
