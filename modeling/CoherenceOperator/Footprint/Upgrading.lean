import CoherenceOperator.Controllers.UpgradeStrategy

/-!
# What an upgrade by node deletes

Every Pod has a node, or a value of the label of its node, that it is known by (`nodeId`). `groupPods` lists under each of
these the Pods that are known by it (`wp_groupPods`), so that `podsToUpdate` names the outdated Pods of one node
(`IsUpgrade`), and what a call deletes are some of these, from the first on (`wp_rollingUpgrade`).
-/

namespace CoherenceOperator

open Effect Prog Groups

namespace UpgradeStrategy

variable {op : Operator} {env : UpgradeEnv} {fn : PodNodeIdSupplier} {u : UpgradeState} {revision : String}
variable {pods update stsPods : List Pod} {pod : Pod}

/-- What the node of a Pod is known by. -/
def nodeId (nodeLabel : String → String → String) (fn : PodNodeIdSupplier) (pod : Pod) : String :=
  match fn with
  | .nodeName => pod.nodeName
  | .nodeLabel label => nodeLabel pod.nodeName label

/-- The Pods that are not of the revision. -/
def outdated (revision : String) (pods : List Pod) : List Pod := pods.filter fun pod => pod.revision ≠ revision

theorem mem_outdated : pod ∈ outdated revision pods ↔ pod ∈ pods ∧ pod.revision ≠ revision := by
  simp [outdated]

theorem outdated_append_singleton :
    outdated revision (pods ++ [pod]) =
      if revision ≠ pod.revision then outdated revision pods ++ [pod] else outdated revision pods := by
  rw [outdated, List.filter_append]
  by_cases h : pod.revision = revision
  · simp [h, outdated]
  · simp [h, Ne.symm h, outdated]

/-- The labels that were looked up are those of the nodes. -/
def Knows (env : UpgradeEnv) (fn : PodNodeIdSupplier) (u : UpgradeState) : Prop :=
  ∀ label, fn = .nodeLabel label → ∀ name value, u.cache.lookup name = some value → value = env.nodeLabel name label

/-- A program that looks at nodes: it deletes nothing, what it returns satisfies `P`, and it fails only where a request does. -/
structure Looks {α : Type} (env : UpgradeEnv) (fn : PodNodeIdSupplier) (P : α → Prop) (u : UpgradeState)
    (r : Except GoError α) (u' : UpgradeState) : Prop where
  knows : Knows env fn u'
  deleted : u'.deleted = u.deleted
  returns : ∀ a, r = .ok a → P a
  fails : ∀ e, r = .error e → ∃ n, env.faults n = some e

namespace Looks

variable {α β : Type} {P : α → Prop} {Q : β → Prop}

theorem pure {a : α} (hu : Knows env fn u) (h : P a) :
    Wp (Pure.pure a : UpgradeOp α) (Looks env fn P u) u where
  knows := hu
  deleted := rfl
  returns := by
    rintro _ ⟨⟩
    exact h
  fails := by
    rintro _ ⟨⟩

theorem bind {x : UpgradeOp α} {f : α → UpgradeOp β} (hx : Wp x (Looks env fn P u) u)
    (hf : ∀ a v, P a → Knows env fn v → Wp (f a) (Looks env fn Q v) v) : Wp (x >>= f) (Looks env fn Q u) u := by
  refine Wp.bind hx (fun a v hv => ?_) fun e v hv => ?_
  · refine Wp.mono (hf a v (hv.returns a rfl) hv.knows) fun r v' hv' => ?_
    exact { hv' with deleted := hv'.deleted.trans hv.deleted }
  · refine { knows := hv.knows, deleted := hv.deleted, returns := ?_, fails := ?_ }
    · rintro _ ⟨⟩
    · rintro _ ⟨⟩
      exact hv.fails e rfl

end Looks

theorem wp_send (hu : Knows env fn u) : Wp (send env) (Looks env fn (fun _ => True) u) u := by
  refine Wp.bind_ok (exec_get u) (Wp.bind_ok (exec_modify _ u) ?_)
  cases hfault : env.faults u.calls with
  | none => exact { knows := hu, deleted := rfl, returns := fun _ _ => trivial, fails := by rintro _ ⟨⟩ }
  | some e =>
    refine { knows := hu, deleted := rfl, returns := fun _ _ => trivial, fails := ?_ }
    rintro _ ⟨⟩
    exact ⟨u.calls, hfault⟩

/-- A Pod's node is known by its `nodeId`. -/
theorem wp_getNodeId (henabled : env.isNodeLookupEnabled = true) (hu : Knows env fn u) (pod : Pod) :
    Wp (getNodeId env fn pod) (Looks env fn (fun id => id = nodeId env.nodeLabel fn pod) u) u := by
  cases fn with
  | nodeName => exact Looks.pure hu rfl
  | nodeLabel label =>
    refine Wp.bind_ok (exec_get u) ?_
    cases hcached : u.cache.lookup pod.nodeName with
    | some value => exact Looks.pure hu (hu label rfl _ _ hcached)
    | none =>
      have hlabel : Wp (getExactLabelForNode env pod.nodeName label)
          (Looks env (.nodeLabel label) (fun value => value = env.nodeLabel pod.nodeName label) u) u := by
        rw [getExactLabelForNode, if_pos henabled]
        exact Looks.bind (wp_send hu) fun _ v _ hv => Looks.pure hv rfl
      refine Looks.bind hlabel fun value v hvalue hv => ?_
      subst hvalue
      refine { knows := ?_, deleted := rfl, returns := ?_, fails := by rintro _ ⟨⟩ }
      · rintro _ ⟨⟩ name value' hlookup
        change (v.cache.insert pod.nodeName _).lookup name = some value' at hlookup
        by_cases hname : name = pod.nodeName
        · subst hname
          rw [Finmap.lookup_insert, Option.some.injEq] at hlookup
          exact hlookup.symm
        · rw [Finmap.lookup_insert_of_ne _ hname] at hlookup
          exact hv label rfl _ _ hlookup
      · rintro _ ⟨⟩
        rfl

/-- **The groups**: all Pods, and those that are not of the revision, each under what its node is known by. -/
theorem wp_groupPods (henabled : env.isNodeLookupEnabled = true) {before : List Pod} {podsById allPodsById : Groups String Pod}
    (hu : Knows env fn u) (hpods : IsGrouping (nodeId env.nodeLabel fn) (outdated revision before) podsById)
    (hall : IsGrouping (nodeId env.nodeLabel fn) before allPodsById) :
    Wp (groupPods env fn revision pods podsById allPodsById) (Looks env fn (fun groups =>
      IsGrouping (nodeId env.nodeLabel fn) (outdated revision (before ++ pods)) groups.1 ∧
        IsGrouping (nodeId env.nodeLabel fn) (before ++ pods) groups.2) u) u := by
  induction pods generalizing before podsById allPodsById u with
  | nil =>
    rw [List.append_nil]
    exact Looks.pure hu ⟨hpods, hall⟩
  | cons pod pods ih =>
    rw [groupPods, List.append_cons]
    refine Looks.bind (wp_getNodeId henabled hu pod) fun id v hid hv => ?_
    subst hid
    refine ih hv ?_ (hall.add pod)
    rw [outdated_append_singleton]
    split
    · exact hpods.add pod
    · exact hpods

/-- The Pods that are to be upgraded: none, if there is none that is not of the revision or they are all of one node, or all
that are not of the revision and are of one node, where there is another one. -/
inductive IsUpgrade (nodeLabel : String → String → String) (fn : PodNodeIdSupplier) (revision : String) (pods : List Pod) :
    List Pod → Prop
  | none (h : outdated revision pods = [] ∨ 1 < pods.length ∧ ∀ p ∈ pods, ∀ q ∈ pods, nodeId nodeLabel fn p = nodeId nodeLabel fn q) :
      IsUpgrade nodeLabel fn revision pods []
  | node (id : String) (hsome : ∃ pod ∈ outdated revision pods, nodeId nodeLabel fn pod = id)
      (hother : 1 < pods.length → ∃ pod ∈ pods, nodeId nodeLabel fn pod ≠ id) :
      IsUpgrade nodeLabel fn revision pods ((outdated revision pods).filter fun pod => nodeId nodeLabel fn pod = id)

/-- How many nodes there are. -/
theorem card_keys_eq_one {f : Pod → String} {m : Groups String Pod} (h : IsGrouping f pods m) (hpods : pods ≠ []) :
    m.keys.card = 1 ↔ ∀ p ∈ pods, ∀ q ∈ pods, f p = f q := by
  rw [Finset.card_eq_one]
  constructor
  · rintro ⟨k, hk⟩ p hp q hq
    have hmem : ∀ pod ∈ pods, f pod = k := by
      intro pod hpod
      have : f pod ∈ m.keys := Finmap.mem_keys.2 ((h.mem_iff _).2 ⟨pod, hpod, rfl⟩)
      rw [hk] at this
      exact Finset.mem_singleton.1 this
    rw [hmem p hp, hmem q hq]
  · intro hsame
    obtain ⟨p, hp⟩ := List.exists_mem_of_ne_nil pods hpods
    refine ⟨f p, Finset.ext fun k => ?_⟩
    rw [Finmap.mem_keys, h.mem_iff, Finset.mem_singleton]
    constructor
    · rintro ⟨q, hq, rfl⟩
      exact hsame q hq p hp
    · rintro rfl
      exact ⟨p, hp, rfl⟩

/-- **One node**: the one that comes first, if it is not the only one. -/
theorem wp_podsOfOneNode (henabled : env.isNodeLookupEnabled = true) (hu : Knows env fn u) (hlen : 1 < pods.length) :
    Wp (podsOfOneNode env fn revision pods) (Looks env fn (IsUpgrade env.nodeLabel fn revision pods) u) u := by
  have hne : pods ≠ [] := List.ne_nil_of_length_pos (by omega)
  refine Looks.bind (wp_groupPods henabled hu (isGrouping_empty _) (isGrouping_empty _)) ?_
  rintro ⟨podsById, allPodsById⟩ v ⟨hpods, hall⟩ hv
  rw [List.nil_append] at hpods hall
  have hkeys : podsById.keys = ∅ ↔ outdated revision pods = [] := by
    rw [Finset.eq_empty_iff_forall_notMem, List.eq_nil_iff_forall_not_mem]
    simp only [Finmap.mem_keys, hpods.mem_iff]
    constructor
    · exact fun h p hp => h _ ⟨p, hp, rfl⟩
    · rintro h _ ⟨p, hp, -⟩
      exact h p hp
  dsimp only
  by_cases hnone : podsById.keys.card = 0
  · rw [if_pos hnone]
    exact Looks.pure hv (.none (.inl (hkeys.1 (Finset.card_eq_zero.1 hnone))))
  rw [if_neg hnone]
  by_cases hone : allPodsById.keys.card = 1
  · rw [if_pos hone]
    have hsame := (card_keys_eq_one hall hne).1 hone
    have hlook : Wp (forM pods.head? fun pod => do let _ ← getNodeId env fn pod; return () : UpgradeOp Unit)
        (Looks env fn (fun _ => True) v) v := by
      cases pods.head? with
      | none => exact Looks.pure hv trivial
      | some pod => exact Looks.bind (wp_getNodeId henabled hv pod) fun _ _ _ hv' => Looks.pure hv' trivial
    exact Looks.bind hlook fun _ _ _ hv' => Looks.pure hv' (.none (.inr ⟨hlen, hsame⟩))
  · rw [if_neg hone]
    have hnonempty : podsById.keys.Nonempty := Finset.card_ne_zero.1 hnone
    obtain ⟨node, nodes, hfirst⟩ := env.order.exists_list_eq_cons hnonempty
    rw [hfirst]
    refine Looks.pure hv ?_
    rw [hpods.under_eq]
    obtain ⟨pod, hpod, hid⟩ := (hpods.mem_iff _).1 (Finmap.mem_keys.1 (env.order.mem_of_list_eq_cons hfirst))
    refine .node node ⟨pod, hpod, hid⟩ fun _ => ?_
    by_contra hother
    push Not at hother
    exact hone ((card_keys_eq_one hall hne).2 fun p hp q hq => (hother p hp).trans (hother q hq).symm)

theorem wp_podsToUpdate (henabled : env.isNodeLookupEnabled = true) (hu : Knows env fn u) (hne : pods ≠ []) :
    Wp (podsToUpdate env fn revision pods) (Looks env fn (IsUpgrade env.nodeLabel fn revision pods) u) u := by
  match pods, hne with
  | [pod], _ =>
    refine Looks.pure hu ?_
    by_cases h : revision = pod.revision
    · rw [if_neg (not_not.2 h)]
      exact .none (.inl (by simp [outdated, h]))
    · rw [if_pos h]
      have hout : outdated revision [pod] = [pod] := by simp [outdated, Ne.symm h]
      have hnode : IsUpgrade env.nodeLabel fn revision [pod] _ :=
        .node (nodeId env.nodeLabel fn pod) ⟨pod, by simp [hout], rfl⟩ (by simp)
      simpa [hout] using hnode
  | p :: q :: pods, _ => exact wp_podsOfOneNode henabled hu (by simp)

/-! ### Deleting -/

/-- A program that deletes some of the Pods, from the first on, and all of them unless a request fails. -/
structure Deletes {α : Type} (env : UpgradeEnv) (pods : List Pod) (r : Except GoError α) (u : UpgradeState) : Prop where
  prefixed : u.deleted <+: pods
  all : ∀ a, r = .ok a → u.deleted = pods
  fails : ∀ e, r = .error e → ∃ n, env.faults n = some e

theorem wp_deletePods (hu : Knows env fn u) :
    Wp (deletePods env pods) (Deletes env (u.deleted ++ pods)) u := by
  induction pods generalizing u with
  | nil =>
    rw [List.append_nil]
    exact { prefixed := List.prefix_rfl, all := fun _ _ => rfl, fails := by rintro _ ⟨⟩ }
  | cons pod pods ih =>
    refine Wp.bind (wp_send hu) (fun _ v hv => ?_) fun e v hv => ?_
    · have hdeleted : v.deleted ++ [pod] ++ pods = u.deleted ++ pod :: pods := by
        rw [hv.deleted, List.append_assoc, List.singleton_append]
      rw [← hdeleted]
      exact ih (u := { v with deleted := v.deleted ++ [pod] }) hv.knows
    · refine { prefixed := ?_, all := by rintro _ ⟨⟩, fails := ?_ }
      · rw [hv.deleted]
        exact List.prefix_append _ _
      · rintro _ ⟨⟩
        exact hv.fails e rfl

/-- What the Pods that are to be upgraded come to. -/
inductive Upgraded (op : Operator) (env : UpgradeEnv) (probe : ResolvedScalingProbe) (sts : StatefulSet)
    (stsPods update : List Pod) (r : Except GoError Result) (u : UpgradeState) : Prop
  | stays (hdeleted : u.deleted = []) (h : update = [] ∨ executeScalingProbe op env probe sts stsPods update = false)
  | upgrades (hprobe : executeScalingProbe op env probe sts stsPods update = true) (hdeletes : Deletes env update r u)

theorem wp_upgradePods {probe : ResolvedScalingProbe} {sts : StatefulSet} (henabled : env.isNodeLookupEnabled = true)
    (hu : Knows env fn u) (hdeleted : u.deleted = []) :
    Wp (upgradePods op env fn probe sts stsPods update) (Upgraded op env probe sts stsPods update) u := by
  cases update with
  | nil => exact .stays hdeleted (.inl rfl)
  | cons pod pods =>
    have hlook : Wp (forM stsPods.head? fun pod => do
          let _ ← Prog.attempt (fun _ => false) (getNodeId env fn pod)
          return () : UpgradeOp Unit)
        (fun r v => r = .ok () ∧ Knows env fn v ∧ v.deleted = []) u := by
      cases stsPods.head? with
      | none => exact ⟨rfl, hu, hdeleted⟩
      | some p =>
        have hid := wp_getNodeId henabled hu p
        have htried : Wp (Prog.attempt (fun _ => false) (getNodeId env fn p))
            (Wp.Ends (fun _ v => Knows env fn v ∧ v.deleted = []) fun _ => False) u := by
          refine Wp.attempt (Wp.mono hid fun r v hv => ?_)
          have hkept : Knows env fn v ∧ v.deleted = [] := ⟨hv.knows, hv.deleted.trans hdeleted⟩
          cases r with
          | ok a => exact hkept
          | error e => exact hkept
        exact Wp.bind_ends htried (fun _ _ hv => ⟨rfl, hv⟩) fun _ _ hv => hv.elim
    refine Wp.bind hlook (fun _ v hv => ?_) fun _ _ hv => by cases hv.1
    by_cases hprobe : executeScalingProbe op env probe sts stsPods (pod :: pods) = true
    · rw [if_pos hprobe]
      have hdelete : Wp (deletePods env (pod :: pods)) _ _ := wp_deletePods hv.2.1
      rw [hv.2.2, List.nil_append] at hdelete
      refine Wp.bind hdelete (fun _ v' hv' => ?_) fun e v' hv' => ?_
      · exact .upgrades hprobe
          { prefixed := hv'.prefixed, all := fun _ _ => hv'.all _ rfl, fails := by rintro _ ⟨⟩ }
      · refine .upgrades hprobe { prefixed := hv'.prefixed, all := by rintro _ ⟨⟩, fails := ?_ }
        rintro _ ⟨⟩
        exact hv'.fails e rfl
    · rw [if_neg hprobe]
      exact .stays hv.2.2 (.inr (Bool.not_eq_true _ ▸ hprobe))

/-! ### A call -/

/-- Nothing is in the way of a call but what the Pods are. -/
structure IsOpen (env : UpgradeEnv) (sts : StatefulSet) (pods : List Pod) : Prop where
  ready : isReady sts = true
  revisions : sts.status.currentRevision ≠ sts.status.updateRevision
  enabled : env.isNodeLookupEnabled = true
  listed : env.pods = .ok pods
  count : (pods.length : ℤ) = sts.spec.replicas.getD 1

/-- What a call comes to. -/
inductive RolledOn (op : Operator) (env : UpgradeEnv) (fn : PodNodeIdSupplier) (probe : ResolvedScalingProbe) (sts : StatefulSet)
    (r : Except GoError Result) (u : UpgradeState) : Prop
  | closed (hdeleted : u.deleted = []) (h : ∀ pods, IsOpen env sts pods → pods = [])
  | failed (hdeleted : u.deleted = []) (h : ∃ n e, env.faults n = some e)
  | looked (pods update : List Pod) (hopen : IsOpen env sts pods)
      (hupdate : IsUpgrade env.nodeLabel fn sts.status.updateRevision pods update)
      (h : Upgraded op env probe sts pods update r u)

/-- **A call** deletes Pods only where nothing is in its way, some of those that are outdated and of one node. -/
theorem wp_rollingUpgrade {probe : ResolvedScalingProbe} {sts : StatefulSet} :
    Wp (rollingUpgrade op env fn probe sts) (RolledOn op env fn probe sts) {} := by
  unfold rollingUpgrade
  by_cases hready : isReady sts = true
  · rw [if_neg (by simp [hready])]
    by_cases hrevisions : sts.status.currentRevision = sts.status.updateRevision
    · rw [if_pos hrevisions]
      exact .closed rfl fun _ h => absurd hrevisions h.revisions
    rw [if_neg hrevisions]
    by_cases henabled : env.isNodeLookupEnabled = true
    · rw [if_neg (by simp [henabled])]
      refine Wp.outcome_bind (fun pods hlisted => ?_) fun e herr => ?_
      · have hsame : ∀ pods', IsOpen env sts pods' → pods' = pods := fun pods' h =>
          Except.ok.inj (h.listed.symm.trans hlisted)
        by_cases hne : pods = []
        · rw [if_pos hne]
          exact .closed rfl fun pods' h => (hsame pods' h).trans hne
        rw [if_neg hne]
        by_cases hcount : (pods.length : ℤ) = sts.spec.replicas.getD 1
        · rw [if_neg (not_not.2 hcount)]
          have hknows : Knows env fn {} := by
            intro label _ name value h
            rw [Finmap.lookup_empty] at h
            cases h
          refine Wp.bind (wp_podsToUpdate henabled hknows hne) (fun update v hv => ?_) fun e v hv => ?_
          · refine Wp.mono (wp_upgradePods henabled hv.knows hv.deleted) fun r v' hv' => ?_
            exact .looked pods update ⟨hready, hrevisions, henabled, hlisted, hcount⟩ (hv.returns _ rfl) hv'
          · obtain ⟨n, hn⟩ := hv.fails e rfl
            exact .failed hv.deleted ⟨n, e, hn⟩
        · rw [if_pos hcount]
          exact .closed rfl fun pods' h => absurd (hsame pods' h ▸ h.count) hcount
      · refine .closed rfl fun _ h => ?_
        rw [h.listed] at herr
        cases herr
    · rw [if_pos (by simp [henabled])]
      exact .closed rfl fun _ h => absurd h.enabled henabled
  · rw [if_pos (by simp [hready])]
    exact .closed rfl fun _ h => absurd h.ready hready

end UpgradeStrategy

end CoherenceOperator
