import CoherenceOperator.Footprint.Upgrading
import CoherenceOperator.Lib.Run
import Mathlib.Data.String.Basic

/-!
# Upgrades by node are safe, and end

Round after round `rollingUpgrade` is called, each time with what the world answers then. A round deletes only outdated Pods, of
one node, and only where there is another node; and if the Pods that were deleted come back on the same node, at the revision
of the update, every round that succeeds leaves one node less with outdated Pods.
-/

namespace CoherenceOperator

open Effect Prog UpgradeStrategy

/-- A round of `rollingUpgrade`, and what the world makes of each Pod after it. -/
structure UpgradeRound where
  env : UpgradeEnv
  probe : ResolvedScalingProbe
  sts : StatefulSet
  next : Pod → Pod := id

/-- The nodes with outdated Pods. -/
def outdatedNodes (nodeLabel : String → String → String) (fn : PodNodeIdSupplier) (revision : String) (pods : List Pod) :
    Finset String := ((outdated revision pods).map (nodeId nodeLabel fn)).toFinset

namespace UpgradeRound

variable (op : Operator) (fn : PodNodeIdSupplier)

/-- What the round comes to. -/
def call (r : UpgradeRound) : Except GoError Result × UpgradeState :=
  exec (rollingUpgrade op r.env fn r.probe r.sts) {}

/-- The Pods that the round deletes. -/
def deleted (r : UpgradeRound) : List Pod := (r.call op fn).2.deleted

/-- Does the round delete Pods, and does no request of it fail? -/
def succeeds (r : UpgradeRound) : Bool := r.deleted op fn ≠ [] && (r.call op fn).1.isOk

/-- The Pods after the round. -/
def step (pods : List Pod) (r : UpgradeRound) : List Pod := pods.map r.next

/-- What a round may delete. -/
structure IsSafe (r : UpgradeRound) : Prop where
  gates : r.deleted op fn ≠ [] → ∃ pods, IsOpen r.env r.sts pods ∧ ∃ update, r.deleted op fn <+: update ∧
    executeScalingProbe op r.env r.probe r.sts pods update = true
  outdated : ∀ pods, r.env.pods = .ok pods → ∀ p ∈ r.deleted op fn,
    p ∈ pods ∧ p.revision ≠ r.sts.status.updateRevision
  oneNode : ∀ p ∈ r.deleted op fn, ∀ q ∈ r.deleted op fn, nodeId r.env.nodeLabel fn p = nodeId r.env.nodeLabel fn q
  wholeNode : (r.call op fn).1.isOk → ∀ pods, r.env.pods = .ok pods → ∀ p ∈ r.deleted op fn, ∀ q ∈ pods,
    q.revision ≠ r.sts.status.updateRevision → nodeId r.env.nodeLabel fn q = nodeId r.env.nodeLabel fn p →
      q ∈ r.deleted op fn
  otherNode : ∀ pods, r.env.pods = .ok pods → 1 < pods.length → ∀ p ∈ r.deleted op fn,
    ∃ q ∈ pods, nodeId r.env.nodeLabel fn q ≠ nodeId r.env.nodeLabel fn p

/-- The round sees the Pods, and those that it deletes come back on the same node at the revision of the update. The others
stay where they are, at their revision. -/
structure ComesBack (nodeLabel : String → String → String) (revision : String) (pods : List Pod) (r : UpgradeRound) : Prop where
  listed : ∀ ps, r.env.pods = .ok ps → ps.Perm pods
  labels : r.env.nodeLabel = nodeLabel
  update : r.sts.status.updateRevision = revision
  sameNode : ∀ p ∈ pods, nodeId nodeLabel fn (r.next p) = nodeId nodeLabel fn p
  updated : ∀ p ∈ r.deleted op fn, (r.next p).revision = revision
  others : ∀ p ∈ pods, p ∉ r.deleted op fn → (r.next p).revision = p.revision

/-- Nothing is in the way of the round: there are outdated Pods, and more than one node or one Pod only, the members agree
whichever node it is, and no request fails. -/
structure IsFree (nodeLabel : String → String → String) (revision : String) (pods : List Pod) (r : UpgradeRound) : Prop where
  isOpen : ∃ ps, IsOpen r.env r.sts ps
  agreed : ∀ ps update, r.env.pods = .ok ps → IsUpgrade nodeLabel fn revision ps update → update ≠ [] →
    executeScalingProbe op r.env r.probe r.sts ps update = true
  reliable : ∀ n, r.env.faults n = none
  outdated : outdatedNodes nodeLabel fn revision pods ≠ ∅
  nodes : pods.length = 1 ∨ ∃ p ∈ pods, ∃ q ∈ pods, nodeId nodeLabel fn p ≠ nodeId nodeLabel fn q

/-- What the round makes of the nodes with outdated Pods. -/
structure Progresses (nodeLabel : String → String → String) (revision : String) (pods : List Pod) (r : UpgradeRound) : Prop where
  keeps : outdatedNodes nodeLabel fn revision (step pods r) ⊆ outdatedNodes nodeLabel fn revision pods
  decreases : r.succeeds op fn → (outdatedNodes nodeLabel fn revision (step pods r)).card <
    (outdatedNodes nodeLabel fn revision pods).card
  succeeds : IsFree op fn nodeLabel revision pods r → r.succeeds op fn

variable {op fn} {r : UpgradeRound} {nodeLabel : String → String → String} {revision : String} {pods : List Pod}

theorem rolledOn (r : UpgradeRound) :
    RolledOn op r.env fn r.probe r.sts (r.call op fn).1 (r.call op fn).2 := wp_rollingUpgrade

/-- Where Pods are deleted, they were looked at. -/
theorem looked (h : r.deleted op fn ≠ []) :
    ∃ pods update, IsOpen r.env r.sts pods ∧ IsUpgrade r.env.nodeLabel fn r.sts.status.updateRevision pods update ∧
      executeScalingProbe op r.env r.probe r.sts pods update = true ∧
        Deletes r.env update (r.call op fn).1 (r.call op fn).2 := by
  have hrolled : RolledOn op r.env fn r.probe r.sts (r.call op fn).1 (r.call op fn).2 := rolledOn r
  cases hrolled with
  | closed hdeleted _ => exact absurd hdeleted h
  | failed hdeleted _ => exact absurd hdeleted h
  | looked pods update hopen hupdate hupgraded =>
    cases hupgraded with
    | stays hdeleted _ => exact absurd hdeleted h
    | upgrades hprobe hdeletes => exact ⟨pods, update, hopen, hupdate, hprobe, hdeletes⟩

/-- Where a Pod is deleted, some of the outdated Pods of its node are, and there is another node if there is another Pod. -/
theorem node_of_mem_deleted {p : Pod} (hp : p ∈ r.deleted op fn) :
    ∃ pods, r.env.pods = .ok pods ∧
      r.deleted op fn <+: ((UpgradeStrategy.outdated r.sts.status.updateRevision pods).filter fun q =>
        nodeId r.env.nodeLabel fn q = nodeId r.env.nodeLabel fn p) ∧
      ((r.call op fn).1.isOk → r.deleted op fn =
        (UpgradeStrategy.outdated r.sts.status.updateRevision pods).filter fun q =>
          nodeId r.env.nodeLabel fn q = nodeId r.env.nodeLabel fn p) ∧
      (1 < pods.length → ∃ q ∈ pods, nodeId r.env.nodeLabel fn q ≠ nodeId r.env.nodeLabel fn p) := by
  obtain ⟨pods, update, hopen, hupdate, -, hdeletes⟩ := looked (List.ne_nil_of_mem hp)
  have hmem : p ∈ update := hdeletes.prefixed.subset hp
  cases hupdate with
  | none => cases hmem
  | node id hsome hother =>
    have hid : nodeId r.env.nodeLabel fn p = id := by simpa using (List.mem_filter.1 hmem).2
    subst hid
    refine ⟨pods, hopen.listed, hdeletes.prefixed, fun hok => ?_, hother⟩
    cases hresult : (r.call op fn).1 with
    | ok a => exact hdeletes.all a hresult
    | error e =>
      rw [hresult] at hok
      cases hok

/-- **A round is safe.** -/
theorem isSafe (r : UpgradeRound) : IsSafe op fn r where
  gates h := by
    obtain ⟨pods, update, hopen, -, hprobe, hdeletes⟩ := looked h
    exact ⟨pods, hopen, update, hdeletes.prefixed, hprobe⟩
  outdated pods hpods p hp := by
    obtain ⟨pods', hpods', hpre, -⟩ := node_of_mem_deleted hp
    obtain rfl : pods = pods' := Except.ok.inj (hpods.symm.trans hpods')
    exact mem_outdated.1 (List.mem_filter.1 (hpre.subset hp)).1
  oneNode p hp q hq := by
    obtain ⟨pods, -, hpre, -⟩ := node_of_mem_deleted hq
    simpa using (List.mem_filter.1 (hpre.subset hp)).2
  wholeNode hok pods hpods p hp q hq hrevision hnode := by
    obtain ⟨pods', hpods', -, hall, -⟩ := node_of_mem_deleted hp
    obtain rfl : pods = pods' := Except.ok.inj (hpods.symm.trans hpods')
    rw [hall hok]
    exact List.mem_filter.2 ⟨mem_outdated.2 ⟨hq, hrevision⟩, by simpa using hnode⟩
  otherNode pods hpods hlen p hp := by
    obtain ⟨pods', hpods', -, -, hother⟩ := node_of_mem_deleted hp
    obtain rfl : pods = pods' := Except.ok.inj (hpods.symm.trans hpods')
    exact hother hlen

theorem mem_outdatedNodes {id : String} :
    id ∈ outdatedNodes nodeLabel fn revision pods ↔
      ∃ p ∈ pods, p.revision ≠ revision ∧ nodeId nodeLabel fn p = id := by
  simp only [outdatedNodes, List.mem_toFinset, List.mem_map, mem_outdated]
  constructor
  · rintro ⟨p, ⟨hp, hrevision⟩, rfl⟩
    exact ⟨p, hp, hrevision, rfl⟩
  · rintro ⟨p, hp, hrevision, rfl⟩
    exact ⟨p, ⟨hp, hrevision⟩, rfl⟩

theorem outdatedNodes_eq_empty : outdatedNodes nodeLabel fn revision pods = ∅ ↔ outdated revision pods = [] := by
  rw [outdatedNodes, List.toFinset_eq_empty_iff, List.map_eq_nil_iff]

/-- The Pods that are outdated after the round were so before it, and were not deleted. -/
theorem exists_of_mem_outdatedNodes_step {id : String} (h : ComesBack op fn nodeLabel revision pods r)
    (hid : id ∈ outdatedNodes nodeLabel fn revision (step pods r)) :
    ∃ p ∈ pods, p ∉ r.deleted op fn ∧ p.revision ≠ revision ∧ nodeId nodeLabel fn p = id := by
  obtain ⟨p', hp', hrevision, rfl⟩ := mem_outdatedNodes.1 hid
  obtain ⟨p, hp, rfl⟩ := List.mem_map.1 hp'
  have hkept : p ∉ r.deleted op fn := fun hdeleted => hrevision (h.updated p hdeleted)
  refine ⟨p, hp, hkept, ?_, (h.sameNode p hp).symm⟩
  rw [← h.others p hp hkept]
  exact hrevision

/-- **A round that succeeds** leaves a node less. -/
theorem card_step_lt (h : ComesBack op fn nodeLabel revision pods r) (hsucceeds : r.succeeds op fn = true) :
    (outdatedNodes nodeLabel fn revision (step pods r)).card < (outdatedNodes nodeLabel fn revision pods).card := by
  rw [succeeds, Bool.and_eq_true, decide_eq_true_eq] at hsucceeds
  obtain ⟨p, hp⟩ := List.exists_mem_of_ne_nil _ hsucceeds.1
  obtain ⟨ps, hps, hpre, hall, -⟩ := node_of_mem_deleted hp
  have hperm := h.listed ps hps
  have hlabels := h.labels
  have hupdate := h.update
  subst hlabels hupdate
  have hmem := mem_outdated.1 (List.mem_filter.1 (hpre.subset hp)).1
  refine Finset.card_lt_card (Finset.ssubset_iff_of_subset (fun id hid => ?_) |>.2
    ⟨nodeId r.env.nodeLabel fn p, mem_outdatedNodes.2 ⟨p, hperm.subset hmem.1, hmem.2, rfl⟩, fun hid => ?_⟩)
  · obtain ⟨q, hq, -, hrevision, rfl⟩ := exists_of_mem_outdatedNodes_step h hid
    exact mem_outdatedNodes.2 ⟨q, hq, hrevision, rfl⟩
  · obtain ⟨q, hq, hkept, hrevision, hnode⟩ := exists_of_mem_outdatedNodes_step h hid
    exact hkept ((isSafe r).wholeNode hsucceeds.2 ps hps p hp q (hperm.symm.subset hq) hrevision hnode)

/-- **A round that nothing is in the way of** succeeds. -/
theorem succeeds_of_isFree (h : ComesBack op fn nodeLabel revision pods r) (hfree : IsFree op fn nodeLabel revision pods r) :
    r.succeeds op fn = true := by
  obtain ⟨ps, hopen⟩ := hfree.isOpen
  have hperm := h.listed ps hopen.listed
  have hlabels := h.labels
  have hupdate := h.update
  subst hlabels hupdate
  have houtdated : UpgradeStrategy.outdated r.sts.status.updateRevision ps ≠ [] := by
    intro hnone
    refine hfree.outdated (outdatedNodes_eq_empty.2 (List.eq_nil_iff_forall_not_mem.2 fun p hp => ?_))
    have := mem_outdated.1 hp
    exact List.eq_nil_iff_forall_not_mem.1 hnone p (mem_outdated.2 ⟨hperm.symm.subset this.1, this.2⟩)
  have hrolled : RolledOn op r.env fn r.probe r.sts (r.call op fn).1 (r.call op fn).2 := rolledOn r
  cases hrolled with
  | closed _ hclosed =>
    rw [hclosed ps hopen] at houtdated
    exact absurd rfl houtdated
  | failed _ hfailed =>
    obtain ⟨n, e, hfault⟩ := hfailed
    rw [hfree.reliable n] at hfault
    cases hfault
  | looked ps' update hopen' hlooked hupgraded =>
    obtain rfl : ps = ps' := Except.ok.inj (hopen.listed.symm.trans hopen'.listed)
    have hsome : update ≠ [] := by
      cases hlooked with
      | none hnone =>
        rcases hnone with hnone | ⟨hlen, hsame⟩
        · exact absurd hnone houtdated
        · rcases hfree.nodes with hone | ⟨p, hp, q, hq, hne⟩
          · rw [hperm.length_eq, hone] at hlen
            omega
          · exact absurd (hsame p (hperm.symm.subset hp) q (hperm.symm.subset hq)) hne
      | node id hsome _ =>
        obtain ⟨p, hp, hid⟩ := hsome
        exact List.ne_nil_of_mem (List.mem_filter.2 ⟨hp, by simpa using hid⟩)
    cases hupgraded with
    | stays _ hstays =>
      rcases hstays with hnone | hprobe
      · exact absurd hnone hsome
      · rw [hfree.agreed ps update hopen.listed hlooked hsome] at hprobe
        cases hprobe
    | upgrades _ hdeletes =>
      cases hresult : (r.call op fn).1 with
      | ok a =>
        have hdeleted : r.deleted op fn = update := hdeletes.all a hresult
        simp [succeeds, hdeleted, hsome, hresult, Except.isOk, Except.toBool]
      | error e =>
        obtain ⟨n, hfault⟩ := hdeletes.fails e hresult
        rw [hfree.reliable n] at hfault
        cases hfault

theorem progresses (h : ComesBack op fn nodeLabel revision pods r) : Progresses op fn nodeLabel revision pods r where
  keeps id hid := by
    obtain ⟨q, hq, -, hrevision, rfl⟩ := exists_of_mem_outdatedNodes_step h hid
    exact mem_outdatedNodes.2 ⟨q, hq, hrevision, rfl⟩
  decreases := card_step_lt h
  succeeds := succeeds_of_isFree h

/-- The rounds that succeed are no more than the nodes that they leave. -/
theorem card_run {rounds : List UpgradeRound} (h : Along step (Progresses op fn nodeLabel revision) pods rounds) :
    (outdatedNodes nodeLabel fn revision (run step pods rounds)).card + rounds.countP (·.succeeds op fn) ≤
      (outdatedNodes nodeLabel fn revision pods).card := by
  induction rounds generalizing pods with
  | nil => simp
  | cons r rs ih =>
    have hrest := ih h.2
    have hkeeps := Finset.card_le_card h.1.keeps
    rw [run_cons, List.countP_cons]
    by_cases hr : r.succeeds op fn = true
    · have hlt := h.1.decreases hr
      rw [if_pos hr]
      omega
    · rw [if_neg hr]
      omega

end UpgradeRound

open UpgradeRound

/-- **Upgrades by node**: every round is safe; and in a run in which the Pods come back, every round that succeeds leaves a node
less with outdated Pods, one that nothing is in the way of succeeds, and after as many that did as there were nodes
with outdated Pods none of these is left. -/
theorem nodeUpgrade (op : Operator) (fn : PodNodeIdSupplier) :
    (∀ r : UpgradeRound, IsSafe op fn r) ∧
      ∀ nodeLabel revision pods rounds, Along step (ComesBack op fn nodeLabel revision) pods rounds →
        Along step (Progresses op fn nodeLabel revision) pods rounds ∧
          ((outdatedNodes nodeLabel fn revision pods).card ≤ rounds.countP (·.succeeds op fn) →
            outdated revision (run step pods rounds) = []) := by
  refine ⟨isSafe, fun nodeLabel revision pods rounds h => ?_⟩
  have hprogress : Along step (Progresses op fn nodeLabel revision) pods rounds :=
    h.mono_of_invariant (I := fun _ => True) (fun _ _ _ _ => trivial) (fun _ _ _ hr => progresses hr) trivial
  refine ⟨hprogress, fun hcount => ?_⟩
  have hcard := card_run hprogress
  have hnone : (outdatedNodes nodeLabel fn revision (run step pods rounds)).card = 0 := by omega
  exact outdatedNodes_eq_empty.1 (Finset.card_eq_zero.1 hnone)

/-- A member on a node, at a revision. -/
def memberPod (name node revision : String) : Pod :=
  { name, nodeName := node, labels := (∅ : Labels).set "controller-revision-hash" revision, readySince := some 0 }

/-- A round that upgrades three members, after which those on the node are at the new revision. -/
def memberRound (pods : List Pod) (node : String) : UpgradeRound where
  env := { pods := .ok pods, order := MapOrder.sorted }
  probe := resolveScalingProbe {}
  sts :=
    { metadata := { ns := "default", name := "storage" }
      spec := { replicas := some 3 }
      status := { readyReplicas := 3, currentRevision := "old", updateRevision := "new" } }
  next p := if p.nodeName = node then memberPod p.name node "new" else p

/-- Three members on two nodes. -/
def oldPods : List Pod := [memberPod "a" "n1" "old", memberPod "b" "n2" "old", memberPod "c" "n1" "old"]

/-- The members after the first round. -/
def halfwayPods : List Pod := [memberPod "a" "n1" "new", memberPod "b" "n2" "old", memberPod "c" "n1" "new"]

/-- Two nodes, two rounds. -/
theorem nodeUpgrade_oldPods :
    outdated "new" (run step oldPods [memberRound oldPods "n1", memberRound halfwayPods "n2"]) = [] := by
  have hback : ∀ (pods : List Pod) (node : String),
      (∀ p ∈ (memberRound pods node).deleted default .nodeName, p.nodeName = node) →
      (∀ p ∈ pods, p.nodeName = node → p ∉ (memberRound pods node).deleted default .nodeName → p.revision = "new") →
      ComesBack default .nodeName (fun _ _ => "") "new" pods (memberRound pods node) := by
    intro pods node hdeleted hkept
    have hnew : ∀ p : Pod, p.nodeName = node → ((memberRound pods node).next p).revision = "new" := by
      intro p hp
      simp only [memberRound, if_pos hp]
      rfl
    refine { listed := ?_, labels := rfl, update := rfl, sameNode := ?_, updated := ?_, others := ?_ }
    · rintro _ ⟨⟩
      exact List.Perm.refl _
    · intro p _
      by_cases hp : p.nodeName = node
      · simp [memberRound, nodeId, memberPod, hp]
      · simp [memberRound, hp]
    · exact fun p hp => hnew p (hdeleted p hp)
    · intro p hp hnot
      by_cases hnode : p.nodeName = node
      · rw [hnew p hnode, hkept p hp hnode hnot]
      · simp [memberRound, hnode]
  have hhalfway : step oldPods (memberRound oldPods "n1") = halfwayPods := by decide +kernel
  refine ((nodeUpgrade default .nodeName).2 (fun _ _ => "") "new" oldPods
    [memberRound oldPods "n1", memberRound halfwayPods "n2"] ⟨hback _ _ ?_ ?_, hhalfway ▸ hback _ _ ?_ ?_, trivial⟩).2 ?_
  · decide +kernel
  · decide +kernel
  · decide +kernel
  · decide +kernel
  · decide +kernel

end CoherenceOperator
