import CoherenceOperator.Footprint.Removing
import CoherenceOperator.Lib.Run

/-!
# The deletion of what is no longer wanted

What is in the previous version and not in the latest is to be deleted. The reconciler of Services does so, but a request
that fails is no error, and the next time a version is stored the Service is in neither of the two: it is never deleted. The
reconciler of ServiceMonitors has a loop of its own, which goes through the latest version only.
-/

namespace CoherenceOperator

open Effect Prog Storage CoherenceReconciler

variable {op : Operator} {request : NamespacedName} {w : World} {turns : List CoherenceTurn}

/-! ### Services and ServiceMonitors -/

/-- Of the previous version, what is not in the latest and is no workload does not exist. -/
def RemovedAreGone (request : NamespacedName) (w : World) : Prop :=
  ∀ r ∈ (stored request w).previous.items, r.kind.IsSecondary →
    (stored request w).latest.getResource r.kind r.name = none → w.find r.kind ⟨request.ns, r.name⟩ = none

namespace CoherenceTurn

/-- No ServiceMonitor of the latest version exists that is not in the version that is planned. -/
def LeavesNoMonitor (op : Operator) (request : NamespacedName) (w : World) : CoherenceTurn → Prop
  | reconcile env => ∀ c h res st st', Attempt op env request w c h res st st' →
      ∀ r ∈ (stored request w).latest.items, r.kind = .serviceMonitor → res.getResource r.kind r.name = none →
        w.find .serviceMonitor ⟨request.ns, r.name⟩ = none
  | _ => True

/-- Requests to find and to delete the Services that are to be deleted do not fail. -/
def DeletesServices (op : Operator) (request : NamespacedName) (w : World) : CoherenceTurn → Prop
  | reconcile env => ∀ c h res st st', Attempt op env request w c h res st st' →
      ∀ r ∈ (stored request w).latest.items, r.kind = .service → res.getResource r.kind r.name = none →
        w.find .service ⟨request.ns, r.name⟩ ≠ none → env.CanDelete .service ⟨request.ns, r.name⟩
  | _ => True

end CoherenceTurn

/-- One turn. -/
theorem removedAreGone_step (hw : (stored request w).IsGenerated request) (hgone : RemovedAreGone request w) {t : CoherenceTurn}
    (hreliable : t.IsReliable) (ht : t.LeavesNoMonitor op request w) : RemovedAreGone request (t.step op request w) := by
  cases t with
  | edit | delete => exact hgone
  | reconcile env =>
    intro r hr hk hnone
    show (exec (reconcile op env request) w).2.find r.kind _ = none
    have hcan : env.CanDelete .service ⟨request.ns, r.name⟩ := fun n => by
      rw [show env.faults = fun _ _ => none from hreliable]
      exact ⟨rfl, rfl⟩
    have hmoved : Moved op env request w (exec (reconcile op env request) w).2 := (moved_reconcile hw).1
    rcases hmoved with
      ⟨hlatest, hprevious, hobjects⟩ | ⟨ha, hlatest, hprevious, habsent, hdeleted⟩
    · have hbefore := hgone r (hprevious ▸ hr) hk (hlatest ▸ hnone)
      rw [World.find_of_ne_secret _ hk.ne_secret] at hbefore ⊢
      rw [hobjects _ _ hk.ne_secret, hbefore]
    · have hmem : r ∈ (stored request w).latest.items := hprevious ▸ hr
      have hunplanned : Resources.getResource _ r.kind r.name = none := hlatest ▸ hnone
      rcases hk with hk | hk
      · rw [hk]
        exact hdeleted r hmem hk hunplanned hcan
      · exact habsent r.kind r.name (.inr hk) hunplanned (hk ▸ ht _ _ _ _ _ ha r hmem hk hunplanned)

/-- **What is removed is gone** after each reconcile of a run in which no request fails, where no ServiceMonitor exists that is
stored and no longer planned. -/
theorem always_removedAreGone (hw : (stored request w).IsGenerated request) (hgone : RemovedAreGone request w)
    (h : Along (CoherenceTurn.step op request) (fun w t => t.IsReliable ∧ t.LeavesNoMonitor op request w) w turns) :
    Always (CoherenceTurn.step op request) (RemovedAreGone request) w turns := by
  have hboth := h.always (I := fun w => (stored request w).IsGenerated request ∧ RemovedAreGone request w)
    (fun _ t hI ht => ⟨CoherenceTurn.isGenerated_step hI.1 t, removedAreGone_step hI.1 hI.2 ht.1 ht.2⟩) ⟨hw, hgone⟩
  exact fun n => (hboth n).2

/-! ### Runs of a resource with a port -/

/-- A resource, as a user creates it, with the finalizer. -/
def tendedCoherence (spec : CoherenceStatefulSetResourceSpec) : Coherence :=
  { metadata := { ns := "default", name := "storage", finalizers := [CoherenceFinalizer] }, generation := 1, spec }

/-- A cluster with the resource. -/
def tendedCluster (spec : CoherenceStatefulSetResourceSpec) : World :=
  { (default : World) with coherence := Table.empty.put (tendedCoherence spec) }

/-- A port with a Service. -/
def withPort : CoherenceStatefulSetResourceSpec := { replicas := some 1, ports := [{ name := "metrics" }] }

/-- A port with a Service and a ServiceMonitor. -/
def withMonitor : CoherenceStatefulSetResourceSpec :=
  { replicas := some 1, ports := [{ name := "metrics", serviceMonitor := some { enabled := some true } }] }

/-- No ports. -/
def withoutPort : CoherenceStatefulSetResourceSpec := { replicas := some 1 }

/-- The resource is reconciled, edited to have no ports, and reconciled in an environment. -/
def portRemoved (env : Env) : List CoherenceTurn := [.reconcile {}, .edit withoutPort, .reconcile env]

/-- The Service of a port is removed with it. -/
theorem always_removedAreGone_withPort : Always (CoherenceTurn.step default ⟨"default", "storage"⟩)
    (RemovedAreGone ⟨"default", "storage"⟩) (tendedCluster withPort) (portRemoved {}) := by
  refine always_removedAreGone ⟨?_, ?_⟩ ?_ ⟨⟨rfl, ?_⟩, ⟨trivial, trivial⟩, ⟨rfl, ?_⟩, trivial⟩
  · rintro r ⟨⟩
  · rintro r ⟨⟩
  · rintro r ⟨⟩
  · rintro c h res st st' - r ⟨⟩
  · intro c h res st st' _ r hr hk
    have hnone : ∀ r ∈ (stored ⟨"default", "storage"⟩ (run (CoherenceTurn.step default ⟨"default", "storage"⟩)
        (tendedCluster withPort) [.reconcile {}, .edit withoutPort])).latest.items, r.kind ≠ .serviceMonitor := by
      decide +kernel
    exact absurd hk (hnone r hr)

/-- The ServiceMonitor of a port is not. -/
theorem not_forall_always_removedAreGone :
    ¬ ∀ (op : Operator) (request : NamespacedName) (w : World) (turns : List CoherenceTurn), w.store request = none →
      (∀ t ∈ turns, t.IsReliable) → Always (CoherenceTurn.step op request) (RemovedAreGone request) w turns := by
  intro h
  have hgone := h default ⟨"default", "storage"⟩ (tendedCluster withMonitor) (portRemoved {}) rfl
    (by simp [portRemoved, CoherenceTurn.IsReliable, Env.Reliable]) 3
  have hleft : ∃ r ∈ (stored ⟨"default", "storage"⟩ (run (CoherenceTurn.step default ⟨"default", "storage"⟩)
      (tendedCluster withMonitor) ((portRemoved {}).take 3))).previous.items, r.kind = .serviceMonitor ∧
      (stored ⟨"default", "storage"⟩ (run (CoherenceTurn.step default ⟨"default", "storage"⟩)
        (tendedCluster withMonitor) ((portRemoved {}).take 3))).latest.getResource r.kind r.name = none ∧
      ((run (CoherenceTurn.step default ⟨"default", "storage"⟩) (tendedCluster withMonitor)
        ((portRemoved {}).take 3)).find r.kind ⟨"default", r.name⟩).isSome := by decide +kernel
  obtain ⟨r, hr, hk, hnone, hfind⟩ := hleft
  rw [hgone r hr (.inr hk) hnone] at hfind
  cases hfind

/-! ### All earlier versions -/

/-- The version that comes into the store of the request. -/
def Act.version (request : NamespacedName) : Act → Option Resources
  | .putStore s => if s.key = request then s.latest else none
  | _ => none

/-- The resource was in a version that was stored. -/
def World.WasStored (request : NamespacedName) (w : World) (r : Resource) : Prop :=
  ∃ res ∈ w.log.filterMap (Act.version request), r ∈ res.items

/-- The operator created the object. -/
def World.WasCreated (w : World) (kind : ResourceType) (key : NamespacedName) : Prop :=
  ∃ o ∈ w.log.filterMap Act.created, o.kind = kind ∧ o.key = key

theorem World.wasStored_iff {r : Resource} : w.WasStored request r ↔
    ∃ s, .putStore s ∈ w.log ∧ s.key = request ∧ r ∈ (s.latest.getD {}).items := by
  simp only [WasStored, List.mem_filterMap]
  constructor
  · rintro ⟨res, ⟨a, ha, hres⟩, hr⟩
    cases a with
    | putStore s =>
      obtain ⟨hkey, hlatest⟩ := Option.ite_none_right_eq_some.1 hres
      exact ⟨s, ha, hkey, by rwa [hlatest]⟩
    | _ => cases hres
  · rintro ⟨s, hs, hkey, hr⟩
    cases hlatest : s.latest with
    | none =>
      rw [hlatest] at hr
      cases hr
    | some res =>
      rw [hlatest] at hr
      exact ⟨res, ⟨_, hs, Option.ite_none_right_eq_some.2 ⟨hkey, hlatest⟩⟩, hr⟩

/-- The kinds that `Secondary.reconcileAllResourceOfKind` takes care of. -/
def ResourceType.IsBase (kind : ResourceType) : Prop := kind = .configMap ∨ kind = .secret ∨ kind = .service

/-- Nothing is left that was stored once, is not wanted any more and was created by the operator. -/
def NoneLeft (request : NamespacedName) (w : World) : Prop :=
  ∀ r, w.WasStored request r → r.kind.IsBase → (stored request w).latest.getResource r.kind r.name = none →
    w.WasCreated r.kind ⟨request.ns, r.name⟩ →
      ∀ o, w.find r.kind ⟨request.ns, r.name⟩ = some o → o.metadata.deletionTimestamp.isSome

/-- After every reconcile that returns without an error, and is not to be queued again, nothing is left. -/
def LosesNoDeletion (op : Operator) (request : NamespacedName) (w : World) (turns : List CoherenceTurn) : Prop :=
  ∀ n env, turns[n]? = some (.reconcile env) →
    (exec (reconcile op env request) (run (CoherenceTurn.step op request) w (turns.take n))).1 = .ok {} →
      NoneLeft request (run (CoherenceTurn.step op request) w (turns.take (n + 1)))

/-- Nothing was stored yet for the resource. -/
structure World.IsFresh (request : NamespacedName) (w : World) : Prop where
  store : w.store request = none
  log : ∀ s, .putStore s ∈ w.log → s.key ≠ request

/-- All versions were generated, and no Service exists that is only in earlier ones. -/
structure World.IsTidy (request : NamespacedName) (w : World) : Prop where
  generated : (stored request w).IsGenerated request
  versions : ∀ r, w.WasStored request r → r.IsGenerated (Owner.ofRequest request)
  gone : ∀ r, w.WasStored request r → r.kind = .service → (stored request w).latest.getResource r.kind r.name = none →
    w.find .service ⟨request.ns, r.name⟩ = none

namespace World

theorem IsFresh.isTidy (hw : w.IsFresh request) : w.IsTidy request where
  generated := by
    rw [Storage.stored, hw.store]
    exact ⟨by rintro r ⟨⟩, by rintro r ⟨⟩⟩
  versions r hr := by
    obtain ⟨s, hs, hkey, -⟩ := wasStored_iff.1 hr
    exact absurd hkey (hw.log s hs)
  gone r hr := by
    obtain ⟨s, hs, hkey, -⟩ := wasStored_iff.1 hr
    exact absurd hkey (hw.log s hs)

/-- Of a tidy cluster nothing is left: no ConfigMap and no Secret was ever stored. -/
theorem IsTidy.noneLeft (hw : w.IsTidy request) : NoneLeft request w := by
  intro r hr hk hnone _ o ho
  obtain ⟨hconfigMap, hsecret⟩ := (hw.versions r hr).kind_ne
  have hservice : r.kind = .service := (hk.resolve_left hconfigMap).resolve_left hsecret
  rw [hservice, hw.gone r hr hservice hnone] at ho
  cases ho

/-- **One turn** keeps the cluster tidy, where no request for a Service that is to be deleted fails. -/
theorem IsTidy.step (hw : w.IsTidy request) {t : CoherenceTurn} (ht : t.DeletesServices op request w) :
    (t.step op request w).IsTidy request := by
  have hgen : (stored request (t.step op request w)).IsGenerated request := CoherenceTurn.isGenerated_step hw.generated t
  cases t with
  | edit | delete => exact ⟨hgen, hw.versions, hw.gone⟩
  | reconcile env =>
    obtain ⟨hmoved, hsaves⟩ : Moved op env request w (exec (reconcile op env request) w).2 ∧
        w.SavesLatest request (exec (reconcile op env request) w).2 := moved_reconcile hw.generated
    -- a version that is new is the latest one
    have hold : ∀ r, WasStored request (exec (reconcile op env request) w).2 r → w.WasStored request r ∨
        r ∈ (stored request (exec (reconcile op env request) w).2).latest.items := by
      intro r hr
      obtain ⟨s, hs, hkey, hr⟩ := wasStored_iff.1 hr
      rcases hsaves s hs hkey with hs | hs
      · exact .inl (wasStored_iff.2 ⟨s, hs, hkey, hr⟩)
      · exact .inr (hs ▸ hr)
    refine ⟨hgen, fun r hr => ?_, fun r hr hk hnone => ?_⟩
    · rcases hold r hr with hr | hr
      · exact hw.versions r hr
      · exact hgen.latest r hr
    · have hr : w.WasStored request r := by
        refine (hold r hr).resolve_right fun hr => ?_
        exact Resources.getResource_eq_none.1 hnone r hr ⟨rfl, rfl⟩
      show (exec (reconcile op env request) w).2.find .service ⟨request.ns, r.name⟩ = none
      rcases hmoved with ⟨hlatest, -, hobjects⟩ | ⟨ha, hlatest, -, habsent, hdeleted⟩
      · have hbefore := hw.gone r hr hk (hlatest ▸ hnone)
        rw [find_of_ne_secret _ (by decide)] at hbefore ⊢
        rw [hobjects _ _ (by decide), hbefore]
      · have hunplanned : Resources.getResource _ .service r.name = none := hk ▸ hlatest ▸ hnone
        have hkeep := habsent .service r.name (.inl rfl) hunplanned
        by_cases hfind : w.find .service ⟨request.ns, r.name⟩ = none
        · exact hkeep hfind
        -- it exists, so it is in the version before
        have hlast : ((stored request w).latest.getResource r.kind r.name).isSome := by
          by_contra hnone'
          exact hfind (hw.gone r hr hk (by simpa using hnone'))
        obtain ⟨r', hr', hk', hname⟩ := Resources.getResource_isSome.1 hlast
        rw [← hname] at hfind hunplanned ⊢
        have hservice := hk'.trans hk
        rw [← hservice] at hunplanned
        exact hdeleted r' hr' hservice hunplanned (ht _ _ _ _ _ ha r' hr' hservice hunplanned hfind)

end World

/-- The Service cannot be deleted. -/
def failsDelete : Env where
  faults := fun _ c => if c = ⟨.delete, .service, ⟨"default", "storage-metrics"⟩⟩ then some .internalError else none

theorem isFresh_tendedCluster (spec : CoherenceStatefulSetResourceSpec) :
    (tendedCluster spec).IsFresh ⟨"default", "storage"⟩ := ⟨rfl, by rintro s ⟨⟩⟩

end CoherenceOperator
