import CoherenceOperator.Controllers.CoherenceJob
import CoherenceOperator.Footprint.Removing
import CoherenceOperator.Footprint.Workload
import CoherenceOperator.Properties.MonitorUpdates
import CoherenceOperator.Properties.Quorum

/-!
# The objects of a version

When the objects that a version has come into being. The reconcilers make what is not there, unless one of them fails before it gets so far:
a failed request for one Service keeps the Services after it from being made, and a start quorum that is not met keeps the
Job from being made. What was there or was made by the operator stays so, unless it is deleted (`HasOrHad.act`).

* `Secondary.wp_reconcileAllResourceOfKind`, `ServiceMonitor.wp_reconcileMonitors` and `JobReconciler.wp_reconcileJob` are about the
  reconcilers of the three kinds;
* `CoherenceJobReconciler.complete_reconcileStored` is about all of them.
-/

namespace CoherenceOperator

open Effect Prog Storage

/-! ### What is there -/

namespace World

/-- The object is there, or the operator made it earlier. -/
def HasOrHad (w : World) (kind : ResourceType) (key : NamespacedName) : Prop :=
  (w.find kind key).isSome ∨ ∃ o, .createObject o ∈ w.log ∧ o.ident = (kind, key)

/-- The object is not being deleted, if it is there. -/
def Lives (w : World) (kind : ResourceType) (key : NamespacedName) : Prop :=
  ∀ o, w.find kind key = some o → o.metadata.deletionTimestamp = none

end World

/-- No request of this verb for an object of this kind fails. -/
def Env.Serves (env : Env) (verb : Verb) (kind : ResourceType) : Prop := ∀ n key, env.faults n ⟨verb, kind, key⟩ = none

/-- A patch does not mark an object for deletion. -/
def StrategicMerge.KeepsDeletion (merge : StrategicMerge) : Prop :=
  ∀ o d c p, merge.createThreeWayPatch o d c = some p → ∀ live, (p live).metadata.deletionTimestamp = live.metadata.deletionTimestamp

/-- None of the objects is marked for deletion. -/
def Resources.IsFresh (res : Resources) : Prop := ∀ r ∈ res.items, ∀ o ∈ r.spec, o.metadata.deletionTimestamp = none

/-- Acts that leave an object where it is. -/
def Act.Retains (kind : ResourceType) (key : NamespacedName) : Act → Prop
  | .deleteObject kind' key' => (kind', key') ≠ (kind, key)
  | _ => True

section Presence

variable {w : World} {kind : ResourceType} {key : NamespacedName} {a : Act} {o : Object}

theorem Act.Retains.of_note (h : a.IsNote) : a.Retains kind key := by
  cases a with
  | deleteObject => exact h.elim
  | _ => trivial

/-- What is there stays there. -/
theorem Act.Retains.find (ha : a.Retains kind key) (hk : kind ≠ .secret) (h : (w.find kind key).isSome) :
    ((Acts.act a w).find kind key).isSome := by
  rw [World.find_of_ne_secret _ hk] at h ⊢
  have hput : ∀ o : Object, ((w.objects.put o).get (kind, key)).isSome := by
    intro o
    rw [Table.get_put]
    split
    · rfl
    · exact h
  cases a with
  | createObject o | updateObject o => exact hput o
  | patchStatefulSet p result => exact hput result.toObject
  | deleteObject kind' key' =>
    simp only [Acts.act, Act.effect]
    split
    · exact h
    · rwa [Table.get_erase_of_ne fun he => ha he.symm]
  | putStore s =>
    have hne : (kind, key) ≠ (ResourceType.secret, s.key) := fun he => hk (Prod.mk.inj he).1
    have herase : ((w.objects.erase (.secret, s.key)).get (kind, key)).isSome := by rwa [Table.get_erase_of_ne hne]
    exact herase
  | coherenceMetadata | coherenceJobMetadata =>
    simp only [Acts.act, Act.effect]
    split <;> exact h
  | _ => exact h

namespace World

theorem HasOrHad.act (h : w.HasOrHad kind key) (hk : kind ≠ .secret) (ha : a.Retains kind key) :
    (Acts.act a w).HasOrHad kind key := by
  rcases h with h | ⟨o, ho, hident⟩
  · exact .inl (ha.find hk h)
  · exact .inr ⟨o, List.mem_cons_of_mem _ ho, hident⟩

theorem HasOrHad.path {A : Act → Prop} {u : World} (h : w.HasOrHad kind key) (hk : kind ≠ .secret)
    (hA : ∀ a, A a → a.Retains kind key) (p : Path A w u) : u.HasOrHad kind key :=
  p.invariant (I := fun x : World => x.HasOrHad kind key) (fun a _ ha hx => HasOrHad.act hx hk (hA a ha)) h

/-- What is found after an object was put under its key. -/
theorem find_put {u : World} (hk : kind ≠ .secret) (hobjects : u.objects = w.objects.put o) :
    u.find kind key = if (kind, key) = o.ident then some o else w.find kind key := by
  rw [find_of_ne_secret _ hk, find_of_ne_secret _ hk, hobjects, Table.get_put]

/-- One object is there, and is not being deleted; the others of its kind are as they were. -/
structure Made (kind : ResourceType) (key : NamespacedName) (w u : World) : Prop where
  present : ∃ o, u.find kind key = some o ∧ o.metadata.deletionTimestamp = none
  others : ∀ key', key' ≠ key → u.find kind key' = w.find kind key'

theorem Made.of_put {u : World} (hk : kind ≠ .secret) (hobjects : u.objects = w.objects.put o) (hident : o.ident = (kind, key))
    (hlive : o.metadata.deletionTimestamp = none) : Made kind key w u := by
  refine ⟨⟨o, ?_, hlive⟩, fun key' hkey' => ?_⟩
  · rw [find_put hk hobjects, if_pos hident.symm]
  · rw [find_put hk hobjects, if_neg]
    rw [hident]
    exact fun he => hkey' (Prod.mk.inj he).2

/-- What is there and is not being deleted is as good as made. -/
theorem Made.refl (hfind : w.find kind key = some o) (hlive : w.Lives kind key) : Made kind key w w :=
  ⟨⟨o, hfind, hlive o hfind⟩, fun _ _ => rfl⟩

theorem Made.lives {u : World} (h : Made kind key w u) {key' : NamespacedName} (hlive : w.Lives kind key') : u.Lives kind key' := by
  intro o ho
  by_cases hkey : key' = key
  · obtain ⟨x, hx, hx'⟩ := h.present
    rw [hkey, hx, Option.some.injEq] at ho
    rwa [← ho]
  · rw [h.others key' hkey] at ho
    exact hlive o ho

end World

end Presence

/-! ### Services -/

namespace Secondary

variable {op : Operator} {env : Env} {request : NamespacedName} {d : Deployment} {st : Storage} {owner : Owner} {w : World}
  {kind : ResourceType} {r : Resource}

/-- The requests of the reconciler of a kind go through, and a patch marks nothing for deletion. -/
structure Goes (op : Operator) (env : Env) (kind : ResourceType) : Prop where
  get : env.Serves .get kind
  create : env.Serves .create kind
  patch : env.Serves .patch kind
  merge : op.merge.KeepsDeletion

/-- The first resource of the kind and the name of one that is generated, and its object. -/
theorem exists_getResource (hgen : st.latest.IsGenerated owner) (hns : owner.key.ns = request.ns) (hfresh : st.latest.IsFresh)
    (hr : r ∈ st.latest.getResourcesOfKind kind) : ∃ r' o, st.latest.getResource kind r.name = some r' ∧ r'.spec = some o ∧
      o.ident = (kind, ⟨request.ns, r.name⟩) ∧ o.metadata.deletionTimestamp = none := by
  obtain ⟨hmem, hkind⟩ := Resources.mem_getResourcesOfKind.1 hr
  obtain ⟨r', hr'⟩ := Option.isSome_iff_exists.1 (Resources.getResource_isSome.2 ⟨r, hmem, hkind, rfl⟩)
  obtain ⟨hmem', hkind', hname'⟩ := Resources.getResource_eq_some hr'
  obtain ⟨o, ho, -⟩ := (hgen r' hmem').spec
  refine ⟨r', o, hr', ho, ?_, hfresh r' hmem' o ho⟩
  rw [Object.ident, (hgen r' hmem').key ho, hns, hname', (r'.filed o ho).1, hkind']

/-- A Service that is there is patched, or left as it is. -/
theorem wp_update (hgoes : Goes op env kind) (hk : kind ≠ .secret) {current : Object} {r' : Resource} {o : Object}
    {key : NamespacedName} (hr' : st.latest.getResource kind key.name = some r') (ho : r'.spec = some o)
    (hfind : w.find kind key = some current) (hlive : w.Lives kind key) :
    Wp (update op env kind key.name current st) (fun res u => res = .ok () ∧ World.Made kind key w u) w := by
  obtain ⟨hcurrent, hkey⟩ := World.find_filed _ hfind
  have hself : World.Made kind key w w := .refl hfind hlive
  unfold update
  split
  · exact ⟨rfl, hself⟩
  · simp only [hr', ho, threeWayPatch]
    split
    · exact ⟨rfl, hself⟩
    · rename_i patch hpatch
      have hrequest : exec (CoherenceOperator.request env ⟨.patch, kind, key⟩) w = (.ok (), w.sent ⟨.patch, kind, key⟩) := by
        rw [exec_request, World.answer_of_faults _ _ (hgoes.patch _ _)]
      have hrun : exec (patchObject env kind key patch) w =
          (.ok (), Acts.act (.updateObject (patch current)) (w.sent ⟨.patch, kind, key⟩)) := by
        rw [patchObject, exec_bind_ok hrequest, exec_bind_ok (exec_get _), World.find_sent, hfind]
        rfl
      have hident : (patch current).ident = (kind, key) := by
        rw [Object.ident, op.merge.kind_patch hpatch, op.merge.key_patch hpatch, hcurrent, hkey]
      have hstill : (patch current).metadata.deletionTimestamp = none := by
        rw [hgoes.merge _ _ _ _ hpatch]
        exact hlive current hfind
      rw [hcurrent, hkey, Wp, Op.patching, Op.wrapError, exec_mapError, hrun]
      exact ⟨rfl, .of_put hk rfl hident hstill⟩

/-- One that is not there is created. -/
theorem wp_create (hcreate : env.Serves .create kind) (hk : kind ≠ .secret) {r' : Resource} {o : Object} {key : NamespacedName}
    (hr' : st.latest.getResource kind key.name = some r') (ho : r'.spec = some o) (hident : o.ident = (kind, key))
    (hfresh : o.metadata.deletionTimestamp = none) (hfind : w.find kind key = none) :
    Wp (create env kind key.name st) (fun res u => res = .ok () ∧ World.Made kind key w u) w := by
  obtain ⟨hkind, hkey⟩ := Prod.mk.inj hident
  have hrequest : exec (CoherenceOperator.request env ⟨.create, o.kind, o.key⟩) w = (.ok (), w.sent ⟨.create, o.kind, o.key⟩) := by
    rw [exec_request, World.answer_of_faults]
    rw [hkind]
    exact hcreate _ _
  have hnone : (w.sent ⟨.create, o.kind, o.key⟩).find o.kind o.key = none := by
    rw [World.find_sent, hkind, hkey, hfind]
  have hrun : exec (createObject env o) w = (.ok (), Acts.act (.createObject o) (w.sent ⟨.create, o.kind, o.key⟩)) := by
    rw [createObject, exec_bind_ok hrequest, exec_bind_ok (exec_get _), hnone]
    rfl
  rw [create, hr']
  simp only [ho]
  rw [Wp, Op.wrapError, exec_mapError, hrun]
  exact ⟨rfl, .of_put hk rfl hident hfresh⟩

/-- **One object** of the latest version. -/
theorem wp_reconcileResource (hgoes : Goes op env kind) (hk : kind ≠ .secret) (hnil : d.isNil = false)
    (hgen : st.latest.IsGenerated owner) (hns : owner.key.ns = request.ns) (hfresh : st.latest.IsFresh)
    (hr : r ∈ st.latest.getResourcesOfKind kind) (hlive : w.Lives kind ⟨request.ns, r.name⟩) :
    Wp (reconcileResource op env kind request d st r)
      (fun res u => res = .ok () ∧ World.Made kind ⟨request.ns, r.name⟩ w u) w := by
  have hpresent : r.isDelete = false := (hgen r (Resources.mem_getResourcesOfKind.1 hr).1).isDelete
  obtain ⟨r', o, hr', ho, hident, hnew⟩ := exists_getResource hgen hns hfresh hr
  set key : NamespacedName := ⟨request.ns, r.name⟩
  have hfind : exec (Op.wrapError s!"getting {kind.name} {key.ns}/{key.name}" (findResource env kind key)) w =
      (.ok (w.find kind key), w.sent ⟨.get, kind, key⟩) := by
    rw [Op.wrapError, exec_mapError, findResource, getObject, exec_read, World.answer_of_faults _ _ (hgoes.get _ _)]
    rfl
  have howner : exec (ownerOf env d (w.find kind key)) (w.sent ⟨.get, kind, key⟩) = (.ok d, w.sent ⟨.get, kind, key⟩) := by
    rw [ownerOf, hnil]
    rfl
  have hstore : exec (isStoreOf kind key.name d) (w.sent ⟨.get, kind, key⟩) = (.ok false, w.sent ⟨.get, kind, key⟩) := by
    have hsecret : (!d.isNil && kind == .secret) = false := by simp [hk]
    rw [isStoreOf, hsecret]
    rfl
  have hmade : ∀ {u : World}, World.Made kind key (w.sent ⟨.get, kind, key⟩) u → World.Made kind key w u :=
    fun h => ⟨h.present, h.others⟩
  have hlive' : (w.sent ⟨.get, kind, key⟩).Lives kind key := hlive
  rw [reconcileResource, hpresent]
  simp only [Bool.false_eq_true, if_false]
  refine Wp.bind_ok hfind (Wp.bind_ok howner (Wp.bind_ok hstore ?_))
  simp only [Bool.false_eq_true, if_false]
  refine Wp.bind_ok (exec_pure _ _) ?_
  cases hcurrent : w.find kind key with
  | none =>
    have hsettle : settle op env kind key none d (some st) = create env kind key.name st := by
      unfold settle
      rw [hnil]
      rfl
    rw [hsettle]
    exact Wp.mono (wp_create hgoes.create hk hr' ho hident hnew hcurrent) fun _ _ h => ⟨h.1, hmade h.2⟩
  | some current =>
    have hcurrent' : live (some current) = some current := by simp [live, Option.filter, hlive current hcurrent]
    have hsettle : settle op env kind key (some current) d (some st) = update op env kind key.name current st := by
      unfold settle
      rw [hnil]
      simp only [hcurrent']
    rw [hsettle]
    exact Wp.mono (wp_update hgoes hk hr' ho hcurrent hlive') fun _ _ h => ⟨h.1, hmade h.2⟩

end Secondary

/-! ### What the reconciler of a kind leaves alone -/

/-- Acts of the reconciler of a kind: they touch nothing of another kind, and delete nothing that is in the version. -/
def Act.IsOf (kind : ResourceType) (ns : String) (res : Resources) : Act → Prop
  | .call _ => True
  | .createObject o | .updateObject o => o.kind = kind
  | .deleteObject kind' key => kind' = kind ∧ ∀ name, key = ⟨ns, name⟩ → res.getResource kind name = none
  | _ => False

section Reconcilers

variable {op : Operator} {env : Env} {request : NamespacedName} {d : Deployment} {st : Storage} {owner : Owner} {w : World}
  {kind : ResourceType} {key : NamespacedName} {a : Act} {ns name : String} {res : Resources}

theorem Act.IsOf.retains (h : a.IsOf kind ns res) {kind' : ResourceType} (hwanted : (res.getResource kind' name).isSome) :
    a.Retains kind' ⟨ns, name⟩ := by
  cases a with
  | deleteObject k key =>
    intro he
    obtain ⟨hk, hkey⟩ := Prod.mk.inj he
    rw [← hk, h.1, h.2 name hkey] at hwanted
    cases hwanted
  | _ => trivial

/-- Another kind is left alone. -/
theorem Act.IsOf.find (h : a.IsOf kind ns res) {kind' : ResourceType} (hne : kind' ≠ kind) (hsecret : kind' ≠ .secret) :
    (Acts.act a w).find kind' key = w.find kind' key := by
  rw [World.find_of_ne_secret _ hsecret, World.find_of_ne_secret _ hsecret]
  cases a with
  | call => rfl
  | createObject o | updateObject o =>
    refine Table.get_put_of_ne fun he => hne ?_
    rw [(Prod.mk.inj he).1]
    exact h
  | deleteObject k key' =>
    simp only [Acts.act, Act.effect]
    split
    · rfl
    · refine Table.get_erase_of_ne fun he => hne ?_
      rw [(Prod.mk.inj he).1, h.1]
  | _ => exact h.elim

theorem Act.IsOf.coherence (h : a.IsOf kind ns res) : (Acts.act a w).coherence = w.coherence := by
  cases a with
  | deleteObject =>
    simp only [Acts.act, Act.effect]
    split <;> rfl
  | call | createObject | updateObject => rfl
  | _ => exact h.elim

theorem isOf_of_call (h : a.IsCall) : a.IsOf kind ns res := by
  cases a with
  | call => trivial
  | _ => exact h.elim

namespace Secondary

theorem isOf_reconcileAllResourceOfKind (hnil : d.isNil = false) (hgen : st.latest.IsGenerated owner) :
    Does (Act.IsOf kind request.ns st.latest) (reconcileAllResourceOfKind op env kind request d st) := by
  refine does_reconcileAllResourceOfKind hnil (fun _ => isOf_of_call) ?_ (fun _ _ hk => hk) fun _ _ _ hk _ => hk
  rintro r (hr | ⟨hr, hdelete⟩) hk
  · refine ⟨trivial, rfl, fun name hname => ?_⟩
    obtain ⟨-, hnone⟩ := List.mem_filter.1 hr
    rw [hk, Option.isNone_iff_eq_none] at hnone
    rw [← hnone, (NamespacedName.mk.inj hname).2]
  · rw [(hgen r hr).isDelete] at hdelete
    cases hdelete

/-- **The objects of a kind** that are in the latest version are there in the end, if the requests go through and none of them is
being deleted. -/
theorem wp_reconcileAllResourceOfKind (hgoes : Goes op env kind) (hk : kind ≠ .secret) (hnil : d.isNil = false)
    (hgen : st.latest.IsGenerated owner) (hns : owner.key.ns = request.ns) (hfresh : st.latest.IsFresh)
    (hlive : ∀ r ∈ st.latest.getResourcesOfKind kind, w.Lives kind ⟨request.ns, r.name⟩) :
    Wp (reconcileAllResourceOfKind op env kind request d st) (fun x u => x = .ok {} ∧
      ∀ r ∈ st.latest.getResourcesOfKind kind, (u.find kind ⟨request.ns, r.name⟩).isSome) w := by
  set I : World → Prop := fun v => ∀ r ∈ st.latest.getResourcesOfKind kind, v.Lives kind ⟨request.ns, r.name⟩ with hI
  have hdeletions : Wp (ForM.forM (st.getDeletions.filter fun r => r.kind == kind) fun del =>
      deleteIfExists env kind ⟨request.ns, del.name⟩) (fun x v => x = .ok ⟨⟩ ∧ I v) w := by
    refine wp_forM_of_keeps (fun del s => (wp_deleteIfExists hk).1) (fun del hdel => ?_) hlive
    obtain ⟨hmem, hkind⟩ := List.mem_filter.1 hdel
    obtain ⟨-, hnone⟩ := List.mem_filter.1 hmem
    -- what is deleted is not in the latest version
    have hne : ∀ r ∈ st.latest.getResourcesOfKind kind, r.name ≠ del.name := by
      intro r hr hname
      obtain ⟨hr, hrk⟩ := Resources.mem_getResourcesOfKind.1 hr
      have hkind : del.kind = kind := by simpa using hkind
      rw [Option.isNone_iff_eq_none, Resources.getResource_eq_none] at hnone
      exact hnone r hr ⟨hrk.trans hkind.symm, hname⟩
    have hdoes : Does (fun a => a.IsCall ∨ (∃ c, a = .call c) ∨ a = .deleteObject kind ⟨request.ns, del.name⟩)
        (deleteIfExists env kind ⟨request.ns, del.name⟩) := does_deleteIfExists (fun _ ha => .inl ha) (.inr (.inl ⟨_, rfl⟩)) (.inr (.inr rfl))
    refine hdoes.keeps fun a v ha hv r hr o ho => hv r hr o ?_
    rcases ha with ha | ⟨c, rfl⟩ | rfl
    · cases a with
      | call => exact ho
      | _ => exact ha.elim
    · exact ho
    · rw [World.find_of_ne_secret _ hk] at ho ⊢
      have hkey : (kind, (⟨request.ns, r.name⟩ : NamespacedName)) ≠ (kind, ⟨request.ns, del.name⟩) := by
        intro he
        exact hne r hr (NamespacedName.mk.inj (Prod.mk.inj he).2).2
      rw [← ho]
      simp only [Acts.act, Act.effect]
      split
      · rfl
      · exact (Table.get_erase_of_ne hkey).symm
  refine Wp.bind hdeletions (fun _ v hv => ?_) fun e _ he => by cases he.1
  have hlatest : Wp (ForM.forM (st.latest.getResourcesOfKind kind) (reconcileResource op env kind request d st))
      (fun x u => x = .ok ⟨⟩ ∧ I u ∧ ∀ r ∈ st.latest.getResourcesOfKind kind, (u.find kind ⟨request.ns, r.name⟩).isSome) v := by
    refine wp_forM_of_establishes (P := fun (r : Resource) (u : World) => (u.find kind ⟨request.ns, r.name⟩).isSome)
      (fun r hr s hs => ?_) (fun r hr r' hr' => ?_) hv.2
    · refine Wp.mono (wp_reconcileResource hgoes hk hnil hgen hns hfresh hr (hs r hr)) fun x u hx => ⟨hx.1, fun r' hr' => ?_, ?_⟩
      · exact hx.2.lives (hs r' hr')
      · obtain ⟨o, ho, -⟩ := hx.2.present
        rw [ho]
        rfl
    · have hdoes : Does (Act.Retains kind ⟨request.ns, r'.name⟩) (reconcileResource op env kind request d st r) := by
        have hpresent := (hgen r (Resources.mem_getResourcesOfKind.1 hr).1).isDelete
        rw [reconcileResource, hpresent]
        exact does_reconcileSingleResource hnil (fun _ ha => .of_note ha.isRemark.isNote) (fun _ _ _ _ => trivial) fun _ _ _ => trivial
      exact hdoes.keeps fun a s ha hs => ha.find hk hs
  refine Wp.bind hlatest (fun _ u hu => ?_) fun e _ he => by cases he.1
  exact ⟨rfl, hu.2.2⟩

end Secondary

/-! ### ServiceMonitors -/

namespace ServiceMonitor

theorem isOf_reconcileAllResourceOfKind (hnil : d.isNil = false) (hzero : d.isNilOrZero = .ok false) (hgen : st.latest.IsGenerated owner) :
    Does (Act.IsOf .serviceMonitor request.ns st.latest) (reconcileAllResourceOfKind op env request d st) := by
  refine does_reconcileAllResourceOfKind hnil (fun _ => isOf_of_call) ?_ (fun _ _ hk => hk) fun _ _ _ hk _ => hk
  rintro r hr (hdelete | hno)
  · rw [(hgen r (Resources.mem_getResourcesOfKind.1 hr).1).isDelete] at hdelete
    cases hdelete
  · rw [hzero] at hno
    cases hno

/-- A ServiceMonitor that is there stays there, however the update ends. -/
theorem made_of_ending {current : Object} (hfind : w.find .serviceMonitor current.key = some current)
    (hlive : w.Lives .serviceMonitor current.key) (hmerge : op.merge.KeepsDeletion)
    (hdesired : desiredOf st current.metadata.name ≠ none) {x : Except GoError Unit × World} (h : Ending op env st current w x) :
    x.1 = .ok () ∧ World.Made .serviceMonitor current.key w x.2 := by
  have hk : ResourceType.serviceMonitor ≠ .secret := by decide
  have hself : World.Made .serviceMonitor current.key w w := .refl hfind hlive
  have hcalls : ∀ {v : World}, Path Act.IsCall (w.sent ⟨.patch, .serviceMonitor, current.key⟩) v → v.objects = w.objects :=
    fun p => p.unchanged fun _ _ ha => ha.isRemark.isNote.objects
  cases h with
  | matched | unneeded => exact ⟨rfl, hself⟩
  | missing hmissing => exact absurd hmissing hdesired
  | @patched _ live patch _ _ hpatch hfound _ =>
    obtain ⟨hkind, hkey⟩ := World.find_filed _ hfound
    refine ⟨rfl, .of_put hk rfl ?_ ?_⟩
    · rw [Object.ident, op.merge.kind_patch hpatch, op.merge.key_patch hpatch, hkind, hkey]
    · rw [hmerge _ _ _ _ hpatch]
      exact hlive live hfound
  | @retried desired patch u _ hstored _ _ hattempts =>
    refine ⟨rfl, ?_⟩
    cases hattempts with
    | @replaced live v hfound _ hpath =>
      obtain ⟨-, hkey⟩ := World.find_filed _ hfound
      have hput : (Acts.act (.updateObject { live with body := (dated current desired).body }) v).objects =
          w.objects.put { live with body := (dated current desired).body } := by
        rw [← hcalls hpath]
        rfl
      exact .of_put hk hput (Prod.ext (desiredOf_filed hstored).1 hkey) (hlive live hfound)
    | created hmissing =>
      have hnone : w.find .serviceMonitor current.key = none := hmissing
      rw [hfind] at hnone
      cases hnone
    | failed _ hpath =>
      have hsame : ∀ key, u.find .serviceMonitor key = w.find .serviceMonitor key := by
        intro key
        rw [World.find_of_ne_secret _ hk, World.find_of_ne_secret _ hk, hcalls hpath]
      exact ⟨⟨current, (hsame _).trans hfind, hlive current hfind⟩, fun key' _ => hsame key'⟩

/-- **One ServiceMonitor** of the latest version. -/
theorem wp_reconcileMonitor (hinstalled : env.hasServiceMonitor = true) (hget : env.Serves .get .serviceMonitor)
    (hcreate : env.Serves .create .serviceMonitor) (hmerge : op.merge.KeepsDeletion) (hnil : d.isNil = false)
    (hzero : d.isNilOrZero = .ok false) (hgen : st.latest.IsGenerated owner) (hns : owner.key.ns = request.ns)
    (hfresh : st.latest.IsFresh) {r : Resource} (hr : r ∈ st.latest.getResourcesOfKind .serviceMonitor)
    (hlive : w.Lives .serviceMonitor ⟨request.ns, r.name⟩) :
    Wp (reconcileResource op env request d st r)
      (fun x u => x = .ok () ∧ World.Made .serviceMonitor ⟨request.ns, r.name⟩ w u) w := by
  have hk : ResourceType.serviceMonitor ≠ .secret := by decide
  have hpresent : r.isDelete = false := (hgen r (Resources.mem_getResourcesOfKind.1 hr).1).isDelete
  obtain ⟨r', o, hr', ho, hident, hnew⟩ := Secondary.exists_getResource hgen hns hfresh hr
  set key : NamespacedName := ⟨request.ns, r.name⟩
  have hfind : exec (Op.wrapError s!"getting ServiceMonitor {key.ns}/{key.name}" (getObject env .serviceMonitor key)) w =
      (.ok (w.find .serviceMonitor key), w.sent ⟨.get, .serviceMonitor, key⟩) := by
    rw [Op.wrapError, exec_mapError, getObject, exec_read, World.answer_of_faults _ _ (hget _ _)]
    rfl
  have howner : exec (Secondary.ownerOf env d (w.find .serviceMonitor key)) (w.sent ⟨.get, .serviceMonitor, key⟩) =
      (.ok d, w.sent ⟨.get, .serviceMonitor, key⟩) := by
    rw [Secondary.ownerOf, hnil]
    rfl
  have hnonzero : exec (outcome d.isNilOrZero : Op Bool) (w.sent ⟨.get, .serviceMonitor, key⟩) =
      (.ok false, w.sent ⟨.get, .serviceMonitor, key⟩) := by rw [hzero, exec_outcome]
  have hmade : ∀ {u : World}, World.Made .serviceMonitor key (w.sent ⟨.get, .serviceMonitor, key⟩) u →
      World.Made .serviceMonitor key w u := fun h => ⟨h.present, h.others⟩
  rw [reconcileResource, hpresent, reconcileSingleResource, hinstalled]
  simp only [Bool.false_eq_true, if_false, Bool.not_true]
  refine Wp.bind_ok hfind (Wp.bind_ok howner (Wp.bind_ok hnonzero ?_))
  simp only [Bool.false_eq_true, if_false]
  cases hcurrent : w.find .serviceMonitor key with
  | none =>
    have hcreated := Secondary.wp_create (w := w.sent ⟨.get, .serviceMonitor, key⟩) hcreate hk hr' ho hident hnew hcurrent
    rw [Secondary.create, hr'] at hcreated
    simp only [ho] at hcreated
    have hsame : createServiceMonitor env key.name st = Op.wrapError s!"failed to create ServiceMonitor {key.name}" (createObject env o) := by
      rw [createServiceMonitor, hr']
      simp only [ho]
    simp only [Secondary.live, Option.filter_none]
    rw [hsame, Wp, Op.wrapError, exec_mapError, Op.wrapError, exec_mapError]
    rw [Wp, Op.wrapError, exec_mapError] at hcreated
    obtain ⟨hok, hput⟩ := hcreated
    rw [wrapped_eq_ok] at hok
    rw [hok]
    exact ⟨rfl, hmade hput⟩
  | some current =>
    obtain ⟨hkind, hkey⟩ := World.find_filed _ hcurrent
    have hlive' : Secondary.live (some current) = some current := by simp [Secondary.live, Option.filter, hlive current hcurrent]
    have hname : r.name = current.metadata.name := (congrArg NamespacedName.name hkey).symm
    have hdesired : desiredOf st current.metadata.name = some o := by
      rw [← hname, desiredOf]
      exact (congrArg (Option.bind · Resource.spec) hr').trans ho
    have hns' : ∀ desired, desiredOf st current.metadata.name = some desired → desired.metadata.ns = current.metadata.ns := by
      intro desired hd
      rw [hdesired, Option.some.injEq] at hd
      rw [← hd]
      have hkeys : o.key = current.key := (Prod.mk.inj hident).2.trans hkey.symm
      exact congrArg NamespacedName.ns hkeys
    have hending : Ending op env st current (w.sent ⟨.get, .serviceMonitor, key⟩)
        (exec (updateServiceMonitor op env current.metadata.name current st) (w.sent ⟨.get, .serviceMonitor, key⟩)) := ending hns'
    have hupdated := made_of_ending (by rw [World.find_sent, hkey, hcurrent]) (by rw [hkey]; exact hlive) hmerge
      (by rw [hdesired]; exact Option.some_ne_none _) hending
    simp only [hlive']
    rw [hname]
    rw [hkey] at hupdated
    exact ⟨hupdated.1, hmade hupdated.2⟩

/-- **The ServiceMonitors** that are in the latest version are there in the end, on the same terms, if they are installed in the cluster. -/
theorem wp_reconcileMonitors (hinstalled : env.hasServiceMonitor = true ∨ st.latest.getResourcesOfKind .serviceMonitor = [])
    (hget : env.Serves .get .serviceMonitor) (hcreate : env.Serves .create .serviceMonitor) (hmerge : op.merge.KeepsDeletion)
    (hnil : d.isNil = false) (hzero : d.isNilOrZero = .ok false) (hgen : st.latest.IsGenerated owner) (hns : owner.key.ns = request.ns)
    (hfresh : st.latest.IsFresh)
    (hlive : ∀ r ∈ st.latest.getResourcesOfKind .serviceMonitor, w.Lives .serviceMonitor ⟨request.ns, r.name⟩) :
    Wp (reconcileAllResourceOfKind op env request d st) (fun x u => x = .ok {} ∧
      ∀ r ∈ st.latest.getResourcesOfKind .serviceMonitor, (u.find .serviceMonitor ⟨request.ns, r.name⟩).isSome) w := by
  have hk : ResourceType.serviceMonitor ≠ .secret := by decide
  rcases hinstalled with hinstalled | hnone
  · have hlatest : Wp (ForM.forM (st.latest.getResourcesOfKind .serviceMonitor) (reconcileResource op env request d st))
        (fun x u => x = .ok ⟨⟩ ∧ (∀ r ∈ st.latest.getResourcesOfKind .serviceMonitor, u.Lives .serviceMonitor ⟨request.ns, r.name⟩) ∧
          ∀ r ∈ st.latest.getResourcesOfKind .serviceMonitor, (u.find .serviceMonitor ⟨request.ns, r.name⟩).isSome) w := by
      refine wp_forM_of_establishes (P := fun (r : Resource) (u : World) => (u.find .serviceMonitor ⟨request.ns, r.name⟩).isSome)
        (I := fun v => ∀ r ∈ st.latest.getResourcesOfKind .serviceMonitor, v.Lives .serviceMonitor ⟨request.ns, r.name⟩)
        (fun r hr s hs => ?_) (fun r hr r' hr' => ?_) hlive
      · have hone := wp_reconcileMonitor hinstalled hget hcreate hmerge hnil hzero hgen hns hfresh hr (hs r hr)
        refine Wp.mono hone fun x u hx => ⟨hx.1, fun r' hr' => hx.2.lives (hs r' hr'), ?_⟩
        obtain ⟨o, ho, -⟩ := hx.2.present
        rw [ho]
        rfl
      · have hpresent := (hgen r (Resources.mem_getResourcesOfKind.1 hr).1).isDelete
        have hdoes : Does (Act.Retains .serviceMonitor ⟨request.ns, r'.name⟩) (reconcileResource op env request d st r) := by
          rw [reconcileResource, hpresent]
          refine does_reconcileSingleResource hnil (fun _ ha => .of_note ha.isRemark.isNote) (fun hno => ?_) (fun _ _ _ => trivial)
            fun _ _ _ => trivial
          rw [hzero] at hno
          cases hno
        exact hdoes.keeps fun a s ha hs => ha.find hk hs
    refine Wp.bind hlatest (fun _ u hu => ⟨rfl, hu.2.2⟩) fun e _ he => by cases he.1
  · rw [Wp, reconcileAllResourceOfKind, hnone]
    exact ⟨rfl, fun r hr => absurd hr List.not_mem_nil⟩

end ServiceMonitor

/-! ### The Job -/

/-- Every entry of the start quorum that names a resource is met. -/
def CoherenceResource.QuorumIsMet (d : CoherenceResource) (w : World) : Prop :=
  ∀ q ∈ d.spec.startQuorum, q.deployment ≠ "" →
    q.IsMet (.ok (w.coherence.get (q.key d.ns))) ∧ q.IsReadyIfCounted (.ok (w.coherence.get (q.key d.ns)))

/-- What is found for an entry, where the requests go through. -/
theorem quorumFinds_of_serves (henv : env.Serves .get .coherence) {qs : List StartQuorum} {p : StartQuorum × Except GoError (Option Coherence)}
    (hp : p ∈ quorumFinds env ns w qs) : p.1 ∈ qs ∧ p.1.deployment ≠ "" ∧ p.2 = .ok (w.coherence.get (p.1.key ns)) := by
  induction qs generalizing w with
  | nil => cases hp
  | cons q qs ih =>
    rw [quorumFinds] at hp
    split at hp
    · obtain ⟨hq, hrest⟩ := ih hp
      exact ⟨List.mem_cons_of_mem _ hq, hrest⟩
    · rename_i hname
      rcases List.mem_cons.1 hp with rfl | hp
      · refine ⟨List.mem_cons_self, hname, ?_⟩
        rw [World.answer_of_faults _ _ (henv _ _)]
        rfl
      · obtain ⟨hq, hrest⟩ := ih hp
        exact ⟨List.mem_cons_of_mem _ hq, hrest⟩

/-- A resource whose start quorum is met is created. -/
theorem canCreate_of_quorumIsMet (henv : env.Serves .get .coherence) {r : CoherenceResource} (hd : d.deref = .ok r) (h : r.QuorumIsMet w) :
    (exec (canCreate env d) w).1 = .ok none := by
  rw [canCreate_iff hd]
  intro p hp
  obtain ⟨hq, hname, hfound⟩ := quorumFinds_of_serves henv hp
  rw [hfound]
  exact h p.1 hq hname

end Reconcilers

/-! ### The workload -/

/-- What is stored is of the resource of the request, which has replicas. -/
structure Storage.IsDue (request : NamespacedName) (d : Deployment) (r : CoherenceResource) (st : Storage) : Prop where
  deref : d.deref = .ok r
  present : d.isNil = false
  replicas : d.isNilOrZero = .ok false
  key : r.key = request
  latest : st.latest.IsGenerated r.owner
  previous : st.previous.IsGenerated r.owner
  fresh : st.latest.IsFresh

section Workload

variable {op : Operator} {env : Env} {request : NamespacedName} {d : Deployment} {r : CoherenceResource} {st : Storage} {w : World}
  {kind : ResourceType} {key : NamespacedName} {α β : Type}

theorem Storage.IsDue.ns (h : st.IsDue request d r) : r.owner.key.ns = request.ns := by
  rw [← h.key]
  rfl

theorem Storage.IsDue.name (h : st.IsDue request d r) : r.name = request.name := by
  rw [← h.key]
  rfl

/-- Requests take nothing away, and neither do notes. -/
theorem keeps_present {x : Op α} (hk : kind ≠ .secret) (hx : Does Act.IsRemark x) : Keeps (fun u : World => (u.find kind key).isSome) x :=
  hx.keeps fun _ _ ha hu => (Act.Retains.of_note ha.isNote).find hk hu

/-- The quorum is asked for, and is met. -/
theorem wp_canCreate_bind {f : Option String → Op β} {Q : Except GoError β → World → Prop} (hquorum : env.Serves .get .coherence)
    (hd : d.deref = .ok r) (hmet : r.QuorumIsMet w)
    (hf : ∀ u, (∀ kind key, kind ≠ .secret → u.find kind key = w.find kind key) → Wp (f none) Q u) : Wp (canCreate env d >>= f) Q w := by
  obtain ⟨u, hcan⟩ : ∃ u, exec (canCreate env d) w = (.ok none, u) := ⟨_, Prod.ext (canCreate_of_quorumIsMet hquorum hd hmet) rfl⟩
  have hpath : Path Act.IsCall w (exec (canCreate env d) w).2 := call_canCreate _
  rw [hcan] at hpath
  refine Wp.bind_ok hcan (hf u fun kind key hk => ?_)
  have hsame : u.objects = w.objects := hpath.unchanged fun _ _ ha => ha.isRemark.isNote.objects
  rw [World.find_of_ne_secret _ hk, hsame, ← World.find_of_ne_secret _ hk]

/-- The workload that is not there is created. -/
theorem wp_createWorkload (hdue : st.IsDue request d r) (hcreate : env.Serves .create kind) (hk : kind ≠ .secret)
    (hwanted : (st.latest.getResource kind request.name).isSome) (hnone : w.find kind request = none) :
    Wp (Secondary.create env kind r.name st) (fun x u => x = .ok () ∧ World.Made kind request w u) w := by
  obtain ⟨x, hx⟩ := Option.isSome_iff_exists.1 hwanted
  obtain ⟨hmem, hkind, hname⟩ := Resources.getResource_eq_some hx
  obtain ⟨x', o, hx', ho, hident, hnew⟩ :=
    Secondary.exists_getResource hdue.latest hdue.ns hdue.fresh (Resources.mem_getResourcesOfKind.2 ⟨hmem, hkind⟩)
  rw [hname] at hx' hident
  have hcreated : Wp (Secondary.create env kind request.name st) (fun x u => x = .ok () ∧ World.Made kind request w u) w :=
    Secondary.wp_create hcreate hk hx' ho hident hnew hnone
  rw [hdue.name]
  exact hcreated

/-- The owner is the one that was passed in. -/
theorem exec_ownerOf (h : d.isNil = false) (o : Option Object) : exec (Secondary.ownerOf env d o) w = (.ok d, w) := by
  rw [Secondary.ownerOf, h]
  rfl

namespace JobReconciler

/-- What the reconciler of the Job leaves where it is. -/
theorem retains_reconcileAllResourceOfKind (hdue : st.IsDue request d r) :
    Does (Act.Retains kind key) (reconcileAllResourceOfKind op env request d st) := by
  have hA : Allows (Act.Retains kind key) request st := ⟨fun _ => Act.Retains.of_note, fun _ _ _ => trivial, fun _ _ _ => trivial⟩
  refine Does.of_keeps fun w => keeps_reconcileAllResourceOfKind (hA.permits w) hdue.present (fun _ _ => ?_) fun hno => ?_
  · exact (note_probeAndReport.mono hA.remark).keeps_path
  · rw [hdue.replicas] at hno
    cases hno

/-- **The Job** is there in the end, if it was there, or can be made and the start quorum is met. -/
theorem wp_reconcileJob (hdue : st.IsDue request d r) (hget : env.Serves .get .job) (hcreate : env.Serves .create .job)
    (hquorum : env.Serves .get .coherence) (hwanted : (st.latest.getResource .job request.name).isSome)
    (hmet : w.find .job request = none → r.QuorumIsMet w) :
    Wp (reconcileAllResourceOfKind op env request d st) (fun _ u => (u.find .job request).isSome) w := by
  have hk : ResourceType.job ≠ .secret := by decide
  have hjob : st.isJob request = true := hwanted
  cases hfind : w.find .job request with
  | some o =>
    refine (retains_reconcileAllResourceOfKind hdue).keeps (I := fun u : World => (u.find .job request).isSome)
      (fun a s ha hs => ha.find hk hs) w (Option.isSome_iff_exists.2 ⟨o, hfind⟩)
  | none =>
    have hread : exec (Op.wrapError s!"getting Job {request.ns}/{request.name}" (getJob env request)) w =
        (.ok none, w.sent ⟨.get, .job, request⟩) := by
      have hnone : w.job request = none := by
        rw [World.find_of_ne_secret _ hk] at hfind
        rw [World.job, hfind]
        rfl
      rw [Op.wrapError, exec_mapError, getJob, exec_read, World.answer_of_faults _ _ (hget _ _), World.job_sent, hnone]
      rfl
    have hnonzero : exec (outcome d.isNilOrZero : Op Bool) (w.sent ⟨.get, .job, request⟩) =
        (.ok false, w.sent ⟨.get, .job, request⟩) := by rw [hdue.replicas, exec_outcome]
    rw [reconcileAllResourceOfKind, hjob]
    simp only [Bool.not_true, Bool.false_eq_true, if_false]
    refine Wp.bind_ok hread ?_
    simp only [Option.any_none, Bool.false_eq_true, if_false]
    refine Wp.bind_ok (exec_ownerOf hdue.present _) (Wp.bind_ok hnonzero ?_)
    simp only [Bool.false_eq_true, if_false]
    have hcreated : Wp (createJob op env d st) (fun _ v => (v.find .job request).isSome) (w.sent ⟨.get, .job, request⟩) := by
      refine wp_canCreate_bind hquorum hdue.deref (hmet hfind) fun u hu => ?_
      refine Wp.bind_ok (u := u) (a := r) (by rw [hdue.deref, exec_outcome]) ?_
      refine Wp.bind (wp_createWorkload hdue hcreate hk hwanted ((hu _ _ hk).trans hfind)) (fun _ v hv => ?_) fun _ v hv => by cases hv.1
      obtain ⟨made, hmade, -⟩ := hv.2.present
      refine Keeps.bind (keeps_present hk note_updateCoherenceJobStatusCondition).mapError (fun _ => Keeps.pure _) v ?_
      exact Option.isSome_iff_exists.2 ⟨made, hmade⟩
    refine Wp.bind hcreated (fun _ v hv => ?_) fun _ _ hv => hv
    exact Keeps.bind (keeps_present hk note_updateDeploymentStatus) (fun _ => Keeps.pure _) v hv

end JobReconciler

namespace StatefulSetReconciler

theorem allows_retains : Allows (Act.Retains kind key) request st :=
  ⟨fun _ => Act.Retains.of_note, fun _ _ => trivial, fun _ _ _ => trivial, fun _ _ _ => trivial, fun _ _ => trivial, fun _ _ _ => trivial⟩

/-- What the reconciler of the StatefulSet leaves where it is. -/
theorem retains_reconcileAllResourceOfKind (hdue : st.IsDue request d r) :
    Does (Act.Retains kind key) (reconcileAllResourceOfKind op env request d st) := by
  refine does_reconcileAllResourceOfKind allows_retains hdue.present fun hno => ?_
  rw [hdue.replicas] at hno
  cases hno

/-- **The StatefulSet** is there in the end, on the same terms. -/
theorem wp_reconcileStatefulSet (hdue : st.IsDue request d r) (hget : env.Serves .get .statefulSet) (hcreate : env.Serves .create .statefulSet)
    (hquorum : env.Serves .get .coherence) (hjob : st.isJob request = false)
    (hwanted : (st.latest.getResource .statefulSet request.name).isSome) (hmet : w.find .statefulSet request = none → r.QuorumIsMet w) :
    Wp (reconcileAllResourceOfKind op env request d st) (fun _ u => (u.find .statefulSet request).isSome) w := by
  have hk : ResourceType.statefulSet ≠ .secret := by decide
  cases hfind : w.find .statefulSet request with
  | some o =>
    refine (retains_reconcileAllResourceOfKind hdue).keeps (I := fun u : World => (u.find .statefulSet request).isSome)
      (fun a s ha hs => ha.find hk hs) w (Option.isSome_iff_exists.2 ⟨o, hfind⟩)
  | none =>
    have hread : exec (Op.wrapError s!"getting StatefulSet {request.ns}/{request.name}" (getStatefulSet env request)) w =
        (.ok none, w.sent ⟨.get, .statefulSet, request⟩) := by
      have hnone : w.statefulSet request = none := by
        rw [World.find_of_ne_secret _ hk] at hfind
        rw [World.statefulSet, hfind]
        rfl
      rw [Op.wrapError, exec_mapError, getStatefulSet, exec_read, World.answer_of_faults _ _ (hget _ _), World.statefulSet_sent, hnone]
      rfl
    have hnonzero : exec (outcome d.isNilOrZero : Op Bool) (w.sent ⟨.get, .statefulSet, request⟩) =
        (.ok false, w.sent ⟨.get, .statefulSet, request⟩) := by rw [hdue.replicas, exec_outcome]
    rw [reconcileAllResourceOfKind, hjob]
    simp only [Bool.false_eq_true, if_false]
    refine Wp.bind_ok hread ?_
    simp only [Option.any_none, Bool.false_eq_true, if_false]
    refine Wp.bind_ok (exec_ownerOf hdue.present _) (Wp.bind_ok hnonzero ?_)
    simp only [Bool.false_eq_true, if_false]
    have hcreated : Wp (createStatefulSet op env d st) (fun _ v => (v.find .statefulSet request).isSome)
        (w.sent ⟨.get, .statefulSet, request⟩) := by
      refine wp_canCreate_bind hquorum hdue.deref (hmet hfind) fun u hu => ?_
      refine Wp.bind_ok (u := u) (a := r) (by rw [hdue.deref, exec_outcome]) ?_
      refine Wp.bind (wp_createWorkload hdue hcreate hk hwanted ((hu _ _ hk).trans hfind)) (fun _ v hv => ?_) fun _ v hv => by cases hv.1
      obtain ⟨made, hmade, -⟩ := hv.2.present
      refine Keeps.bind (keeps_present hk note_updateCoherenceStatusCondition).mapError (fun _ => Keeps.pure _) v ?_
      exact Option.isSome_iff_exists.2 ⟨made, hmade⟩
    refine Wp.bind hcreated (fun result v hv => ?_) fun _ _ hv => hv
    have hpermits : Permits (Act.Retains .statefulSet request) request st := allows_retains.permits
    have hretains : Does (Act.Retains .statefulSet request) (finish op env request d result) := does_finish hpermits
    exact hretains.keeps (I := fun u : World => (u.find .statefulSet request).isSome) (fun a s ha hs => ha.find hk hs) v hv

end StatefulSetReconciler

end Workload

/-! ### All of them -/

/-- The objects of a kind that are in a version are there. -/
def World.HasAll (u : World) (ns : String) (res : Resources) (kind : ResourceType) : Prop :=
  ∀ r ∈ res.getResourcesOfKind kind, (u.find kind ⟨ns, r.name⟩).isSome

/-- What the reconcile of a version needs for all of its objects to be there in the end. The Services and the ServiceMonitors that are
being deleted cannot be made anew before they are gone. -/
structure Suffices (op : Operator) (env : Env) (request : NamespacedName) (r : CoherenceResource) (res : Resources) (w : World) : Prop where
  services : Secondary.Goes op env .service
  getMonitor : env.Serves .get .serviceMonitor
  createMonitor : env.Serves .create .serviceMonitor
  installed : env.hasServiceMonitor = true ∨ res.getResourcesOfKind .serviceMonitor = []
  getWorkload : env.Serves .get r.owner.workload
  createWorkload : env.Serves .create r.owner.workload
  getCoherence : env.Serves .get .coherence
  live : ∀ x ∈ res.items, x.kind ≠ r.owner.workload → w.Lives x.kind ⟨request.ns, x.name⟩
  quorum : w.find r.owner.workload request = none → r.QuorumIsMet w

theorem workload_ne {owner : Owner} : owner.workload ≠ .service ∧ owner.workload ≠ .serviceMonitor ∧ owner.workload ≠ .secret := by
  unfold Owner.workload
  split <;> decide

/-- The resources that a reconcile may store: those that are generated, or those that are stored already. -/
def World.Plans (request : NamespacedName) (created : Resources) (w : World) (r : Resource) : Prop :=
  r ∈ created.items ∨ r ∈ (stored request w).latest.items

/-- The resources have the names of those that may be stored. -/
def World.HasPlanned (request : NamespacedName) (created : Resources) (w : World) (res : Resources) : Prop :=
  ∀ r ∈ res.items, ∃ r', w.Plans request created r' ∧ r'.kind = r.kind ∧ r'.name = r.name

/-- All objects of the version that a reconcile stores can be made: no request for them fails, no Service and no ServiceMonitor is about to be
deleted, and the start quorum of the workload is met. -/
structure World.CanMake (op : Operator) (env : Env) (request : NamespacedName) (d : CoherenceResource) (created : Resources) (w : World) :
    Prop where
  replicas : 0 < d.replicas
  services : Secondary.Goes op env .service
  getMonitor : env.Serves .get .serviceMonitor
  createMonitor : env.Serves .create .serviceMonitor
  installed : env.hasServiceMonitor = true ∨ ∀ r, w.Plans request created r → r.kind ≠ .serviceMonitor
  getWorkload : env.Serves .get d.owner.workload
  createWorkload : env.Serves .create d.owner.workload
  getCoherence : env.Serves .get .coherence
  live : ∀ r, w.Plans request created r → r.kind ≠ d.owner.workload → w.Lives r.kind ⟨request.ns, r.name⟩
  quorum : w.find d.owner.workload request = none → d.QuorumIsMet w

section Planning

variable {op : Operator} {env : Env} {request : NamespacedName} {d d' : CoherenceResource} {created res : Resources} {w u : World}
  {owner : Owner} {version h : String}

theorem Resources.IsFresh.prepared (hres : res.IsFresh) : (res.prepared owner version h).IsFresh := by
  intro r hr o ho
  obtain ⟨r', hr', rfl⟩ := List.mem_map.1 hr
  obtain ⟨o', ho', rfl⟩ := Option.mem_map.1 ho
  exact hres r' hr' o' ho'

/-- What is generated is not being deleted. -/
theorem isFresh_createKubernetesResources :
    ∀ r ∈ d.createKubernetesResources op, ∀ o ∈ r.spec, o.metadata.deletionTimestamp = none := by
  have hport : ∀ p : NamedPortSpec, ∀ r ∈ p.createResources op d, ∀ o ∈ r.spec, o.metadata.deletionTimestamp = none := by
    intro p r hr o ho
    unfold NamedPortSpec.createResources at hr
    split at hr
    · rcases List.mem_cons.1 hr with rfl | hr
      · obtain rfl := Option.some.inj ho
        rfl
      · split at hr
        · rw [List.mem_singleton.1 hr] at ho
          obtain rfl := Option.some.inj ho
          rfl
        · cases hr
    · cases hr
  have hports : ∀ r ∈ d.createServicesForPort op, ∀ o ∈ r.spec, o.metadata.deletionTimestamp = none := by
    intro r hr
    obtain ⟨p, -, hp⟩ := List.mem_flatMap.1 hr
    exact hport p r hp
  intro r hr o ho
  unfold CoherenceResource.createKubernetesResources at hr
  split at hr
  · cases hr
  · split at hr
    · rcases List.mem_cons.1 hr with rfl | hr
      · obtain rfl := Option.some.inj ho
        rfl
      · exact hports r hr o ho
    · exact hports r hr o ho

theorem Coherence.isFresh_createKubernetesResources (c : Coherence) : (c.createKubernetesResources op).IsFresh := by
  intro r hr o ho
  rcases List.mem_append.1 hr with hr | hr
  · exact CoherenceOperator.isFresh_createKubernetesResources r hr o ho
  · rcases List.mem_cons.1 hr with rfl | hr
    · obtain rfl := Option.some.inj ho
      rfl
    · rw [List.mem_singleton.1 hr] at ho
      obtain rfl := Option.some.inj ho
      rfl

theorem CoherenceJob.isFresh_createKubernetesResources (c : CoherenceJob) : (c.createKubernetesResources op).IsFresh := by
  intro r hr o ho
  rcases List.mem_append.1 hr with hr | hr
  · exact CoherenceOperator.isFresh_createKubernetesResources r hr o ho
  · rw [List.mem_singleton.1 hr] at ho
    obtain rfl := Option.some.inj ho
    rfl

/-- Acts of the storage. -/
def Act.Stores : Act → Prop
  | .call _ | .store _ _ _ | .putStore _ => True
  | _ => False

theorem Act.Stores.coherence {a : Act} {w : World} (h : a.Stores) : (Acts.act a w).coherence = w.coherence := by
  cases a with
  | call | store | putStore => rfl
  | _ => exact h.elim

/-- The store leaves the resources as they are. -/
theorem coherence_store {st : Storage} {deployment : Deployment} :
    Wp (st.store op env res deployment) (fun _ u => u.coherence = w.coherence) w := by
  have hdoes : Does Act.Stores (st.store op env res deployment) :=
    does_store (fun _ => trivial) (fun _ _ => trivial) fun _ _ _ => trivial
  exact hdoes.unchanged (g := World.coherence) (fun a x ha => ha.coherence) w

/-- What could be made in `w` can be made in `u`, where the objects and the resources of the quorum are the same, for the version `res`. -/
theorem World.CanMake.suffices (hcan : w.CanMake op env request d created) (hres : w.HasPlanned request created res)
    (hgen : res.IsGenerated d.owner) (howner : d'.owner = d.owner) (hquorum : d.QuorumIsMet w → d'.QuorumIsMet u)
    (hobjects : ∀ kind key, kind ≠ .secret → u.find kind key = w.find kind key) : Suffices op env request d' res u := by
  refine ⟨hcan.services, hcan.getMonitor, hcan.createMonitor, ?_, howner ▸ hcan.getWorkload, howner ▸ hcan.createWorkload, hcan.getCoherence,
    fun r hr hworkload => ?_, fun hnone => ?_⟩
  · refine hcan.installed.imp id fun hno => List.filter_eq_nil_iff.2 fun r hr => ?_
    obtain ⟨r', hplans, hkind, -⟩ := hres r hr
    have hne := hno r' hplans
    rw [hkind] at hne
    simpa using hne
  · obtain ⟨r', hplans, hkind, hname⟩ := hres r hr
    intro o ho
    rw [hobjects _ _ (hgen r hr).kind_ne.2, ← hkind, ← hname] at ho
    refine hcan.live r' hplans (fun he => hworkload ?_) o ho
    rw [← hkind, he, howner]
  · rw [howner, hobjects _ _ workload_ne.2.2] at hnone
    exact hquorum (hcan.quorum hnone)

end Planning

section All

variable {op : Operator} {env : Env} {request : NamespacedName} {d : Deployment} {r : CoherenceResource} {st : Storage} {w u : World}
  {res : Resources} {ns : String} {kind : ResourceType} {α : Type} {x : Op α}

theorem keeps_hasAll (hk : kind ≠ .secret) (hx : ∀ r ∈ res.getResourcesOfKind kind, Does (Act.Retains kind ⟨ns, r.name⟩) x) :
    Keeps (fun u : World => u.HasAll ns res kind) x :=
  fun u hu r hr => (hx r hr).keeps (I := fun v : World => (v.find kind ⟨ns, r.name⟩).isSome) (fun _ _ ha hv => ha.find hk hv) u (hu r hr)

/-- The reconciler of a kind keeps what there is of the version. -/
theorem keeps_hasAll_of_isOf {kind' : ResourceType} (hk : kind ≠ .secret) (hx : Does (Act.IsOf kind' ns res) x) :
    Keeps (fun u : World => u.HasAll ns res kind) x := by
  refine keeps_hasAll hk fun r hr => hx.mono fun a ha => ?_
  obtain ⟨hmem, hkind⟩ := Resources.mem_getResourcesOfKind.1 hr
  exact ha.retains (Resources.getResource_isSome.2 ⟨r, hmem, hkind, rfl⟩)

/-- It leaves the other kinds as they were. -/
theorem find_of_isOf {kind' : ResourceType} (p : Path (Act.IsOf kind' ns res) w u) (hne : kind ≠ kind') (hk : kind ≠ .secret)
    (key : NamespacedName) : u.find kind key = w.find kind key :=
  p.unchanged (f := fun x : World => x.find kind key) fun _ _ ha => ha.find hne hk

theorem coherence_of_isOf (p : Path (Act.IsOf kind ns res) w u) : u.coherence = w.coherence := p.unchanged fun _ _ ha => ha.coherence

/-- A reconciler that has nothing more to say than that it succeeded. -/
theorem wp_reconcileSecondary_of_ok {I : World → Prop} {x : Op Result} {rs : List (Op Result)} {p : Progress}
    {Q : Except GoError Progress → World → Prop} (hx : Wp x (fun r u => r = .ok {} ∧ I u) w)
    (hrs : ∀ u, I u → Wp (reconcileSecondary rs p) Q u) : Wp (reconcileSecondary (x :: rs) p) Q w := by
  rcases hrun : exec x w with ⟨r, u⟩
  obtain ⟨rfl, hu⟩ := hx.elim hrun
  rw [Wp, reconcileSecondary, exec_bind, Op.attempt, exec_attempt, hrun, caught_ok]
  exact hrs u hu

/-- **The reconcilers**, one after the other, the last of which is the one of the workload. -/
theorem hasAll_reconcileSecondary {x : Op Result} (hdue : st.IsDue request d r) (h : Suffices op env request r st.latest w)
    (hretains : ∀ kind key, Does (Act.Retains kind key) x)
    (hmakes : ∀ v, (st.latest.getResource r.owner.workload request.name).isSome → (v.find r.owner.workload request = none → r.QuorumIsMet v) →
      Wp x (fun _ u => (u.find r.owner.workload request).isSome) v) :
    Wp (reconcileSecondary [Secondary.reconcileAllResourceOfKind op env .configMap request d st,
      Secondary.reconcileAllResourceOfKind op env .secret request d st, Secondary.reconcileAllResourceOfKind op env .service request d st,
      ServiceMonitor.reconcileAllResourceOfKind op env request d st, x] {})
      (fun _ u => ∀ r ∈ st.latest.items, (u.find r.kind ⟨request.ns, r.name⟩).isSome) w := by
  obtain ⟨hservice, hmonitor, hsecret⟩ : r.owner.workload ≠ .service ∧ r.owner.workload ≠ .serviceMonitor ∧ r.owner.workload ≠ .secret :=
    workload_ne
  have hlive : ∀ kind, kind ≠ r.owner.workload → ∀ r ∈ st.latest.getResourcesOfKind kind, w.Lives kind ⟨request.ns, r.name⟩ := by
    intro kind hk r hr
    obtain ⟨hmem, rfl⟩ := Resources.mem_getResourcesOfKind.1 hr
    exact h.live r hmem hk
  have hall : ∀ {u : World}, u.HasAll request.ns st.latest .service ∧ u.HasAll request.ns st.latest .serviceMonitor ∧
      u.HasAll request.ns st.latest r.owner.workload → ∀ r ∈ st.latest.items, (u.find r.kind ⟨request.ns, r.name⟩).isSome := by
    rintro u ⟨hu, hu', hu''⟩ r hr
    have hmem := Resources.mem_getResourcesOfKind.2 ⟨hr, rfl⟩
    rcases (hdue.latest r hr).kind with hk | hk | ⟨hk, -⟩
    · rw [hk] at hmem ⊢
      exact hu r hmem
    · rw [hk] at hmem ⊢
      exact hu' r hmem
    · rw [hk] at hmem ⊢
      exact hu'' r hmem
  have hservices : Does (Act.IsOf .service request.ns st.latest) (Secondary.reconcileAllResourceOfKind op env .service request d st) :=
    Secondary.isOf_reconcileAllResourceOfKind hdue.present hdue.latest
  have hmonitors : Does (Act.IsOf .serviceMonitor request.ns st.latest) (ServiceMonitor.reconcileAllResourceOfKind op env request d st) :=
    ServiceMonitor.isOf_reconcileAllResourceOfKind hdue.present hdue.replicas hdue.latest
  have hrest : Wp (reconcileSecondary [Secondary.reconcileAllResourceOfKind op env .service request d st,
      ServiceMonitor.reconcileAllResourceOfKind op env request d st, x] {})
      (fun _ u => u.HasAll request.ns st.latest .service ∧ u.HasAll request.ns st.latest .serviceMonitor ∧
        u.HasAll request.ns st.latest r.owner.workload) w := by
    refine wp_reconcileSecondary_of_ok
      (I := fun u => u.HasAll request.ns st.latest .service ∧ Path (Act.IsOf .service request.ns st.latest) w u) ?_ ?_
    · have hmade := Secondary.wp_reconcileAllResourceOfKind h.services (by decide) hdue.present hdue.latest hdue.ns hdue.fresh
        (hlive .service hservice.symm)
      exact ⟨hmade.1, hmade.2, hservices w⟩
    rintro u ⟨hu, hpath⟩
    refine wp_reconcileSecondary_of_ok (I := fun v => v.HasAll request.ns st.latest .service ∧ v.HasAll request.ns st.latest .serviceMonitor ∧
      Path (Act.IsOf .serviceMonitor request.ns st.latest) u v) ?_ ?_
    · have hlive' : ∀ r ∈ st.latest.getResourcesOfKind .serviceMonitor, u.Lives .serviceMonitor ⟨request.ns, r.name⟩ := by
        intro r hr o ho
        rw [find_of_isOf hpath (by decide) (by decide)] at ho
        exact hlive .serviceMonitor hmonitor.symm r hr o ho
      have hmade := ServiceMonitor.wp_reconcileMonitors h.installed h.getMonitor h.createMonitor h.services.merge hdue.present hdue.replicas
        hdue.latest hdue.ns hdue.fresh hlive'
      exact ⟨hmade.1, keeps_hasAll_of_isOf (by decide) hmonitors u hu, hmade.2, hmonitors u⟩
    rintro v ⟨hv, hv', hpath'⟩
    have hmet : v.find r.owner.workload request = none → r.QuorumIsMet v := by
      intro hnone
      rw [find_of_isOf hpath' hmonitor hsecret, find_of_isOf hpath hservice hsecret] at hnone
      unfold CoherenceResource.QuorumIsMet
      rw [coherence_of_isOf hpath', coherence_of_isOf hpath]
      exact h.quorum hnone
    have hkeep : ∀ kind, kind ≠ .secret → Keeps (fun u : World => u.HasAll request.ns st.latest kind) x := fun kind hk =>
      keeps_hasAll hk fun _ _ => hretains _ _
    refine CoherenceReconciler.wp_reconcileSecondary_cons (I := fun u => u.HasAll request.ns st.latest .service ∧
      u.HasAll request.ns st.latest .serviceMonitor ∧ u.HasAll request.ns st.latest r.owner.workload)
      ⟨hkeep _ (by decide) v hv, hkeep _ (by decide) v hv', ?_⟩ fun _ hx => absurd hx List.not_mem_nil
    intro y hy
    -- the workload of the version has the name of the resource
    have hname : y.name = request.name := by
      obtain ⟨hmem, hkind⟩ := Resources.mem_getResourcesOfKind.1 hy
      rcases (hdue.latest y hmem).kind with hk | hk | ⟨-, hk⟩
      · exact absurd (hkind.symm.trans hk) hservice
      · exact absurd (hkind.symm.trans hk) hmonitor
      · exact hk.trans hdue.name
    obtain ⟨hmem, hkind⟩ := Resources.mem_getResourcesOfKind.1 hy
    have hthere := hmakes v (Resources.getResource_isSome.2 ⟨y, hmem, hkind, hname⟩) hmet
    rw [hname]
    exact hthere
  rw [Wp, CoherenceReconciler.exec_reconcileSecondary_cons (exec_secondary_of_isGenerated hdue.latest hdue.previous (.inl rfl)),
    CoherenceReconciler.exec_reconcileSecondary_cons (exec_secondary_of_isGenerated hdue.latest hdue.previous (.inr rfl))]
  exact hall hrest

/-- What comes after the reconcilers are notes. -/
theorem present_of_remark {x : Op α} (hgen : st.latest.IsGenerated r.owner) (hx : Does Act.IsRemark x)
    (h : ∀ r ∈ st.latest.items, (w.find r.kind ⟨request.ns, r.name⟩).isSome) :
    Wp x (fun _ v => ∀ r ∈ st.latest.items, (v.find r.kind ⟨request.ns, r.name⟩).isSome) w :=
  fun y hy => keeps_present (hgen y hy).kind_ne.2 hx w (h y hy)

/-- **All objects of the version** of a CoherenceJob are there in the end. -/
theorem CoherenceJobReconciler.complete_reconcileStored {c : CoherenceJob} {hash : String}
    (hdue : st.IsDue request (.coherenceJob (some c)) c.toResource) (h : Suffices op env request c.toResource st.latest w) :
    Wp (reconcileStored op env request c hash st)
      (fun _ u => ∀ r ∈ st.latest.items, (u.find r.kind ⟨request.ns, r.name⟩).isSome) w := by
  have hall : Wp (reconcileSecondary (reconcilers op env request (.coherenceJob (some c)) st) {})
      (fun _ u => ∀ r ∈ st.latest.items, (u.find r.kind ⟨request.ns, r.name⟩).isSome) w :=
    hasAll_reconcileSecondary hdue h (fun _ _ => JobReconciler.retains_reconcileAllResourceOfKind hdue) fun v hwanted hmet =>
      JobReconciler.wp_reconcileJob hdue h.getWorkload h.createWorkload h.getCoherence hwanted hmet
  refine Wp.bind hall (fun progress u hu => ?_) fun _ _ hu => hu
  split
  · refine present_of_remark hdue.latest (Does.bind (Does.ite (fun _ => Op.does_wrapError note_updateStatusCondition) fun _ => Does.pure _) fun _ => ?_) hu
    exact Does.bind (Op.does_wrapError note_changeStatus) fun _ => Does.pure _
  · exact present_of_remark hdue.latest (Does.throw _) hu

/-- **All objects of the version** of a Coherence resource are there in the end. -/
theorem CoherenceReconciler.complete_reconcileStored {c : Coherence} {hash : String}
    (hdue : st.IsDue request (.coherence (some c)) c.toResource) (h : Suffices op env request c.toResource st.latest w) :
    Wp (reconcileStored op env request c hash st)
      (fun _ u => ∀ r ∈ st.latest.items, (u.find r.kind ⟨request.ns, r.name⟩).isSome) w := by
  have hjob : st.isJob request = false := by
    rw [isJob, Option.isSome_eq_false_iff, Option.isNone_iff_eq_none, Resources.getResource_eq_none]
    rintro r hr ⟨hk, -⟩
    rcases (hdue.latest r hr).kind with hk' | hk' | ⟨hk', -⟩
    all_goals
      rw [hk] at hk'
      cases hk'
  have hall : Wp (reconcileSecondary (reconcilers op env request (.coherence (some c)) st) {})
      (fun _ u => ∀ r ∈ st.latest.items, (u.find r.kind ⟨request.ns, r.name⟩).isSome) w :=
    hasAll_reconcileSecondary hdue h (fun _ _ => StatefulSetReconciler.retains_reconcileAllResourceOfKind hdue) fun v hwanted hmet =>
      StatefulSetReconciler.wp_reconcileStatefulSet hdue h.getWorkload h.createWorkload h.getCoherence hjob hwanted hmet
  refine Wp.bind hall (fun progress u hu => ?_) fun _ _ hu => hu
  split
  · exact present_of_remark hdue.latest note_finish hu
  · exact present_of_remark hdue.latest (Does.throw _) hu

end All

end CoherenceOperator
