import CoherenceOperator.Controllers.Watch
import CoherenceOperator.Footprint.Notes

/-!
# What the secondary reconcilers do

For each reconciler the acts it consists of, as a rule: a set of acts that has the notes, the creations,
changes and deletions that are possible has all that the program does. What a program creates is in the latest
version of the storage, and what it changes or deletes is under the key it was given.
-/

namespace CoherenceOperator

open Effect Prog

variable {op : Operator} {env : Env} {A : Act → Prop}

/-- What is found has the kind and the key that were asked for. -/
theorem returns_getObject {kind : ResourceType} {key : NamespacedName} :
    Returns (getObject env kind key) fun o => ∀ x ∈ o, x.kind = kind ∧ x.key = key := by
  intro w o ho x hx
  simp only [getObject, exec_read] at ho
  cases ha : w.answer ⟨.get, kind, key⟩ env with
  | error e => simp [ha, Except.map] at ho
  | ok _ =>
    simp only [ha, Except.map, Except.ok.injEq] at ho
    exact World.find_filed _ (ho.trans hx)

/-- A patched object is where it was. -/
theorem does_patchObject_of {kind : ResourceType} {key : NamespacedName} {patch : Object → Object}
    (hn : ∀ a, a.IsCall → A a)
    (hkind : ∀ live, (patch live).kind = live.kind) (hkey : ∀ live, (patch live).key = live.key)
    (hu : ∀ o, o.kind = kind → o.key = key → A (.updateObject o)) : Does A (patchObject env kind key patch) := by
  refine does_patchObject (hn _ (by simp [Act.IsCall])) fun w live hw => ?_
  obtain ⟨h₁, h₂⟩ := w.find_filed hw
  exact hu _ ((hkind live).trans h₁) ((hkey live).trans h₂)

/-! ### Any kind -/

namespace Secondary

variable {kind : ResourceType} {key : NamespacedName} {name : String} {st : Storage} {current : Object}

theorem call_ownerOf {owner : Deployment} {resource : Option Object} :
    Does Act.IsCall (ownerOf env owner resource) :=
  Does.ite (fun _ => call_findOwningCoherenceResource) fun _ => Does.pure _

/-- An owner that is passed in is the owner. -/
theorem returns_ownerOf {resource : Option Object} {owner : Deployment} (hnil : owner.isNil = false) :
    Returns (ownerOf env owner resource) fun d => d = owner := by
  intro w d h
  simpa [ownerOf, hnil] using h.symm

theorem does_create (hn : ∀ a, a.IsCall → A a)
    (hc : ∀ o, st.latest.Wants o.kind o.key → o.kind = kind → o.metadata.name = name → A (.createObject o)) :
    Does A (create env kind name st) := by
  unfold create
  split
  · exact Does.pure _
  · rename_i r hr
    obtain ⟨hmem, rfl, rfl⟩ := Resources.getResource_eq_some hr
    split
    · exact Does.throw _
    · rename_i o ho
      obtain ⟨hk, hname⟩ := r.filed o ho
      exact Op.does_wrapError (does_createObject (hn _ (by simp [Act.IsCall]))
        (hc o ⟨r, hmem, o, ho, rfl, rfl⟩ hk hname))

theorem does_delete (hd : A (.call ⟨.delete, kind, key⟩)) (ho : A (.deleteObject kind key)) :
    Does A (delete env kind key) := Op.does_ignoreError (does_change hd ho)

theorem does_threeWayPatch {original : Option Object} {desired : Object} (hn : ∀ a, a.IsCall → A a)
    (hu : ∀ o, o.kind = current.kind → o.key = current.key → A (.updateObject o)) :
    Does A (threeWayPatch op env current original desired) := by
  unfold threeWayPatch
  simp only
  split
  · exact Does.pure _
  · rename_i patch hp
    exact Op.does_wrapError (does_patchObject_of hn (op.merge.kind_patch hp) (op.merge.key_patch hp) hu)

theorem does_update (hn : ∀ a, a.IsCall → A a)
    (hu : ∀ o, o.kind = current.kind → o.key = current.key → A (.updateObject o)) :
    Does A (update op env kind name current st) := by
  refine Does.ite (fun _ => Does.pure _) fun _ => ?_
  split
  · exact Does.pure _
  · split
    · exact Does.throw _
    · exact does_threeWayPatch hn hu

/-- The object is deleted only if there is no owner; it is created from the latest version. -/
theorem does_settle {resource : Option Object} {owner : Deployment} {storage : Option Storage}
    (hres : ∀ o ∈ resource, o.kind = kind ∧ o.key = key) (hn : ∀ a, a.IsCall → A a)
    (hd : owner.isNil = true → A (.call ⟨.delete, kind, key⟩) ∧ A (.deleteObject kind key))
    (hc : ∀ st ∈ storage, ∀ o, st.latest.Wants o.kind o.key → o.kind = kind → o.metadata.name = key.name →
      A (.createObject o))
    (hu : ∀ o, o.kind = kind → o.key = key → A (.updateObject o)) :
    Does A (settle op env kind key resource owner storage) := by
  unfold settle
  split
  · rename_i hnil
    exact Does.ite (fun _ => does_delete (hd hnil).1 (hd hnil).2) fun _ => Does.pure _
  · exact Does.throw _
  · split
    · exact does_create hn (hc _ rfl)
    · rename_i current hlive
      obtain ⟨hk, hkey⟩ := hres current (Option.filter_eq_some_iff.1 hlive).1
      exact does_update hn fun o h₁ h₂ => hu o (h₁.trans hk) (h₂.trans hkey)

theorem call_storageOf {storage : Option Storage} {owner : Deployment} :
    Does Act.IsCall (storageOf env storage owner) := by
  cases storage with
  | some st => exact Does.pure _
  | none =>
    refine Does.ite (fun _ => Does.pure _) fun _ => Does.bind (Does.outcome _) fun d => ?_
    exact Does.bind (Does.bind (does_read (by simp [Act.IsCall])) fun _ => Does.pure _) fun _ => Does.pure _

theorem does_isStoreOf {owner : Deployment} : Does A (isStoreOf kind name owner) :=
  Does.ite (fun _ => Does.bind (Does.outcome _) fun _ => Does.pure _) fun _ => Does.pure _

/-- With an owner that is passed in, nothing is deleted. -/
theorem does_reconcileSingleResource {owner : Deployment} (hnil : owner.isNil = false) (hn : ∀ a, a.IsCall → A a)
    (hc : ∀ o, st.latest.Wants o.kind o.key → o.kind = kind → o.metadata.name = key.name → A (.createObject o))
    (hu : ∀ o, o.kind = kind → o.key = key → A (.updateObject o)) :
    Does A (reconcileSingleResource op env kind key owner (some st)) := by
  refine Does.bind_of (Op.does_wrapError (call_getObject.mono hn)) returns_getObject.mapError fun resource hres => ?_
  refine Does.bind_of (call_ownerOf.mono hn) (returns_ownerOf hnil) fun d hd => ?_
  subst hd
  refine Does.bind does_isStoreOf fun b => Does.ite (fun _ => Does.pure _) fun _ => ?_
  refine Does.bind_of (call_storageOf.mono hn) (P := fun storage => storage = some st) (Returns.pure rfl)
    fun storage hst => ?_
  subst hst
  refine does_settle hres hn (fun h => by simp [hnil] at h) ?_ hu
  rintro _ ⟨⟩
  exact hc

/-- On an event, with the owner that the object refers to, and its storage. -/
theorem does_reconcile {request : NamespacedName} (hn : ∀ a, a.IsCall → A a)
    (hd : A (.call ⟨.delete, kind, request⟩) ∧ A (.deleteObject kind request))
    (hc : ∀ o, o.kind = kind → o.metadata.name = request.name → A (.createObject o))
    (hu : ∀ o, o.kind = kind → o.key = request → A (.updateObject o)) :
    Does A (reconcile op env kind request) := by
  refine Does.ite (fun _ => Does.pure _) fun _ => Does.bind ?_ fun _ => Does.pure _
  refine Does.bind_of (Op.does_wrapError (call_getObject.mono hn)) returns_getObject.mapError fun resource hres => ?_
  refine Does.bind (call_ownerOf.mono hn) fun d => ?_
  refine Does.bind does_isStoreOf fun b => Does.ite (fun _ => Does.pure _) fun _ => ?_
  refine Does.bind (call_storageOf.mono hn) fun storage => ?_
  exact does_settle hres hn (fun _ => hd) (fun _ _ o _ => hc o) hu

/-- The same for a secret, unless it is a store's. -/
theorem does_reconcileSecret {request : NamespacedName} (hn : ∀ a, a.IsCall → A a)
    (hrec : Does A (reconcile op env .secret request)) : Does A (reconcileSecret op env request) := by
  refine Does.bind (call_getObject.mono hn).attempt fun r => ?_
  split
  · exact Does.ite (fun _ => Does.pure _) fun _ => hrec
  · exact hrec

theorem does_deleteIfExists (hn : ∀ a, a.IsCall → A a) (hd : A (.call ⟨.delete, kind, key⟩))
    (ho : A (.deleteObject kind key)) : Does A (deleteIfExists env kind key) := by
  refine Does.bind (call_getObject.mono hn).attempt fun r => ?_
  split
  · exact does_delete hd ho
  · exact Does.pure _

/-- The objects of a kind that are in the latest version are created or changed. -/
theorem does_reconcileLatest {request : NamespacedName} {deployment : Deployment}
    (hnil : deployment.isNil = false) (hn : ∀ a, a.IsCall → A a)
    (hd : ∀ r ∈ st.latest.items, r.isDelete = true → r.kind = kind →
      A (.call ⟨.delete, kind, ⟨request.ns, r.name⟩⟩) ∧ A (.deleteObject kind ⟨request.ns, r.name⟩))
    (hc : ∀ o, st.latest.Wants o.kind o.key → o.kind = kind → A (.createObject o))
    (hu : ∀ r ∈ st.latest.getResourcesOfKind kind, ∀ o, o.kind = kind → o.key = ⟨request.ns, r.name⟩ →
      A (.updateObject o)) :
    Does A (ForM.forM (st.latest.getResourcesOfKind kind) (reconcileResource op env kind request deployment st)) := by
  refine Does.forM fun r hr => ?_
  obtain ⟨hmem, hkind⟩ := Resources.mem_getResourcesOfKind.1 hr
  refine Does.ite (fun hdelete => ?_) fun _ => ?_
  · obtain ⟨hcall, hdelete⟩ := hd r hmem hdelete hkind
    exact does_delete hcall hdelete
  · exact does_reconcileSingleResource hnil hn (fun o ho hk _ => hc o ho hk) (hu r hr)

/-- All objects of a kind: what is not in the latest version is deleted before. -/
theorem does_reconcileAllResourceOfKind {request : NamespacedName} {deployment : Deployment}
    (hnil : deployment.isNil = false) (hn : ∀ a, a.IsCall → A a)
    (hd : ∀ r, r ∈ st.getDeletions ∨ r ∈ st.latest.items ∧ r.isDelete = true → r.kind = kind →
      A (.call ⟨.delete, kind, ⟨request.ns, r.name⟩⟩) ∧ A (.deleteObject kind ⟨request.ns, r.name⟩))
    (hc : ∀ o, st.latest.Wants o.kind o.key → o.kind = kind → A (.createObject o))
    (hu : ∀ r ∈ st.latest.getResourcesOfKind kind, ∀ o, o.kind = kind → o.key = ⟨request.ns, r.name⟩ →
      A (.updateObject o)) : Does A (reconcileAllResourceOfKind op env kind request deployment st) := by
  refine Does.bind (Does.forM fun r hr => ?_) fun _ => ?_
  · obtain ⟨hmem, hkind⟩ := List.mem_filter.1 hr
    obtain ⟨hcall, hdelete⟩ := hd r (.inl hmem) (by simpa using hkind)
    exact does_deleteIfExists hn hcall hdelete
  · refine Does.bind (does_reconcileLatest hnil hn (fun r hr hdelete => hd r (.inr ⟨hr, hdelete⟩)) hc hu) fun _ => Does.pure _

end Secondary

/-! ### ServiceMonitors -/

namespace ServiceMonitor

variable {key : NamespacedName} {name : String} {st : Storage} {current desired : Object}

theorem does_createServiceMonitor (hn : ∀ a, a.IsCall → A a)
    (hc : ∀ o, st.latest.Wants o.kind o.key → o.kind = .serviceMonitor → A (.createObject o)) :
    Does A (createServiceMonitor env name st) := by
  unfold createServiceMonitor
  split
  · exact Does.throw _
  · rename_i r hr
    obtain ⟨hmem, hk, -⟩ := Resources.getResource_eq_some hr
    split
    · exact Does.throw _
    · rename_i o ho
      exact Op.does_wrapError (does_createObject (hn _ (by simp [Act.IsCall]))
        (hc o ⟨r, hmem, o, ho, rfl, rfl⟩ ((r.filed o ho).1.trans hk)))

theorem does_retryUpdate (hn : ∀ a, a.IsCall → A a) (hk : desired.kind = .serviceMonitor)
    (hc : A (.createObject desired)) (hu : ∀ o, o.kind = .serviceMonitor → o.key = key → A (.updateObject o))
    {n : ℕ} {at' : Option NamespacedName} (hat : ∀ k ∈ at', k = key) :
    Does A (retryUpdate env desired n at') := by
  induction n generalizing at' with
  | zero => exact Does.pure _
  | succ n ih =>
    have hget : Does A (getByName env at') := by
      cases at' with
      | none => exact Does.throw _
      | some k => exact call_getObject.mono hn
    have hret : Returns (getByName env at') fun o => ∀ x ∈ o, x.kind = .serviceMonitor ∧ x.key = key := by
      cases at' with
      | none => intro _ _ h; cases h
      | some k => rw [hat k rfl]; exact returns_getObject
    refine Does.bind_of hget.attempt hret.attempt fun r hr => ?_
    split
    · exact ih (by simp)
    · refine Does.bind (does_createObject (hn _ (by simp [Act.IsCall])) hc).attempt fun r => ?_
      split
      · exact Does.pure _
      · exact ih (by simp)
    · rename_i current
      obtain ⟨-, hkey⟩ := hr _ rfl current rfl
      have hupd : A (.updateObject { current with body := desired.body }) := hu _ hk hkey
      refine Does.bind (does_change (hn _ (by simp [Act.IsCall])) hupd).attempt fun r => ?_
      split
      · exact Does.pure _
      · exact ih hat

theorem does_updateServiceMonitor (hcur : current.kind = .serviceMonitor ∧ current.key = key)
    (hn : ∀ a, a.IsCall → A a)
    (hc : ∀ o, st.latest.Wants o.kind o.key → o.kind = .serviceMonitor → A (.createObject o))
    (hu : ∀ o, o.kind = .serviceMonitor → o.key = key → A (.updateObject o)) :
    Does A (updateServiceMonitor op env name current st) := by
  obtain ⟨-, rfl⟩ := hcur
  refine Does.ite (fun _ => Does.pure _) fun _ => ?_
  split
  · exact Does.throw _
  · rename_i r hr
    obtain ⟨hmem, hk, -⟩ := Resources.getResource_eq_some hr
    split
    · exact Does.throw _
    · rename_i o ho
      have hko := (r.filed o ho).1.trans hk
      unfold patchOrUpdate
      simp only
      split
      · exact Does.pure _
      · rename_i patch hp
        refine Does.bind (Op.does_wrapError (does_patchObject_of hn (op.merge.kind_patch hp)
          (op.merge.key_patch hp) hu)).attempt fun r => ?_
        split
        · exact Does.pure _
        · refine does_retryUpdate hn ?_ ?_ hu fun k hk => (Option.some.inj hk).symm
          · exact hko
          · exact hc _ ⟨r, hmem, o, ho, rfl, rfl⟩ hko

/-- The ServiceMonitor is deleted only if there is no owner, or one without replicas. -/
theorem does_settle {sm : Option Object} {owner : Deployment}
    (hsm : ∀ o ∈ sm, o.kind = .serviceMonitor ∧ o.key = key) (hn : ∀ a, a.IsCall → A a)
    (hd : owner.isNilOrZero = .ok true →
      A (.call ⟨.delete, .serviceMonitor, key⟩) ∧ A (.deleteObject .serviceMonitor key))
    (hc : ∀ o, st.latest.Wants o.kind o.key → o.kind = .serviceMonitor → A (.createObject o))
    (hu : ∀ o, o.kind = .serviceMonitor → o.key = key → A (.updateObject o)) :
    Does A (settle op env key sm owner st) := by
  refine Does.bind_of (Does.outcome _) (Returns.outcome fun _ => id) fun b hb => ?_
  refine Does.ite (fun hzero => ?_) fun _ => ?_
  · subst hzero
    exact Does.ite (fun _ => does_change (hd hb).1 (hd hb).2) fun _ => Does.pure _
  · split
    · exact Op.does_wrapError (does_createServiceMonitor hn hc)
    · rename_i current hlive
      exact does_updateServiceMonitor (hsm current (Option.filter_eq_some_iff.1 hlive).1) hn hc hu

/-- With an owner that is passed in. -/
theorem does_reconcileSingleResource {owner : Deployment} (hnil : owner.isNil = false) (hn : ∀ a, a.IsCall → A a)
    (hd : owner.isNilOrZero = .ok true →
      A (.call ⟨.delete, .serviceMonitor, key⟩) ∧ A (.deleteObject .serviceMonitor key))
    (hc : ∀ o, st.latest.Wants o.kind o.key → o.kind = .serviceMonitor → A (.createObject o))
    (hu : ∀ o, o.kind = .serviceMonitor → o.key = key → A (.updateObject o)) :
    Does A (reconcileSingleResource op env key owner st) := by
  refine Does.ite (fun _ => Does.pure _) fun _ => ?_
  refine Does.bind_of (Op.does_wrapError (call_getObject.mono hn)) returns_getObject.mapError fun sm hsm => ?_
  refine Does.bind_of (Secondary.call_ownerOf.mono hn) (Secondary.returns_ownerOf hnil) fun d hd' => ?_
  subst hd'
  exact does_settle hsm hn hd hc hu

theorem does_reconcileAllResourceOfKind {request : NamespacedName} {d : Deployment} (hnil : d.isNil = false)
    (hn : ∀ a, a.IsCall → A a)
    (hd : ∀ r ∈ st.latest.getResourcesOfKind .serviceMonitor, r.isDelete = true ∨ d.isNilOrZero = .ok true →
      A (.call ⟨.delete, .serviceMonitor, ⟨request.ns, r.name⟩⟩) ∧ A (.deleteObject .serviceMonitor ⟨request.ns, r.name⟩))
    (hc : ∀ o, st.latest.Wants o.kind o.key → o.kind = .serviceMonitor → A (.createObject o))
    (hu : ∀ r ∈ st.latest.getResourcesOfKind .serviceMonitor, ∀ o, o.kind = .serviceMonitor →
      o.key = ⟨request.ns, r.name⟩ → A (.updateObject o)) :
    Does A (reconcileAllResourceOfKind op env request d st) := by
  refine Does.bind (Does.forM fun r hr => ?_) fun _ => Does.pure _
  refine Does.ite (fun hdelete => ?_) fun _ => ?_
  · obtain ⟨hcall, hobject⟩ := hd r hr (.inl hdelete)
    exact does_change hcall hobject
  · exact does_reconcileSingleResource hnil hn (fun hzero => hd r hr (.inr hzero)) hc (hu r hr)

/-- On an event, with the owner that the ServiceMonitor refers to. -/
theorem does_reconcile {request : NamespacedName} (hn : ∀ a, a.IsCall → A a)
    (hd : A (.call ⟨.delete, .serviceMonitor, request⟩) ∧ A (.deleteObject .serviceMonitor request))
    (hc : ∀ o, o.kind = .serviceMonitor → A (.createObject o))
    (hu : ∀ o, o.kind = .serviceMonitor → o.key = request → A (.updateObject o)) :
    Does A (reconcile op env request) := by
  refine Does.ite (fun _ => Does.pure _) fun _ => Does.bind (call_new.mono hn) fun st => ?_
  refine Does.bind (Does.ite (fun _ => Does.pure _) fun _ => ?_) fun _ => Does.pure _
  refine Does.bind_of (Op.does_wrapError (call_getObject.mono hn)) returns_getObject.mapError fun sm hsm => ?_
  refine Does.bind (Secondary.call_ownerOf.mono hn) fun d => ?_
  exact does_settle hsm hn (fun _ => hd) (fun o _ => hc o) hu

end ServiceMonitor

end CoherenceOperator
