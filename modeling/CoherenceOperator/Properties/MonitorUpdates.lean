import CoherenceOperator.Footprint.Secondary

/-!
# Updates of a ServiceMonitor

`UpdateServiceMonitor` patches the live ServiceMonitor, and if that fails it tries up to five times to replace or to create it. It
returns no error whatever came of the attempts, and a replacement has the spec of the latest version but not its labels. So an update
that is reported as done is one only if the requests go through, and the labels are right without it (`isUpdated_iff`).
-/

namespace CoherenceOperator

open Effect Prog

namespace ServiceMonitor

section

variable (op : Operator) (env : Env) (st : Storage) (current desired : Object) (key : NamespacedName)

/-- The ServiceMonitor of the latest version. -/
def desiredOf (name : String) : Option Object := (st.latest.getResource .serviceMonitor name).bind (·.spec)

/-- The ServiceMonitor of the latest version, as it is compared with the live one. -/
def dated : Object := { desired with metadata := { desired.metadata with creationTimestamp := current.metadata.creationTimestamp } }

/-- The patch, unless it is empty. -/
def patchOf : Option (Object → Object) :=
  op.merge.createThreeWayPatch ((st.previous.getResource .serviceMonitor current.metadata.name).bind (·.spec))
    (dated current desired) current

/-- The live ServiceMonitor has the spec of the latest version and the hash label of the store. -/
def UpToDate (w : World) : Prop :=
  ∃ live desired, w.find .serviceMonitor key = some live ∧ desiredOf st key.name = some desired ∧ live.body = desired.body ∧
    hashLabelsMatch live.metadata st

/-- All attempts failed: a patch was sent, and requests are all there was. -/
def AllFailed (w u : World) : Prop :=
  .call ⟨.patch, .serviceMonitor, key⟩ ∈ w.since u ∧ ∀ a ∈ w.since u, ∃ c, a = .call c

/-- **A successful update is an update**: what is to hold of the outcome `r` of an update of `current` in the cluster `w`. -/
structure IsUpdated (w : World) (r : Except GoError Unit × World) : Prop where
  /-- An update that is done leaves the live ServiceMonitor up to date, if `current` was not. -/
  applied : r.1 = .ok () → hashLabelsMatch current.metadata st = true ∨ UpToDate st current.key r.2
  /-- If all attempts fail, there is an error. -/
  failed : AllFailed current.key w r.2 → r.1 ≠ .ok ()
  /-- An update that is done is not repeated. -/
  finished : r.1 = .ok () → ∀ live, r.2.find .serviceMonitor current.key = some live →
    hashLabelsMatch current.metadata st = true ∨
      ∀ env' : Env, exec (updateServiceMonitor op env' live.metadata.name live st) r.2 = (.ok (), r.2)

/-- One of at most `n` attempts goes through, if their first request has the number `calls`. Once a ServiceMonitor could not
be read or created, its name is lost. -/
def recovers (isLive : Bool) : ℕ → ℕ → Bool
  | 0, _ => false
  | n + 1, calls =>
    (env.faults calls ⟨.get, .serviceMonitor, key⟩).isNone &&
      if isLive then
        (env.faults (calls + 1) ⟨.update, .serviceMonitor, key⟩).isNone || recovers isLive n (calls + 2)
      else (env.faults (calls + 1) ⟨.create, .serviceMonitor, key⟩).isNone

/-- What the requests and the ServiceMonitors have to be for an update to be one. -/
def WillBeUpdated (w : World) : Prop :=
  hashLabelsMatch current.metadata st = true ∨ desiredOf st current.metadata.name = none ∨
    ∃ desired, desiredOf st current.metadata.name = some desired ∧
      ((patchOf op st current desired = none ∧ UpToDate st current.key w) ∨
        ∃ patch, patchOf op st current desired = some patch ∧
          ((∃ live, w.find .serviceMonitor current.key = some live ∧
              env.faults w.calls ⟨.patch, .serviceMonitor, current.key⟩ = none ∧
              (patch live).body = desired.body ∧ hashLabelsMatch (patch live).metadata st = true) ∨
            (∃ live, w.find .serviceMonitor current.key = some live ∧
              env.faults w.calls ⟨.patch, .serviceMonitor, current.key⟩ ≠ none ∧
              recovers env current.key true 5 (w.calls + 1) = true ∧ hashLabelsMatch live.metadata st = true) ∨
            (w.find .serviceMonitor current.key = none ∧ recovers env current.key false 5 (w.calls + 1) = true ∧
              hashLabelsMatch desired.metadata st = true)))

/-- What comes of at most `n` attempts. -/
inductive Retried (n : ℕ) (w : World) : World → Prop where
  | replaced {live : Object} {v : World} (found : w.find .serviceMonitor key = some live)
      (goes : recovers env key true n w.calls = true) (calls : Path Act.IsCall w v) :
      Retried n w (Acts.act (.updateObject { live with body := desired.body }) v)
  | created {v : World} (missing : w.find .serviceMonitor key = none) (goes : recovers env key false n w.calls = true)
      (calls : Path Act.IsCall w v) : Retried n w (Acts.act (.createObject desired) v)
  | failed {u : World} (fails : recovers env key (w.find .serviceMonitor key).isSome n w.calls = false)
      (calls : Path Act.IsCall w u) : Retried n w u

/-- What comes of an update. -/
inductive Ending (w : World) : Except GoError Unit × World → Prop where
  | matched (h : hashLabelsMatch current.metadata st = true) : Ending w (.ok (), w)
  | missing {e : GoError} (h : desiredOf st current.metadata.name = none) : Ending w (.error e, w)
  | unneeded {desired : Object} (h : hashLabelsMatch current.metadata st = false)
      (stored : desiredOf st current.metadata.name = some desired) (empty : patchOf op st current desired = none) :
      Ending w (.ok (), w)
  | patched {desired live : Object} {patch : Object → Object} (h : hashLabelsMatch current.metadata st = false)
      (stored : desiredOf st current.metadata.name = some desired) (made : patchOf op st current desired = some patch)
      (found : w.find .serviceMonitor current.key = some live)
      (goes : env.faults w.calls ⟨.patch, .serviceMonitor, current.key⟩ = none) :
      Ending w (.ok (), Acts.act (.updateObject (patch live)) (w.sent ⟨.patch, .serviceMonitor, current.key⟩))
  | retried {desired : Object} {patch : Object → Object} {u : World} (h : hashLabelsMatch current.metadata st = false)
      (stored : desiredOf st current.metadata.name = some desired) (made : patchOf op st current desired = some patch)
      (fails : w.find .serviceMonitor current.key = none ∨
        env.faults w.calls ⟨.patch, .serviceMonitor, current.key⟩ ≠ none)
      (attempts : Retried env (dated current desired) current.key 5 (w.sent ⟨.patch, .serviceMonitor, current.key⟩) u) :
      Ending w (.ok (), u)

end

section

variable {op : Operator} {env : Env} {st : Storage} {current desired live : Object} {key : NamespacedName} {w u : World}

/-! ### The attempts -/

/-- Requests leave the objects alone. -/
theorem find_of_calls (h : Path Act.IsCall w u) (kind : ResourceType) (key : NamespacedName) :
    u.find kind key = w.find kind key := by
  refine h.unchanged (f := fun w => w.find kind key) fun a v ha => ?_
  cases a with
  | call c => rfl
  | _ => exact ha.elim

theorem path_call_sent {c : ApiCall} (h : c.verb ≠ .delete) : Path Act.IsCall w (w.sent c) :=
  Relation.ReflTransGen.single ⟨.call c, h, rfl⟩

/-- The name of a ServiceMonitor that could not be read or created is lost: no attempt comes to anything. -/
theorem exec_retryUpdate_none (n : ℕ) : exec (retryUpdate env desired n none) w = (.ok (), w) := by
  induction n with
  | zero => rfl
  | succ n ih => exact ih

theorem answer_of_fault {c : ApiCall} {f : Fault} (h : env.faults w.calls c = some f) : w.answer c env = .error (.fault c f) := by
  rw [World.answer, h]

theorem exec_attempt_of_error {α : Type} {x : Op α} {e : GoError} (h : exec x w = (.error e, u)) (he : e.isPanic = false) :
    exec (Op.attempt x) w = (.ok (.error e), u) := by
  rw [Op.attempt, exec_attempt, h, caught_error he]

theorem exec_attempt_of_ok {α : Type} {x : Op α} {a : α} (h : exec x w = (.ok a, u)) :
    exec (Op.attempt x) w = (.ok (.ok a), u) := by
  rw [Op.attempt, exec_attempt, h, caught_ok]

/-- A request that fails changes nothing. -/
theorem exec_change_of_fault {α : Type} {c : ApiCall} {present : World → Option α} {a : Act} {f : Fault}
    (h : env.faults w.calls c = some f) : exec (change env c present a) w = (.error (.fault c f), w.sent c) := by
  rw [change, exec_bind_error]
  rw [exec_request, answer_of_fault h]

/-- A change of something that is there. -/
theorem exec_change_of_faults {α : Type} {c : ApiCall} {present : World → Option α} {a : Act} {x : α}
    (h : env.faults w.calls c = none) (hx : present (w.sent c) = some x) :
    exec (change env c present a) w = (.ok (), Acts.act a (w.sent c)) := by
  have hrequest : exec (request env c) w = (.ok (), w.sent c) := by rw [exec_request, World.answer_of_faults _ _ h]
  rw [change, exec_bind_ok hrequest, exec_bind_ok (exec_get _), hx]
  rfl

/-- A creation of something that is not there. -/
theorem exec_createObject_of_faults (h : env.faults w.calls ⟨.create, desired.kind, desired.key⟩ = none)
    (hnone : w.find desired.kind desired.key = none) :
    exec (createObject env desired) w =
      (.ok (), Acts.act (.createObject desired) (w.sent ⟨.create, desired.kind, desired.key⟩)) := by
  have hrequest : exec (request env ⟨.create, desired.kind, desired.key⟩) w = (.ok (), w.sent ⟨.create, desired.kind, desired.key⟩) := by
    rw [exec_request, World.answer_of_faults _ _ h]
  rw [createObject, exec_bind_ok hrequest, exec_bind_ok (exec_get _), World.find_sent, hnone]
  rfl

theorem exec_createObject_of_fault {f : Fault} (h : env.faults w.calls ⟨.create, desired.kind, desired.key⟩ = some f) :
    exec (createObject env desired) w =
      (.error (.fault ⟨.create, desired.kind, desired.key⟩ f), w.sent ⟨.create, desired.kind, desired.key⟩) := by
  rw [createObject, exec_bind_error]
  rw [exec_request, answer_of_fault h]

/-- What comes of the attempts after one that could not replace the ServiceMonitor. -/
theorem Retried.succ {n : ℕ} (hget : env.faults w.calls ⟨.get, .serviceMonitor, key⟩ = none)
    (hfind : w.find .serviceMonitor key = some live) {f : Fault}
    (hupdate : env.faults (w.calls + 1) ⟨.update, .serviceMonitor, key⟩ = some f)
    (h : Retried env desired key n ((w.sent ⟨.get, .serviceMonitor, key⟩).sent ⟨.update, .serviceMonitor, key⟩) u) :
    Retried env desired key (n + 1) w u := by
  have hsent : Path Act.IsCall w ((w.sent ⟨.get, .serviceMonitor, key⟩).sent ⟨.update, .serviceMonitor, key⟩) :=
    (path_call_sent (by simp)).trans (path_call_sent (by simp))
  have hrec : recovers env key true (n + 1) w.calls = recovers env key true n (w.calls + 2) := by
    simp [recovers, hget, hupdate]
  cases h with
  | replaced found goes calls => exact .replaced found (hrec.trans goes) (hsent.trans calls)
  | created missing goes calls =>
    rw [World.find_sent, World.find_sent, hfind] at missing
    cases missing
  | failed fails calls =>
    refine .failed ?_ (hsent.trans calls)
    rw [World.find_sent, World.find_sent, hfind] at fails
    rw [hfind]
    exact hrec.trans fails

/-- An attempt begins by reading the ServiceMonitor. -/
theorem exec_getByName (hget : env.faults w.calls ⟨.get, .serviceMonitor, key⟩ = none) :
    exec (getByName env (some key)) w = (.ok (w.find .serviceMonitor key), w.sent ⟨.get, .serviceMonitor, key⟩) := by
  rw [getByName, getObject, exec_read, World.answer_of_faults _ _ hget]
  rfl

/-- An attempt that cannot read the ServiceMonitor is the last one. -/
theorem exists_retried_of_fault {n : ℕ} {f : Fault} (hget : env.faults w.calls ⟨.get, .serviceMonitor, key⟩ = some f) :
    ∃ u, exec (retryUpdate env desired (n + 1) (some key)) w = (.ok (), u) ∧ Retried env desired key (n + 1) w u := by
  have hread : exec (getByName env (some key)) w =
      (.error (.fault ⟨.get, .serviceMonitor, key⟩ f), w.sent ⟨.get, .serviceMonitor, key⟩) := by
    rw [getByName, getObject, exec_read, answer_of_fault hget]
    rfl
  refine ⟨w.sent ⟨.get, .serviceMonitor, key⟩, ?_, .failed ?_ (path_call_sent (by simp))⟩
  · rw [retryUpdate, exec_bind_ok (exec_attempt_of_error hread rfl)]
    exact exec_retryUpdate_none n
  · simp [recovers, hget]

/-- So is an attempt to create it. -/
theorem exists_retried_of_missing {n : ℕ} (hkind : desired.kind = .serviceMonitor)
    (hget : env.faults w.calls ⟨.get, .serviceMonitor, desired.key⟩ = none)
    (hfind : w.find .serviceMonitor desired.key = none) :
    ∃ u, exec (retryUpdate env desired (n + 1) (some desired.key)) w = (.ok (), u) ∧
      Retried env desired desired.key (n + 1) w u := by
  have hsent : Path Act.IsCall w
      ((w.sent ⟨.get, .serviceMonitor, desired.key⟩).sent ⟨.create, desired.kind, desired.key⟩) :=
    (path_call_sent (by simp)).trans (path_call_sent (by simp))
  have hread := exec_getByName hget
  rw [hfind] at hread
  rw [retryUpdate, exec_bind_ok (exec_attempt_of_ok hread)]
  dsimp only
  cases hcreate : env.faults (w.calls + 1) ⟨.create, .serviceMonitor, desired.key⟩ with
  | some f =>
    have hrec : recovers env desired.key false (n + 1) w.calls = false := by simp [recovers, hcreate]
    rw [← hkind] at hcreate
    have hrun := @exec_createObject_of_fault env desired (w.sent ⟨.get, .serviceMonitor, desired.key⟩) f hcreate
    refine ⟨_, ?_, .failed ?_ hsent⟩
    · rw [exec_bind_ok (exec_attempt_of_error hrun rfl)]
      exact exec_retryUpdate_none n
    · rw [hfind]
      exact hrec
  | none =>
    have hrec : recovers env desired.key false (n + 1) w.calls = true := by simp [recovers, hget, hcreate]
    rw [← hkind] at hcreate
    have hrun := @exec_createObject_of_faults env desired (w.sent ⟨.get, .serviceMonitor, desired.key⟩) hcreate
      (by rw [World.find_sent, hkind, hfind])
    refine ⟨_, ?_, .created hfind hrec hsent⟩
    rw [exec_bind_ok (exec_attempt_of_ok hrun)]
    rfl

/-- An attempt to replace it is followed by the next one, if that fails. -/
theorem exists_retried_of_live {n : ℕ} (hkind : desired.kind = .serviceMonitor)
    (ih : ∀ v, ∃ u, exec (retryUpdate env desired n (some key)) v = (.ok (), u) ∧ Retried env desired key n v u)
    (hget : env.faults w.calls ⟨.get, .serviceMonitor, key⟩ = none) (hfind : w.find .serviceMonitor key = some live) :
    ∃ u, exec (retryUpdate env desired (n + 1) (some key)) w = (.ok (), u) ∧ Retried env desired key (n + 1) w u := by
  have hkey : ({ live with body := desired.body } : Object).key = key := (w.find_filed hfind).2
  have hkind' : ({ live with body := desired.body } : Object).kind = .serviceMonitor := hkind
  have hread := exec_getByName hget
  rw [hfind] at hread
  rw [retryUpdate, exec_bind_ok (exec_attempt_of_ok hread)]
  dsimp only
  rw [replaceObject, hkind', hkey]
  have hsent : Path Act.IsCall w ((w.sent ⟨.get, .serviceMonitor, key⟩).sent ⟨.update, .serviceMonitor, key⟩) :=
    (path_call_sent (by simp)).trans (path_call_sent (by simp))
  cases hupdate : env.faults (w.calls + 1) ⟨.update, .serviceMonitor, key⟩ with
  | some f =>
    obtain ⟨u, hu, hretried⟩ := ih ((w.sent ⟨.get, .serviceMonitor, key⟩).sent ⟨.update, .serviceMonitor, key⟩)
    refine ⟨u, ?_, hretried.succ hget hfind hupdate⟩
    rw [exec_bind_ok (exec_attempt_of_error (exec_change_of_fault hupdate) rfl)]
    exact hu
  | none =>
    have hrec : recovers env key true (n + 1) w.calls = true := by simp [recovers, hget, hupdate]
    refine ⟨_, ?_, .replaced hfind hrec hsent⟩
    rw [exec_bind_ok (exec_attempt_of_ok (exec_change_of_faults hupdate hfind))]
    rfl

/-- **The attempts**: at most `n` of them change the ServiceMonitor at last, or change nothing; they are not reported as failed. -/
theorem exists_retried (hkind : desired.kind = .serviceMonitor) (hkey : desired.key = key) (n : ℕ) (w : World) :
    ∃ u, exec (retryUpdate env desired n (some key)) w = (.ok (), u) ∧ Retried env desired key n w u := by
  induction n generalizing w with
  | zero => exact ⟨w, rfl, .failed rfl .refl⟩
  | succ n ih =>
    cases hget : env.faults w.calls ⟨.get, .serviceMonitor, key⟩ with
    | some f => exact exists_retried_of_fault hget
    | none =>
      cases hfind : w.find .serviceMonitor key with
      | none =>
        subst hkey
        exact exists_retried_of_missing hkind hget hfind
      | some live => exact exists_retried_of_live hkind ih hget hfind

/-! ### An update -/

theorem desiredOf_filed {name : String} (h : desiredOf st name = some desired) :
    desired.kind = .serviceMonitor ∧ desired.metadata.name = name := by
  obtain ⟨r, hr, hspec⟩ := Option.bind_eq_some_iff.1 h
  obtain ⟨-, hkind, hname⟩ := Resources.getResource_eq_some hr
  obtain ⟨hk, hn⟩ := r.filed desired hspec
  exact ⟨hk.trans hkind, hn.trans hname⟩

/-- A patch that goes through is applied to the live object. -/
theorem exec_patchObject_of_faults {patch : Object → Object} (h : env.faults w.calls ⟨.patch, .serviceMonitor, key⟩ = none)
    (hfind : w.find .serviceMonitor key = some live) :
    exec (patchObject env .serviceMonitor key patch) w =
      (.ok (), Acts.act (.updateObject (patch live)) (w.sent ⟨.patch, .serviceMonitor, key⟩)) := by
  have hrequest : exec (request env ⟨.patch, .serviceMonitor, key⟩) w = (.ok (), w.sent ⟨.patch, .serviceMonitor, key⟩) := by
    rw [exec_request, World.answer_of_faults _ _ h]
  rw [patchObject, exec_bind_ok hrequest, exec_bind_ok (exec_get _), World.find_sent, hfind]
  rfl

/-- Any other patch fails. -/
theorem exec_patchObject_of_fails {patch : Object → Object}
    (h : w.find .serviceMonitor key = none ∨ env.faults w.calls ⟨.patch, .serviceMonitor, key⟩ ≠ none) :
    ∃ e, e.isPanic = false ∧
      exec (patchObject env .serviceMonitor key patch) w = (.error e, w.sent ⟨.patch, .serviceMonitor, key⟩) := by
  cases hf : env.faults w.calls ⟨.patch, .serviceMonitor, key⟩ with
  | some f =>
    refine ⟨.fault ⟨.patch, .serviceMonitor, key⟩ f, rfl, ?_⟩
    rw [patchObject, exec_bind_error]
    rw [exec_request, answer_of_fault hf]
  | none =>
    have hnone : w.find .serviceMonitor key = none := h.resolve_right fun h => h hf
    have hrequest : exec (request env ⟨.patch, .serviceMonitor, key⟩) w = (.ok (), w.sent ⟨.patch, .serviceMonitor, key⟩) := by
      rw [exec_request, World.answer_of_faults _ _ hf]
    refine ⟨.notFound ⟨.patch, .serviceMonitor, key⟩, rfl, ?_⟩
    rw [patchObject, exec_bind_ok hrequest, exec_bind_ok (exec_get _), World.find_sent, hnone]
    rfl

/-- What comes of the patch, if there is one. -/
theorem ending_patchOrUpdate (hns : desired.metadata.ns = current.metadata.ns) (h : hashLabelsMatch current.metadata st = false)
    (hd : desiredOf st current.metadata.name = some desired) :
    Ending op env st current w (exec (patchOrUpdate op env current desired
      ((st.previous.getResource .serviceMonitor current.metadata.name).bind (·.spec))) w) := by
  obtain ⟨hkind, hname⟩ := desiredOf_filed hd
  have hkey : (dated current desired).key = current.key := by
    rw [Object.key, Object.key, ← hns, ← hname]
    rfl
  rw [patchOrUpdate]
  dsimp only
  cases hpatch : patchOf op st current desired with
  | none =>
    have hmerge := hpatch
    rw [patchOf, dated] at hmerge
    rw [hmerge]
    exact .unneeded h hd hpatch
  | some patch =>
    have hmerge := hpatch
    rw [patchOf, dated] at hmerge
    rw [hmerge]
    dsimp only
    by_cases hfails : w.find .serviceMonitor current.key = none ∨
        env.faults w.calls ⟨.patch, .serviceMonitor, current.key⟩ ≠ none
    · obtain ⟨e, he, hrun⟩ := @exec_patchObject_of_fails env current.key w patch hfails
      obtain ⟨u, hu, hretried⟩ := @exists_retried env (dated current desired) _ hkind hkey 5 (w.sent ⟨.patch, .serviceMonitor, current.key⟩)
      have hpatching : exec (Op.patching .serviceMonitor current.metadata.name
          (patchObject env .serviceMonitor current.key patch)) w =
          (.error (.wrap s!"failed to patch  {ResourceType.serviceMonitor.name}/{current.metadata.name}" e),
            w.sent ⟨.patch, .serviceMonitor, current.key⟩) := by
        rw [Op.patching, Op.wrapError, exec_mapError, hrun, wrapped, he]
        rfl
      rw [exec_bind_ok (exec_attempt_of_error hpatching rfl)]
      dsimp only
      rw [← dated, hu]
      exact .retried h hd hpatch hfails hretried
    · rw [not_or, not_not] at hfails
      obtain ⟨hfind, hgoes⟩ := hfails
      obtain ⟨live, hlive⟩ := Option.ne_none_iff_exists'.1 hfind
      have hpatching : exec (Op.patching .serviceMonitor current.metadata.name
          (patchObject env .serviceMonitor current.key patch)) w =
          (.ok (), Acts.act (.updateObject (patch live)) (w.sent ⟨.patch, .serviceMonitor, current.key⟩)) := by
        rw [Op.patching, Op.wrapError, exec_mapError, exec_patchObject_of_faults hgoes hlive]
        rfl
      rw [exec_bind_ok (exec_attempt_of_ok hpatching)]
      exact .patched h hd hpatch hlive hgoes

/-- **What comes of an update**. -/
theorem ending (hns : ∀ desired, desiredOf st current.metadata.name = some desired → desired.metadata.ns = current.metadata.ns) :
    Ending op env st current w (exec (updateServiceMonitor op env current.metadata.name current st) w) := by
  rw [updateServiceMonitor]
  cases hhash : hashLabelsMatch current.metadata st with
  | true => exact .matched hhash
  | false =>
    simp only [Bool.false_eq_true, if_false]
    cases hr : st.latest.getResource .serviceMonitor current.metadata.name with
    | none =>
      refine .missing ?_
      rw [desiredOf, hr]
      rfl
    | some r =>
      dsimp only
      cases hspec : r.spec with
      | none =>
        refine .missing ?_
        rw [desiredOf, hr, Option.bind_some, hspec]
      | some desired =>
        have hd : desiredOf st current.metadata.name = some desired := by
          rw [desiredOf, hr, Option.bind_some, hspec]
        exact ending_patchOrUpdate (hns desired hd) hhash hd

/-! ### What an update leaves -/

theorem find_updateObject {o : Object} (hkind : o.kind = .serviceMonitor) (hkey : o.key = key) :
    (Acts.act (.updateObject o) w).find .serviceMonitor key = some o := by
  rw [World.find_of_ne_secret _ (by decide), ← hkind, ← hkey]
  exact Table.get_put_self

theorem find_createObject {o : Object} (hkind : o.kind = .serviceMonitor) (hkey : o.key = key) :
    (Acts.act (.createObject o) w).find .serviceMonitor key = some o := find_updateObject hkind hkey

theorem upToDate_iff (hlive : u.find .serviceMonitor key = some live) (hd : desiredOf st key.name = some desired) :
    UpToDate st key u ↔ live.body = desired.body ∧ hashLabelsMatch live.metadata st = true := by
  constructor
  · rintro ⟨live', desired', hlive', hd', h⟩
    obtain rfl := Option.some.inj (hlive.symm.trans hlive')
    obtain rfl := Option.some.inj (hd.symm.trans hd')
    exact h
  · exact fun h => ⟨live, desired, hlive, hd, h⟩

/-- An update that is done, and was not all failures, is one if it leaves the ServiceMonitor up to date. -/
theorem isUpdated_ok_iff (h : hashLabelsMatch current.metadata st = false) (hfailed : ¬AllFailed current.key w u) :
    IsUpdated op st current w (.ok (), u) ↔ UpToDate st current.key u := by
  constructor
  · intro hupdated
    refine (hupdated.applied rfl).resolve_left ?_
    rw [h]
    exact Bool.false_ne_true
  · intro hup
    refine ⟨fun _ => .inr hup, fun hall => absurd hall hfailed, fun _ live hlive => .inr fun env' => ?_⟩
    obtain ⟨live', desired, hlive', -, -, hhash⟩ := hup
    obtain rfl := Option.some.inj (hlive.symm.trans hlive')
    rw [updateServiceMonitor, if_pos hhash]
    rfl

theorem not_allFailed_self : ¬AllFailed key w w := by
  rintro ⟨h, -⟩
  rw [World.since, Nat.sub_self, List.take_zero] at h
  cases h

/-- An update that changes something has not failed. -/
theorem not_allFailed_act {v : World} {a : Act} (hv : Path Act.IsCall w v) (ha : ∀ c, a ≠ .call c) :
    ¬AllFailed key w (Acts.act a v) := by
  rintro ⟨-, h⟩
  obtain ⟨c, hc⟩ := h a (World.Did.of_path hv World.did_act).mem_since
  exact ha c hc

/-- An update whose patch failed, and that changes nothing, has. -/
theorem allFailed_of_path (h : Path Act.IsCall (w.sent ⟨.patch, .serviceMonitor, key⟩) u) : AllFailed key w u := by
  have hpatch : w.Did (w.sent ⟨.patch, .serviceMonitor, key⟩) (.call ⟨.patch, .serviceMonitor, key⟩) := World.did_act
  have hpath : Path Act.IsCall w u := (path_call_sent (by simp)).trans h
  refine ⟨(hpatch.trans_path h).mem_since, fun a ha => ?_⟩
  have hcall := mem_since_of_path hpath ha
  cases a with
  | call c => exact ⟨c, rfl⟩
  | _ => exact hcall.elim

/-! ### When an update is one -/

section

variable {patch : Object → Object} (h : hashLabelsMatch current.metadata st = false)
  (stored : desiredOf st current.metadata.name = some desired) (made : patchOf op st current desired = some patch)

include h stored made

/-- What has to be the case where there is a patch. -/
theorem willBeUpdated_iff_of_patch : WillBeUpdated op env st current w ↔
    ((∃ live, w.find .serviceMonitor current.key = some live ∧
        env.faults w.calls ⟨.patch, .serviceMonitor, current.key⟩ = none ∧
        (patch live).body = desired.body ∧ hashLabelsMatch (patch live).metadata st = true) ∨
      (∃ live, w.find .serviceMonitor current.key = some live ∧
        env.faults w.calls ⟨.patch, .serviceMonitor, current.key⟩ ≠ none ∧
        recovers env current.key true 5 (w.calls + 1) = true ∧ hashLabelsMatch live.metadata st = true) ∨
      (w.find .serviceMonitor current.key = none ∧ recovers env current.key false 5 (w.calls + 1) = true ∧
        hashLabelsMatch desired.metadata st = true)) := by
  simp [WillBeUpdated, h, stored, made]

/-- Where the patch goes through, it has to make the live ServiceMonitor up to date. -/
theorem isUpdated_iff_of_patched (found : w.find .serviceMonitor current.key = some live)
    (goes : env.faults w.calls ⟨.patch, .serviceMonitor, current.key⟩ = none) :
    IsUpdated op st current w
        (.ok (), Acts.act (.updateObject (patch live)) (w.sent ⟨.patch, .serviceMonitor, current.key⟩)) ↔
      WillBeUpdated op env st current w := by
  obtain ⟨hkind, hkey⟩ := w.find_filed found
  have hlive := @find_updateObject current.key (w.sent ⟨.patch, .serviceMonitor, current.key⟩) (patch live)
    ((op.merge.kind_patch made live).trans hkind) ((op.merge.key_patch made live).trans hkey)
  rw [isUpdated_ok_iff h (not_allFailed_act (path_call_sent (by simp)) (by simp)), upToDate_iff hlive stored,
    willBeUpdated_iff_of_patch h stored made]
  simp [found, goes]

/-- Where it fails, an attempt has to go through, and the label has to be right. -/
theorem isUpdated_iff_of_retried (hns : desired.metadata.ns = current.metadata.ns)
    (fails : w.find .serviceMonitor current.key = none ∨
      env.faults w.calls ⟨.patch, .serviceMonitor, current.key⟩ ≠ none)
    (attempts : Retried env (dated current desired) current.key 5 (w.sent ⟨.patch, .serviceMonitor, current.key⟩) u) :
    IsUpdated op st current w (.ok (), u) ↔ WillBeUpdated op env st current w := by
  obtain ⟨hkind, hname⟩ := desiredOf_filed stored
  rw [willBeUpdated_iff_of_patch h stored made]
  cases attempts with
  | @replaced live v found goes calls =>
    rw [World.find_sent] at found
    have hgoes : recovers env current.key true 5 (w.calls + 1) = true := goes
    have hfault := fails.resolve_left (by simp [found])
    have hlive := @find_updateObject current.key v { live with body := (dated current desired).body } hkind
      (w.find_filed found).2
    rw [isUpdated_ok_iff h (not_allFailed_act ((path_call_sent (by simp)).trans calls) (by simp)), upToDate_iff hlive stored]
    simp [found, hfault, hgoes, dated]
  | @created v missing goes calls =>
    rw [World.find_sent] at missing
    have hgoes : recovers env current.key false 5 (w.calls + 1) = true := goes
    have hkey : (dated current desired).key = current.key := by
      rw [Object.key, Object.key, ← hns, ← hname]
      rfl
    have hlive := @find_createObject current.key v (dated current desired) hkind hkey
    rw [isUpdated_ok_iff h (not_allFailed_act ((path_call_sent (by simp)).trans calls) (by simp)), upToDate_iff hlive stored]
    simp [missing, hgoes, dated, hashLabelsMatch]
  | failed fails' calls =>
    -- nothing was changed, and no error is returned
    refine iff_of_false (fun hupdated => hupdated.failed (allFailed_of_path calls) rfl) ?_
    rw [World.find_sent] at fails'
    cases hfind : w.find .serviceMonitor current.key with
    | none =>
      have hgoes : recovers env current.key false 5 (w.calls + 1) = false := by
        rw [hfind] at fails'
        exact fails'
      simp [hgoes]
    | some live =>
      have hgoes : recovers env current.key true 5 (w.calls + 1) = false := by
        rw [hfind] at fails'
        exact fails'
      have hfault := fails.resolve_left (by simp [hfind])
      simp [hgoes, hfault]

end

/-- **Updates of a ServiceMonitor**: an update is one exactly if the hash labels match, if there is nothing to apply, if there is
nothing to patch, if the patch goes through and makes the live ServiceMonitor up to date, or if one of the attempts after it goes
through and the label is right without it. -/
theorem isUpdated_iff (op : Operator) (env : Env) (st : Storage) (current : Object) (w : World)
    (hns : ∀ desired, desiredOf st current.metadata.name = some desired → desired.metadata.ns = current.metadata.ns) :
    IsUpdated op st current w (exec (updateServiceMonitor op env current.metadata.name current st) w) ↔
      WillBeUpdated op env st current w := by
  have hending := @ending op env st current w hns
  generalize exec (updateServiceMonitor op env current.metadata.name current st) w = r at hending
  cases hending with
  | matched h =>
    exact iff_of_true ⟨fun _ => .inl h, fun hall => absurd hall not_allFailed_self, fun _ _ _ => .inl h⟩ (.inl h)
  | missing h =>
    refine iff_of_true ⟨?_, ?_, ?_⟩ (.inr (.inl h))
    · rintro ⟨⟩
    · rintro - ⟨⟩
    · rintro ⟨⟩
  | unneeded h stored empty =>
    rw [isUpdated_ok_iff h not_allFailed_self]
    simp [WillBeUpdated, h, stored, empty]
  | patched h stored made found goes => exact isUpdated_iff_of_patched h stored made found goes
  | retried h stored made fails attempts => exact isUpdated_iff_of_retried h stored made (hns _ stored) fails attempts

end

/-! ### A ServiceMonitor that cannot be patched -/

/-- A merge that takes the labels and the body of what is desired. -/
def labelsAndBody : StrategicMerge where
  createThreeWayPatch _ d c :=
    if d.body = c.body ∧ d.metadata.labels = c.metadata.labels then none
    else some fun live =>
      if live.kind = d.kind then { metadata := { live.metadata with labels := d.metadata.labels }, body := d.body } else live
  kind_patch := by
    intro o d c p h live
    split at h
    · cases h
    · cases h
      dsimp only
      split
      · exact Eq.symm ‹_›
      · rfl
  key_patch := by
    intro o d c p h live
    split at h
    · cases h
    · cases h
      dsimp only
      split <;> rfl

/-- The ServiceMonitor of a version. -/
def metricsMonitor (hash : String) (endpoints : List Endpoint) : Object :=
  { metadata := { ns := "default", name := "storage-metrics", labels := (∅ : Labels).set LabelCoherenceHash hash }
    body := .serviceMonitor { endpoints } }

/-- A store whose latest version has the ServiceMonitor without endpoints. -/
def metricsStore : Storage :=
  { key := ⟨"default", "storage"⟩
    latest := { version := 2, items := [⟨.serviceMonitor, "storage-metrics", some (metricsMonitor "2" []), by simp [metricsMonitor, Object.kind]⟩] }
    hash := some "2" }

/-- The live ServiceMonitor, of the version before. -/
def liveMonitor : Object := metricsMonitor "1" [{ port := "metrics" }]

/-- The cluster with the live ServiceMonitor. -/
def metricsCluster : World := { (default : World) with objects := Table.empty.put liveMonitor }

/-- The operator that patches so. -/
def patchingOperator : Operator := { (default : Operator) with merge := labelsAndBody }

/-- No request goes through. -/
def unreachable : Env where
  faults _ _ := some .serviceUnavailable

/-- No patch goes through. -/
def unpatchable : Env where
  faults _ c := if c.verb = .patch then some (.other "the server does not support the media type of the patch") else none

theorem desiredOf_metricsStore : desiredOf metricsStore liveMonitor.metadata.name = some (metricsMonitor "2" []) := by
  decide +kernel

theorem ns_metricsStore (desired : Object) (h : desiredOf metricsStore liveMonitor.metadata.name = some desired) :
    desired.metadata.ns = liveMonitor.metadata.ns := by
  rw [desiredOf_metricsStore] at h
  cases h
  rfl

/-- Where requests go through, the ServiceMonitor is updated. -/
theorem isUpdated_metricsCluster :
    IsUpdated patchingOperator metricsStore liveMonitor metricsCluster
      (exec (updateServiceMonitor patchingOperator {} liveMonitor.metadata.name liveMonitor metricsStore) metricsCluster) :=
  (isUpdated_iff _ _ _ _ _ ns_metricsStore).2 <| .inr <| .inr ⟨_, desiredOf_metricsStore, .inr ⟨_, rfl, .inl
    ⟨liveMonitor, rfl, rfl, rfl, rfl⟩⟩⟩

/-- Where no request goes through there is no error. -/
theorem not_isUpdated_unreachable :
    ¬IsUpdated patchingOperator metricsStore liveMonitor metricsCluster
      (exec (updateServiceMonitor patchingOperator unreachable liveMonitor.metadata.name liveMonitor metricsStore) metricsCluster) := by
  intro h
  have hsince : metricsCluster.since (exec
      (updateServiceMonitor patchingOperator unreachable liveMonitor.metadata.name liveMonitor metricsStore) metricsCluster).2 =
      [.call ⟨.get, .serviceMonitor, liveMonitor.key⟩, .call ⟨.patch, .serviceMonitor, liveMonitor.key⟩] := rfl
  refine h.failed ⟨?_, fun a ha => ?_⟩ rfl
  · rw [hsince]
    exact List.mem_cons_of_mem _ (List.mem_singleton.2 rfl)
  · rw [hsince, List.mem_cons, List.mem_singleton] at ha
    obtain rfl | rfl := ha
    · exact ⟨_, rfl⟩
    · exact ⟨_, rfl⟩

/-- Where only the patch does not go through, the ServiceMonitor is replaced under its old label. -/
theorem not_isUpdated_unpatchable :
    ¬IsUpdated patchingOperator metricsStore liveMonitor metricsCluster
      (exec (updateServiceMonitor patchingOperator unpatchable liveMonitor.metadata.name liveMonitor metricsStore) metricsCluster) := by
  intro h
  have hfind : (exec (updateServiceMonitor patchingOperator unpatchable liveMonitor.metadata.name liveMonitor metricsStore)
      metricsCluster).2.find .serviceMonitor liveMonitor.key = some (metricsMonitor "1" []) := rfl
  obtain hhash | ⟨live, desired, hlive, -, -, hhash⟩ := h.applied rfl
  · exact absurd hhash (by decide +kernel)
  · rw [hfind] at hlive
    cases hlive
    exact absurd hhash (by decide +kernel)

/-- **Neither is an update**, though neither returns an error. -/
theorem not_isUpdated :
    ¬IsUpdated patchingOperator metricsStore liveMonitor metricsCluster
        (exec (updateServiceMonitor patchingOperator unreachable liveMonitor.metadata.name liveMonitor metricsStore)
          metricsCluster) ∧
      ¬IsUpdated patchingOperator metricsStore liveMonitor metricsCluster
        (exec (updateServiceMonitor patchingOperator unpatchable liveMonitor.metadata.name liveMonitor metricsStore)
          metricsCluster) := ⟨not_isUpdated_unreachable, not_isUpdated_unpatchable⟩

end ServiceMonitor

end CoherenceOperator
