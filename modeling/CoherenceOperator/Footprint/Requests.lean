import CoherenceOperator.Cluster

/-!
# Requests

What the requests of the operator do, in two forms. `exec_request` and the lemmas after it say what comes of a
request and what the state is then; `does_request` and the lemmas after it say which acts it consists of, which is
all that an invariant needs.

A reconcile's own acts are those that it adds to the log (`World.since`).
-/

namespace CoherenceOperator

open Effect Prog

/-! ### What comes of a request -/

namespace World

variable (w : World) (c : ApiCall)

/-- The state after a request was sent. -/
def sent : World := Acts.act (.call c) w

@[simp] theorem coherence_sent : (w.sent c).coherence = w.coherence := rfl

@[simp] theorem coherenceJob_sent : (w.sent c).coherenceJob = w.coherenceJob := rfl

@[simp] theorem objects_sent : (w.sent c).objects = w.objects := rfl

@[simp] theorem stores_sent : (w.sent c).stores = w.stores := rfl

@[simp] theorem log_sent : (w.sent c).log = .call c :: w.log := rfl

@[simp] theorem find_sent (kind : ResourceType) (key : NamespacedName) :
    (w.sent c).find kind key = w.find kind key := rfl

@[simp] theorem store_sent (key : NamespacedName) : (w.sent c).store key = w.store key := rfl

@[simp] theorem statefulSet_sent (key : NamespacedName) : (w.sent c).statefulSet key = w.statefulSet key := rfl

@[simp] theorem job_sent (key : NamespacedName) : (w.sent c).job key = w.job key := rfl

/-- What comes of the next request. -/
def answer (env : Env) : Except GoError Unit :=
  match env.faults w.calls c with
  | some f => .error (.fault c f)
  | none => .ok ()

theorem answer_of_faults {env : Env} (h : env.faults w.calls c = none) : w.answer c env = .ok () := by rw [answer, h]

/-- No request fails in a reliable environment. -/
theorem answer_eq_ok {env : Env} (h : env.Reliable) : w.answer c env = .ok () := by
  rw [answer, h]

/-- A request that fails does so by the environment. -/
theorem exists_fault_of_answer {env : Env} {e : GoError} (h : w.answer c env = .error e) :
    ∃ n f, env.faults n c = some f := by
  unfold answer at h
  split at h
  · rename_i f hf
    exact ⟨_, f, hf⟩
  · cases h

/-- A request that fails does not panic. -/
theorem isPanic_of_answer {env : Env} {e : GoError} (h : w.answer c env = .error e) : e.isPanic = false := by
  unfold answer at h
  split at h
  · cases h
    rfl
  · cases h

end World

section Exec

variable {env : Env} {w : World} {c : ApiCall}

theorem exec_request : exec (request env c) w = (w.answer c env, w.sent c) := by
  simp only [request, exec_bind, exec_get, exec_perform, World.answer]
  cases env.faults w.calls c with
  | none => rfl
  | some f => rfl

theorem exec_read {α : Type} {f : World → α} :
    exec (read env c f) w = ((w.answer c env).map fun _ => f (w.sent c), w.sent c) := by
  simp only [read, exec_bind, exec_request, exec_get, exec_pure]
  cases w.answer c env with
  | ok _ => rfl
  | error _ => rfl

/-- A change that is made: what it changes was there. -/
theorem exec_change_eq_ok {α : Type} {present : World → Option α} {a : Act} {u : World}
    (h : exec (change env c present a) w = (.ok (), u)) :
    (present (w.sent c)).isSome ∧ u = Acts.act a (w.sent c) := by
  simp only [change, exec_bind, exec_request, exec_get] at h
  cases ha : w.answer c env with
  | error e => simp [ha] at h
  | ok _ =>
    cases hp : present (w.sent c) with
    | none => simp [ha, hp] at h
    | some _ =>
      simp only [ha, hp, exec_perform, Prod.mk.injEq, true_and] at h
      exact ⟨rfl, h.symm⟩

/-- A change: it is made if the request goes through and what it changes is there. -/
theorem wp_change_iff {α : Type} {present : World → Option α} {a : Act} {Q : Except GoError Unit → World → Prop}
    (he : ∀ e, (∃ n f, env.faults n c = some f) ∨ present (w.sent c) = none → Q (.error e) (w.sent c))
    (hok : ∀ x, present (w.sent c) = some x → Q (.ok ()) (Acts.act a (w.sent c))) : Wp (change env c present a) Q w := by
  rw [Wp, change, exec_bind, exec_request]
  cases ha : w.answer c env with
  | error e => exact he e (.inl (w.exists_fault_of_answer c ha))
  | ok _ =>
    simp only [exec_bind, exec_get]
    cases hp : present (w.sent c) with
    | none => exact he _ (.inr hp)
    | some x => exact hok x hp

theorem wp_change {α : Type} {present : World → Option α} {a : Act} {Q : Except GoError Unit → World → Prop}
    (he : ∀ e, Q (.error e) (w.sent c)) (hok : ∀ x, present (w.sent c) = some x → Q (.ok ()) (Acts.act a (w.sent c))) :
    Wp (change env c present a) Q w := wp_change_iff (fun e _ => he e) hok

/-- A creation: it is made if the request goes through and the object is not there. -/
theorem wp_createObject {o : Object} {Q : Except GoError Unit → World → Prop}
    (he : ∀ e, Q (.error e) (w.sent ⟨.create, o.kind, o.key⟩))
    (hok : w.find o.kind o.key = none → Q (.ok ()) (Acts.act (.createObject o) (w.sent ⟨.create, o.kind, o.key⟩))) :
    Wp (createObject env o) Q w := by
  rw [Wp, createObject]
  simp only [exec_bind, exec_request]
  cases w.answer ⟨.create, o.kind, o.key⟩ env with
  | error e => exact he e
  | ok _ =>
    simp only [exec_get, World.find_sent]
    cases hf : w.find o.kind o.key with
    | none => exact hok hf
    | some x => exact he _

/-- A patch: it is made if the request goes through and the object is there. -/
theorem wp_patchObject {kind : ResourceType} {key : NamespacedName} {patch : Object → Object}
    {Q : Except GoError Unit → World → Prop}
    (he : ∀ e, ¬ env.Reliable ∨ w.find kind key = none → Q (.error e) (w.sent ⟨.patch, kind, key⟩))
    (hok : ∀ live, w.find kind key = some live →
      Q (.ok ()) (Acts.act (.updateObject (patch live)) (w.sent ⟨.patch, kind, key⟩))) :
    Wp (patchObject env kind key patch) Q w := by
  rw [Wp, patchObject]
  simp only [exec_bind, exec_request]
  cases ha : w.answer ⟨.patch, kind, key⟩ env with
  | error e =>
    refine he e (.inl fun henv => ?_)
    rw [World.answer_eq_ok _ _ henv] at ha
    cases ha
  | ok _ =>
    simp only [exec_get, World.find_sent]
    cases hf : w.find kind key with
    | none => exact he _ (.inr hf)
    | some live => exact hok live hf

/-- Send a request and go on, whatever comes of it. -/
theorem wp_request_bind {β : Type} {g : Unit → Op β} {Q : Except GoError β → World → Prop}
    (he : ∀ e, Q (.error e) (w.sent c)) (hg : Wp (g ()) Q (w.sent c)) : Wp (request env c >>= g) Q w := by
  rw [Wp, exec_bind, exec_request]
  cases w.answer c env with
  | error e => exact he e
  | ok _ => exact hg

/-- Read and go on, whatever is made of the failure of the request. -/
theorem wp_read_bind_iff {α β : Type} {m : GoError → GoError} {f : World → α} {g : α → Op β}
    {Q : Except GoError β → World → Prop} (he : ∀ e, (∃ n f, env.faults n c = some f) → Q (.error e) (w.sent c))
    (hg : Wp (g (f (w.sent c))) Q (w.sent c)) :
    Wp (Prog.mapError GoError.isPanic m (read env c f) >>= g) Q w := by
  rw [Wp, exec_bind, exec_mapError, exec_read]
  cases ha : w.answer c env with
  | error e => exact he _ (w.exists_fault_of_answer c ha)
  | ok _ => exact hg

/-- Read and go on, whatever comes of the request. -/
theorem wp_read_bind {α β : Type} {m : GoError → GoError} {f : World → α} {g : α → Op β}
    {Q : Except GoError β → World → Prop} (he : ∀ e, Q (.error e) (w.sent c))
    (hg : Wp (g (f (w.sent c))) Q (w.sent c)) :
    Wp (Prog.mapError GoError.isPanic m (read env c f) >>= g) Q w := wp_read_bind_iff (fun e _ => he e) hg

/-- Read and go on, where no request fails. -/
theorem wp_read_bind_of_reliable {α β : Type} {m : GoError → GoError} {f : World → α} {g : α → Op β}
    {Q : Except GoError β → World → Prop} (henv : env.Reliable) (hg : Wp (g (f (w.sent c))) Q (w.sent c)) :
    Wp (Prog.mapError GoError.isPanic m (read env c f) >>= g) Q w := by
  refine Wp.bind_ok (a := f (w.sent c)) (u := w.sent c) ?_ hg
  rw [exec_mapError, exec_read, w.answer_eq_ok c henv]
  rfl

end Exec

/-! ### What a request does -/

section Requests

variable {A : Act → Prop} {env : Env} {c : ApiCall}

theorem does_request (h : A (.call c)) : Does A (request env c) := by
  refine Does.bind Does.get fun w => Does.bind (Does.perform h) fun _ => ?_
  cases env.faults w.calls c with
  | none => exact Does.pure _
  | some f => exact Does.throw _

theorem does_read {α : Type} {f : World → α} (h : A (.call c)) : Does A (read env c f) :=
  Does.bind (does_request h) fun _ => Does.bind Does.get fun _ => Does.pure _

theorem does_change {α : Type} {present : World → Option α} {a : Act} (h : A (.call c)) (ha : A a) :
    Does A (change env c present a) := by
  refine Does.bind (does_request h) fun _ => Does.bind Does.get fun w => ?_
  cases present w with
  | none => exact Does.throw _
  | some _ => exact Does.perform ha

theorem does_createObject {o : Object} (h : A (.call ⟨.create, o.kind, o.key⟩)) (ho : A (.createObject o)) :
    Does A (createObject env o) := by
  refine Does.bind (does_request h) fun _ => Does.bind Does.get fun w => ?_
  cases w.find o.kind o.key with
  | none => exact Does.perform ho
  | some _ => exact Does.throw _

theorem does_patchObject {kind : ResourceType} {key : NamespacedName} {patch : Object → Object}
    (h : A (.call ⟨.patch, kind, key⟩)) (ho : ∀ w : World, ∀ live, w.find kind key = some live →
      A (.updateObject (patch live))) : Does A (patchObject env kind key patch) := by
  refine Does.bind (does_request h) fun _ => Does.bind Does.get fun w => ?_
  cases hw : w.find kind key with
  | none => exact Does.throw _
  | some live => exact Does.perform (ho w live hw)

end Requests

namespace Op

variable {A : Act → Prop} {α : Type}

theorem does_ignoreError {x : Op Unit} (h : Does A x) : Does A (ignoreError x) :=
  Does.bind h.attempt fun _ => Does.pure _

theorem does_wrapError {text : String} {x : Op α} (h : Does A x) : Does A (wrapError text x) := h.mapError

theorem does_operation {name : String} {context : List (String × String)} {x : Op α} (h : Does A x) :
    Does A (operation name context x) := h.mapError

end Op

/-! ### Programs that do not panic -/

/-- The program may fail, but it does not panic. -/
def Calm {α : Type} (x : Op α) : Prop := ∀ w e, (exec x w).1 = .error e → e.isPanic = false

namespace Calm

variable {env : Env} {α β : Type}

theorem pure (a : α) : Calm (Pure.pure a : Op α) := by
  rintro w e ⟨⟩

theorem bind {x : Op α} {f : α → Op β} (hx : Calm x) (hf : ∀ a, Calm (f a)) : Calm (x >>= f) := by
  intro w e h
  rcases hr : exec x w with ⟨e' | a, u⟩
  · rw [exec_bind_error hr] at h
    cases h
    exact hx w _ (by rw [hr])
  · rw [exec_bind_ok hr] at h
    exact hf a u e h

theorem ite {c : Prop} [Decidable c] {x y : Op α} (hx : Calm x) (hy : Calm y) : Calm (if c then x else y) := by
  split
  · exact hx
  · exact hy

theorem wrapError {text : String} {x : Op α} (hx : Calm x) : Calm (Op.wrapError text x) := by
  intro w e h
  rw [Op.wrapError, exec_mapError] at h
  cases hr : (exec x w).1 with
  | ok a =>
    rw [hr] at h
    cases h
  | error e' =>
    have he' := hx w e' hr
    rw [hr, wrapped, he'] at h
    cases h
    rfl

theorem read {c : ApiCall} {f : World → α} : Calm (CoherenceOperator.read env c f) := by
  intro w e h
  rw [exec_read] at h
  cases ha : w.answer c env with
  | error e' =>
    rw [ha] at h
    cases h
    exact w.isPanic_of_answer c ha
  | ok _ =>
    rw [ha] at h
    cases h

theorem change {c : ApiCall} {present : World → Option α} {a : Act} :
    Calm (CoherenceOperator.change env c present a) := by
  intro w e h
  simp only [CoherenceOperator.change, exec_bind, exec_request, exec_get] at h
  cases ha : w.answer c env with
  | error e' =>
    rw [ha] at h
    cases h
    exact w.isPanic_of_answer c ha
  | ok _ =>
    rw [ha] at h
    cases hp : present (w.sent c) with
    | none =>
      simp only [hp, exec_throw] at h
      cases h
      rfl
    | some x =>
      simp only [hp, exec_perform] at h
      cases h

theorem createObject {o : Object} : Calm (CoherenceOperator.createObject env o) := by
  intro w e h
  simp only [CoherenceOperator.createObject, exec_bind, exec_request, exec_get] at h
  cases ha : w.answer ⟨.create, o.kind, o.key⟩ env with
  | error e' =>
    rw [ha] at h
    cases h
    exact w.isPanic_of_answer _ ha
  | ok _ =>
    rw [ha] at h
    cases hf : (w.sent ⟨.create, o.kind, o.key⟩).find o.kind o.key with
    | none =>
      simp only [hf, exec_perform] at h
      cases h
    | some x =>
      simp only [hf, exec_throw] at h
      cases h
      rfl

/-- A failure that is not a panic is ignored. -/
theorem exec_ignoreError {x : Op Unit} (hx : Calm x) (w : World) :
    exec (Op.ignoreError x) w = (.ok (), (exec x w).2) := by
  rw [Op.ignoreError, Op.attempt, exec_bind, exec_attempt]
  cases hr : (exec x w).1 with
  | ok a => rfl
  | error e =>
    rw [caught_error (hx w e hr)]
    rfl

end Calm

/-! ### The acts of a reconcile -/

/-- The acts that lead from one state to a later one, the last one first. -/
def World.since (w w' : World) : List Act := w'.log.take (w'.log.length - w.log.length)

/-- The acts of a path are those it adds to the log. -/
theorem exists_log_of_path {A : Act → Prop} {w w' : World} (h : Path A w w') :
    ∃ as, w'.log = as ++ w.log ∧ ∀ a ∈ as, A a := by
  induction h with
  | refl => exact ⟨[], rfl, by simp⟩
  | tail _ hstep ih =>
    obtain ⟨as, has, hA⟩ := ih
    obtain ⟨a, ha, rfl⟩ := hstep
    refine ⟨a :: as, ?_, List.forall_mem_cons.2 ⟨ha, hA⟩⟩
    show a :: _ = _
    rw [has, List.cons_append]

theorem World.since_append {w w' : World} {as : List Act} (h : w'.log = as ++ w.log) : w.since w' = as := by
  simp [since, h]

/-- The act `a` was done between the two states. -/
def World.Did (w w' : World) (a : Act) : Prop := ∃ later earlier, w'.log = later ++ a :: (earlier ++ w.log)

theorem World.Did.mem_since {w w' : World} {a : Act} (h : w.Did w' a) : a ∈ w.since w' := by
  obtain ⟨later, earlier, h⟩ := h
  have hlog : w'.log = (later ++ a :: earlier) ++ w.log := by simp [h]
  rw [since_append hlog]
  simp

theorem World.did_act {w : World} {a : Act} : w.Did (Acts.act a w) a := ⟨[], [], rfl⟩

/-- What was done stays done. -/
theorem World.Did.trans_path {A : Act → Prop} {w u w' : World} {a : Act} (h : w.Did u a) (p : Path A u w') :
    w.Did w' a := by
  obtain ⟨later, earlier, h⟩ := h
  obtain ⟨as, has, -⟩ := exists_log_of_path p
  exact ⟨as ++ later, earlier, by rw [has, h, List.append_assoc]⟩

theorem World.Did.of_path {A : Act → Prop} {w u w' : World} {a : Act} (p : Path A w u) (h : u.Did w' a) :
    w.Did w' a := by
  obtain ⟨later, earlier, h⟩ := h
  obtain ⟨as, has, -⟩ := exists_log_of_path p
  exact ⟨later, earlier ++ as, by rw [h, has, List.append_assoc]⟩

/-- What is done on a path is of the acts of the path. -/
theorem mem_since_of_path {A : Act → Prop} {w w' : World} (h : Path A w w') {a : Act} (ha : a ∈ w.since w') : A a := by
  obtain ⟨as, hlog, hA⟩ := exists_log_of_path h
  rw [World.since_append hlog] at ha
  exact hA a ha

/-- What is done since is what the program does. -/
theorem mem_since_of_does {A : Act → Prop} {α : Type} {x : Op α} (h : Does A x) {w : World} {a : Act}
    (ha : a ∈ w.since (exec x w).2) : A a := mem_since_of_path (h w) ha

end CoherenceOperator
