import CoherenceOperator.Footprint.Workload

/-!
# The owner of an object

Whom `FindOwningCoherenceResource` looks for, read off the owner references of an object (`coherenceOwner`), and
what it comes back with. The search reads one resource at most. A pointer to a resource that is not there is not
nil, so an object whose owner is gone has an owner (`Deployment.IsAbsent`).
-/

namespace CoherenceOperator

open Effect Prog

/-- The first reference to a resource of one of the two kinds. -/
def firstOwner (ns : String) : List OwnerReference → Option Owner
  | [] => none
  | ref :: refs =>
    if ref.kind = ResourceType.coherence.name then some ⟨.coherence, ns, ref.name⟩
    else if ref.kind = ResourceType.coherenceJob.name then some ⟨.coherenceJob, ns, ref.name⟩
    else firstOwner ns refs

/-- The owner that `FindOwningCoherenceResource` looks for. -/
def ObjectMeta.coherenceOwner (m : ObjectMeta) : Option Owner := firstOwner m.ns m.ownerReferences

/-- The owner references name a Coherence or a CoherenceJob. -/
def ObjectMeta.IsOwned (m : ObjectMeta) : Prop :=
  ∃ ref ∈ m.ownerReferences,
    ref.kind = ResourceType.coherence.name ∨ ref.kind = ResourceType.coherenceJob.name

theorem firstOwner_eq_none {ns : String} {refs : List OwnerReference} :
    firstOwner ns refs = none ↔
      ¬ ∃ ref ∈ refs, ref.kind = ResourceType.coherence.name ∨ ref.kind = ResourceType.coherenceJob.name := by
  induction refs with
  | nil => simp [firstOwner]
  | cons ref refs ih =>
    simp only [firstOwner, List.exists_mem_cons_iff]
    split
    · simp_all
    · split <;> simp_all

/-- No owner is looked for if and only if the references name none. -/
theorem ObjectMeta.coherenceOwner_eq_none {m : ObjectMeta} : m.coherenceOwner = none ↔ ¬ m.IsOwned :=
  firstOwner_eq_none

/-- The pointer to a resource that is found, or not found. -/
def World.pointer (w : World) (owner : Owner) : Deployment :=
  match owner.kind with
  | .coherenceJob => .coherenceJob (w.coherenceJob.get owner.key)
  | _ => .coherence (w.coherence.get owner.key)

/-- A pointer that is nil, in a value of the interface that is not. -/
def Deployment.IsAbsent : Deployment → Prop
  | .coherence none | .coherenceJob none => True
  | _ => False

theorem Deployment.IsAbsent.isNil {d : Deployment} (h : d.IsAbsent) : d.isNil = false := by
  cases d with
  | nil => exact h.elim
  | coherence c | coherenceJob c =>
    cases c with
    | none => rfl
    | some _ => exact h.elim

/-- An absent owner has its default number of replicas, which is not zero. -/
theorem Deployment.IsAbsent.isNilOrZero {d : Deployment} (h : d.IsAbsent) : d.isNilOrZero = .ok false := by
  cases d with
  | nil => exact h.elim
  | coherence c | coherenceJob c =>
    cases c with
    | none => rfl
    | some _ => exact h.elim

theorem World.pointer_isNil {w : World} {owner : Owner} : (w.pointer owner).isNil = false := by
  unfold pointer
  split <;> rfl

@[simp] theorem World.pointer_sent {w : World} {c : ApiCall} {owner : Owner} :
    (w.sent c).pointer owner = w.pointer owner := rfl

/-- The request that looks for an owner. -/
def Owner.call (owner : Owner) : ApiCall := ⟨.get, owner.kind, owner.key⟩

/-! ### Keeping everything -/

/-- Acts other than deletions and requests for them. -/
def Act.IsKeeping : Act → Prop
  | .call c => c.verb ≠ .delete
  | .deleteObject _ _ => False
  | _ => True

theorem Act.IsNote.isKeeping {a : Act} (h : a.IsNote) : a.IsKeeping := by
  cases a with
  | call => exact h
  | deleteObject => exact h.elim
  | _ => trivial

theorem Act.IsRemark.isKeeping {a : Act} (h : a.IsRemark) : a.IsKeeping := h.isNote.isKeeping

/-- A request that is not a deletion is on the way. -/
theorem path_sent {w u : World} (p : Path Act.IsKeeping w u) {c : ApiCall} (hc : c.verb ≠ .delete) :
    Path Act.IsKeeping w (u.sent c) := p.tail ⟨.call c, hc, rfl⟩

/-! ### The search -/

section

variable {env : Env} {w : World} {β : Type}

/-- The search reads the first owner, if there is one. -/
theorem exec_findOwner {ns : String} {refs : List OwnerReference} :
    exec (findOwner env ns refs) w =
      match firstOwner ns refs with
      | none => (.ok .nil, w)
      | some owner => ((w.answer owner.call env).map fun _ => w.pointer owner, w.sent owner.call) := by
  induction refs with
  | nil => rfl
  | cons ref refs ih =>
    simp only [findOwner, firstOwner]
    split
    · simp only [findDeployment, getCoherence, exec_bind, exec_read]
      show _ = ((w.answer ⟨.get, .coherence, ⟨ns, ref.name⟩⟩ env).map _, _)
      cases w.answer ⟨.get, .coherence, ⟨ns, ref.name⟩⟩ env <;> rfl
    · split
      · simp only [findCoherenceJob, getCoherenceJob, exec_bind, exec_read]
        show _ = ((w.answer ⟨.get, .coherenceJob, ⟨ns, ref.name⟩⟩ env).map _, _)
        cases w.answer ⟨.get, .coherenceJob, ⟨ns, ref.name⟩⟩ env <;> rfl
      · exact ih

/-- An object without an owner has none. -/
theorem exec_ownerOf_of_unowned {resource : Option Object} (h : ∀ o ∈ resource, o.metadata.coherenceOwner = none) :
    exec (Secondary.ownerOf env .nil resource) w = (.ok .nil, w) := by
  cases resource with
  | none => rfl
  | some o =>
    show exec (findOwner env o.metadata.ns o.metadata.ownerReferences) w = _
    rw [exec_findOwner, show firstOwner o.metadata.ns o.metadata.ownerReferences = none from h o rfl]

/-- An object with an owner has the pointer that the search came back with. -/
theorem exec_ownerOf_of_owned {o : Object} {owner : Owner} (henv : env.Reliable)
    (h : o.metadata.coherenceOwner = some owner) :
    exec (Secondary.ownerOf env .nil (some o)) w = (.ok (w.pointer owner), w.sent owner.call) := by
  show exec (findOwner env o.metadata.ns o.metadata.ownerReferences) w = _
  rw [exec_findOwner, show firstOwner o.metadata.ns o.metadata.ownerReferences = some owner from h]
  simp only [w.answer_eq_ok _ henv]
  rfl

/-- Find the owner of an object and go on, whatever comes of the request. -/
theorem wp_ownerOf_bind {o : Object} {owner : Owner} {g : Deployment → Op β} {Q : Except GoError β → World → Prop}
    (h : o.metadata.coherenceOwner = some owner) (he : ∀ e, Q (.error e) (w.sent owner.call))
    (hg : Wp (g (w.pointer owner)) Q (w.sent owner.call)) : Wp (Secondary.ownerOf env .nil (some o) >>= g) Q w := by
  have hx : exec (Secondary.ownerOf env .nil (some o)) w =
      ((w.answer owner.call env).map fun _ => w.pointer owner, w.sent owner.call) := by
    show exec (findOwner env o.metadata.ns o.metadata.ownerReferences) w = _
    rw [exec_findOwner, show firstOwner o.metadata.ns o.metadata.ownerReferences = some owner from h]
  rw [Wp, exec_bind, hx]
  cases w.answer owner.call env with
  | error e => exact he e
  | ok _ => exact hg

end

end CoherenceOperator
