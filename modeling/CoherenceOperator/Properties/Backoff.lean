import CoherenceOperator.Footprint.Tracking
import Mathlib.Tactic.Positivity

/-!
# The delays after transient errors

After a transient error a request is queued again with a delay, which doubles from error to error until it is five
minutes. The errors are counted in an annotation, and the delay is computed from the count that the resource was read with.

The power is capped only after it was computed, and wraps around before: the delay is zero, which queues nothing, from the
count 64 on, and already at 62 (`delay_pos_iff`). `backoff_law_iff` says that a run of transient errors keeps the law
exactly as long as the counts stay below.
-/

namespace CoherenceOperator

open Effect Prog Int64Bits

/-! ### One delay -/

/-- The delay at a count. -/
def delayAt (count : Option ℤ) : ℕ := (backoff (count.getD 1)).toNat

/-- The counts at which nothing goes wrong on the way to the cap. -/
def InRange (n : ℤ) : Prop := -2 ^ 63 < n ∧ n ≤ 61 ∨ n = 63

/-- The count after one more error. -/
def IsNextCount (a b : Option ℤ) : Prop := b = some (nextCount a)

section

variable {n : ℤ} {a b : Option ℤ}

/-- Below the range of the power the delay is what it should be. -/
theorem backoff_eq (hmin : -2 ^ 63 < n) (hmax : n ≤ 61) : backoff n = min (5 * 2 ^ (n - 1).toNat) 300 := by
  have hk : (n - 1).toNat ≤ 60 := by omega
  have hpow : (2 : ℤ) ^ (n - 1).toNat ≤ 2 ^ 60 := by
    exact_mod_cast Nat.pow_le_pow_right (by decide) hk
  have hpos : (0 : ℤ) < 2 ^ (n - 1).toNat := by positivity
  have hstep : wrap (n - 1) = n - 1 := wrap_eq ⟨by omega, by omega⟩
  have hseconds : wrap (5 * pow 2 (wrap (n - 1))) = 5 * 2 ^ (n - 1).toNat := by
    rw [hstep, pow_eq_wrap, mul_wrap]
    exact wrap_eq ⟨by omega, by omega⟩
  rw [backoff, hseconds, wrap_eq ⟨by omega, by omega⟩]
  omega

/-- A power beyond the range is zero. -/
theorem backoff_of_le (h : 64 ≤ (wrap (n - 1)).toNat) : backoff n = 0 := by
  have hseconds : wrap (5 * pow 2 (wrap (n - 1))) = 0 := by
    rw [pow_eq_wrap, mul_wrap]
    exact wrap_eq_zero ((pow_dvd_pow 2 h).mul_left 5)
  rw [backoff, hseconds]
  decide

theorem delayAt_some_eq (hmin : -2 ^ 63 < n) (hmax : n ≤ 61) :
    delayAt (some n) = min (5 * 2 ^ (n - 1).toNat) 300 := by
  rw [delayAt, Option.getD_some, backoff_eq hmin hmax]
  have hcast : min (5 * 2 ^ (n - 1).toNat : ℤ) 300 = ((min (5 * 2 ^ (n - 1).toNat) 300 : ℕ) : ℤ) := by
    rw [Nat.cast_min]
    push_cast
    rfl
  rw [hcast, Int.toNat_natCast]

theorem delayAt_none : delayAt none = 5 := by decide +kernel

theorem delayAt_63 : delayAt (some 63) = 300 := by decide +kernel

theorem delayAt_le (h : InRange (a.getD 1)) : 0 < delayAt a ∧ delayAt a ≤ 300 := by
  cases a with
  | none => rw [delayAt_none]; decide
  | some n =>
    rw [Option.getD_some] at h
    obtain ⟨hmin, hmax⟩ | h := h
    · rw [delayAt_some_eq hmin hmax]
      have hpos : 0 < 2 ^ (n - 1).toNat := by positivity
      omega
    · rw [h, delayAt_63]
      decide

/-- The delay is positive exactly in the range. -/
theorem delay_pos_iff (h : Fits (a.getD 1)) : 0 < delayAt a ↔ InRange (a.getD 1) := by
  refine ⟨fun hpos => ?_, fun h => (delayAt_le h).1⟩
  obtain ⟨hle, hlt⟩ := h
  by_contra hrange
  have hcases : a.getD 1 = 62 ∨ a.getD 1 = 64 ∨ 64 ≤ (wrap (a.getD 1 - 1)).toNat := by
    rw [InRange] at hrange
    by_cases hmin : a.getD 1 = -2 ^ 63
    · right
      right
      rw [hmin]
      decide +kernel
    · have hstep : wrap (a.getD 1 - 1) = a.getD 1 - 1 := wrap_eq ⟨by omega, by omega⟩
      rw [hstep]
      omega
  have hzero : backoff (a.getD 1) = 0 := by
    obtain h | h | h := hcases
    · rw [h]
      decide +kernel
    · rw [h]
      decide +kernel
    · exact backoff_of_le h
  rw [delayAt, hzero] at hpos
  exact absurd hpos (by decide)

/-! ### The delays of a run of counts -/

/-- **The law of the delays** of a run: each one queues the request again in at most five minutes, none is shorter than the
one before, and from the `N`th on they are five minutes. -/
structure BackoffLaw (N : ℕ) (delays : List ℕ) : Prop where
  requeued : ∀ t ∈ delays, 0 < t ∧ t ≤ 300
  monotone : delays.IsChain (· ≤ ·)
  capped : ∀ t ∈ delays.drop N, t = 300

/-- After how many errors the delay has to be at the cap. -/
def cappedAfter : Option ℤ → ℕ
  | none => 7
  | some n => (7 - n).toNat

/-- In the range the count goes on by one. -/
theorem nextCount_eq (ha : InRange n) : nextCount (some n) = n + 1 := by
  unfold InRange at ha
  exact wrap_eq ⟨by omega, by omega⟩

/-- The count after 63 is out of the range. -/
theorem lt_of_nextCount (ha : InRange n) (hb : InRange (nextCount (some n))) : -2 ^ 63 < n ∧ n ≤ 60 := by
  rw [nextCount_eq ha] at hb
  unfold InRange at ha hb
  omega

theorem delayAt_le_next (ha : InRange (a.getD 1)) (hb : InRange (b.getD 1)) (hnext : IsNextCount a b) :
    delayAt a ≤ delayAt b := by
  obtain rfl := hnext
  cases a with
  | none => decide +kernel
  | some n =>
    obtain ⟨hmin, hmax⟩ := lt_of_nextCount ha hb
    rw [Option.getD_some] at hmin hmax
    have hpow : 2 ^ (n - 1).toNat ≤ 2 ^ (n + 1 - 1).toNat := Nat.pow_le_pow_right (by decide) (by omega)
    rw [nextCount_eq (n := n) ha, delayAt_some_eq hmin (by omega), delayAt_some_eq (by omega) (by omega)]
    omega

theorem delayAt_eq_cap (ha : InRange n) (h : 7 ≤ n) : delayAt (some n) = 300 := by
  obtain ⟨hmin, hmax⟩ | rfl := ha
  · have hpow : 2 ^ 6 ≤ 2 ^ (n - 1).toNat := Nat.pow_le_pow_right (by decide) (by omega)
    rw [delayAt_some_eq hmin hmax]
    omega
  · exact delayAt_63

/-- As long as the counts are in the range, the cap is reached in time. -/
theorem delays_capped : ∀ (as : List (Option ℤ)) (a : Option ℤ) (N : ℕ), (a :: as).IsChain IsNextCount →
    (∀ b ∈ a :: as, InRange (b.getD 1)) → cappedAfter a ≤ N → ∀ t ∈ ((a :: as).map delayAt).drop N, t = 300 := by
  intro as
  induction as with
  | nil =>
    intro a N _ hrange hN t ht
    cases N with
    | zero =>
      cases a with
      | none => exact absurd hN (by decide)
      | some n =>
        rw [cappedAfter] at hN
        rw [List.drop_zero, List.map_cons, List.map_nil, List.mem_singleton] at ht
        rw [ht]
        exact delayAt_eq_cap (hrange (some n) List.mem_cons_self) (by omega)
    | succ N => simp at ht
  | cons b as ih =>
    intro a N hchain hrange hN t ht
    obtain ⟨hnext, hchain⟩ := List.isChain_cons_cons.1 hchain
    have htail := fun N => ih b N hchain fun c hc => hrange c (List.mem_cons_of_mem a hc)
    have ha := hrange a List.mem_cons_self
    obtain rfl := hnext
    cases N with
    | zero =>
      cases a with
      | none => exact absurd hN (by decide)
      | some n =>
        rw [cappedAfter] at hN
        rw [List.drop_zero, List.map_cons, List.mem_cons] at ht
        obtain rfl | ht := ht
        · exact delayAt_eq_cap ha (by omega)
        · refine htail 0 ?_ t ht
          rw [cappedAfter, nextCount_eq (n := n) ha]
          omega
    | succ N =>
      refine htail N ?_ t (by simpa using ht)
      cases a with
      | none =>
        rw [cappedAfter] at hN
        rw [cappedAfter, nextCount]
        omega
      | some n =>
        rw [cappedAfter] at hN
        rw [cappedAfter, nextCount_eq (n := n) ha]
        omega

/-- The delays of a run of counts keep the law exactly as long as the counts are in the range. -/
theorem backoffLaw_counts_iff {as : List (Option ℤ)} (hchain : as.IsChain IsNextCount) (hfits : ∀ a ∈ as, Fits (a.getD 1))
    {N : ℕ} (hN : ∀ a ∈ as.head?, cappedAfter a ≤ N) :
    BackoffLaw N (as.map delayAt) ↔ ∀ a ∈ as, InRange (a.getD 1) := by
  constructor
  · intro h a ha
    exact (delay_pos_iff (hfits a ha)).1 (h.requeued _ (List.mem_map_of_mem ha)).1
  · intro h
    refine ⟨?_, ?_, ?_⟩
    · intro t ht
      obtain ⟨a, ha, rfl⟩ := List.mem_map.1 ht
      exact delayAt_le (h a ha)
    · rw [List.isChain_map]
      exact hchain.imp_of_mem_imp fun a b ha hb => delayAt_le_next (h a ha) (h b hb)
    · cases as with
      | nil => simp
      | cons a as => exact delays_capped as a N hchain h (hN a rfl)

end

/-! ### A run of errors -/

/-- An error of a round and its handling: what the requests are answered, the cluster, the error, and the resource as the
round has read it. -/
structure FailedReconcile where
  env : Env
  world : World
  error : GoError
  deployment : Deployment

namespace FailedReconcile

variable (op : Operator) (kind : ResourceType) (key : NamespacedName) (f : FailedReconcile)

/-- What comes of the error. -/
def handled : Except GoError Result × World := exec (handleErrAndRequeue op f.env f.error f.deployment) f.world

/-- In how many seconds the request is queued again; 0 if it is not. -/
def delay : ℕ :=
  match (f.handled op).1 with
  | .ok r => r.requeueAfter
  | .error _ => 0

/-- The error count of the resource that the round has read. -/
def count : Option ℤ := f.deployment.resource.bind fun d => errorCount d.metadata.annotations

/-- A transient error of the resource under `key`, which was read with the count that it has; the requests of the handler
go through. -/
structure IsTransient : Prop where
  transient : categorizeError f.error = .transient
  reliable : f.env.Reliable
  read : ∃ d latest, f.deployment.resource = some d ∧ d.kind = kind ∧ d.key = key ∧
    f.world.resource kind key = some latest ∧ d.countText = latest.countText

/-- The resource still has the count that the handling of `f` left. -/
def KeepsCount (f g : FailedReconcile) : Prop :=
  ∃ d d', (f.handled op).2.resource kind key = some d ∧ g.world.resource kind key = some d' ∧ d'.countText = d.countText

/-- **A run of transient errors** of a resource. Between them anything may happen but to the count. -/
structure IsRun (fs : List FailedReconcile) : Prop where
  transient : ∀ f ∈ fs, f.IsTransient kind key
  consecutive : fs.IsChain (KeepsCount op kind key)

end FailedReconcile

section Runs

variable {op : Operator} {kind : ResourceType} {key : NamespacedName} {f g : FailedReconcile} {fs : List FailedReconcile}

theorem fits_errorCount {annotations : Labels} : Fits ((errorCount annotations).getD 1) := by
  cases h : errorCount annotations with
  | none => decide
  | some n =>
    obtain ⟨t, -, ht⟩ := Option.bind_eq_some_iff.1 h
    rw [Int64Bits.atoi, Option.filter_eq_some_iff] at ht
    exact of_decide_eq_true ht.2

namespace FailedReconcile

theorem errorCount_of_countText {d : CoherenceResource} {t : Option String} (h : d.countText = t) :
    errorCount d.metadata.annotations = t.bind Int64Bits.atoi := by
  rw [errorCount, ← h]
  rfl

theorem fits_count (f : FailedReconcile) : Fits (f.count.getD 1) := by
  rw [count]
  cases f.deployment.resource with
  | none => decide
  | some d => exact fits_errorCount

theorem fits_nextCount (a : Option ℤ) : Fits (nextCount a) := by
  cases a with
  | none => decide
  | some n => exact fits_wrap _

/-- What comes of one transient error. -/
theorem IsTransient.handled (op : Operator) (h : f.IsTransient kind key) :
    f.delay op = delayAt f.count ∧
      (f.handled op).2.HasCount kind key (some (toString (nextCount f.count))) := by
  obtain ⟨d, latest, hdeployment, hkind, hkey, hlatest, htext⟩ := h.read
  have hcase := Deployment.kind_of_resource hdeployment
  rw [hkind] at hcase
  obtain ⟨hresult, hcount⟩ := exec_handleErrAndRequeue_of_transient op hcase h.reliable h.transient hdeployment hkind hkey hlatest
  have hsame : errorCount latest.metadata.annotations = f.count := by
    rw [errorCount_of_countText htext.symm, count, hdeployment]
    rfl
  rw [hsame] at hcount
  refine ⟨?_, hcount⟩
  rw [delay, FailedReconcile.handled, hresult, count, hdeployment]
  rfl

/-- The next error is of the next count. -/
theorem isNextCount (hf : f.IsTransient kind key) (hg : g.IsTransient kind key) (h : KeepsCount op kind key f g) :
    IsNextCount f.count g.count := by
  obtain ⟨d, d', hd, hd', hkeeps⟩ := h
  obtain ⟨r, latest, hdeployment, -, -, hlatest, htext⟩ := hg.read
  rw [hd', Option.some.injEq] at hlatest
  subst hlatest
  have hcount := (hf.handled op).2 d hd
  rw [IsNextCount, count, hdeployment, Option.bind_some,
    errorCount_of_countText (htext.trans (hkeeps.trans hcount)), Option.bind_some, atoi_toString (fits_nextCount _)]

/-- The counts of a run. -/
theorem IsRun.counts (h : IsRun op kind key fs) : (fs.map count).IsChain IsNextCount := by
  rw [List.isChain_map]
  exact h.consecutive.imp_of_mem_imp fun f g hf hg => isNextCount (h.transient f hf) (h.transient g hg)

/-- The delays of a run. -/
theorem IsRun.delays (h : IsRun op kind key fs) : fs.map (delay op) = (fs.map count).map delayAt := by
  rw [List.map_map]
  exact List.map_congr_left fun f hf => ((h.transient f hf).handled op).1

end FailedReconcile

end Runs

/-! ### A run of one error -/

/-- The resource with an error count. -/
def counted (count : String) : Coherence where
  metadata := { name := "storage", ns := "coherence", annotations := (∅ : Labels).set AnnotationErrorCount count }
  spec := {}

/-- The API server is not available while the resource is reconciled. -/
def unavailable (count : String) : FailedReconcile where
  env := {}
  world := { (default : World) with coherence := Table.empty.put (counted count) }
  error := .fault ⟨.get, .statefulSet, (counted count).key⟩ .serviceUnavailable
  deployment := .coherence (some (counted count))

theorem isRun_unavailable (count : String) : FailedReconcile.IsRun default .coherence (counted "").key [unavailable count] := by
  refine ⟨fun f hf => ?_, List.isChain_singleton _⟩
  obtain rfl := List.mem_singleton.1 hf
  exact ⟨rfl, rfl, (counted count).toResource, (counted count).toResource, rfl, rfl, rfl, rfl, rfl⟩

end CoherenceOperator
