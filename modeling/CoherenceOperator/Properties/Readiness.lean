import CoherenceOperator.Lib.Run
import CoherenceOperator.Members.Health

/-!
# When a member is ready

The services are gone through one after the other, and the first that is not safe ends the check, as does one that cannot be looked at. All the same
the answer does not depend on their order: the check succeeds if all of them are safe (`isStatusHA_eq_ok_true`). A member says that it is ready if it is in a
cluster now, and was found to be in order once (`ready_iff`).
-/

namespace CoherenceOperator

open Effect

/-! ### What the checks look for -/

/-- No partition of a service is lost when this member is: it is not the only one with storage, unless it has all partitions already; the service is not
endangered, where it has backups, unless it may be; and nothing is under way. -/
structure CacheService.IsSafe (cache : CacheService) (allowEndangered : List (List Char)) (name : String) : Prop where
  owned : cache.ownershipEnabledMembers.card = 1 → cache.ownedPartitions = cache.partitionCount
  backed : cache.ownershipEnabledMembers.card > 1 → cache.backupCount > 0 → cache.backupStrengthName = "ENDANGERED" →
    name.toList ∈ allowEndangered
  distributed : cache.isDistributionInProgress = false
  recovered : cache.isRecoveryInProgress = false
  restored : cache.isRestoreInProgress = false
  transferred : cache.isTransferInProgress = false

/-- A distributed service with storage on this member is safe there, if it owns partitions at all. Within another wrapper than a safe service it is not
seen. -/
def ListedService.IsHA (allowEndangered : List (List Char)) (name : String) : ListedService → Prop
  | .other => True
  | .partitioned storage cache | .safe storage cache =>
    storage = true → cache.isOwnershipEnabled = true → cache.IsSafe allowEndangered name
  | .wrapper storage _ => storage = false

/-- The cluster runs, and all its services are safe. -/
structure MemberCluster.IsHA (cluster : MemberCluster) (allowEndangered : List (List Char)) : Prop where
  running : cluster.isRunning = true
  services : ∀ p ∈ cluster.services, p.2.IsHA allowEndangered p.1

/-- No persistence is active. -/
def MemberCluster.IsIdle (cluster : MemberCluster) : Prop := ∀ p ∈ cluster.services, p.2.isActive = false

namespace Sighting

variable (s : Sighting) (allowEndangered : List (List Char))

/-- A cluster with members is found. -/
def HasMembers : Prop := ∃ cluster, s.members = .ok (some cluster) ∧ cluster.isRunning = true ∧ cluster.memberSet ≠ ∅

/-- The services have started, and are safe. -/
def IsHA : Prop := s.waitForServiceStart = .ok () ∧ ∃ cluster, s.ha = .ok (some cluster) ∧ cluster.IsHA allowEndangered

/-- No persistence is active. -/
def IsIdle : Prop := ∃ cluster, s.idle = .ok (some cluster) ∧ cluster.IsIdle

/-- The member is in a cluster, and all is in order. -/
structure IsInOrder : Prop where
  members : s.HasMembers
  ha : s.IsHA allowEndangered
  idle : s.IsIdle

end Sighting

/-! ### The checks -/

section Checks

variable {allowEndangered : List (List Char)} {name : String} {cache : CacheService} {services : List (String × ListedService)} {view : ClusterView}
  {wait : Except Throwable Unit}

theorem CacheService.isHA_eq_true :
    cache.isHA allowEndangered name = true ↔ (cache.isOwnershipEnabled = true → cache.IsSafe allowEndangered name) := by
  have hcontains : (!allowEndangered.contains name.toList) = true ↔ name.toList ∉ allowEndangered := by simp
  rw [CacheService.isHA]
  cases hown : cache.isOwnershipEnabled with
  | false => simp
  | true =>
    simp only [if_true, true_imp_iff]
    constructor
    · intro h
      split_ifs at h with h₁ h₂ h₃ h₄ h₅ h₆
      rw [not_and_or, not_not] at h₁
      refine ⟨fun hcard => h₁.resolve_left (not_not.2 hcard), fun hcard hcount hname => ?_, by simpa using h₃, by simpa using h₄,
        by simpa using h₅, by simpa using h₆⟩
      by_contra hnot
      exact h₂ ⟨hcard, hcount, hname, hcontains.2 hnot⟩
    · intro h
      rw [if_neg (fun h₁ => h₁.2 (h.owned h₁.1)), if_neg (fun h₂ => hcontains.1 h₂.2.2.2 (h.backed h₂.1 h₂.2.1 h₂.2.2.1)),
        h.distributed, h.recovered, h.restored, h.transferred]
      rfl

/-- **All services are safe** exactly if the loop comes to its end. -/
theorem areCacheServicesHA_eq_ok_true :
    areCacheServicesHA allowEndangered services = .ok true ↔ ∀ p ∈ services, p.2.IsHA allowEndangered p.1 := by
  induction services with
  | nil => simp [areCacheServicesHA]
  | cons p services ih =>
    obtain ⟨name, service⟩ := p
    rw [List.forall_mem_cons]
    -- a `PartitionedCache`, or a safe service around it
    have hcache : ∀ (storage : Bool) (cache : CacheService),
        (if storage then if cache.isHA allowEndangered name then areCacheServicesHA allowEndangered services else .ok false
          else areCacheServicesHA allowEndangered services) = .ok true ↔
          (storage = true → cache.isOwnershipEnabled = true → cache.IsSafe allowEndangered name) ∧
            ∀ p ∈ services, p.2.IsHA allowEndangered p.1 := by
      intro storage cache
      rw [← CacheService.isHA_eq_true, ← ih]
      cases storage with
      | false => simp
      | true => cases cache.isHA allowEndangered name <;> simp
    cases service with
    | other => simpa [areCacheServicesHA, ListedService.IsHA] using ih
    | partitioned storage cache | safe storage cache => exact hcache storage cache
    | wrapper storage cache => cases storage <;> simp [areCacheServicesHA, ListedService.IsHA, ih]

theorem catchException_eq_ok_true {check : Except Throwable Bool} : catchException check = .ok true ↔ check = .ok true := by
  rcases check with (_ | _) | _ <;> simp [catchException]

theorem isStatusHA_eq_ok_true : isStatusHA allowEndangered wait view = .ok true ↔
    wait = .ok () ∧ ∃ cluster, view = .ok (some cluster) ∧ cluster.IsHA allowEndangered := by
  have hcluster : ∀ cluster : MemberCluster, cluster.IsHA allowEndangered ↔
      cluster.isRunning = true ∧ ∀ p ∈ cluster.services, p.2.IsHA allowEndangered p.1 :=
    fun _ => ⟨fun h => ⟨h.running, h.services⟩, fun h => ⟨h.1, h.2⟩⟩
  rw [isStatusHA, catchException_eq_ok_true]
  cases wait with
  | error thrown => simp [bind, Except.bind]
  | ok =>
    rcases view with thrown | _ | cluster
    · simp [bind, Except.bind]
    · simp [bind, Except.bind, pure, Except.pure]
    · simp only [bind, Except.bind, pure, Except.pure, true_and, Except.ok.injEq, Option.some.injEq, exists_eq_left', hcluster,
        ← areCacheServicesHA_eq_ok_true]
      cases cluster.isRunning <;> simp

/-- What is not idle is not said to be idle: it is not possible to say so. -/
theorem isPersistenceIdle_eq_ok_iff {b : Bool} :
    isPersistenceIdle view = .ok b ↔ b = true ∧ ∃ cluster, view = .ok (some cluster) ∧ cluster.IsIdle := by
  rcases view with _ | _ | cluster
  · simp [isPersistenceIdle, bind, Except.bind]
  · simp [isPersistenceIdle, bind, Except.bind, throw, throwThe, MonadExceptOf.throw]
  · simp only [isPersistenceIdle, bind, Except.bind, Except.ok.injEq, Option.some.injEq, exists_eq_left', MemberCluster.IsIdle]
    split
    · rename_i hactive
      obtain ⟨p, hp, hactive⟩ := List.any_eq_true.1 hactive
      refine iff_of_false (fun h => by cases h) fun h => ?_
      rw [h.2 p hp] at hactive
      cases hactive
    · rename_i hidle
      have hall : ∀ p ∈ cluster.services, p.2.isActive = false := by simpa using hidle
      simp only [pure, Except.pure, Except.ok.injEq]
      exact ⟨fun h => ⟨h.symm, hall⟩, fun h => h.1.symm⟩

theorem hasClusterMembers_eq_ok_true : hasClusterMembers view = .ok true ↔
    ∃ cluster, view = .ok (some cluster) ∧ cluster.isRunning = true ∧ cluster.memberSet ≠ ∅ := by
  rcases view with _ | _ | cluster <;> simp [hasClusterMembers, bind, Except.bind, pure, Except.pure]

end Checks

/-! ### The responses -/

namespace HealthServer

variable {allowEndangered : List (List Char)} {hasBeenReady : Bool} {s : Sighting} {requests : List (HealthRequest × Sighting)}

/-- What is thrown is never taken for success. -/
theorem handleError_ne (thrown : Throwable) : handleError thrown ≠ 200 := by
  rw [handleError]
  split <;> decide

theorem sent_eq {response : Except Throwable ℤ} : sent response = 200 ↔ response = .ok 200 := by
  cases response with
  | ok status => simp [sent]
  | error thrown => simp [sent, handleError_ne]

/-- **The HA check** succeeds exactly if all is in order. -/
theorem statusHA_eq : statusHA allowEndangered s = 200 ↔ s.IsHA allowEndangered ∧ s.IsIdle := by
  rw [statusHA, sent_eq, Sighting.IsHA, ← isStatusHA_eq_ok_true, Sighting.IsIdle]
  cases hha : isStatusHA allowEndangered s.waitForServiceStart s.ha with
  | error thrown => simp [bind, Except.bind]
  | ok isHA =>
    cases hidle : isPersistenceIdle s.idle with
    | error thrown =>
      have hnot : ¬ ∃ cluster, s.idle = .ok (some cluster) ∧ cluster.IsIdle := fun h => by
        rw [isPersistenceIdle_eq_ok_iff.2 ⟨rfl, h⟩] at hidle
        cases hidle
      simp [bind, Except.bind, hnot]
    | ok isIdle =>
      obtain ⟨rfl, hcluster⟩ := isPersistenceIdle_eq_ok_iff.1 hidle
      cases isHA <;> simp [bind, Except.bind, pure, Except.pure, hcluster]

/-- **A member is ready** if it is in a cluster, and was ready before or is in order. -/
theorem ready_eq : (ready allowEndangered hasBeenReady s).1 = 200 ↔
    s.HasMembers ∧ (hasBeenReady = true ∨ s.IsHA allowEndangered ∧ s.IsIdle) := by
  rw [ready, Sighting.HasMembers, ← hasClusterMembers_eq_ok_true]
  cases hmembers : hasClusterMembers s.members with
  | error thrown => simp [bind, Except.bind, handleError_ne]
  | ok hasCluster =>
    cases hasBeenReady with
    | true => cases hasCluster <;> simp [bind, Except.bind, pure, Except.pure]
    | false =>
      cases hasCluster with
      | false => simp [bind, Except.bind, pure, Except.pure]
      | true =>
        simp only [true_and, Bool.false_eq_true, false_or]
        rw [Sighting.IsHA, ← isStatusHA_eq_ok_true, Sighting.IsIdle]
        cases hha : isStatusHA allowEndangered s.waitForServiceStart s.ha with
        | error thrown => simp [bind, Except.bind, handleError_ne]
        | ok isHA =>
          cases hidle : isPersistenceIdle s.idle with
          | error thrown =>
            have hnot : ¬ ∃ cluster, s.idle = .ok (some cluster) ∧ cluster.IsIdle := fun h => by
              rw [isPersistenceIdle_eq_ok_iff.2 ⟨rfl, h⟩] at hidle
              cases hidle
            simp [bind, Except.bind, handleError_ne, hnot]
          | ok isIdle =>
            obtain ⟨rfl, hcluster⟩ := isPersistenceIdle_eq_ok_iff.1 hidle
            cases isHA <;> simp [bind, Except.bind, pure, Except.pure, hcluster]

/-- The flag stays, and is set by the answer that the member is ready. -/
theorem ready_snd : (ready allowEndangered hasBeenReady s).2 = (hasBeenReady || decide ((ready allowEndangered hasBeenReady s).1 = 200)) := by
  rw [ready]
  cases hasClusterMembers s.members with
  | error thrown => simp [bind, Except.bind, handleError_ne]
  | ok hasCluster =>
    cases hasBeenReady with
    | true => simp [bind, Except.bind, pure, Except.pure]
    | false =>
      cases hasCluster with
      | false => simp [bind, Except.bind, pure, Except.pure]
      | true =>
        cases isStatusHA allowEndangered s.waitForServiceStart s.ha with
        | error thrown => simp [bind, Except.bind, handleError_ne]
        | ok isHA =>
          cases isPersistenceIdle s.idle with
          | error thrown => simp [bind, Except.bind, handleError_ne]
          | ok isIdle => cases isHA <;> cases isIdle <;> simp [bind, Except.bind, pure, Except.pure]

/-! ### Runs -/

/-- A request is whether the member is ready, when all is in order. -/
def FindsInOrder (allowEndangered : List (List Char)) (r : HealthRequest × Sighting) : Prop := r.1 = .ready ∧ r.2.IsInOrder allowEndangered

/-- **One request**: the flag is set by a request that finds all in order, and by no other. -/
theorem step_eq_true {r : HealthRequest × Sighting} :
    step allowEndangered hasBeenReady r = true ↔ hasBeenReady = true ∨ FindsInOrder allowEndangered r := by
  obtain ⟨request, s⟩ := r
  cases request with
  | health | statusHA => simp [step, respond, FindsInOrder]
  | ready =>
    have horder : s.IsInOrder allowEndangered ↔ s.HasMembers ∧ s.IsHA allowEndangered ∧ s.IsIdle :=
      ⟨fun h => ⟨h.members, h.ha, h.idle⟩, fun h => ⟨h.1, h.2.1, h.2.2⟩⟩
    simp only [step, respond, FindsInOrder, ready_snd, Bool.or_eq_true, decide_eq_true_eq, ready_eq, horder, true_and]
    cases hasBeenReady <;> simp

theorem run_eq_true : run (step allowEndangered) hasBeenReady requests = true ↔
    hasBeenReady = true ∨ ∃ r ∈ requests, FindsInOrder allowEndangered r := by
  induction requests generalizing hasBeenReady with
  | nil => simp
  | cons r requests ih => simp only [run_cons, ih, step_eq_true, List.exists_mem_cons_iff, or_assoc]

end HealthServer

open HealthServer

/-- **When a member says that it is ready**: after any requests, whatever was thrown in the course of them and whatever clusters were found, it does so exactly
if it is in a cluster with members now, and in the course of this request or of an earlier one for its readiness it was found to be in such a cluster with all its
services safe and their persistence idle. -/
theorem ready_iff (allowEndangered : List (List Char)) (requests : List (HealthRequest × Sighting)) (s : Sighting) :
    (respond allowEndangered (run (HealthServer.step allowEndangered) false requests) s .ready).1 = 200 ↔
      s.HasMembers ∧ ∃ r ∈ requests ++ [(.ready, s)], FindsInOrder allowEndangered r := by
  have hready : (respond allowEndangered (run (HealthServer.step allowEndangered) false requests) s .ready).1 = 200 ↔
      s.HasMembers ∧ (run (HealthServer.step allowEndangered) false requests = true ∨ s.IsHA allowEndangered ∧ s.IsIdle) := ready_eq
  rw [hready, run_eq_true]
  refine and_congr_right fun hmembers => ?_
  constructor
  · rintro ((hfalse | ⟨r, hr, horder⟩) | ⟨hha, hidle⟩)
    · cases hfalse
    · exact ⟨r, List.mem_append_left _ hr, horder⟩
    · exact ⟨_, List.mem_append_right _ (List.mem_singleton_self _), rfl, hmembers, hha, hidle⟩
  · rintro ⟨r, hr, horder⟩
    rcases List.mem_append.1 hr with hr | hr
    · exact .inl (.inr ⟨r, hr, horder⟩)
    · obtain rfl := List.mem_singleton.1 hr
      exact .inr ⟨horder.2.ha, horder.2.idle⟩

end CoherenceOperator
