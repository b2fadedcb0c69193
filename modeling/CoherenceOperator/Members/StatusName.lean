import Mathlib.Data.Int.Notation
import Mathlib.Data.List.Basic
import Mathlib.Tactic.Common

/-!
# The HA status that a member reports

A member is asked for the lowest of the backup strengths of its services. `getStatusName` compares every strength with the lowest one
so far, and does not keep the lowest one: the comparison never fails, and the last service decides (`getStatusName_eq`).
-/

namespace CoherenceOperator

/-- The part of a `PartitionedCache` that the status is made of. -/
structure PartitionedCache where
  isOwnershipEnabled : Bool
  backupStrength : ℤ
  backupStrengthName : String
  deriving DecidableEq

/-- What `getService` returns for a name: a service of another kind (or none), or a distributed service with or without storage on this
member. It is the `PartitionedCache`, or a safe service around it. -/
inductive NamedService where
  | other
  | partitioned (isLocalStorageEnabled : Bool) (cache : PartitionedCache)
  | safe (isLocalStorageEnabled : Bool) (service : PartitionedCache)
  deriving DecidableEq

/-- The cluster of a member, with the services in the order of their enumeration. -/
structure RunningCluster where
  isRunning : Bool
  services : List NamedService

namespace NamedService

/-- The distributed service, if it has storage here and owns partitions. -/
def eligible : NamedService → Option PartitionedCache
  | .other => none
  | .partitioned storage cache => if storage && cache.isOwnershipEnabled then some cache else none
  | .safe storage service => if storage && service.isOwnershipEnabled then some service else none

end NamedService

namespace RunningCluster

/-- `Integer.MAX_VALUE`. -/
def maxValue : ℤ := 2147483647

/-- The body of the loop for a service that is eligible. -/
def better (lowestStatus : ℤ) (status : String) (cache : PartitionedCache) : String :=
  if cache.backupStrength < lowestStatus then cache.backupStrengthName else status

/-- The loop of `getStatusName`: `lowestStatus` is not assigned in it. -/
def statusLoop (lowestStatus : ℤ) (status : String) : List NamedService → String
  | [] => status
  | .other :: services => statusLoop lowestStatus status services
  | .partitioned storage cache :: services =>
    if storage then
      if cache.isOwnershipEnabled then statusLoop lowestStatus (better lowestStatus status cache) services
      else statusLoop lowestStatus status services
    else statusLoop lowestStatus status services
  | .safe storage service :: services =>
    if storage then
      if service.isOwnershipEnabled then statusLoop lowestStatus (better lowestStatus status service) services
      else statusLoop lowestStatus status services
    else statusLoop lowestStatus status services

/-- `getStatusName`. -/
def getStatusName : Option RunningCluster → String
  | none => "n/a"
  | some cluster => if cluster.isRunning then statusLoop maxValue "n/a" cluster.services else "n/a"

variable (cluster : RunningCluster)

/-- The services that have a status. -/
def caches : List PartitionedCache := cluster.services.filterMap NamedService.eligible

/-- What `getBackupStrength` and `getBackupStrengthName` return: a strength that is less than the greatest number, and a name that no
other strength has. -/
structure LawfulStrengths : Prop where
  lt : ∀ c ∈ cluster.caches, c.backupStrength < maxValue
  name : ∀ c ∈ cluster.caches, ∀ c' ∈ cluster.caches, c.backupStrengthName = c'.backupStrengthName →
    c.backupStrength = c'.backupStrength

/-- The name of a service than which none is weaker, or `n/a` if there is no service. -/
def ReportsLowest (status : String) : Prop :=
  (cluster.caches = [] ∧ status = "n/a") ∨
    ∃ c ∈ cluster.caches, (∀ c' ∈ cluster.caches, c.backupStrength ≤ c'.backupStrength) ∧ status = c.backupStrengthName

variable {cluster} {lowestStatus : ℤ} {status : String} {services : List NamedService}

/-- The loop goes through the services that are eligible. -/
theorem statusLoop_eq_foldl (lowestStatus : ℤ) (status : String) (services : List NamedService) :
    statusLoop lowestStatus status services = (services.filterMap NamedService.eligible).foldl (better lowestStatus) status := by
  induction services generalizing status with
  | nil => rfl
  | cons svc services ih =>
    cases svc with
    | other => rw [statusLoop, List.filterMap_cons_none rfl, ih]
    | partitioned storage cache =>
      rw [statusLoop]
      cases storage <;> cases hown : cache.isOwnershipEnabled <;> simp [NamedService.eligible, hown, ih]
    | safe storage service =>
      rw [statusLoop]
      cases storage <;> cases hown : service.isOwnershipEnabled <;> simp [NamedService.eligible, hown, ih]

/-- As no strength is stored, every one is lower than the lowest so far. -/
theorem foldl_better {cs : List PartitionedCache} (h : ∀ c ∈ cs, c.backupStrength < lowestStatus) (status : String) :
    cs.foldl (better lowestStatus) status = (cs.getLast?.map (·.backupStrengthName)).getD status := by
  induction cs generalizing status with
  | nil => rfl
  | cons c cs ih =>
    have hc := h c List.mem_cons_self
    rw [List.foldl_cons, ih (fun c' hc' => h c' (List.mem_cons_of_mem c hc')), better, if_pos hc, List.getLast?_cons]
    cases cs.getLast? with
    | none => rfl
    | some last => rfl

/-- The last service decides. -/
theorem getStatusName_eq (hrun : cluster.isRunning = true) (h : cluster.LawfulStrengths) :
    getStatusName (some cluster) = (cluster.caches.getLast?.map (·.backupStrengthName)).getD "n/a" := by
  rw [getStatusName, if_pos hrun, statusLoop_eq_foldl]
  exact foldl_better h.lt "n/a"

/-- **The status is the lowest** exactly when the last service is among the weakest ones. -/
theorem reportsLowest_iff (cluster : RunningCluster) (hrun : cluster.isRunning = true) (h : cluster.LawfulStrengths) :
    cluster.ReportsLowest (getStatusName (some cluster)) ↔
      ∀ last ∈ cluster.caches.getLast?, ∀ c ∈ cluster.caches, last.backupStrength ≤ c.backupStrength := by
  rw [getStatusName_eq hrun h]
  cases hlast : cluster.caches.getLast? with
  | none =>
    refine iff_of_true (.inl ⟨List.getLast?_eq_none_iff.1 hlast, rfl⟩) ?_
    intro last hmem
    cases hmem
  | some last =>
    have hmem : last ∈ cluster.caches := List.mem_of_getLast? hlast
    constructor
    · rintro (⟨hnil, -⟩ | ⟨c, hc, hmin, hname⟩)
      · rw [hnil] at hmem
        cases hmem
      · intro last' hlast' c' hc'
        obtain rfl : last = last' := Option.some.inj hlast'
        -- the name is the name of one of the weakest services, so the strength is the same
        rw [h.name last hmem c hc hname]
        exact hmin c' hc'
    · exact fun hmin => .inr ⟨last, hmem, hmin last rfl, rfl⟩

/-- A cluster of two services of other strengths. -/
def twoServices (first second : PartitionedCache) : RunningCluster where
  isRunning := true
  services := [.safe true first, .safe true second]

/-- A service that is stored on one node only. -/
def endangered : PartitionedCache where
  isOwnershipEnabled := true
  backupStrength := 0
  backupStrengthName := "ENDANGERED"

/-- A service that survives the loss of a node. -/
def nodeSafe : PartitionedCache where
  isOwnershipEnabled := true
  backupStrength := 1
  backupStrengthName := "NODE-SAFE"

theorem reportsLowest_nodeSafe_endangered :
    (twoServices nodeSafe endangered).ReportsLowest (getStatusName (some (twoServices nodeSafe endangered))) :=
  (reportsLowest_iff _ rfl ⟨by decide, by decide⟩).2 (by decide)

theorem not_forall_reportsLowest :
    ¬ ∀ cluster : RunningCluster, cluster.isRunning = true → cluster.LawfulStrengths →
      cluster.ReportsLowest (getStatusName (some cluster)) := by
  intro h
  have hstatus : getStatusName (some (twoServices endangered nodeSafe)) = "NODE-SAFE" := by decide
  rcases h (twoServices endangered nodeSafe) rfl ⟨by decide, by decide⟩ with ⟨hnil, -⟩ | ⟨c, hc, hmin, hname⟩
  · exact absurd hnil (by decide)
  · rw [hstatus] at hname
    have hendangered := hmin endangered (by decide)
    have hcases : c = endangered ∨ c = nodeSafe := by simpa [caches, twoServices, NamedService.eligible, endangered, nodeSafe] using hc
    rcases hcases with rfl | rfl
    · exact absurd hname (by decide)
    · exact absurd hendangered (by decide)

end RunningCluster

end CoherenceOperator
