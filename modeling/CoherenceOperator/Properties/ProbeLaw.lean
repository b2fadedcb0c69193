import CoherenceOperator.Footprint.Contacting

/-!
# The law of probe execution

When the execution of a probe on the Pods of a StatefulSet comes to `true`, what is final about it, and when no Pod is contacted.
-/

namespace CoherenceOperator

open Effect Prog

/-- Running, ready and not terminating. -/
structure Pod.IsUp (pod : Pod) : Prop where
  running : pod.phase = "Running"
  ready : pod.readySince.isSome = true
  notTerminating : pod.deletionTimestamp = none

theorem Pod.isReady_iff {pod : Pod} : pod.isReady.1 = true ↔ pod.IsUp := by
  rw [Pod.isReady]
  split
  · rename_i h
    constructor
    · intro hfalse
      cases hfalse
    · intro hup
      rcases h with h | h
      · simp [hup.notTerminating] at h
      · exact absurd hup.running h
  · rename_i h
    push Not at h
    constructor
    · intro hready
      exact ⟨h.2, hready, by simpa using h.1⟩
    · exact fun hup => hup.ready

/-- All the Pods that there should be, and all of them up. -/
structure StatefulSet.IsUp (sts : StatefulSet) (stsPods : List Pod) : Prop where
  pods : ∀ pod ∈ stsPods, pod.IsUp
  count : (stsPods.length : ℤ) = sts.spec.replicas.getD 1

namespace ProbeActions

section

variable {env : ProbeEnv} {svc : String} {op : Operator} {options : ProbeExecutionOptions} {p active : Probe}
  {sts : StatefulSet} {stsPods pods : List Pod} {pod : Pod}

/-- What comes of a probe on a Pod that is running, with the probe as the connection of the Pod has it. -/
def podOutcome (env : ProbeEnv) (svc : String) (op : Operator) (options : ProbeExecutionOptions) (p : Probe) (pod : Pod) :
    Except ProbeError Bool := do
  let active ← CoherenceProbe.activeProbe op options p pod
  (exec (runProbe env svc pod active) []).1

/-- A Pod that is running gave `true`, and those before it failed with an error of their own, which is none of HTTP. -/
def Gave (env : ProbeEnv) (svc : String) (op : Operator) (options : ProbeExecutionOptions) (p : Probe) (pods : List Pod) :
    Prop :=
  ∃ before pod after, pods = before ++ pod :: after ∧ isRunning pod = true ∧
    podOutcome env svc op options p pod = .ok true ∧
      ∀ other ∈ before, isRunning other = true →
        p.http = none ∧ p.httpGet = none ∧ ∃ text, podOutcome env svc op options p other = .error (.other text)

theorem Gave.head (hrunning : isRunning pod = true) (h : podOutcome env svc op options p pod = .ok true) :
    Gave env svc op options p (pod :: pods) := by
  refine ⟨[], pod, pods, rfl, hrunning, h, ?_⟩
  intro other hother
  cases hother

theorem Gave.tail (hfirst : isRunning pod = true →
      p.http = none ∧ p.httpGet = none ∧ ∃ text, podOutcome env svc op options p pod = .error (.other text))
    (h : Gave env svc op options p pods) : Gave env svc op options p (pod :: pods) := by
  obtain ⟨before, found, after, rfl, hrunning, htrue, hbefore⟩ := h
  refine ⟨pod :: before, found, after, rfl, hrunning, htrue, ?_⟩
  intro other hother
  rcases List.mem_cons.1 hother with rfl | hother
  · exact hfirst
  · exact hbefore other hother

/-- A probe that nothing is final about is run as it is. -/
theorem activeProbe_eq (hfinal : isFinal options p = false)
    (h : CoherenceProbe.activeProbe op options p pod = .ok active) : active = p := by
  simp only [isFinal, Bool.or_eq_false_iff] at hfinal
  obtain ⟨⟨hsuspension, -⟩, hget⟩ := hfinal
  simp only [Option.isSome_eq_false_iff, Option.isNone_iff_eq_none] at hget
  have hsecure : ∀ c, CoherenceProbe.secureProbe options c p = .ok p := by
    intro c
    rw [CoherenceProbe.secureProbe, hsuspension, hget]
    rfl
  simp only [CoherenceProbe.activeProbe, hsecure] at h
  split at h
  · split at h
    · cases h
    split at h
    · cases h
    split at h
    · cases h
      rfl
    · cases h
      rfl
  split at h
  · cases h
  · cases h
    rfl

/-- How a probe fails that nothing is final about, once its Pod's connection is known. -/
theorem exists_podOutcome_eq (hfinal : isFinal options p = false) {e : ProbeError}
    (hactive : CoherenceProbe.activeProbe op options p pod = .ok active)
    (h : (exec (runProbe env svc pod active) []).1 = .error e) : ∃ text, e = .other text := by
  obtain rfl := activeProbe_eq hfinal hactive
  simp only [isFinal, Bool.or_eq_false_iff, Option.isSome_eq_false_iff, Option.isNone_iff_eq_none] at hfinal
  obtain ⟨r, cs, hr, -, herr⟩ := comes_runProbe env svc pod active
  rw [hr.fst] at h
  exact herr hfinal.1.2 hfinal.2 e h

/-- The outcome of running a probe, in the words of `CoherenceProbe`. -/
theorem fst_exec_runProbe : (exec (runProbe env svc pod p) []).1 = CoherenceProbe.runProbe (actionOutcome env svc) pod p := by
  obtain ⟨r, cs, hr, -⟩ := comes_runProbe env svc pod p
  rw [hr.fst, comes_runProbe_iff hr]

/-- **When the search comes to `true`.** -/
theorem gave_of_executeOnPods
    (h : CoherenceProbe.executeOnPods op (actionOutcome env svc) options p pods = .ok true) :
    Gave env svc op options p pods := by
  induction pods with
  | nil => cases h
  | cons pod pods ih =>
    rw [CoherenceProbe.executeOnPods] at h
    split at h
    · rename_i hphase
      have hrunning : isRunning pod = true := by simpa [isRunning] using hphase
      cases hactive : CoherenceProbe.activeProbe op options p pod with
      | error e =>
        rw [hactive] at h
        cases h
      | ok active =>
        have hpod : podOutcome env svc op options p pod = CoherenceProbe.runProbe (actionOutcome env svc) pod active := by
          rw [podOutcome, hactive, ← fst_exec_runProbe]
          rfl
        simp only [hactive] at h
        cases hrun : CoherenceProbe.runProbe (actionOutcome env svc) pod active with
        | ok ha =>
          rw [hrun] at h hpod
          cases h
          exact Gave.head hrunning hpod
        | error e =>
          simp only [hrun] at h
          cases hfinal : isFinal options p with
          | true =>
            rw [isFinal] at hfinal
            rw [if_pos hfinal] at h
            cases h
          | false =>
            obtain ⟨text, rfl⟩ := exists_podOutcome_eq hfinal hactive (fst_exec_runProbe.trans hrun)
            rw [hrun] at hpod
            simp only [isFinal, Bool.or_eq_false_iff, Option.isSome_eq_false_iff, Option.isNone_iff_eq_none] at hfinal
            rw [if_neg (by simp [hfinal.1.1, hfinal.1.2, hfinal.2])] at h
            exact Gave.tail (fun _ => ⟨hfinal.1.2, hfinal.2, text, hpod⟩) (ih h)
    · rename_i hphase
      refine Gave.tail (fun hrunning => absurd ?_ hphase) (ih h)
      simpa [isRunning] using hrunning

/-- **What is final**: the first Pod that is running decides. -/
theorem executeOnPods_of_isFinal (hfinal : isFinal options p = true) (hfind : pods.find? isRunning = some pod) :
    CoherenceProbe.executeOnPods op (actionOutcome env svc) options p pods = podOutcome env svc op options p pod := by
  induction pods with
  | nil => cases hfind
  | cons first pods ih =>
    rw [CoherenceProbe.executeOnPods]
    cases hrunning : isRunning first with
    | true =>
      rw [List.find?_cons_of_pos hrunning] at hfind
      cases hfind
      rw [if_pos (by simpa [isRunning] using hrunning), podOutcome]
      cases CoherenceProbe.activeProbe op options p pod with
      | error e => rfl
      | ok active =>
        show _ = (exec (runProbe env svc pod active) []).1
        rw [fst_exec_runProbe]
        rw [isFinal] at hfinal
        simp only [hfinal, if_true]
        cases CoherenceProbe.runProbe (actionOutcome env svc) pod active with
        | error e => rfl
        | ok ha => rfl
    | false =>
      rw [List.find?_cons_of_neg (by simp [hrunning])] at hfind
      rw [if_neg (by simpa [isRunning] using hrunning)]
      exact ih hfind

end

/-- The execution of a probe, from its start: what it comes to, and the contacts it made. -/
def execution (env : ProbeEnv) (svc : String) (op : Operator) (sts : StatefulSet) (p : Probe) (stsPods pods : List Pod)
    (options : ProbeExecutionOptions) : Except ProbeError Bool × List Contact :=
  exec (executeProbeForPods env svc op sts p stsPods pods options) []

/-- It comes to `true` only without Pods, or with all of them up and one that gave `true`. -/
def TrueOnlyIf (env : ProbeEnv) (svc : String) (op : Operator) (sts : StatefulSet) (p : Probe) (stsPods pods : List Pod)
    (options : ProbeExecutionOptions) : Prop :=
  (execution env svc op sts p stsPods pods options).1 = .ok true →
    stsPods = [] ∨ sts.IsUp stsPods ∧ Gave env svc op options p pods

/-- One Pod at most is contacted, and if that fails, so does the execution. -/
def FailsForGood (env : ProbeEnv) (svc : String) (op : Operator) (sts : StatefulSet) (p : Probe) (stsPods pods : List Pod)
    (options : ProbeExecutionOptions) : Prop :=
  let (r, contacts) := execution env svc op sts p stsPods pods options
  contacts.length ≤ 1 ∧ ∀ c ∈ contacts, ∀ e, podOutcome env svc op options p c.pod = .error e → r = .error e

section

variable {env : ProbeEnv} {svc : String} {op : Operator} {options : ProbeExecutionOptions} {p : Probe}
  {sts : StatefulSet} {stsPods pods : List Pod}

/-- The search is made where it may be. -/
theorem executeProbeForPods_eq (action : Pod → Probe → Except ProbeError Bool) (h : MayExecute sts p stsPods options) :
    CoherenceProbe.executeProbeForPods op action sts p stsPods pods options =
      CoherenceProbe.executeOnPods op action options p pods := by
  obtain ⟨hvalid, hready, hne, hcount⟩ := h
  have hvalid' : (options.suspension && !p.validateAction.isOk) = false := by
    cases hs : options.suspension with
    | true => simp [hvalid hs]
    | false => rfl
  have hfind : stsPods.find? (fun pod => !pod.isReady.1) = none := by simpa using hready
  have hlength : stsPods.length ≠ 0 := fun h => hne (List.length_eq_zero_iff.1 h)
  rw [CoherenceProbe.executeProbeForPods, hvalid', hfind]
  simp [hlength, hcount]

/-- What comes to a result with Pods there was executed on them. -/
theorem mayExecute_of_eq_ok {action : Pod → Probe → Except ProbeError Bool} {ha : Bool} (hne : stsPods ≠ [])
    (h : CoherenceProbe.executeProbeForPods op action sts p stsPods pods options = .ok ha) :
    MayExecute sts p stsPods options := by
  rw [CoherenceProbe.executeProbeForPods] at h
  split at h
  · cases h
  rename_i hvalid
  split at h
  · cases h
  rename_i hready
  split at h
  · rename_i hlength
    exact absurd (List.length_eq_zero_iff.1 hlength) hne
  split at h
  · cases h
  rename_i hcount
  refine ⟨?_, ?_, hne, not_not.1 hcount⟩
  · intro hs
    simpa [hs] using hvalid
  · simpa using hready

/-- **When an execution comes to `true`.** -/
theorem trueOnlyIf : TrueOnlyIf env svc op sts p stsPods pods options := by
  intro h
  obtain ⟨cs, hcs, -⟩ := comes_executeProbeForPods env svc op p options pods stsPods sts
  rw [execution, hcs.fst] at h
  by_cases hne : stsPods = []
  · exact .inl hne
  right
  have hmay := mayExecute_of_eq_ok hne h
  rw [executeProbeForPods_eq _ hmay] at h
  obtain ⟨-, hready, -, hcount⟩ := hmay
  exact ⟨⟨fun pod hpod => Pod.isReady_iff.1 (hready pod hpod), hcount⟩, gave_of_executeOnPods h⟩

/-- **What is final**: a failure of the only Pod that is contacted. -/
theorem failsForGood (hfinal : isFinal options p = true) : FailsForGood env svc op sts p stsPods pods options := by
  obtain ⟨cs, hcs, -, hone, hidle⟩ := comes_executeProbeForPods env svc op p options pods stsPods sts
  have hrun := hcs []
  rw [List.append_nil] at hrun
  rw [FailsForGood, execution, hrun]
  constructor
  · cases cs with
    | nil => exact Nat.zero_le 1
    | cons c rest =>
      rw [(hone hfinal c List.mem_cons_self).1]
      exact le_rfl
  · intro c hc e he
    have hmay : MayExecute sts p stsPods options := by
      by_contra hnot
      rw [hidle hnot] at hc
      cases hc
    rw [executeProbeForPods_eq _ hmay, executeOnPods_of_isFinal hfinal (hone hfinal c hc).2, he]

/-- **The law of probe execution.** -/
theorem execution_law (env : ProbeEnv) (svc : String) (op : Operator) (sts : StatefulSet) (p : Probe)
    (stsPods pods : List Pod) (options : ProbeExecutionOptions) :
    TrueOnlyIf env svc op sts p stsPods pods options ∧
      (isFinal options p = true → FailsForGood env svc op sts p stsPods pods options) ∧
      (¬ sts.IsUp stsPods ∨ options.suspension = true ∧ p.validateAction.isOk = false →
        (execution env svc op sts p stsPods pods options).2 = []) := by
  refine ⟨trueOnlyIf, failsForGood, fun h => ?_⟩
  obtain ⟨cs, hcs, -, -, hidle⟩ := comes_executeProbeForPods env svc op p options pods stsPods sts
  rw [execution, hcs, List.append_nil]
  refine hidle fun hmay => ?_
  obtain ⟨hvalid, hready, -, hcount⟩ := hmay
  rcases h with hdown | ⟨hs, hinvalid⟩
  · exact hdown ⟨fun pod hpod => Pod.isReady_iff.1 (hready pod hpod), hcount⟩
  · rw [hvalid hs] at hinvalid
    cases hinvalid

end

end ProbeActions

end CoherenceOperator
