import CoherenceOperator.Controllers.ProbeActions

/-!
# What comes of running a probe

A program that runs the action of a probe comes to the same, by the same contacts, whatever contacts there were before
(`Comes`). For one Pod there is at most one contact, which is said by `Ran`; `executeProbeForPods` comes to what
`CoherenceProbe.executeProbeForPods` says.
-/

namespace CoherenceOperator

open Effect Prog

namespace ProbeActions

/-! ### Outcomes and contacts -/

/-- The program comes to `r`, and makes the contacts `cs`, the last one first. -/
def Comes {α : Type} (x : ProbeOp α) (r : Except ProbeError α) (cs : List Contact) : Prop :=
  ∀ s, exec x s = (r, cs ++ s)

namespace Comes

variable {α β : Type} {x : ProbeOp α} {f : α → ProbeOp β} {r : Except ProbeError β} {cs ds : List Contact}

theorem pure (a : α) : Comes (Pure.pure a : ProbeOp α) (.ok a) [] := fun _ => rfl

theorem throw (e : ProbeError) : Comes (MonadExcept.throw e : ProbeOp α) (.error e) [] := fun _ => rfl

theorem outcome (r : Except ProbeError α) : Comes (Prog.outcome r : ProbeOp α) r [] := fun _ => rfl

theorem perform (c : Contact) : Comes (Effect.perform c : ProbeOp Unit) (.ok ()) [c] := fun _ => rfl

/-- All contacts are made before. -/
theorem bind_idle {a : α} (hx : Comes x (.ok a) cs) (hf : Comes (f a) r []) : Comes (x >>= f) r cs := by
  intro s
  rw [exec_bind_ok (hx s), hf, List.nil_append]

theorem bind_error {e : ProbeError} (hx : Comes x (.error e) cs) : Comes (x >>= f) (.error e) cs := fun s =>
  exec_bind_error (hx s)

/-- After an outcome. -/
theorem bind_outcome {a : α} {q : Except ProbeError α} (hq : q = .ok a) (hf : Comes (f a) r ds) :
    Comes (Prog.outcome q >>= f) r ds := by
  intro s
  rw [hq, exec_bind_ok (exec_outcome _ _), hf]

/-- After the only contact. -/
theorem bind_perform {c : Contact} {g : Unit → ProbeOp β} (hg : Comes (g ()) r []) :
    Comes (Effect.perform c >>= g) r [c] := (Comes.perform c).bind_idle hg

theorem observe {q : Except ProbeError α} (hx : Comes x q cs) : Comes (Prog.observe x) (.ok q) cs := by
  intro s
  rw [exec_observe, hx s]

theorem fst {q : Except ProbeError α} (hx : Comes x q cs) (s : List Contact) : (exec x s).1 = q := by rw [hx s]

end Comes

/-! ### One Pod -/

section

variable {env : ProbeEnv} {svc : String} {op : Operator} {pod : Pod} {p : Probe}

/-- Another contact with the Pod than the request of an HTTP action. -/
def IsOther (pod : Pod) (c : Contact) : Prop := c.pod = pod ∧ ∀ other a req, c ≠ .http other a req

/-- How a probe is run on a Pod: without a contact, with a request that was built of its HTTP action, or with another contact if
it has none. -/
inductive Ran (env : ProbeEnv) (svc : String) (pod : Pod) (p : Probe) : Except ProbeError Bool → List Contact → Prop
  | idle {r} : (p.http.isSome → ∃ e, r = .error e) → Ran env svc pod p r []
  | http {a req r} : p.http = some a → buildRequest env svc pod p a = .ok req → Ran env svc pod p r [.http pod a req]
  | other {c r} : p.http = none → IsOther pod c → Ran env svc pod p r [c]

variable (env pod) in
/-- The last response is used, also if it redirects: there is one request. -/
theorem comes_doRequest (a : HTTPAction) (n : ℕ) (req : HTTPRequest) :
    Comes (doRequest env pod a .useLastResponse (n + 1) req)
      ((env.respond req).mapError fun _ => .request "transport or TLS") [.http pod a req] := by
  unfold doRequest
  cases env.respond req with
  | error e => exact Comes.bind_perform (Comes.throw _)
  | ok res =>
    rw [Except.mapError]
    cases hnext : env.redirect req res with
    | none => exact Comes.bind_perform (by simpa only [hnext] using Comes.pure res)
    | some next => exact Comes.bind_perform (by simpa only [hnext] using Comes.pure res)

variable (env svc pod p) in
/-- **The HTTP action**: one request, if it can be built. -/
theorem comes_probeUsingHTTPAction (a : HTTPAction) :
    (∃ e, buildRequest env svc pod p a = .error e ∧ Comes (probeUsingHTTPAction env svc pod p a) (.error e) []) ∨
      ∃ req r, buildRequest env svc pod p a = .ok req ∧
        Comes (probeUsingHTTPAction env svc pod p a) r [.http pod a req] := by
  unfold probeUsingHTTPAction
  cases hreq : buildRequest env svc pod p a with
  | error e => exact .inl ⟨e, rfl, (Comes.outcome _).bind_error⟩
  | ok req =>
    have hr := comes_doRequest env pod a 9 req
    generalize (env.respond req).mapError _ = r at hr
    cases r with
    | error e => exact .inr ⟨req, _, rfl, Comes.bind_outcome rfl hr.bind_error⟩
    | ok res =>
      have hlast : ∃ r, Comes (if res.statusCode ≠ 200 then throw (.request "rejected response" res.statusCode)
          else if !res.readable then throw (.request "uncertain response") else return true : ProbeOp Bool) r [] := by
        split
        · exact ⟨_, Comes.throw _⟩
        split
        · exact ⟨_, Comes.throw _⟩
        · exact ⟨_, Comes.pure _⟩
      obtain ⟨r, hlast⟩ := hlast
      exact .inr ⟨req, r, rfl, Comes.bind_outcome rfl (hr.bind_idle hlast)⟩

variable (env pod) in
/-- A command is a contact; it fails with an error of its own. -/
theorem comes_probeUsingExec (command : List String) :
    ∃ r, Comes (probeUsingExec env pod command) r [.exec pod command] ∧ ∀ e, r = .error e → ∃ text, e = .other text := by
  unfold probeUsingExec
  cases env.podExec pod command with
  | error e =>
    refine ⟨_, Comes.bind_perform (Comes.throw _), ?_⟩
    rintro _ ⟨⟩
    exact ⟨e, rfl⟩
  | ok exitCode => exact ⟨_, Comes.bind_perform (Comes.pure _), by rintro _ ⟨⟩⟩

variable (env svc pod) in
/-- A probe as Kubernetes has it. -/
theorem comes_probeUsingHTTP (a : HTTPGetAction) :
    ∃ r cs, Comes (probeUsingHTTP env svc pod a) r cs ∧ (cs = [] ∨ ∃ c : Contact, cs = [c] ∧ IsOther pod c) := by
  unfold probeUsingHTTP
  cases httpGetURL env pod a with
  | error e => exact ⟨_, [], (Comes.outcome _).bind_error, .inl rfl⟩
  | ok url => exact ⟨_, _, Comes.bind_outcome rfl (Comes.bind_perform (Comes.outcome _)), .inr ⟨_, rfl, rfl, by simp⟩⟩

/-- A failure with an error of its own. -/
theorem exists_eq_other {α : Type} {x : Except String α} {e : ProbeError} (h : x.mapError ProbeError.other = .error e) :
    ∃ text, e = .other text := by
  cases x with
  | error text =>
    cases h
    exact ⟨text, rfl⟩
  | ok _ => cases h

variable (env pod) in
/-- A connection; it fails with an error of its own. -/
theorem comes_probeUsingTCP (a : TCPSocketAction) :
    ∃ r cs, Comes (probeUsingTCP env pod a) r cs ∧ (cs = [] ∨ ∃ c : Contact, cs = [c] ∧ IsOther pod c) ∧
      ∀ e, r = .error e → ∃ text, e = .other text := by
  unfold probeUsingTCP
  cases haddress : (tcpAddress env pod a).mapError ProbeError.other with
  | error e =>
    refine ⟨_, [], (Comes.outcome _).bind_error, .inl rfl, ?_⟩
    rintro _ ⟨⟩
    exact exists_eq_other haddress
  | ok address =>
    refine ⟨_, _, Comes.bind_outcome rfl (Comes.bind_perform (Comes.outcome _)), .inr ⟨_, rfl, rfl, by simp⟩, ?_⟩
    exact fun e he => exists_eq_other he

variable (env svc pod p) in
/-- How an action is run, and how it fails if it is not one over HTTP. -/
theorem comes_runAction : ∃ r cs, Comes (runAction env svc pod p) r cs ∧ Ran env svc pod p r cs ∧
    (p.http = none → p.httpGet = none → ∀ e, r = .error e → ∃ text, e = .other text) := by
  unfold runAction
  cases hhttp : p.http with
  | some a =>
    rcases comes_probeUsingHTTPAction env svc pod p a with
      ⟨e, -, h⟩ | ⟨req, r, hreq, h⟩
    · exact ⟨_, _, h, .idle fun _ => ⟨e, rfl⟩, nofun⟩
    · exact ⟨_, _, h, .http hhttp hreq, nofun⟩
  | none =>
    have hone : ∀ {r cs}, (cs = [] ∨ ∃ c : Contact, cs = [c] ∧ IsOther pod c) → Ran env svc pod p r cs := by
      rintro r _ (rfl | ⟨c, rfl, hc⟩)
      · exact .idle (by simp [hhttp])
      · exact .other hhttp hc
    cases p.exec with
    | some command =>
      obtain ⟨r, h, herr⟩ := comes_probeUsingExec env pod command
      exact ⟨_, _, h, hone (.inr ⟨_, rfl, rfl, by simp⟩), fun _ _ => herr⟩
    | none =>
      cases p.httpGet with
      | some a =>
        obtain ⟨r, cs, h, hcs⟩ := comes_probeUsingHTTP env svc pod a
        exact ⟨_, _, h, hone hcs, fun _ => nofun⟩
      | none =>
        cases p.tcpSocket with
        | some a =>
          obtain ⟨r, cs, h, hcs, herr⟩ := comes_probeUsingTCP env pod a
          exact ⟨_, _, h, hone hcs, fun _ _ => herr⟩
        | none => exact ⟨_, _, Comes.pure _, hone (.inl rfl), by rintro - - _ ⟨⟩⟩

variable (env svc pod p) in
/-- **Running a probe** on a Pod, and how it fails if it has no action over HTTP. -/
theorem comes_runProbe : ∃ r cs, Comes (runProbe env svc pod p) r cs ∧ Ran env svc pod p r cs ∧
    (p.http = none → p.httpGet = none → ∀ e, r = .error e → ∃ text, e = .other text) := by
  unfold runProbe
  cases hvalid : p.validateAction with
  | error e =>
    refine ⟨_, [], Comes.throw _, .idle fun _ => ⟨_, rfl⟩, fun hhttp => ?_⟩
    rw [Probe.validateAction, hhttp] at hvalid
    cases hvalid
  | ok _ =>
    cases hnoop : p.legacyNoOpReason.isSome with
    | true =>
      refine ⟨.ok true, [], Comes.pure _, .idle fun hhttp => ?_, by rintro - - _ ⟨⟩⟩
      simp [Probe.legacyNoOpReason, hhttp] at hnoop
    | false => exact comes_runAction env svc pod p

/-! ### The probe for a Pod -/

/-- What the Pod's annotation says of its connection. -/
def connectionText (pod : Pod) : String := (pod.annotations.lookup HealthMutatorAnnotation).getD ""

/-- Does a container of the Pod have the variable of the connection? -/
def carriesConnection (pod : Pod) : Bool := pod.containers.any fun c => c.env.any fun e => e.name = HealthMutatorEnv

/-- **The probe for a Pod**: as it is, if the Pod has neither of the two, or as a valid connection has it. -/
theorem activeProbe_eq_ok {options : ProbeExecutionOptions} {active : Probe}
    (h : CoherenceProbe.activeProbe op options p pod = .ok active) :
    connectionText pod = "" ∧ carriesConnection pod = false ∧ active = p ∨
      connectionText pod ≠ "" ∧ ∃ c, op.parseConnection (connectionText pod) = some c ∧ c.validate = .ok () ∧
        (c.secure = false ∧ active = p ∨ c.secure = true ∧ CoherenceProbe.secureProbe options c p = .ok active) := by
  rw [CoherenceProbe.activeProbe, ← connectionText, ← carriesConnection] at h
  split at h
  · rename_i hraw
    refine .inr ⟨hraw, ?_⟩
    split at h
    · cases h
    rename_i c hparse
    split at h
    · cases h
    rename_i hvalid
    refine ⟨c, hparse, hvalid, ?_⟩
    split at h
    · rename_i hsecure
      exact .inr ⟨hsecure, h⟩
    · rename_i hsecure
      cases h
      exact .inl ⟨by simpa using hsecure, rfl⟩
  · rename_i hraw
    split at h
    · cases h
    rename_i hcarries
    cases h
    exact .inl ⟨not_not.1 hraw, by simpa using hcarries, rfl⟩

/-- The suspend action of a secured member goes over TLS, with the credentials of its connection. -/
theorem secureSuspend_eq_ok {c : HealthMutatorConnection} {active : Probe}
    (h : CoherenceProbe.secureSuspend c p = .ok active) : ∃ a, p.http = some a ∧ a.path = "/suspend" ∧
      active = { p with http := some { a with scheme := "HTTPS", basicAuth := c.basicAuth, tls := c.tls } } := by
  rw [CoherenceProbe.secureSuspend] at h
  split at h
  · rename_i a ha
    split at h
    · rename_i hpath
      cases h
      exact ⟨a, ha, hpath, rfl⟩
    · cases h
  · cases h

/-! ### The Pods of a StatefulSet -/

variable {options : ProbeExecutionOptions} {pods stsPods : List Pod} {sts : StatefulSet}

/-- What the action of a probe comes to on a Pod. -/
def actionOutcome (env : ProbeEnv) (svc : String) (pod : Pod) (p : Probe) : Except ProbeError Bool :=
  (exec (runAction env svc pod p) []).1

/-- What running a probe comes to. -/
theorem comes_runProbe_iff {r : Except ProbeError Bool} {cs : List Contact} (h : Comes (runProbe env svc pod p) r cs) :
    r = CoherenceProbe.runProbe (actionOutcome env svc) pod p := by
  have hfst := h.fst []
  rw [runProbe] at hfst
  rw [CoherenceProbe.runProbe, ← hfst]
  cases p.validateAction with
  | error e => rw [exec_throw]
  | ok _ =>
    simp only [exec_ite]
    split
    · rw [exec_pure]
    · rw [actionOutcome]

/-- Is what comes of the first Pod final? -/
def isFinal (options : ProbeExecutionOptions) (p : Probe) : Bool := options.suspension || p.http.isSome || p.httpGet.isSome

def isRunning (pod : Pod) : Bool := pod.phase = "Running"

/-- How a contact comes about: a probe is run on a Pod that is running, as the Pod's connection has it. -/
def Made (env : ProbeEnv) (svc : String) (op : Operator) (options : ProbeExecutionOptions) (p : Probe) (pods : List Pod)
    (c : Contact) : Prop :=
  ∃ pod ∈ pods, isRunning pod ∧ ∃ active r cs, CoherenceProbe.activeProbe op options p pod = .ok active ∧
    Ran env svc pod active r cs ∧ c ∈ cs

theorem Made.mono {pods' : List Pod} {c : Contact} (h : Made env svc op options p pods c) (hsub : ∀ x ∈ pods, x ∈ pods') :
    Made env svc op options p pods' c := by
  obtain ⟨pod, hpod, h⟩ := h
  exact ⟨pod, hsub pod hpod, h⟩

theorem Ran.pod_eq {r : Except ProbeError Bool} {cs : List Contact} {c : Contact} (h : Ran env svc pod p r cs) (hc : c ∈ cs) :
    cs = [c] ∧ c.pod = pod := by
  cases h with
  | idle => cases hc
  | http _ _ =>
    obtain rfl := List.mem_singleton.1 hc
    exact ⟨rfl, rfl⟩
  | other _ hother =>
    obtain rfl := List.mem_singleton.1 hc
    exact ⟨rfl, hother.1⟩

variable (env svc op p options pods) in
/-- **One Pod after the other**: what it comes to, how contacts come about, and that there is one at most if the first is
final. -/
theorem comes_executeOnPods : ∃ cs,
    Comes (executeOnPods env svc op options p pods)
      (CoherenceProbe.executeOnPods op (actionOutcome env svc) options p pods) cs ∧
      (∀ c ∈ cs, Made env svc op options p pods c) ∧
      (isFinal options p = true → ∀ c ∈ cs, cs = [c] ∧ pods.find? isRunning = some c.pod) := by
  induction pods with
  | nil =>
    rw [executeOnPods, CoherenceProbe.executeOnPods]
    exact ⟨[], Comes.throw _, fun _ hc => absurd hc List.not_mem_nil, fun _ _ hc => absurd hc List.not_mem_nil⟩
  | cons pod pods ih =>
    by_cases hrunning : pod.phase = "Running"
    · have hfind : (pod :: pods).find? isRunning = some pod := by simp [isRunning, hrunning]
      rw [executeOnPods, CoherenceProbe.executeOnPods, if_pos hrunning, if_pos hrunning]
      cases hactive : CoherenceProbe.activeProbe op options p pod with
      | error e =>
        exact ⟨[], (Comes.outcome _).bind_error, fun _ hc => absurd hc List.not_mem_nil,
          fun _ _ hc => absurd hc List.not_mem_nil⟩
      | ok active =>
        obtain ⟨r, cs, hr, hran, -⟩ := comes_runProbe env svc pod active
        have hmade : ∀ c ∈ cs, Made env svc op options p (pod :: pods) c := fun c hc =>
          ⟨pod, List.mem_cons_self, by simp [isRunning, hrunning], active, r, cs, hactive, hran, hc⟩
        have hone : ∀ c ∈ cs, cs = [c] ∧ (pod :: pods).find? isRunning = some c.pod := by
          intro c hc
          obtain ⟨hcs, hpod⟩ := hran.pod_eq hc
          rw [hfind, hpod]
          exact ⟨hcs, rfl⟩
        have hrun := comes_runProbe_iff hr
        subst hrun
        simp only
        cases hres : CoherenceProbe.runProbe (actionOutcome env svc) pod active with
        | ok ha =>
          rw [hres] at hr
          exact ⟨cs, Comes.bind_outcome rfl (hr.observe.bind_idle (Comes.pure ha)), hmade, fun _ => hone⟩
        | error e =>
          rw [hres] at hr
          cases hfinal : isFinal options p with
          | true =>
            rw [isFinal] at hfinal
            simp only [hfinal, if_true]
            exact ⟨cs, Comes.bind_outcome rfl (hr.observe.bind_idle (Comes.throw e)), hmade, fun _ => hone⟩
          | false =>
            obtain ⟨ds, hds, hmade', -⟩ := ih
            rw [isFinal] at hfinal
            simp only [hfinal, Bool.false_eq_true, if_false]
            refine ⟨ds ++ cs, Comes.bind_outcome rfl ?_, ?_, fun hf => absurd hf (by simp)⟩
            · intro s
              rw [exec_bind_ok (hr.observe s)]
              simp only
              rw [hds, List.append_assoc]
            · intro c hc
              rcases List.mem_append.1 hc with hc | hc
              · exact (hmade' c hc).mono fun x hx => List.mem_cons_of_mem _ hx
              · exact hmade c hc
    · obtain ⟨cs, hcs, hmade, hone⟩ := ih
      rw [executeOnPods, CoherenceProbe.executeOnPods, if_neg hrunning, if_neg hrunning]
      have hfind : (pod :: pods).find? isRunning = pods.find? isRunning := by simp [isRunning, hrunning]
      rw [hfind]
      exact ⟨cs, hcs, fun c hc => (hmade c hc).mono fun x hx => List.mem_cons_of_mem _ hx, hone⟩

/-- What keeps a probe from being executed, or makes it unnecessary: an action that cannot be used for a suspension, a Pod that is
not ready, no Pods, or another number of them than there should be. -/
def MayExecute (sts : StatefulSet) (p : Probe) (stsPods : List Pod) (options : ProbeExecutionOptions) : Prop :=
  (options.suspension = true → p.validateAction.isOk = true) ∧ (∀ pod ∈ stsPods, pod.isReady.1 = true) ∧ stsPods ≠ [] ∧
    (stsPods.length : ℤ) = sts.spec.replicas.getD 1

/-- What is said of the contacts of an execution. -/
def Contacts (env : ProbeEnv) (svc : String) (op : Operator) (sts : StatefulSet) (p : Probe) (stsPods pods : List Pod)
    (options : ProbeExecutionOptions) (cs : List Contact) : Prop :=
  (∀ c ∈ cs, Made env svc op options p pods c) ∧
    (isFinal options p = true → ∀ c ∈ cs, cs = [c] ∧ pods.find? isRunning = some c.pod) ∧
    (¬ MayExecute sts p stsPods options → cs = [])

theorem Contacts.nil : Contacts env svc op sts p stsPods pods options [] :=
  ⟨fun _ hc => absurd hc List.not_mem_nil, fun _ _ hc => absurd hc List.not_mem_nil, fun _ => rfl⟩

variable (env svc op p options pods stsPods sts) in
/-- **The execution of a probe**: what it comes to, and that there are no contacts unless it may be executed. -/
theorem comes_executeProbeForPods : ∃ cs,
    Comes (executeProbeForPods env svc op sts p stsPods pods options)
      (CoherenceProbe.executeProbeForPods op (actionOutcome env svc) sts p stsPods pods options) cs ∧
      Contacts env svc op sts p stsPods pods options cs := by
  rw [executeProbeForPods, CoherenceProbe.executeProbeForPods]
  cases hvalid : options.suspension && !p.validateAction.isOk with
  | true => exact ⟨[], Comes.throw _, Contacts.nil⟩
  | false =>
    simp only [Bool.false_eq_true, if_false]
    cases hready : stsPods.find? fun pod => !pod.isReady.1 with
    | some pod => exact ⟨[], Comes.throw _, Contacts.nil⟩
    | none =>
      simp only
      split
      · exact ⟨[], Comes.pure _, Contacts.nil⟩
      rename_i hne
      split
      · exact ⟨[], Comes.throw _, Contacts.nil⟩
      rename_i hcount
      obtain ⟨cs, hcs, hmade, hone⟩ := comes_executeOnPods env svc op p options pods
      refine ⟨cs, hcs, hmade, hone, fun hnot => absurd ⟨?_, ?_, ?_, ?_⟩ hnot⟩
      · intro hsuspension
        simpa [hsuspension] using hvalid
      · simpa using hready
      · intro h
        exact hne (by rw [h, List.length_nil])
      · exact not_not.1 hcount

/-- A final search is one on the first Pod that is running. -/
theorem exec_executeOnPods (hfinal : isFinal options p = true) (s : List Contact) :
    exec (executeOnPods env svc op options p pods) s =
      match pods.find? isRunning with
      | none => (.error .probeUnavailable, s)
      | some pod => exec (outcome (CoherenceProbe.activeProbe op options p pod) >>= runProbe env svc pod) s := by
  induction pods with
  | nil => rfl
  | cons first pods ih =>
    rw [executeOnPods]
    cases hrunning : isRunning first with
    | true =>
      rw [List.find?_cons_of_pos hrunning, if_pos (by simpa [isRunning] using hrunning)]
      simp only
      cases CoherenceProbe.activeProbe op options p first with
      | error e => rw [exec_bind_error (exec_outcome _ _), exec_bind_error (exec_outcome _ _)]
      | ok active =>
        rw [exec_bind_ok (exec_outcome _ _), exec_bind_ok (exec_observe _ _), exec_bind_ok (exec_outcome _ _)]
        rw [isFinal] at hfinal
        simp only [hfinal, if_true]
        generalize exec (runProbe env svc first active) s = run
        obtain ⟨r, u⟩ := run
        cases r with
        | error e => rfl
        | ok ha => rfl
    | false =>
      rw [List.find?_cons_of_neg (by simp [hrunning]), if_neg (by simpa [isRunning] using hrunning)]
      exact ih

/-- The probe is executed on the Pods where it may be. -/
theorem executeProbeForPods_eq_executeOnPods (h : MayExecute sts p stsPods options) :
    executeProbeForPods env svc op sts p stsPods pods options = executeOnPods env svc op options p pods := by
  obtain ⟨hvalid, hready, hne, hcount⟩ := h
  have hvalid' : (options.suspension && !p.validateAction.isOk) = false := by
    cases hs : options.suspension with
    | true => simp [hvalid hs]
    | false => rfl
  have hfind : stsPods.find? (fun pod => !pod.isReady.1) = none := by simpa using hready
  have hlength : stsPods.length ≠ 0 := fun h => hne (List.length_eq_zero_iff.1 h)
  rw [executeProbeForPods, hvalid', hfind]
  simp [hlength, hcount]

variable (env svc op pods) in
/-- It fails on Pods where it may not. -/
theorem exists_executeProbeForPods_eq_throw (hne : stsPods ≠ []) (h : ¬ MayExecute sts p stsPods options) :
    ∃ e, executeProbeForPods env svc op sts p stsPods pods options = throw e := by
  rw [executeProbeForPods]
  split
  · exact ⟨_, rfl⟩
  rename_i hvalid
  split
  · exact ⟨_, rfl⟩
  rename_i hready
  split
  · rename_i hlength
    exact absurd (List.length_eq_zero_iff.1 hlength) hne
  split
  · exact ⟨_, rfl⟩
  rename_i hcount
  refine absurd ⟨?_, ?_, hne, not_not.1 hcount⟩ h
  · intro hs
    simpa [hs] using hvalid
  · simpa using hready

end

end ProbeActions

end CoherenceOperator
