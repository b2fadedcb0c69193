import CoherenceOperator.Members.Resume
import CoherenceOperator.Properties.ResumeMap
import CoherenceOperator.Runner.Forwarding

/-!
# Suspended services are resumed as the resource says

A resource says whether its members resume services that are suspended when they start, and for which services it is otherwise. The one
goes through a variable to the runner, which makes an option of it, and the other is encoded before; a member decides by the two
properties, on each event of its services. In whatever order the events come, it resumes a service exactly if there is reason to, and
the resource says so (`resumed_iff`).
-/

namespace CoherenceOperator

open Effect Prog ArgumentFile JavaCommand

/-! ### What the members do -/

/-- Does the operator look after the service? -/
def ResumableService.IsLookedAfter (service : ResumableService) : Prop :=
  service.isDistributed = true ∧ service.isLocalStorageEnabled = true

/-- May the service be resumed? -/
def ResumableService.IsResumable (service : ResumableService) : Prop := service.isPartitionedCache = true ∧ service.isSuspended = true

/-- Was the service not running when it was introduced? -/
def IsAwaited (events : List LifecycleEvent) (name : String) : Prop :=
  ∃ service, .introduced (some service) ∈ events ∧ service.name = name ∧ service.IsLookedAfter ∧ service.isRunning = false

/-- Is there reason to resume the service on an event, given those before? It is suspended, and it is running when it is introduced,
or it has started since. -/
def CallsFor (events : List LifecycleEvent) (name : String) : LifecycleEvent → Prop
  | .introduced none => False
  | .introduced (some service) =>
    service.name = name ∧ service.IsLookedAfter ∧ service.isRunning = true ∧ service.IsResumable
  | .started service => service.name = name ∧ service.IsResumable ∧ IsAwaited events name

namespace ResumeConfig

variable {config : ResumeConfig} {listening : Listening} {events : List LifecycleEvent} {event : LifecycleEvent}
  {service : ResumableService} {name : String}

/-- Is the service one that is resumed? -/
def resumes (config : ResumeConfig) (name : String) : Bool :=
  config.canResume && (config.serviceResumeMap.map fun map => (map.lookup name).getD config.defaultResumeService).getD true

theorem ensureResumed_eq_some (hcan : config.canResume = true) : config.ensureResumed service = some name ↔
    service.name = name ∧ service.IsResumable ∧ config.resumes name = true := by
  rw [ensureResumed, resumes, hcan, ResumableService.IsResumable, Bool.true_and]
  by_cases hservice : (service.isPartitionedCache && service.isSuspended) = true
  · rw [if_pos hservice]
    rw [Bool.and_eq_true] at hservice
    cases config.serviceResumeMap with
    | none => simp [hservice]
    | some map =>
      dsimp only
      constructor
      · intro h
        split at h
        · rename_i hresume
          cases h
          exact ⟨rfl, hservice, hresume⟩
        · cases h
      · rintro ⟨rfl, -, hresume⟩
        exact if_pos hresume
  · rw [if_neg hservice]
    rw [Bool.and_eq_true] at hservice
    constructor
    · intro h
      cases h
    · rintro ⟨-, h, -⟩
      exact absurd h hservice

/-- **One event**: a service is listened to after it that was before, or that is introduced and not running. -/
theorem mem_step : name ∈ config.step listening event ↔
    name ∈ listening ∨ config.canResume = true ∧ IsAwaited [event] name := by
  have hsame : ∀ service, event = .introduced (some service) → (IsAwaited [event] name ↔
      service.name = name ∧ service.IsLookedAfter ∧ service.isRunning = false) := by
    rintro service rfl
    constructor
    · rintro ⟨t, ht, h⟩
      cases List.mem_singleton.1 ht
      exact h
    · exact fun h => ⟨service, List.mem_singleton_self _, h⟩
  cases event with
  | started service =>
    have hnot : ¬ IsAwaited [.started service] name := by
      rintro ⟨t, ht, -⟩
      cases List.mem_singleton.1 ht
    rw [step, handle]
    simp [hnot]
  | introduced service =>
    cases service with
    | none =>
      have hnot : ¬ IsAwaited [.introduced none] name := by
        rintro ⟨t, ht, -⟩
        cases List.mem_singleton.1 ht
      rw [step, handle, introduceEventDispatcher]
      simp [hnot]
    | some service =>
      rw [hsame service rfl, step, handle, introduceEventDispatcher, ResumableService.IsLookedAfter]
      by_cases hcare : (config.canResume && service.isDistributed && service.isLocalStorageEnabled) = true
      · rw [if_pos hcare]
        simp only [Bool.and_eq_true] at hcare
        obtain ⟨⟨hcan, hdistributed⟩, hstorage⟩ := hcare
        cases hrunning : service.isRunning with
        | true => simp
        | false =>
          simp only [hcan, hdistributed, hstorage, Bool.false_eq_true, if_false, List.mem_cons, and_self, true_and, and_true]
          rw [or_comm, eq_comm]
      · rw [if_neg hcare]
        simp only [Bool.and_eq_true] at hcare
        constructor
        · exact fun h => .inl h
        · rintro (h | ⟨hcan, -, ⟨hdistributed, hstorage⟩, -⟩)
          · exact h
          · exact absurd ⟨⟨hcan, hdistributed⟩, hstorage⟩ hcare

/-- **All events**: the services are listened to that were introduced and not running. -/
theorem mem_foldl_step : name ∈ events.foldl config.step listening ↔
    name ∈ listening ∨ config.canResume = true ∧ IsAwaited events name := by
  induction events generalizing listening with
  | nil => simp [IsAwaited]
  | cons event events ih =>
    have hcons : IsAwaited (event :: events) name ↔ IsAwaited [event] name ∨ IsAwaited events name := by
      constructor
      · rintro ⟨service, hmem, h⟩
        obtain hmem | hmem := List.mem_cons.1 hmem
        · exact .inl ⟨service, List.mem_singleton.2 hmem, h⟩
        · exact .inr ⟨service, hmem, h⟩
      · rintro (⟨service, hmem, h⟩ | ⟨service, hmem, h⟩)
        · exact ⟨service, List.mem_cons.2 (.inl (List.mem_singleton.1 hmem)), h⟩
        · exact ⟨service, List.mem_cons_of_mem _ hmem, h⟩
    rw [List.foldl_cons, ih, mem_step, hcons, and_or_left, or_assoc]

/-- **What is resumed** on an event: what there is reason to, if it is to be resumed. -/
theorem handle_eq_some : (config.handle (events.foldl config.step []) event).1 = some name ↔
    CallsFor events name event ∧ config.resumes name = true := by
  have hcan : config.canResume = false → config.resumes name = false := by
    intro h
    rw [resumes, h, Bool.false_and]
  cases event with
  | started service =>
    rw [handle, CallsFor]
    dsimp only
    by_cases hname : service.name = name
    · subst hname
      cases hconfig : config.canResume with
      | false => simp [serviceStarted, hconfig, hcan hconfig]
      | true =>
        rw [serviceStarted, if_pos hconfig]
        by_cases hlistening : service.name ∈ events.foldl config.step []
        · have hawaited : IsAwaited events service.name := by
            obtain h | ⟨-, h⟩ := mem_foldl_step.1 hlistening
            · cases h
            · exact h
          rw [if_pos hlistening, ensureResumed_eq_some hconfig]
          simp [hawaited]
        · have hawaited : ¬ IsAwaited events service.name := fun h => hlistening (mem_foldl_step.2 (.inr ⟨hconfig, h⟩))
          rw [if_neg hlistening]
          simp [hawaited]
    · constructor
      · intro h
        split at h
        · rw [serviceStarted] at h
          split at h
          · rename_i hconfig
            exact absurd ((ensureResumed_eq_some hconfig).1 h).1 hname
          · cases h
        · cases h
      · rintro ⟨⟨h, -⟩, -⟩
        exact absurd h hname
  | introduced service =>
    cases service with
    | none => simp [handle, introduceEventDispatcher, CallsFor]
    | some service =>
      rw [handle, CallsFor, introduceEventDispatcher, ResumableService.IsLookedAfter]
      cases hconfig : config.canResume with
      | false => simp [hcan hconfig]
      | true =>
        rw [Bool.true_and]
        by_cases hcare : (service.isDistributed && service.isLocalStorageEnabled) = true
        · rw [if_pos hcare]
          rw [Bool.and_eq_true] at hcare
          cases hrunning : service.isRunning with
          | false => simp
          | true =>
            rw [if_pos rfl]
            dsimp only
            rw [ensureResumed_eq_some hconfig]
            simp [hcare, and_assoc]
        · rw [if_neg hcare]
          rw [Bool.and_eq_true] at hcare
          simp [hcare]

/-- What a member makes of the properties that the runner sets. -/
theorem resumes_init (resume : Bool) (services : Option String) : (init (some (toString resume)) services).resumes name =
    ((((ResumeMap.getResumeMap services).getD ∅).lookup name).getD resume) := by
  have hresume : ResumeMap.parseBoolean ((some (toString resume)).getD "true").toList = resume := by
    cases resume <;> decide
  rw [init, hresume, resumes]
  cases ResumeMap.getResumeMap services with
  | none => simp
  | some map =>
    dsimp only
    by_cases hempty : map = ∅
    · simp [hempty]
    · simp [hempty]

end ResumeConfig

/-! ### What the resource says -/

/-- Is the service one that the members resume? It may be named; for the others there is a flag. -/
def CoherenceResource.resumesService (d : CoherenceResource) (name : String) : Bool :=
  ((d.statefulSetSpec.bind (·.autoResumeServices)).bind (·.lookup name)).getD ((d.statefulSetSpec.bind (·.resumeServicesOnStartup)).getD true)

/-- The environment of the runner, given what a resource says of its services. -/
def resumeEnviron (d : CoherenceResource) (order : MapOrder String) (others : String → String) : String → String :=
  environ ["COHERENCE_OPERATOR_ALLOW_RESUME", EnvVarOperatorResumeServices]
    (d.createDefaultEnv ((d.statefulSetSpec.bind (·.autoResumeServices)).map (encodeServices order))) others

section

variable (d : CoherenceResource) (order : MapOrder String) (others : String → String)

attribute [local simp] lookedUp_append lookedUp_cons lookedUp_ite

/-- The other variables have other names. -/
theorem lookedUp_createMemberEnv {name : String} (h : name ∈ ["COHERENCE_OPERATOR_ALLOW_RESUME", EnvVarOperatorResumeServices]) :
    lookedUp name d.createMemberEnv = none := by
  obtain rfl | rfl := List.mem_pair.1 h
  · simp [CoherenceResource.createMemberEnv, CoherenceResource.createCommonEnv]
  · simp [CoherenceResource.createMemberEnv, CoherenceResource.createCommonEnv, EnvVarOperatorResumeServices]

/-- The runner finds the flag. -/
theorem resumeEnviron_flag : resumeEnviron d order others "COHERENCE_OPERATOR_ALLOW_RESUME" =
    ((d.statefulSetSpec.bind (·.resumeServicesOnStartup)).map toString).getD "" := by
  have hmember := lookedUp_createMemberEnv d (List.mem_cons_self (a := "COHERENCE_OPERATOR_ALLOW_RESUME"))
  rw [resumeEnviron, environ_own List.mem_cons_self, CoherenceResource.createDefaultEnv]
  simp [hmember, envOfBool, EnvVarOperatorResumeServices]

/-- The runner finds the services as they were encoded. -/
theorem resumeEnviron_services : resumeEnviron d order others EnvVarOperatorResumeServices =
    ((d.statefulSetSpec.bind (·.autoResumeServices)).map (encodeServices order)).getD "" := by
  have hmember := lookedUp_createMemberEnv d
    (List.mem_cons_of_mem "COHERENCE_OPERATOR_ALLOW_RESUME" (List.mem_singleton_self EnvVarOperatorResumeServices))
  rw [EnvVarOperatorResumeServices] at hmember
  rw [resumeEnviron, environ_own (List.mem_cons_of_mem _ (List.mem_singleton_self _)), CoherenceResource.createDefaultEnv]
  simp [hmember, envOfBool, EnvVarOperatorResumeServices]

end

/-! ### Encoded services in an option -/

/-- A character that is passed on as it is: it begins no reference, and is plain. -/
def isPassedOn (c : Char) : Bool := c ≠ '$' && isPlain c

theorem isPassedOn_digit (n : ℕ) : isPassedOn (Base64.digit n) = true := by
  have halphabet : Base64.alphabet.all isPassedOn = true := by decide +kernel
  rw [Base64.digit, List.getD_eq_getElem?_getD]
  cases h : Base64.alphabet[n]? with
  | none => decide
  | some c => exact List.all_eq_true.1 halphabet c (List.mem_of_getElem? h)

theorem isPassedOn_encode (bs : List UInt8) : ∀ c ∈ Base64.encode bs, isPassedOn c = true := by
  have hpadding : isPassedOn '=' = true := by decide
  induction bs using Base64.encode.induct with
  | case1 => simp [Base64.encode]
  | case2 a => simp [Base64.encode, isPassedOn_digit, hpadding]
  | case3 a b => simp [Base64.encode, isPassedOn_digit, hpadding]
  | case4 a b c bs ih => simpa [Base64.encode, isPassedOn_digit] using ih

theorem isPassedOn_resumeEnviron (d : CoherenceResource) (order : MapOrder String) (others : String → String) :
    ∀ c ∈ (resumeEnviron d order others EnvVarOperatorResumeServices).toList, isPassedOn c = true := by
  rw [resumeEnviron_services]
  cases d.statefulSetSpec.bind (·.autoResumeServices) with
  | none => simp
  | some services =>
    rw [Option.map_some, Option.getD_some, encodeServices, encodeBuffer, String.toList_ofList]
    exact isPassedOn_encode _

/-! ### What the runner makes of it -/

/-- The property with the flag. -/
def canResumeProperty : String := "coherence.operator.can.resume.services"

/-- The property with the services. -/
def resumeProperty : String := "coherence.operator.resume.services"

/-- May services be resumed that are not named? -/
def mayResume (env : String → String) : Bool :=
  env "COHERENCE_OPERATOR_ALLOW_RESUME" = "" || (env "COHERENCE_OPERATOR_ALLOW_RESUME").toLower = "true"

/-- The options for the services that are resumed. -/
def resumeOptions (env : String → String) : List String :=
  RunDetails.systemProperty canResumeProperty (toString (mayResume env)) ::
    (resumeServicesProperty (env EnvVarOperatorResumeServices)).toList.map (RunDetails.systemProperty resumeProperty)

theorem exists_systemProperty {env : String → String} {a : String} (h : a ∈ resumeOptions env) :
    ∃ property value, a = RunDetails.systemProperty property value := by
  obtain h | h := List.mem_cons.1 h
  · exact ⟨_, _, h⟩
  · obtain ⟨value, -, rfl⟩ := List.mem_map.1 h
    exact ⟨_, _, rfl⟩

/-- The options are passed on if the services are. -/
theorem isPassedOn_resumeOptions {env : String → String} (h : ∀ c ∈ (env EnvVarOperatorResumeServices).toList, isPassedOn c = true) :
    ∀ a ∈ resumeOptions env, ∀ c ∈ a.toList, isPassedOn c = true := by
  intro a ha c hc
  obtain rfl | ha := List.mem_cons.1 ha
  · have hflag : ∀ b : Bool, (RunDetails.systemProperty canResumeProperty (toString b)).toList.all isPassedOn = true := by
      intro b
      cases b <;> decide
    exact List.all_eq_true.1 (hflag _) c hc
  · obtain ⟨value, hvalue, rfl⟩ := List.mem_map.1 ha
    rw [resumeServicesProperty] at hvalue
    split at hvalue
    · rw [Option.toList_some, List.mem_singleton] at hvalue
      subst hvalue
      have hbefore : ("-D" ++ resumeProperty ++ "=" ++ "base64:").toList.all isPassedOn = true := by decide
      rw [RunDetails.systemProperty, ← String.append_assoc, String.toList_append, List.mem_append] at hc
      obtain hc | hc := hc
      · exact List.all_eq_true.1 hbefore c hc
      · exact h c hc
    · cases hvalue

/-- What a member is configured with, given the file of its arguments. -/
def receivedConfig (file : String) : ResumeConfig :=
  ResumeConfig.init ((systemProperty canResumeProperty.toList (arguments file.toList)).map String.ofList)
    ((systemProperty resumeProperty.toList (arguments file.toList)).map String.ofList)

namespace RunDetails

/-- The diagnostics of `configureResume`. -/
def configureDiagnostics (d : RunDetails) : RunDetails :=
  (d.addArg (systemProperty "coherence.operator.diagnostics.dir" d.jvmDir)).addVMOption
    ("-XX:HeapDumpPath=" ++ d.jvmDir ++ "/heap-dumps/" ++ d.memberName ++ "-" ++ d.podUID ++ ".hprof")

/-- What comes after the services that are resumed. -/
def afterResume (m : Machine) (d : RunDetails) : Except Failure RunDetails := do
  let d ← d.configureCollector.configureHeap.configurePercentages m
  ((d.configureNative.configureFailures.addArgsFromEnvVar "JVM_GC_ARGS").addArgsFromEnvVar "JVM_ARGS").configureExtra m

variable {m : Machine} {d d' : RunDetails}

theorem env_configureDiagnostics : d.configureDiagnostics.env = d.env := by
  have hview : d.configureDiagnostics.memoryView = d.memoryView := by simp [configureDiagnostics]
  exact congrArg (·.1.1) hview

theorem dashed_configureDiagnostics : d.configureDiagnostics.Dashed ↔ d.Dashed := by
  have hpath : ∀ a, isDashed ("-XX:HeapDumpPath=" ++ a) = true := isDashed_append rfl
  simp only [configureDiagnostics, String.append_assoc, dashed_addVMOption (hpath _), dashed_addArg isDashed_systemProperty]

/-- The option for the services, if there are any. -/
def addResumeServices (d : RunDetails) : RunDetails :=
  if d.getenv EnvVarOperatorResumeServices ≠ "" then
    d.addArg ("-Dcoherence.operator.resume.services=base64:" ++ d.getenv EnvVarOperatorResumeServices)
  else d

theorem configureResume_eq_addArgs : d.configureResume = d.configureDiagnostics.addArgs (resumeOptions d.env) := by
  have hmay : d.configureDiagnostics.isEnvTrueOrBlank "COHERENCE_OPERATOR_ALLOW_RESUME" = mayResume d.env := by
    rw [isEnvTrueOrBlank, getenv, env_configureDiagnostics, mayResume]
  have hflag : (if !d.configureDiagnostics.isEnvTrueOrBlank "COHERENCE_OPERATOR_ALLOW_RESUME" then
      d.configureDiagnostics.addArg "-Dcoherence.operator.can.resume.services=false"
      else d.configureDiagnostics.addArg "-Dcoherence.operator.can.resume.services=true") =
        d.configureDiagnostics.addArg (systemProperty canResumeProperty (toString (mayResume d.env))) := by
    rw [hmay]
    cases mayResume d.env with
    | true => rfl
    | false => rfl
  have hgetenv : ∀ a, (d.configureDiagnostics.addArg a).getenv EnvVarOperatorResumeServices = d.env EnvVarOperatorResumeServices := by
    intro a
    have hview : (d.configureDiagnostics.addArg a).memoryView = d.configureDiagnostics.memoryView := memoryView_addArg
    exact (congrFun (congrArg (·.1.1) hview) _).trans (congrFun env_configureDiagnostics _)
  have hresume : d.configureResume =
      (d.configureDiagnostics.addArg (systemProperty canResumeProperty (toString (mayResume d.env)))).addResumeServices :=
    congrArg addResumeServices hflag
  rw [hresume, addResumeServices, hgetenv, resumeOptions, addArgs, List.foldl_cons, resumeServicesProperty]
  by_cases hempty : d.env EnvVarOperatorResumeServices = ""
  · rw [if_neg (not_not.2 hempty), if_neg (not_not.2 hempty)]
    rfl
  · rw [if_pos hempty, if_pos hempty]
    have hbefore : "-Dcoherence.operator.resume.services=base64:" = "-D" ++ resumeProperty ++ "=" ++ "base64:" := by decide
    rw [hbefore, String.append_assoc]
    rfl

/-- **The options for the services** come after the diagnostics, as they are. -/
theorem configureResume_eq (h : ∀ c ∈ (d.env EnvVarOperatorResumeServices).toList, isPassedOn c = true) :
    d.configureResume = { d.configureDiagnostics with args := d.configureDiagnostics.args ++ resumeOptions d.env } := by
  have hexpand : ∀ a ∈ resumeOptions d.env, d.configureDiagnostics.expandEnv a = a := by
    intro a ha
    refine expand_of_notMem _ fun hc => ?_
    have hpassed := isPassedOn_resumeOptions h a ha _ hc
    revert hpassed
    decide
  have hempty : ∀ a ∈ resumeOptions d.env, a ≠ "" := by
    intro a ha
    obtain ⟨property, value, rfl⟩ := exists_systemProperty ha
    simp [systemProperty]
  have hfilter : (resumeOptions d.env).filter (· ≠ "") = resumeOptions d.env := List.filter_eq_self.2 (by simpa using hempty)
  rw [configureResume_eq_addArgs, addArgs_eq, hfilter, List.map_congr_left hexpand, List.map_id']

theorem afterResume_prependArgs (l : List String) : afterResume m (prependArgs l d) = (afterResume m d).map (prependArgs l) := by
  rw [afterResume, configureCollector_prependArgs, configureHeap_prependArgs, configurePercentages_prependArgs]
  refine bind_prependArgs _ fun d => ?_
  rw [configureNative_prependArgs, configureFailures_prependArgs, addArgsFromEnvVar_prependArgs, addArgsFromEnvVar_prependArgs,
    configureExtra_prependArgs]

/-- Options other than the arguments stand alone. -/
theorem isAlone_afterResume (hd : d.Dashed) (h : afterResume m d = .ok d') :
    ∀ a ∈ d'.vmOptions ++ d'.memoryArgs ++ d'.diagnosticArgs, isAlone a.toList = true := by
  obtain ⟨d₁, hpercentages, hextra⟩ := bind_eq_ok.1 h
  have hdashed : d₁.configureNative.configureFailures.Dashed := by
    rw [dashed_configureFailures, dashed_configureNative, dashed_configurePercentages hpercentages, dashed_configureHeap,
      dashed_configureCollector]
    exact hd
  have honly := (@onlyArgs_addArgsFromEnvVar _ "JVM_GC_ARGS").trans (onlyArgs_addArgsFromEnvVar.trans (onlyArgs_configureExtra hextra))
  rw [OnlyArgs] at honly
  intro a ha
  refine hdashed a ?_
  rw [getAllArgs]
  rw [honly] at ha
  exact List.mem_append_left _ ha

end RunDetails

/-! ### The other options -/

/-- The details of a run, without the options for the services that are resumed. -/
def unresumedDetails (m : Machine) (env : String → String) : Except Failure RunDetails := do
  let d ← populatedDetails m env
  let d := (d.configureSystem m).configureAllowEndangered
  d.makeJvmDirs m
  RunDetails.afterResume m d.configureDiagnostics

/-- Do the other options leave the services alone? The class path and they may stand in the file as they are, and none of them sets one
of the two properties. -/
def Unchallenged (m : Machine) (env : String → String) : Prop :=
  ∀ d cp, unresumedDetails m env = .ok d → d.classPathText m = .ok cp → IsArgument cp.toList ∧
    ∀ a ∈ d.argumentLines m cp, (∀ c ∈ a.toList, isPlain c = true) ∧ DoesNotSet canResumeProperty.toList a.toList ∧
      DoesNotSet resumeProperty.toList a.toList

section

variable {m : Machine} {env : String → String} {d : RunDetails}

/-- **The options stand among the other options**: those before them stand alone. -/
theorem createDetails_resume (hservices : ∀ c ∈ (env EnvVarOperatorResumeServices).toList, isPassedOn c = true)
    (h : createDetails m env = .ok d) : ∃ before g, unresumedDetails m env = .ok (RunDetails.prependArgs before g) ∧
      d = RunDetails.prependArgs (before ++ resumeOptions env) g ∧
        ∀ a ∈ g.vmOptions ++ g.memoryArgs ++ g.diagnosticArgs ++ before, isAlone a.toList = true := by
  obtain ⟨d₀, d₁, hpopulated, hoptions, hextra⟩ := createDetails_eq_ok.1 h
  obtain ⟨hview, hdashed⟩ := populatedDetails_ok hpopulated
  have hothers : unresumedDetails m env = ((d₀.configureSystem m).configureAllowEndangered.makeJvmDirs m).bind fun _ =>
      RunDetails.afterResume m (d₀.configureSystem m).configureAllowEndangered.configureDiagnostics := by
    rw [unresumedDetails, hpopulated]
    rfl
  have hsystem : (d₀.configureSystem m).configureAllowEndangered.configureDiagnostics.Dashed := by
    rw [RunDetails.dashed_configureDiagnostics, RunDetails.dashed_configureAllowEndangered, RunDetails.dashed_configureSystem]
    exact hdashed
  have henv : (d₀.configureSystem m).configureAllowEndangered.env = env :=
    env_of_memoryView ((RunDetails.memoryView_configureAllowEndangered.trans RunDetails.memoryView_configureSystem).trans hview)
  rw [RunDetails.configureOptions] at hoptions
  generalize (d₀.configureSystem m).configureAllowEndangered = s at hsystem henv hoptions hothers
  subst henv
  -- the directories are made, and the other options come after those for the services
  obtain ⟨_, hdirs, hmachine⟩ := bind_eq_ok.1 hoptions
  obtain ⟨d₂, hpercentages, hmachine⟩ := bind_eq_ok.1 hmachine
  cases hmachine
  have hafter : RunDetails.afterResume m s.configureResume = .ok d := bind_eq_ok.2 ⟨d₂, hpercentages, hextra⟩
  rw [hdirs] at hothers
  rw [RunDetails.configureResume_eq hservices] at hafter
  generalize s.configureDiagnostics = s' at hsystem hafter hothers
  have hself : ∀ l, RunDetails.prependArgs (s'.args ++ l) { s' with args := [] } = { s' with args := s'.args ++ l } := by
    intro l
    simp [RunDetails.prependArgs]
  rw [← hself, RunDetails.afterResume_prependArgs] at hafter
  obtain ⟨g, hg, rfl⟩ := map_eq_ok.1 hafter
  refine ⟨s'.args, g, ?_, rfl, ?_⟩
  · have hplain : RunDetails.afterResume m s' = (RunDetails.afterResume m { s' with args := [] }).map (RunDetails.prependArgs s'.args) := by
      rw [← RunDetails.afterResume_prependArgs, RunDetails.prependArgs_self]
    rw [hothers]
    show RunDetails.afterResume m s' = _
    rw [hplain, hg]
    rfl
  · intro a ha
    obtain ha | ha := List.mem_append.1 ha
    · refine RunDetails.isAlone_afterResume (fun b hb => hsystem b ?_) hg a ha
      simp only [RunDetails.getAllArgs, List.append_nil] at hb
      exact List.mem_append_left _ hb
    · exact hsystem a (List.mem_append_right _ ha)

/-! ### What is received -/

/-- The two properties, where the options for the services stand among others. -/
theorem received_of_resumeLines {cp file : String} {before after : List String}
    (hfile : arguments file.toList = (("--class-path" :: cp :: (before ++ resumeOptions env ++ after)).map String.toList).filter (· ≠ []))
    (hcp : cp ≠ "") (halone : ∀ a ∈ before, isAlone a.toList = true)
    (hothers : ∀ a ∈ before ++ after, DoesNotSet canResumeProperty.toList a.toList ∧ DoesNotSet resumeProperty.toList a.toList) :
    receivedConfig file =
      ResumeConfig.init (some (toString (mayResume env))) (resumeServicesProperty (env EnvVarOperatorResumeServices)) := by
  have hcan : '=' ∉ canResumeProperty.toList := by decide
  have hname : '=' ∉ resumeProperty.toList := by decide
  have hflag : systemProperty canResumeProperty.toList (arguments file.toList) = some (toString (mayResume env)).toList := by
    rw [hfile, resumeOptions, List.append_assoc, List.cons_append]
    apply systemProperty_of_lines hcan hcp halone
    intro a ha
    rw [← List.append_assoc, List.mem_append, List.mem_append] at ha
    obtain (ha | ha) | ha := ha
    · exact (hothers a (List.mem_append_left _ ha)).1
    · obtain ⟨value, -, rfl⟩ := List.mem_map.1 ha
      exact doesNotSet_systemProperty hname (by decide) value
    · exact (hothers a (List.mem_append_right _ ha)).1
  have hservices : systemProperty resumeProperty.toList (arguments file.toList) =
      (resumeServicesProperty (env EnvVarOperatorResumeServices)).map String.toList := by
    rw [hfile, resumeOptions]
    have hflagged : ∀ a ∈ before ++ [RunDetails.systemProperty canResumeProperty (toString (mayResume env))] ++ after,
        DoesNotSet resumeProperty.toList a.toList := by
      intro a ha
      rw [List.mem_append, List.mem_append, List.mem_singleton] at ha
      obtain (ha | rfl) | ha := ha
      · exact (hothers a (List.mem_append_left _ ha)).2
      · exact doesNotSet_systemProperty hcan (by decide) _
      · exact (hothers a (List.mem_append_right _ ha)).2
    cases resumeServicesProperty (env EnvVarOperatorResumeServices) with
    | none => exact systemProperty_of_lines_eq_none hcp hflagged
    | some value =>
      have hmiddle : ∀ a b : String, before ++ [a, b] ++ after = before ++ [a] ++ b :: after := by simp
      rw [Option.toList_some, List.map_singleton, hmiddle]
      apply systemProperty_of_lines hname hcp ?_ hflagged
      intro a ha
      obtain ha | ha := List.mem_append.1 ha
      · exact halone a ha
      · rw [List.mem_singleton.1 ha]
        exact RunDetails.isDashed_systemProperty
  have htext : ∀ o : Option String, (o.map String.toList).map String.ofList = o := by
    intro o
    cases o with
    | none => rfl
    | some s => rw [Option.map_some, Option.map_some, String.ofList_toList]
  rw [receivedConfig, hflag, hservices, htext, Option.map_some, String.ofList_toList]

/-- **A member is configured** by what the runner finds, if the other options leave the services alone. -/
theorem receivedConfig_eq {files : String × String} (hservices : ∀ c ∈ (env EnvVarOperatorResumeServices).toList, isPassedOn c = true)
    (hothers : Unchallenged m env) (h : createsFiles m env = .ok files) : receivedConfig files.1 =
      ResumeConfig.init (some (toString (mayResume env))) (resumeServicesProperty (env EnvVarOperatorResumeServices)) := by
  obtain ⟨d, hdetails, -⟩ := bind_eq_ok.1 h
  obtain ⟨before, g, hunresumed, rfl, halone⟩ := createDetails_resume hservices hdetails
  have hplain : ∀ a ∈ resumeOptions env, ∀ c ∈ a.toList, isPlain c = true := by
    intro a ha c hc
    have hpassed := isPassedOn_resumeOptions hservices a ha c hc
    rw [isPassedOn, Bool.and_eq_true] at hpassed
    exact hpassed.2
  obtain ⟨cp, after, hne, hleft, harguments⟩ := arguments_of_createsFiles hdetails h hplain fun cp hcp => hothers _ cp hunresumed hcp
  exact received_of_resumeLines harguments hne halone hleft

end

/-! ### Members resume what the resource says -/

/-- The flag of a resource is what the runner goes by. -/
theorem mayResume_resumeEnviron (d : CoherenceResource) (order : MapOrder String) (others : String → String) :
    mayResume (resumeEnviron d order others) = (d.statefulSetSpec.bind (·.resumeServicesOnStartup)).getD true := by
  rw [mayResume, resumeEnviron_flag]
  cases d.statefulSetSpec.bind (·.resumeServicesOnStartup) with
  | none => rfl
  | some resume =>
    cases resume with
    | true => decide +kernel
    | false => decide +kernel

/-- A member is configured as the resource says, if the names of the services come through. -/
theorem resumes_receivedConfig {m : Machine} {d : CoherenceResource} {order : MapOrder String} {others : String → String}
    {files : String × String} (hnames : ∀ services ∈ d.statefulSetSpec.bind (·.autoResumeServices), ∀ k ∈ services, ResumeMap.ComesThrough k)
    (hothers : Unchallenged m (resumeEnviron d order others)) (h : createsFiles m (resumeEnviron d order others) = .ok files) (name : String) :
    (receivedConfig files.1).resumes name = d.resumesService name := by
  rw [receivedConfig_eq (isPassedOn_resumeEnviron d order others) hothers h, ResumeConfig.resumes_init, mayResume_resumeEnviron,
    resumeEnviron_services, CoherenceResource.resumesService]
  cases hservices : d.statefulSetSpec.bind (·.autoResumeServices) with
  | none => rfl
  | some services =>
    have hreceived : ResumeMap.received services order = services := ResumeMap.received_eq_services (hnames services hservices)
    rw [ResumeMap.received] at hreceived
    rw [Option.map_some, Option.getD_some, hreceived]
    rfl

/-- **A member resumes what the resource says.** In whatever order its services are introduced and start, the member resumes a service on
an event exactly if there is reason to and the resource says so, for it by name or by the flag. The names come through, and the other
options leave the services alone. -/
theorem resumed_iff (m : Machine) (d : CoherenceResource) (order : MapOrder String) (others : String → String) (files : String × String)
    (hnames : ∀ services ∈ d.statefulSetSpec.bind (·.autoResumeServices), ∀ k ∈ services, ResumeMap.ComesThrough k)
    (hothers : Unchallenged m (resumeEnviron d order others)) (h : createsFiles m (resumeEnviron d order others) = .ok files)
    (events : List LifecycleEvent) (event : LifecycleEvent) (name : String) :
    ((receivedConfig files.1).handle (events.foldl (receivedConfig files.1).step []) event).1 = some name ↔
      CallsFor events name event ∧ d.resumesService name = true := by
  rw [ResumeConfig.handle_eq_some, resumes_receivedConfig hnames hothers h]

/-- What the evaluation of the other options shows. -/
theorem unchallenged_of_eval {m : Machine} {env : String → String}
    (h : ((unresumedDetails m env).map fun d => (d.classPathText m).map fun cp => decide (IsArgument cp.toList) &&
      (d.argumentLines m cp).all fun a => a.toList.all isPlain && decide (DoesNotSet canResumeProperty.toList a.toList ∧
        DoesNotSet resumeProperty.toList a.toList)) = .ok (.ok true)) : Unchallenged m env := by
  intro d cp hd hcp
  rw [hd] at h
  replace h := Except.ok.inj h
  dsimp only at h
  rw [hcp] at h
  replace h := Except.ok.inj h
  rw [Bool.and_eq_true, decide_eq_true_iff, List.all_eq_true] at h
  refine ⟨h.1, fun a ha => ?_⟩
  have hline := h.2 a ha
  rw [Bool.and_eq_true, List.all_eq_true, decide_eq_true_iff] at hline
  exact hline

/-- A resource whose members resume one service only. -/
def resumingResource : CoherenceResource :=
  Coherence.toResource
    { metadata := { name := "storage", ns := "test" }
      spec := { resumeServicesOnStartup := some false, autoResumeServices := some (Finmap.singleton "Orders" true) } }

/-- A suspended service. -/
def suspendedService (name : String) (isRunning : Bool) : ResumableService := { name, isRunning, isSuspended := true }

/-- That service is resumed once it has started, and no other. -/
theorem resumed_iff_orders : ∃ files : String × String,
    ((receivedConfig files.1).handle
      ([.introduced (some (suspendedService "Orders" false))].foldl (receivedConfig files.1).step []) (.started (suspendedService "Orders" true))).1 =
        some "Orders" ∧
      ((receivedConfig files.1).handle ([].foldl (receivedConfig files.1).step []) (.introduced (some (suspendedService "Other" true)))).1 ≠
        some "Other" := by
  have hrun : ((createsFiles bareMachine (resumeEnviron resumingResource MapOrder.sorted fun _ => "")).map fun _ => ()) = .ok () := by
    decide +kernel
  obtain ⟨files, hfiles, -⟩ := map_eq_ok.1 hrun
  have hnames : ∀ services ∈ resumingResource.statefulSetSpec.bind (·.autoResumeServices), ∀ k ∈ services, ResumeMap.ComesThrough k := by
    rintro _ ⟨⟩ k hk
    rw [Finmap.mem_singleton] at hk
    rw [hk]
    decide +kernel
  have hothers : Unchallenged bareMachine (resumeEnviron resumingResource MapOrder.sorted fun _ => "") := by
    apply unchallenged_of_eval
    decide +kernel
  refine ⟨files, ?_, ?_⟩
  · apply (resumed_iff _ _ _ _ files hnames hothers hfiles _ _ _).2
    refine ⟨⟨rfl, ⟨rfl, rfl⟩, suspendedService "Orders" false, List.mem_singleton_self _, rfl, ⟨rfl, rfl⟩, rfl⟩, ?_⟩
    decide +kernel
  · intro h
    obtain ⟨-, hother⟩ := (resumed_iff _ _ _ _ files hnames hothers hfiles _ _ _).1 h
    revert hother
    decide +kernel

end CoherenceOperator
