import CoherenceOperator.Lib.JavaCommand
import CoherenceOperator.Properties.ArgumentDelivery
import CoherenceOperator.Runner.Characters

/-!
# The services that may be endangered

The names go joined with commas through a variable to the runner, which adds an option with a system property, and expands references
to variables in it as in every option. The option goes to the file of arguments as it is, the launcher reads the file, and the member
splits the property again. The names arrive when there is no quote, no hash and no reference in them, and the other options do not get
in the way (`exemptions_arrive`); the name of a system service, which begins with a dollar, is a reference.
-/

namespace CoherenceOperator

open Effect Prog ArgumentFile JavaCommand

/-! ### What the member does with the property -/

/-- The services that `isStatusHA` allows to be endangered, given the property. -/
def allowEndangeredOf (exclusions : Option (List Char)) : List (List Char) := (exclusions.map (split ',')).getD []

/-- What `areCacheServicesHA` receives in a member with the arguments in a file. -/
def receivedExemptions (file : String) : List (List Char) :=
  allowEndangeredOf (systemProperty RunDetails.allowEndangeredProperty.toList (arguments file.toList))

/-- The services in a spec that may be endangered. -/
def CoherenceResource.exemptions (r : CoherenceResource) : List String := (r.spec.coherence.map (·.allowEndangeredForStatusHA)).getD []

/-- The environment of the runner, given the services that may be endangered. -/
def exemptionEnviron (r : CoherenceResource) (others : String → String) : String → String :=
  environ ["COHERENCE_OPERATOR_ALLOW_ENDANGERED"] r.coherenceEnv others

/-- Is it a name that may stand in the list? It is not empty, and has no comma and no white space. -/
def IsServiceName (name : String) : Prop := name ≠ "" ∧ ∀ c ∈ name.toList, c ≠ ',' ∧ isBlank c = false

instance (name : String) : Decidable (IsServiceName name) :=
  have : Decidable (∀ c ∈ name.toList, c ≠ ',' ∧ isBlank c = false) := List.decidableBAll _ _
  inferInstanceAs (Decidable (_ ∧ _))

/-- The names arrive in the member. -/
def ExemptionsArrive (m : Machine) (r : CoherenceResource) (others : String → String) : Prop :=
  ∀ files, createsFiles m (exemptionEnviron r others) = .ok files →
    ∀ name : String, name.toList ∈ receivedExemptions files.1 ↔ name ∈ r.exemptions

section

attribute [local simp] lookedUp_append lookedUp_cons lookedUp_ite

/-- The variables of a server have other names. -/
theorem lookedUp_createEnvVars (port : Option PortSpecWithSSL) {name : String} (h : name ∈ ["COHERENCE_MANAGEMENT", "COHERENCE_METRICS"])
    (mount : String) (defaultPort : ℤ) :
    lookedUp "COHERENCE_OPERATOR_ALLOW_ENDANGERED" (PortSpecWithSSL.createEnvVars port name mount defaultPort) = none := by
  have hssl : ∀ ssl : Option SSLSpec,
      lookedUp "COHERENCE_OPERATOR_ALLOW_ENDANGERED" ((ssl.map (·.createEnvVars name mount)).getD []) = none := by
    intro ssl
    cases ssl with
    | none => rfl
    | some s =>
      show lookedUp _ (s.createEnvVars name mount) = none
      obtain rfl | rfl := List.mem_pair.1 h
      · simp [SSLSpec.createEnvVars]
      · simp [SSLSpec.createEnvVars]
  rw [PortSpecWithSSL.createEnvVars]
  split
  · obtain rfl | rfl := List.mem_pair.1 h
    · simp
    · simp
  · obtain rfl | rfl := List.mem_pair.1 h
    · simp [hssl]
    · simp [hssl]

/-- The runner finds the names joined. -/
theorem exemptionEnviron_eq (r : CoherenceResource) (others : String → String) :
    exemptionEnviron r others "COHERENCE_OPERATOR_ALLOW_ENDANGERED" = ",".intercalate r.exemptions := by
  have hstorage : ∀ enabled, lookedUp "COHERENCE_OPERATOR_ALLOW_ENDANGERED" (r.storageEnv enabled) = none := by
    intro enabled
    unfold CoherenceResource.storageEnv
    split
    · simp
    · simp
  have hports : ∀ s, lookedUp "COHERENCE_OPERATOR_ALLOW_ENDANGERED" (CoherenceSpec.localPortEnv s) = none := by
    intro s
    simp [CoherenceSpec.localPortEnv]
  have hpersistence : ∀ p : Option PersistenceSpec, lookedUp "COHERENCE_OPERATOR_ALLOW_ENDANGERED" ((p.map (·.env)).getD []) = none := by
    intro p
    cases p with
    | none => rfl
    | some p =>
      show lookedUp _ p.env = none
      simp [PersistenceSpec.env]
  rw [exemptionEnviron, environ_own (by simp), CoherenceResource.coherenceEnv, CoherenceResource.exemptions]
  cases r.spec.coherence with
  | none =>
    simp [hstorage, hports]
  | some s =>
    have hmanagement := lookedUp_createEnvVars s.management (List.mem_cons_self (a := "COHERENCE_MANAGEMENT"))
    have hmetrics := lookedUp_createEnvVars s.metrics (List.mem_cons_of_mem "COHERENCE_MANAGEMENT" (List.mem_singleton_self "COHERENCE_METRICS"))
    show _ = ",".intercalate s.allowEndangeredForStatusHA
    rw [← getD_intercalate "," s.allowEndangeredForStatusHA]
    simp [hstorage, hports, hpersistence, hmanagement, hmetrics, envOfBool]

end

/-! ### The other options -/

/-- The details of a run, if no services may be endangered. -/
def otherDetails (m : Machine) (env : String → String) : Except Failure RunDetails := do
  let d ← populatedDetails m env
  let d ← (d.configureSystem m).configureMachine m
  (d.addArgsFromEnvVar "JVM_ARGS").configureExtra m

/-- Do the other options not get in the way? The class path and they may stand in the file as they are, and none of them sets the
property. -/
def Undisturbed (m : Machine) (env : String → String) : Prop :=
  ∀ d cp, otherDetails m env = .ok d → d.classPathText m = .ok cp → IsArgument cp.toList ∧
    ∀ a ∈ d.argumentLines m cp, (∀ c ∈ a.toList, isPlain c = true) ∧ DoesNotSet RunDetails.allowEndangeredProperty.toList a.toList

section

variable {m : Machine} {env : String → String} {d d' : RunDetails}

/-- What comes after the services that may be endangered. -/
def afterExemptions (m : Machine) (d : RunDetails) : Except Failure RunDetails := do
  let d ← d.configureMachine m
  (d.addArgsFromEnvVar "JVM_ARGS").configureExtra m

theorem afterExemptions_prependArgs (l : List String) :
    afterExemptions m (RunDetails.prependArgs l d) = (afterExemptions m d).map (RunDetails.prependArgs l) := by
  rw [afterExemptions, RunDetails.configureMachine_prependArgs]
  refine RunDetails.bind_prependArgs _ fun d => ?_
  rw [RunDetails.addArgsFromEnvVar_prependArgs, RunDetails.configureExtra_prependArgs]

/-- Options other than the arguments stand alone. -/
theorem isAlone_afterExemptions (hd : d.Dashed) (h : afterExemptions m d = .ok d') :
    ∀ a ∈ d'.vmOptions ++ d'.memoryArgs ++ d'.diagnosticArgs, isAlone a.toList = true := by
  obtain ⟨d₁, hmachine, hextra⟩ := bind_eq_ok.1 h
  have honly := (RunDetails.onlyArgs_addArgsFromEnvVar).trans (RunDetails.onlyArgs_configureExtra hextra)
  obtain ⟨_, -, hmachine⟩ := bind_eq_ok.1 hmachine
  obtain ⟨d₂, hpercentages, hmachine⟩ := bind_eq_ok.1 hmachine
  cases hmachine
  have hdashed : d₂.configureNative.configureFailures.Dashed := by
    rw [RunDetails.dashed_configureFailures, RunDetails.dashed_configureNative, RunDetails.dashed_configurePercentages hpercentages,
      RunDetails.dashed_configureHeap, RunDetails.dashed_configureCollector, RunDetails.dashed_configureResume]
    exact hd
  have honly' := (@RunDetails.onlyArgs_addArgsFromEnvVar _ "JVM_GC_ARGS").trans honly
  rw [RunDetails.OnlyArgs] at honly'
  intro a ha
  refine hdashed a ?_
  rw [RunDetails.getAllArgs]
  rw [honly'] at ha
  exact List.mem_append_left _ ha

/-- The value that the services that may be endangered have in the command, if there are any. -/
def exemptionValue (env : String → String) : Option String :=
  if env "COHERENCE_OPERATOR_ALLOW_ENDANGERED" = "" then none else some (expand env (env "COHERENCE_OPERATOR_ALLOW_ENDANGERED"))

/-- The option with a value, if there is one. -/
def exemptionOption (value : Option String) : List String :=
  value.toList.map (RunDetails.systemProperty RunDetails.allowEndangeredProperty)

theorem configureAllowEndangered_eq :
    d.configureAllowEndangered = { d with args := d.args ++ exemptionOption (exemptionValue d.env) } := by
  have hgetenv : d.getenv "COHERENCE_OPERATOR_ALLOW_ENDANGERED" = d.env "COHERENCE_OPERATOR_ALLOW_ENDANGERED" := rfl
  rw [RunDetails.configureAllowEndangered, exemptionOption, exemptionValue, hgetenv]
  by_cases hempty : d.env "COHERENCE_OPERATOR_ALLOW_ENDANGERED" = ""
  · simp [hempty]
  · have hoption : ∀ v, RunDetails.systemProperty RunDetails.allowEndangeredProperty v ≠ "" := by
      intro v hv
      simp [RunDetails.systemProperty] at hv
    have hexpand : ∀ v, d.expandEnv (RunDetails.systemProperty RunDetails.allowEndangeredProperty v) =
        RunDetails.systemProperty RunDetails.allowEndangeredProperty (expand d.env v) := fun v => expand_append d.env (by decide)
    rw [if_pos hempty, if_neg hempty, RunDetails.addArg, if_pos (hoption _), hexpand]
    rfl

theorem env_of_memoryView {args : List String} {options : List String × List String} (h : d.memoryView = ((env, args), options)) : d.env = env :=
  congrArg (·.1.1) h

/-- **The option stands among the other options**: those before it stand alone. -/
theorem createDetails_exemptions (h : createDetails m env = .ok d) : ∃ before g, otherDetails m env = .ok (RunDetails.prependArgs before g) ∧
    d = RunDetails.prependArgs (before ++ exemptionOption (exemptionValue env)) g ∧
      ∀ a ∈ g.vmOptions ++ g.memoryArgs ++ g.diagnosticArgs ++ before, isAlone a.toList = true := by
  obtain ⟨d₀, d₁, hpopulated, hoptions, hextra⟩ := createDetails_eq_ok.1 h
  obtain ⟨hview, hdashed⟩ := populatedDetails_ok hpopulated
  have hsystem : (d₀.configureSystem m).Dashed := RunDetails.dashed_configureSystem.2 hdashed
  have henv : (d₀.configureSystem m).env = env := env_of_memoryView (RunDetails.memoryView_configureSystem.trans hview)
  have hafter : afterExemptions m (d₀.configureSystem m).configureAllowEndangered = .ok d := bind_eq_ok.2 ⟨d₁, hoptions, hextra⟩
  have hothers : otherDetails m env = afterExemptions m (d₀.configureSystem m) := by
    rw [otherDetails, hpopulated]
    rfl
  generalize d₀.configureSystem m = s at hsystem henv hafter hothers
  -- the options of the system, with the others behind them
  have hself : ∀ l, RunDetails.prependArgs (s.args ++ l) { s with args := [] } = { s with args := s.args ++ l } := by
    intro l
    simp [RunDetails.prependArgs]
  subst henv
  rw [configureAllowEndangered_eq, ← hself, afterExemptions_prependArgs] at hafter
  obtain ⟨g, hg, rfl⟩ := map_eq_ok.1 hafter
  refine ⟨s.args, g, ?_, rfl, ?_⟩
  · have hplain : afterExemptions m s = (afterExemptions m { s with args := [] }).map (RunDetails.prependArgs s.args) := by
      rw [← afterExemptions_prependArgs, RunDetails.prependArgs_self]
    rw [hothers, hplain, hg]
    rfl
  · intro a ha
    obtain ha | ha := List.mem_append.1 ha
    · refine isAlone_afterExemptions (fun b hb => hsystem b ?_) hg a ha
      simp only [RunDetails.getAllArgs, List.append_nil] at hb
      exact List.mem_append_left _ hb
    · exact hsystem a (List.mem_append_right _ ha)

/-! ### What is received -/

/-- The member reads the property from an option that stands among others. -/
theorem received_of_lines (cp : String) (before after : List String) {value : Option String} {file : String}
    (hfile : arguments file.toList =
      (("--class-path" :: cp :: (before ++ exemptionOption value ++ after)).map String.toList).filter (· ≠ []))
    (hcp : cp ≠ "") (halone : ∀ a ∈ before, isAlone a.toList = true)
    (hothers : ∀ a ∈ before ++ after, DoesNotSet RunDetails.allowEndangeredProperty.toList a.toList) :
    receivedExemptions file = allowEndangeredOf (value.map String.toList) := by
  -- the class path is passed over
  have hproperty : systemProperty RunDetails.allowEndangeredProperty.toList (arguments file.toList) =
      systemProperty RunDetails.allowEndangeredProperty.toList
        (((before ++ exemptionOption value ++ after).map String.toList).filter (· ≠ [])) := by
    rw [hfile, List.map_cons, List.map_cons, List.filter_cons_of_pos (by simp), List.filter_cons_of_pos (by simpa using hcp),
      systemProperty, settings_cons_cons (by decide) (by decide), systemProperty]
  have hfilter : ∀ l : List String, (∀ a ∈ l, DoesNotSet RunDetails.allowEndangeredProperty.toList a.toList) →
      ∀ b ∈ (l.map String.toList).filter (· ≠ []), DoesNotSet RunDetails.allowEndangeredProperty.toList b := by
    intro l hl b hb
    obtain ⟨a, ha, rfl⟩ := List.mem_map.1 (List.mem_filter.1 hb).1
    exact hl a ha
  rw [receivedExemptions, hproperty, exemptionOption]
  congr 1
  cases value with
  | none =>
    rw [Option.toList_none, List.map_nil, List.append_nil]
    exact systemProperty_eq_none (hfilter _ hothers)
  | some v =>
    have hoption : (RunDetails.systemProperty RunDetails.allowEndangeredProperty v).toList =
        '-' :: 'D' :: (RunDetails.allowEndangeredProperty.toList ++ '=' :: v.toList) := by
      simp [RunDetails.systemProperty]
    have hset := setting_eq (show '=' ∉ RunDetails.allowEndangeredProperty.toList by decide) v.toList
    rw [Option.toList_some, List.map_singleton, List.map_append, List.map_append, List.filter_append, List.filter_append,
      List.map_singleton, hoption, List.filter_cons_of_pos (by simp), List.filter_nil, List.append_assoc, List.singleton_append,
      systemProperty_eq _ hset rfl, Option.map_some]
    · intro b hb
      rw [← List.filter_append, ← List.map_append] at hb
      exact hfilter _ hothers b hb
    · intro b hb
      obtain ⟨a, ha, rfl⟩ := List.mem_map.1 (List.mem_filter.1 hb).1
      exact halone a ha

/-- All characters of the option are plain if those of its value are. -/
theorem isPlain_exemptionOption {value : Option String} (hvalue : ∀ v ∈ value, ∀ c ∈ v.toList, isPlain c = true) :
    ∀ a ∈ exemptionOption value, ∀ c ∈ a.toList, isPlain c = true := by
  intro a ha c hc
  obtain ⟨v, hv, rfl⟩ := List.mem_map.1 ha
  rw [RunDetails.systemProperty, String.toList_append, List.mem_append] at hc
  obtain hc | hc := hc
  · have hbefore : ("-D" ++ RunDetails.allowEndangeredProperty ++ "=").toList.all isPlain = true := by decide
    exact List.all_eq_true.1 hbefore c hc
  · exact hvalue v (Option.mem_toList.1 hv) c hc

theorem mem_of_notMem {α : Type*} {a x y : α} {before l after : List α} (h : a ∈ x :: y :: (before ++ l ++ after)) (hl : a ∉ l) :
    a ∈ x :: y :: (before ++ after) := by
  simp only [List.mem_cons, List.mem_append] at h ⊢
  obtain h | h | (h | h) | h := h
  · exact .inl h
  · exact .inr (.inl h)
  · exact .inr (.inr (.inl h))
  · exact absurd h hl
  · exact .inr (.inr (.inr h))

/-- **The value is received**, cut at its commas, if all its characters are plain and the other options do not get in the way. -/
theorem receivedExemptions_eq {files : String × String} (hvalue : ∀ v ∈ exemptionValue env, ∀ c ∈ v.toList, isPlain c = true)
    (hothers : Undisturbed m env) (h : createsFiles m env = .ok files) :
    receivedExemptions files.1 = allowEndangeredOf ((exemptionValue env).map String.toList) := by
  obtain ⟨d, hdetails, hfiles⟩ := bind_eq_ok.1 h
  obtain ⟨cp, hcp, hfiles⟩ := bind_eq_ok.1 hfiles
  have htext : files.1 = d.fullArgsText m cp true := by
    iterate 6 obtain ⟨_, -, hfiles⟩ := bind_eq_ok.1 hfiles
    cases hfiles
    rfl
  obtain ⟨before, g, hdisturb, rfl, halone⟩ := createDetails_exemptions hdetails
  have hlines : ∀ l, (RunDetails.prependArgs (before ++ l) g).argumentLines m cp = "--class-path" :: cp ::
      (g.vmOptions ++ g.memoryArgs ++ g.diagnosticArgs ++ before ++ l ++ (g.args ++ g.springBootLines m ++ g.mainClassLines ++ g.mainArgs)) := by
    intro l
    have hspring : (RunDetails.prependArgs (before ++ l) g).springBootLines m = g.springBootLines m := rfl
    have hclass : (RunDetails.prependArgs (before ++ l) g).mainClassLines = g.mainClassLines := rfl
    rw [RunDetails.argumentLines, hspring, hclass]
    simp [RunDetails.getAllArgs, RunDetails.prependArgs]
  obtain ⟨hclassPath, hlinesOthers⟩ := hothers _ cp hdisturb hcp
  have hnone := hlines []
  rw [List.append_nil, List.append_nil] at hnone
  rw [hnone] at hlinesOthers
  refine received_of_lines cp (g.vmOptions ++ g.memoryArgs ++ g.diagnosticArgs ++ before)
    (g.args ++ g.springBootLines m ++ g.mainClassLines ++ g.mainArgs) ?_ (by simpa using hclassPath.1) halone
    (fun a ha => (hlinesOthers a (List.mem_cons_of_mem _ (List.mem_cons_of_mem _ ha))).2)
  rw [← hlines, htext]
  apply arguments_of_isLined (RunDetails.isLined_fullArgsText m _ cp)
  rw [List.forall_mem_map, hlines]
  intro a ha
  by_cases hoption : a ∈ exemptionOption (exemptionValue env)
  · exact isPlain_exemptionOption hvalue a hoption
  · exact (hlinesOthers a (mem_of_notMem ha hoption)).1

/-! ### Names -/

/-- A name that may stand in the file as it is: it has no quote and no hash. -/
def IsUnquoted (name : String) : Prop := ∀ c ∈ name.toList, isQuote c = false ∧ c ≠ '#'

instance (name : String) : Decidable (IsUnquoted name) := List.decidableBAll _ _

variable {names : List String}

/-- Names have no reference exactly when they have none joined. -/
theorem hasReference_joined : hasReference (",".intercalate names).toList = false ↔ ∀ n ∈ names, hasReference n.toList = false := by
  have hcomma : ",".toList = [','] := rfl
  rw [String.toList_intercalate, hcomma]
  induction names with
  | nil => simp [hasReference]
  | cons n names ih =>
    cases names with
    | nil => simp
    | cons k names =>
      rw [List.forall_mem_cons, List.map_cons, List.map_cons, List.intercalate_cons_cons, List.append_assoc, List.singleton_append,
        hasReference_append_cons (by decide) (by decide), Bool.or_eq_false_iff]
      exact and_congr_right fun _ => ih

theorem intercalate_eq_empty (h : ∀ n ∈ names, IsServiceName n) : ",".intercalate names = "" ↔ names = [] := by
  constructor
  · intro hempty
    cases names with
    | nil => rfl
    | cons n names =>
      have hn := (h n List.mem_cons_self).1
      cases names with
      | nil => exact absurd hempty (by simpa using hn)
      | cons k names => simp [String.intercalate_cons_cons] at hempty
  · rintro rfl
    rfl

/-- All characters of joined names are plain. -/
theorem isPlain_joined (hnames : ∀ n ∈ names, IsServiceName n) (hquotes : ∀ n ∈ names, IsUnquoted n) :
    ∀ c ∈ (",".intercalate names).toList, isPlain c = true := by
  have hname : ∀ l ∈ names.map String.toList, ∀ c ∈ l, isPlain c = true := by
    rw [List.forall_mem_map]
    intro n hn c hc
    obtain ⟨hquote, hhash⟩ := hquotes n hn c hc
    simp [isPlain, hquote, hhash, ((hnames n hn).2 c hc).2]
  rw [String.toList_intercalate]
  generalize names.map String.toList = ls at hname
  induction ls with
  | nil => simp
  | cons l ls ih =>
    obtain ⟨hl, hls⟩ := List.forall_mem_cons.1 hname
    cases ls with
    | nil => simpa using hl
    | cons k ls =>
      intro c hc
      rw [List.intercalate_cons_cons, List.mem_append, List.mem_append] at hc
      obtain (hc | hc) | hc := hc
      · exact hl c hc
      · have hcomma : c = ',' := List.mem_singleton.1 hc
        rw [hcomma]
        decide
      · exact ih hls c hc

/-- Joined names are split into the names. -/
theorem split_joined (hnames : ∀ n ∈ names, IsServiceName n) (hne : names ≠ []) :
    split ',' (",".intercalate names).toList = names.map String.toList := by
  rw [String.toList_intercalate]
  apply split_intercalate (by simpa using hne)
  rw [List.forall_mem_map]
  intro n hn
  obtain ⟨hempty, hcomma⟩ := hnames n hn
  exact ⟨by simpa using hempty, fun hc => (hcomma _ hc).1 rfl⟩

/-- The value of names without a reference, in any environment. -/
theorem exemptionValue_eq (henv : env "COHERENCE_OPERATOR_ALLOW_ENDANGERED" = ",".intercalate names) (hnames : ∀ n ∈ names, IsServiceName n)
    (hreference : ∀ n ∈ names, hasReference n.toList = false) :
    exemptionValue env = if names = [] then none else some (",".intercalate names) := by
  rw [exemptionValue, henv]
  by_cases hempty : names = []
  · rw [if_pos ((intercalate_eq_empty hnames).2 hempty), if_pos hempty]
  · rw [if_neg (mt (intercalate_eq_empty hnames).1 hempty), if_neg hempty, expand,
      expandFrom_of_not_hasReference (hasReference_joined.2 hreference), String.ofList_toList]

/-- **Names without a quote, a hash and a reference are received**, in their order. -/
theorem received_names {files : String × String} (henv : env "COHERENCE_OPERATOR_ALLOW_ENDANGERED" = ",".intercalate names)
    (hnames : ∀ n ∈ names, IsServiceName n) (hquotes : ∀ n ∈ names, IsUnquoted n)
    (hreference : ∀ n ∈ names, hasReference n.toList = false) (hothers : Undisturbed m env) (h : createsFiles m env = .ok files) :
    receivedExemptions files.1 = names.map String.toList := by
  have hvalue := exemptionValue_eq henv hnames hreference
  have hplain : ∀ v ∈ exemptionValue env, ∀ c ∈ v.toList, isPlain c = true := by
    intro v hv
    rw [hvalue] at hv
    split at hv
    · cases hv
    · cases hv
      exact isPlain_joined hnames hquotes
  rw [receivedExemptions_eq hplain hothers h, hvalue]
  split
  · rename_i hempty
    rw [hempty]
    rfl
  · rename_i hne
    exact split_joined hnames hne

/-! ### References are lost -/

/-- Is no variable set to which the text refers? -/
def RefersToNothing (env : String → String) (s : String) : Prop :=
  ∀ name, References.Token.reference name ∈ shellText.tokens s.toList → env (String.ofList name) = ""

/-- Then it is expanded as where nothing is set. -/
theorem expand_of_refersToNothing {s : String} (h : RefersToNothing env s) :
    (expand env s).toList = expandFrom (fun _ => "") 0 s.toList := by
  rw [expand, String.toList_ofList, expandFrom_eq, expandFrom_eq]
  apply References.render_congr
  intro name hname
  rw [h name hname]

/-- Where a name is lost, the names that arrive are not those of the list. -/
theorem hasReference_of_received {files : String × String} (henv : env "COHERENCE_OPERATOR_ALLOW_ENDANGERED" = ",".intercalate names)
    (hnames : ∀ n ∈ names, IsServiceName n) (hquotes : ∀ n ∈ names, IsUnquoted n) (hnodup : names.Nodup)
    (hunset : RefersToNothing env (",".intercalate names)) (hothers : Undisturbed m env) (h : createsFiles m env = .ok files)
    (hreceived : ∀ n ∈ names, n.toList ∈ receivedExemptions files.1) : ∀ n ∈ names, hasReference n.toList = false := by
  by_cases hempty : names = []
  · simp [hempty]
  have hexpand := expand_of_refersToNothing hunset
  have hvalue : exemptionValue env = some (expand env (",".intercalate names)) := by
    rw [exemptionValue, henv, if_neg (mt (intercalate_eq_empty hnames).1 hempty)]
  have hplain : ∀ v ∈ exemptionValue env, ∀ c ∈ v.toList, isPlain c = true := by
    intro v hv c hc
    rw [hvalue] at hv
    cases hv
    rw [hexpand] at hc
    exact isPlain_joined hnames hquotes c (mem_of_mem_expandFrom hc)
  rw [receivedExemptions_eq hplain hothers h, hvalue, Option.map_some, allowEndangeredOf, Option.map_some, Option.getD_some, hexpand] at hreceived
  -- the names are parts of the value, which is as long as they are
  have hlength : (",".intercalate names).toList.length ≤ (expandFrom (fun _ => "") 0 (",".intercalate names).toList).length := by
    rw [String.toList_intercalate]
    apply length_le_of_subset_split
    · exact hnodup.map fun s t => String.toList_inj.1
    · intro l hl
      obtain ⟨n, hn, rfl⟩ := List.mem_map.1 hl
      have hpart := hreceived n hn
      rwa [String.toList_intercalate] at hpart
    · simpa using hempty
  exact hasReference_joined.1 (not_hasReference_of_length (fun _ => rfl) hlength)

end

/-- A resource with one service that may be endangered. -/
def exemptedResource (name : String) : CoherenceResource :=
  Coherence.toResource
    { metadata := { name := "storage", ns := "test" }, spec := { coherence := some { allowEndangeredForStatusHA := [name] } } }

/-- What the evaluation of the other options shows. -/
theorem undisturbed_of_eval {m : Machine} {env : String → String}
    (h : ((otherDetails m env).map fun d => (d.classPathText m).map fun cp => decide (IsArgument cp.toList) &&
      (d.argumentLines m cp).all fun a => a.toList.all isPlain && decide (DoesNotSet RunDetails.allowEndangeredProperty.toList a.toList)) =
        .ok (.ok true)) : Undisturbed m env := by
  intro d cp hd hcp
  rw [hd] at h
  replace h := Except.ok.inj h
  dsimp only at h
  rw [hcp] at h
  replace h := Except.ok.inj h
  rw [Bool.and_eq_true, decide_eq_true_iff, List.all_eq_true] at h
  refine ⟨h.1, fun a ha => ?_⟩
  have hline := h.2 a ha
  rw [Bool.and_eq_true, List.all_eq_true, decide_eq_true_iff] at hline
  exact hline

end CoherenceOperator
