import CoherenceOperator.Runner.Environ

/-!
# The security of management and metrics

The fields of an `SSLSpec` go through variables to the runner, which makes system properties of them. `emits_secured` says which: a
property for every field that is set, and for no other, with the value of the field after what belongs before it: `file:` before
a store, the directory of the secret before every file when there is one, and nothing before an algorithm, a provider or a type.
-/

namespace CoherenceOperator

/-! ### The two components -/

/-- A component over REST that can be secured. -/
inductive SecuredComponent where
  | management
  | metrics

/-- What the names of the variables of an `SSLSpec` end with. -/
def securedSuffixes : List String :=
  ["_SSL_ENABLED", "_SSL_CERTS", "_SSL_KEYSTORE", "_SSL_KEYSTORE_PASSWORD_FILE", "_SSL_KEY_PASSWORD_FILE",
    "_SSL_KEYSTORE_ALGORITHM", "_SSL_KEYSTORE_PROVIDER", "_SSL_KEYSTORE_TYPE", "_SSL_TRUSTSTORE", "_SSL_TRUSTSTORE_PASSWORD_FILE",
    "_SSL_TRUSTSTORE_ALGORITHM", "_SSL_TRUSTSTORE_PROVIDER", "_SSL_TRUSTSTORE_TYPE", "_SSL_REQUIRE_CLIENT_CERT"]

namespace SecuredComponent

/-- What its variables begin with. -/
def stem : SecuredComponent → String
  | management => "COHERENCE_MANAGEMENT"
  | metrics => "COHERENCE_METRICS"

/-- Its name in the properties. -/
def property : SecuredComponent → String
  | management => "management"
  | metrics => "metrics"

/-- Its provider of sockets. -/
def provider : SecuredComponent → String
  | management => "ManagementSSLProvider"
  | metrics => "MetricsSSLProvider"

/-- Where its secret is mounted. -/
def secretMount : SecuredComponent → String
  | management => "/coherence-operator/coherence/certs/management"
  | metrics => "/coherence-operator/coherence/certs/metrics"

/-- Its port, if none is set. -/
def defaultPort : SecuredComponent → ℤ
  | management => 30000
  | metrics => 9612

/-- What the runner does for it. -/
def addSSL : SecuredComponent → RunDetails → RunDetails
  | management => RunDetails.addManagementSSL
  | metrics => RunDetails.addMetricsSSL

/-- The variables that belong to it. -/
def ownVariables (c : SecuredComponent) : List String := ("_ENABLED" :: "_PORT" :: securedSuffixes).map (c.stem ++ ·)

/-- The environment of the runner, given a port. -/
def environ (c : SecuredComponent) (port : PortSpecWithSSL) (others : String → String) : String → String :=
  CoherenceOperator.environ c.ownVariables (PortSpecWithSSL.createEnvVars (some port) c.stem c.secretMount c.defaultPort) others

end SecuredComponent

/-! ### What is documented -/

/-- A security property: its name, what comes before its value, and the value. -/
structure SecurityProperty where
  name : String
  before : String := ""
  value : String

/-- The option for a property, with the references to variables in its value expanded. -/
def SecurityProperty.option (p : SecurityProperty) (mapping : String → String) : String :=
  "-D" ++ p.name ++ "=" ++ p.before ++ expand mapping p.value

/-- The property of a field that is neither absent nor empty. -/
def securityProperty (name before : String) (field : Option String) : List SecurityProperty :=
  (field.filter (· ≠ "")).toList.map fun value => { name, before, value }

namespace SSLSpec

/-- The directory with the files of the spec: that of the secret, or none. -/
def directory (s : SSLSpec) (c : SecuredComponent) : String := if s.secrets.getD "" ≠ "" then c.secretMount ++ "/" else ""

/-- The properties of a spec. -/
def securityProperties (s : SSLSpec) (c : SecuredComponent) : List SecurityProperty :=
  let security := "coherence." ++ c.property ++ ".security."
  let url := "file:" ++ s.directory c
  let path := s.directory c
  (if s.enabled = some true then [{ name := "coherence." ++ c.property ++ ".http.provider", value := c.provider }] else []) ++
    securityProperty (security ++ "keystore") url s.keyStore ++
    securityProperty (security ++ "keystore.password") path s.keyStorePasswordFile ++
    securityProperty (security ++ "key.password") path s.keyPasswordFile ++
    securityProperty (security ++ "keystore.algorithm") "" s.keyStoreAlgorithm ++
    securityProperty (security ++ "keystore.provider") "" s.keyStoreProvider ++
    securityProperty (security ++ "keystore.type") "" s.keyStoreType ++
    securityProperty (security ++ "truststore") url s.trustStore ++
    securityProperty (security ++ "truststore.password") path s.trustStorePasswordFile ++
    securityProperty (security ++ "truststore.algorithm") "" s.trustStoreAlgorithm ++
    securityProperty (security ++ "truststore.provider") "" s.trustStoreProvider ++
    securityProperty (security ++ "truststore.type") "" s.trustStoreType ++
    if s.requireClientCert = some true then [{ name := "coherence." ++ c.property ++ ".http.auth", value := "cert" }] else []

end SSLSpec

/-! ### Through the variables -/

/-- The text fields of a spec, with what the names of their variables end with. -/
def SSLSpec.textFields (s : SSLSpec) : List (String × Option String) :=
  [ ("_SSL_KEYSTORE", s.keyStore), ("_SSL_KEYSTORE_PASSWORD_FILE", s.keyStorePasswordFile),
    ("_SSL_KEY_PASSWORD_FILE", s.keyPasswordFile), ("_SSL_KEYSTORE_ALGORITHM", s.keyStoreAlgorithm),
    ("_SSL_KEYSTORE_PROVIDER", s.keyStoreProvider), ("_SSL_KEYSTORE_TYPE", s.keyStoreType),
    ("_SSL_TRUSTSTORE", s.trustStore), ("_SSL_TRUSTSTORE_PASSWORD_FILE", s.trustStorePasswordFile),
    ("_SSL_TRUSTSTORE_ALGORITHM", s.trustStoreAlgorithm), ("_SSL_TRUSTSTORE_PROVIDER", s.trustStoreProvider),
    ("_SSL_TRUSTSTORE_TYPE", s.trustStoreType) ]

/-- A port that is enabled, with a spec. -/
def PortSpecWithSSL.secured (port : PortSpecWithSSL) (s : SSLSpec) : PortSpecWithSSL := { port with enabled := some true, ssl := some s }

section

variable {s : SSLSpec} {c : SecuredComponent} {port : PortSpecWithSSL} {others : String → String} {stem suffix : String}
  {fields : List (String × Option String)} {field : Option String}

theorem lookedUp_fields_of_notMem (h : suffix ∉ fields.map (·.1)) :
    lookedUp (stem ++ suffix) (fields.flatMap fun f => envOfText (stem ++ f.1) f.2) = none := by
  induction fields with
  | nil => rfl
  | cons f fields ih =>
    rw [List.map_cons, List.mem_cons, not_or] at h
    rw [List.flatMap_cons, lookedUp_append, ih h.2, lookedUp_envOfText, if_neg (by simpa using Ne.symm h.1)]
    rfl

/-- Of fields with different names each is seen under its own. -/
theorem lookedUp_fields (hfields : (fields.map (·.1)).Nodup) (h : (suffix, field) ∈ fields) :
    lookedUp (stem ++ suffix) (fields.flatMap fun f => envOfText (stem ++ f.1) f.2) = field.filter (· ≠ "") := by
  induction fields with
  | nil => exact absurd h List.not_mem_nil
  | cons f fields ih =>
    rw [List.map_cons, List.nodup_cons] at hfields
    rw [List.flatMap_cons, lookedUp_append, lookedUp_envOfText]
    rcases List.mem_cons.1 h with rfl | h
    · rw [lookedUp_fields_of_notMem hfields.1, if_pos rfl]
      rfl
    · have hne : stem ++ f.1 ≠ stem ++ suffix := by
        rw [Ne, String.append_right_inj]
        intro hf
        exact hfields.1 (hf ▸ List.mem_map_of_mem h)
      rw [ih hfields.2 h, if_neg hne, Option.or_none]

/-- The variables of a spec are those of its fields, and three others. -/
theorem createEnvVars_eq (s : SSLSpec) (stem secretMount : String) : s.createEnvVars stem secretMount =
    envOfFlag (stem ++ "_SSL_ENABLED") s.enabled ++
      envOf (stem ++ "_SSL_CERTS") ((s.secrets.filter (· ≠ "")).map fun _ => secretMount) ++
      s.textFields.flatMap (fun f => envOfText (stem ++ f.1) f.2) ++
      envOfFlag (stem ++ "_SSL_REQUIRE_CLIENT_CERT") s.requireClientCert := by
  simp only [SSLSpec.createEnvVars, SSLSpec.textFields, List.flatMap_cons, List.flatMap_nil, List.append_nil, List.append_assoc]

theorem environ_secured (h : suffix ∈ securedSuffixes) :
    c.environ (port.secured s) others (c.stem ++ suffix) =
      (lookedUp (c.stem ++ suffix) (s.createEnvVars c.stem c.secretMount)).getD "" := by
  have hown : c.stem ++ suffix ∈ c.ownVariables := List.mem_map_of_mem (List.mem_cons_of_mem _ (List.mem_cons_of_mem _ h))
  have hport : "_PORT" ≠ suffix := fun hs => absurd (hs ▸ h) (by decide)
  have henabled : "_ENABLED" ≠ suffix := fun hs => absurd (hs ▸ h) (by decide)
  rw [SecuredComponent.environ, environ_own hown, PortSpecWithSSL.createEnvVars, PortSpecWithSSL.secured, Option.filter_some_pos (by simp)]
  dsimp only [Option.map_some, Option.getD_some]
  rw [lookedUp_append, lookedUp_append, lookedUp_singleton, lookedUp_singleton, if_neg (by simpa using hport),
    if_neg (by simpa using henabled), Option.none_or, Option.or_none]

/-- What the runner finds of a text field. -/
theorem getenv_field (h : (suffix, field) ∈ s.textFields) :
    c.environ (port.secured s) others (c.stem ++ suffix) = field.getD "" := by
  have hsuffixes : ∀ f ∈ s.textFields.map (·.1), f ∈ securedSuffixes ∧ f ≠ "_SSL_ENABLED" ∧ f ≠ "_SSL_CERTS" ∧
      f ≠ "_SSL_REQUIRE_CLIENT_CERT" := by
    show ∀ f ∈ ["_SSL_KEYSTORE", "_SSL_KEYSTORE_PASSWORD_FILE", "_SSL_KEY_PASSWORD_FILE", "_SSL_KEYSTORE_ALGORITHM",
      "_SSL_KEYSTORE_PROVIDER", "_SSL_KEYSTORE_TYPE", "_SSL_TRUSTSTORE", "_SSL_TRUSTSTORE_PASSWORD_FILE", "_SSL_TRUSTSTORE_ALGORITHM",
      "_SSL_TRUSTSTORE_PROVIDER", "_SSL_TRUSTSTORE_TYPE"], _
    decide
  obtain ⟨hsuffix, henabled, hcerts, hclient⟩ := hsuffixes suffix (List.mem_map_of_mem h)
  have hnodup : (s.textFields.map (·.1)).Nodup := by
    show ["_SSL_KEYSTORE", "_SSL_KEYSTORE_PASSWORD_FILE", "_SSL_KEY_PASSWORD_FILE", "_SSL_KEYSTORE_ALGORITHM",
      "_SSL_KEYSTORE_PROVIDER", "_SSL_KEYSTORE_TYPE", "_SSL_TRUSTSTORE", "_SSL_TRUSTSTORE_PASSWORD_FILE", "_SSL_TRUSTSTORE_ALGORITHM",
      "_SSL_TRUSTSTORE_PROVIDER", "_SSL_TRUSTSTORE_TYPE"].Nodup
    decide
  rw [environ_secured hsuffix, createEnvVars_eq]
  simp only [lookedUp_append, lookedUp_fields hnodup h, lookedUp_envOfFlag, lookedUp_envOf, String.append_right_inj]
  rw [if_neg (fun hs => hclient hs.1.symm), if_neg (Ne.symm hcerts), if_neg (fun hs => henabled hs.1.symm), Option.none_or, Option.none_or,
    Option.or_none, getD_filter_ne_empty]

theorem lookedUp_textFields (h : suffix ∉ s.textFields.map (·.1)) :
    lookedUp (stem ++ suffix) (s.textFields.flatMap fun f => envOfText (stem ++ f.1) f.2) = none := lookedUp_fields_of_notMem h

/-- What the runner finds of the secret. -/
theorem getenv_certs (port : PortSpecWithSSL) (s : SSLSpec) (others : String → String) : c.environ (port.secured s) others (c.stem ++ "_SSL_CERTS") =
    if s.secrets.getD "" ≠ "" then c.secretMount else "" := by
  have hfields : "_SSL_CERTS" ∉ s.textFields.map (·.1) := by simp [SSLSpec.textFields]
  rw [environ_secured (by decide), createEnvVars_eq]
  simp only [lookedUp_append, lookedUp_textFields hfields, lookedUp_envOfFlag, lookedUp_envOf, String.append_right_inj]
  cases hsecrets : s.secrets with
  | none => simp
  | some secret =>
    by_cases h : secret = ""
    · simp [h, Option.filter]
    · simp [h, Option.filter]

/-- What the runner finds of the two flags. -/
theorem getenv_enabled : c.environ (port.secured s) others (c.stem ++ "_SSL_ENABLED") = if s.enabled = some true then "true" else "" := by
  have hfields : "_SSL_ENABLED" ∉ s.textFields.map (·.1) := by simp [SSLSpec.textFields]
  rw [environ_secured (by decide), createEnvVars_eq]
  simp only [lookedUp_append, lookedUp_textFields hfields, lookedUp_envOfFlag, lookedUp_envOf, String.append_right_inj]
  by_cases h : s.enabled = some true
  · simp [h]
  · simp [h]

theorem getenv_requireClientCert : c.environ (port.secured s) others (c.stem ++ "_SSL_REQUIRE_CLIENT_CERT") =
    if s.requireClientCert = some true then "true" else "" := by
  have hfields : "_SSL_REQUIRE_CLIENT_CERT" ∉ s.textFields.map (·.1) := by simp [SSLSpec.textFields]
  rw [environ_secured (by decide), createEnvVars_eq]
  simp only [lookedUp_append, lookedUp_textFields hfields, lookedUp_envOfFlag, lookedUp_envOf, String.append_right_inj]
  by_cases h : s.requireClientCert = some true
  · simp [h]
  · simp [h]

end

/-! ### What the runner emits -/

namespace RunDetails

variable {d : RunDetails} {stem suffix property before : String} {field : Option String} {ps qs : List SecurityProperty}

/-- The details with the options for some properties. -/
def emit (d : RunDetails) (ps : List SecurityProperty) : RunDetails := { d with args := d.args ++ ps.map (·.option d.env) }

@[simp] theorem emit_nil (d : RunDetails) : d.emit [] = d := by simp [emit]

@[simp] theorem emit_emit : (d.emit ps).emit qs = d.emit (ps ++ qs) := by simp [emit]

@[simp] theorem env_emit : (d.emit ps).env = d.env := rfl

/-- Something without a dollar. -/
structure IsName (s : String) : Prop where
  ne_empty : s.toList ≠ []
  notMem : '$' ∉ s.toList

theorem IsName.append {s t : String} (hs : IsName s) (ht : '$' ∉ t.toList) : IsName (s ++ t) where
  ne_empty := by simp [hs.ne_empty]
  notMem := by simp [hs.notMem, ht]

/-- A property of which only the value may refer to variables. -/
theorem addSystemPropertyArg_eq_emit (hproperty : IsName property) (hbefore : '$' ∉ before.toList) (value : String) :
    d.addSystemPropertyArg property (before ++ value) = d.emit [{ name := property, before, value }] := by
  have hdollar : '$' ∉ (systemProperty property before).toList := by
    simp only [systemProperty, String.toList_append, List.mem_append, not_or]
    exact ⟨⟨⟨by decide, hproperty.notMem⟩, by decide⟩, hbefore⟩
  have hne : property ≠ "" := by
    rintro rfl
    exact hproperty.ne_empty rfl
  have hoption : d.expandEnv (systemProperty property (before ++ value)) = systemProperty property before ++ expand d.env value := by
    have hsplit : systemProperty property (before ++ value) = systemProperty property before ++ value := by
      simp only [systemProperty, String.append_assoc]
    rw [hsplit]
    exact expand_append d.env hdollar
  rw [addSystemPropertyArg, if_pos hne, hoption]
  rfl

/-- The property of a field, from what the runner finds of it. -/
theorem addSSLProperty_eq_emit (hvalue : d.env (stem ++ suffix) = field.getD "") (hproperty : IsName property)
    (hbefore : '$' ∉ before.toList) : d.addSSLProperty stem suffix property before = d.emit (securityProperty property before field) := by
  have hgetenv : d.getenvWithPrefix stem suffix = field.getD "" := hvalue
  rw [addSSLProperty, hgetenv, securityProperty]
  by_cases hempty : field.getD "" = ""
  · have hfilter : field.filter (· ≠ "") = none := by
      cases field with
      | none => rfl
      | some value => simpa [Option.filter] using hempty
    rw [if_pos hempty, hfilter]
    simp
  · obtain ⟨value, rfl⟩ : ∃ value, field = some value := by
      cases field with
      | none => exact absurd rfl hempty
      | some value => exact ⟨value, rfl⟩
    rw [Option.getD_some] at hempty
    rw [if_neg (by simpa using hempty), Option.filter_some_pos (by simpa using hempty), addSystemPropertyArg_eq_emit hproperty hbefore]
    rfl

end RunDetails

section

variable {s : SSLSpec} {c : SecuredComponent} {port : PortSpecWithSSL} {others : String → String} {d : RunDetails}

theorem addSSL_eq (c : SecuredComponent) (d : RunDetails) : c.addSSL d = d.addSSL c.stem c.property c.provider := by
  cases c with
  | management => rfl
  | metrics => rfl

/-- What comes before a store, and before a file with a password. -/
theorem getSSLPrefixes_secured (hd : d.env = c.environ (port.secured s) others) :
    d.getSSLPrefixes c.stem = ("file:" ++ s.directory c, s.directory c) := by
  have hcerts : d.getenvWithPrefix c.stem "_SSL_CERTS" = if s.secrets.getD "" ≠ "" then c.secretMount else "" := by
    rw [← getenv_certs port s others, ← hd]
    rfl
  rw [RunDetails.getSSLPrefixes, hcerts, SSLSpec.directory]
  by_cases hsecrets : s.secrets.getD "" = ""
  · have hnone : ¬ s.secrets.getD "" ≠ "" := not_not.2 hsecrets
    simp only [if_neg hnone]
    rfl
  · rw [if_pos hsecrets, if_pos hsecrets]
    cases c with
    | management => decide
    | metrics => decide

theorem directory_notMem (s : SSLSpec) (c : SecuredComponent) : '$' ∉ (s.directory c).toList := by
  rw [SSLSpec.directory]
  split
  · cases c with
    | management => decide
    | metrics => decide
  · decide

/-- What becomes of a text field: the property, and what comes before its value. -/
structure FieldProperty where
  suffix : String
  field : Option String
  property : String
  before : String

/-- The properties of the text fields, in the order of the runner. -/
def SSLSpec.fieldProperties (s : SSLSpec) (c : SecuredComponent) : List FieldProperty :=
  let security := "coherence." ++ c.property ++ ".security."
  let url := "file:" ++ s.directory c
  let path := s.directory c
  [ { suffix := "_SSL_KEYSTORE", field := s.keyStore, property := security ++ "keystore", before := url },
    { suffix := "_SSL_KEYSTORE_PASSWORD_FILE", field := s.keyStorePasswordFile, property := security ++ "keystore.password", before := path },
    { suffix := "_SSL_KEY_PASSWORD_FILE", field := s.keyPasswordFile, property := security ++ "key.password", before := path },
    { suffix := "_SSL_KEYSTORE_ALGORITHM", field := s.keyStoreAlgorithm, property := security ++ "keystore.algorithm", before := "" },
    { suffix := "_SSL_KEYSTORE_PROVIDER", field := s.keyStoreProvider, property := security ++ "keystore.provider", before := "" },
    { suffix := "_SSL_KEYSTORE_TYPE", field := s.keyStoreType, property := security ++ "keystore.type", before := "" },
    { suffix := "_SSL_TRUSTSTORE", field := s.trustStore, property := security ++ "truststore", before := url },
    { suffix := "_SSL_TRUSTSTORE_PASSWORD_FILE", field := s.trustStorePasswordFile, property := security ++ "truststore.password", before := path },
    { suffix := "_SSL_TRUSTSTORE_ALGORITHM", field := s.trustStoreAlgorithm, property := security ++ "truststore.algorithm", before := "" },
    { suffix := "_SSL_TRUSTSTORE_PROVIDER", field := s.trustStoreProvider, property := security ++ "truststore.provider", before := "" },
    { suffix := "_SSL_TRUSTSTORE_TYPE", field := s.trustStoreType, property := security ++ "truststore.type", before := "" } ]

/-- May the runner emit the property of the field? -/
structure FieldProperty.IsSound (f : FieldProperty) (s : SSLSpec) : Prop where
  field : (f.suffix, f.field) ∈ s.textFields
  property : RunDetails.IsName f.property
  before : '$' ∉ f.before.toList

theorem isName_component (c : SecuredComponent) : RunDetails.IsName ("coherence." ++ c.property) := by
  have hcoherence : RunDetails.IsName "coherence." := ⟨by decide, by decide⟩
  cases c with
  | management => exact hcoherence.append (by decide)
  | metrics => exact hcoherence.append (by decide)

theorem isSound_of_mem : ∀ f ∈ s.fieldProperties c, f.IsSound s := by
  have hpath := directory_notMem s c
  have hurl : '$' ∉ ("file:" ++ s.directory c).toList := by
    rw [String.toList_append, List.mem_append, not_or]
    exact ⟨by decide, hpath⟩
  have hnone : '$' ∉ "".toList := by decide
  have hname : ∀ name, '$' ∉ name.toList → RunDetails.IsName ("coherence." ++ c.property ++ ".security." ++ name) :=
    fun name hname => ((isName_component c).append (by decide)).append hname
  simp only [SSLSpec.fieldProperties, List.forall_mem_cons, List.not_mem_nil, false_implies, implies_true, and_true]
  refine ⟨⟨?_, hname _ (by decide), hurl⟩, ⟨?_, hname _ (by decide), hpath⟩,
    ⟨?_, hname _ (by decide), hpath⟩, ⟨?_, hname _ (by decide), hnone⟩,
    ⟨?_, hname _ (by decide), hnone⟩, ⟨?_, hname _ (by decide), hnone⟩,
    ⟨?_, hname _ (by decide), hurl⟩, ⟨?_, hname _ (by decide), hpath⟩,
    ⟨?_, hname _ (by decide), hnone⟩, ⟨?_, hname _ (by decide), hnone⟩,
    ⟨?_, hname _ (by decide), hnone⟩⟩
  all_goals simp [SSLSpec.textFields]

/-- Field after field, each adds its property. -/
theorem foldl_addSSLProperty {fs : List FieldProperty} (hfs : ∀ f ∈ fs, f.IsSound s) (hd : d.env = c.environ (port.secured s) others) :
    fs.foldl (fun d f => d.addSSLProperty c.stem f.suffix f.property f.before) d =
      d.emit (fs.flatMap fun f => securityProperty f.property f.before f.field) := by
  induction fs generalizing d with
  | nil => simp
  | cons f fs ih =>
    obtain ⟨hf, hfs⟩ := List.forall_mem_cons.1 hfs
    have hfield : d.env (c.stem ++ f.suffix) = f.field.getD "" := by
      rw [hd]
      exact getenv_field hf.field
    have hfirst := RunDetails.addSSLProperty_eq_emit hfield hf.property hf.before
    rw [List.foldl_cons, hfirst, ih (d := d.emit _) hfs hd, RunDetails.emit_emit, List.flatMap_cons]

/-- The property of a flag, when its variable is set. -/
def RunDetails.addFlagProperty (d : RunDetails) (stem suffix property value : String) : RunDetails :=
  if d.getenvWithPrefix stem suffix ≠ "" then d.addSystemPropertyArg property value else d

theorem addFlagProperty_eq_emit {flag : Option Bool} {stem suffix property value : String}
    (hvalue : d.env (stem ++ suffix) = if flag = some true then "true" else "") (hproperty : RunDetails.IsName property) :
    d.addFlagProperty stem suffix property value = d.emit (if flag = some true then [{ name := property, value }] else []) := by
  have hgetenv : d.getenvWithPrefix stem suffix = if flag = some true then "true" else "" := hvalue
  have hbefore : '$' ∉ "".toList := by decide
  have hemit := RunDetails.addSystemPropertyArg_eq_emit (d := d) hproperty hbefore value
  rw [String.empty_append] at hemit
  rw [RunDetails.addFlagProperty, hgetenv, hemit]
  by_cases h : flag = some true
  · rw [if_pos h, if_pos h, if_pos (by decide)]
  · rw [if_neg h, if_neg h, if_neg (by decide), RunDetails.emit_nil]

/-- The runner goes through the fields, with a flag before and after. -/
theorem addSSL_eq_foldl (hd : d.env = c.environ (port.secured s) others) : c.addSSL d =
    ((s.fieldProperties c).foldl (fun d f => d.addSSLProperty c.stem f.suffix f.property f.before)
      (d.addFlagProperty c.stem "_SSL_ENABLED" ("coherence." ++ c.property ++ ".http.provider") c.provider)).addFlagProperty
        c.stem "_SSL_REQUIRE_CLIENT_CERT" ("coherence." ++ c.property ++ ".http.auth") "cert" := by
  rw [addSSL_eq, RunDetails.addSSL, getSSLPrefixes_secured hd]
  dsimp only [SSLSpec.fieldProperties, List.foldl_cons, List.foldl_nil, RunDetails.addFlagProperty]

/-- **The runner emits the security properties of the spec**, and nothing else, for a port that is enabled: each field on its own,
with one beginning before its value and the references to variables in the value expanded. -/
theorem emits_secured (c : SecuredComponent) (port : PortSpecWithSSL) (s : SSLSpec) (others : String → String) (d : RunDetails)
    (hd : d.env = c.environ { port with enabled := some true, ssl := some s } others) :
    c.addSSL d = { d with args := d.args ++ (s.securityProperties c).map (·.option d.env) } := by
  have hprovider := (isName_component c).append (t := ".http.provider") (by decide)
  have hauth := (isName_component c).append (t := ".http.auth") (by decide)
  have henabled : d.addFlagProperty c.stem "_SSL_ENABLED" ("coherence." ++ c.property ++ ".http.provider") c.provider =
      d.emit (if s.enabled = some true then [{ name := "coherence." ++ c.property ++ ".http.provider", value := c.provider }] else []) :=
    addFlagProperty_eq_emit (by rw [hd]; exact getenv_enabled) hprovider
  have hfields : ∀ ps, (s.fieldProperties c).foldl (fun d f => d.addSSLProperty c.stem f.suffix f.property f.before) (d.emit ps) =
      d.emit (ps ++ (s.fieldProperties c).flatMap fun f => securityProperty f.property f.before f.field) := by
    intro ps
    have hfoldl := foldl_addSSLProperty (d := d.emit ps) (isSound_of_mem (s := s) (c := c)) hd
    rw [hfoldl, RunDetails.emit_emit]
  have hclient : ∀ ps, (d.emit ps).addFlagProperty c.stem "_SSL_REQUIRE_CLIENT_CERT" ("coherence." ++ c.property ++ ".http.auth") "cert" =
      d.emit (ps ++ if s.requireClientCert = some true then [{ name := "coherence." ++ c.property ++ ".http.auth", value := "cert" }] else []) := by
    intro ps
    rw [addFlagProperty_eq_emit (by rw [RunDetails.env_emit, hd]; exact getenv_requireClientCert) hauth, RunDetails.emit_emit]
  rw [addSSL_eq_foldl hd, henabled, hfields, hclient, RunDetails.emit]
  simp only [SSLSpec.securityProperties, SSLSpec.fieldProperties, List.flatMap_cons, List.flatMap_nil, List.append_nil, List.append_assoc]

/-- A key store in a secret, of an algorithm that a variable names. -/
theorem emits_secured_keyStore : (SecuredComponent.metrics.addSSL
    { env := SecuredComponent.metrics.environ
        { enabled := some true, ssl := some { secrets := some "certs", keyStore := some "server.jks", keyStoreAlgorithm := some "$ALGORITHM" } }
        fun name => if name = "ALGORITHM" then "PKIX" else ""
      coherenceHome := "", javaHome := "", utilsDir := "", getSite := true, appType := "" }).args =
    ["-Dcoherence.metrics.security.keystore=file:/coherence-operator/coherence/certs/metrics/server.jks",
      "-Dcoherence.metrics.security.keystore.algorithm=PKIX"] := by
  rw [emits_secured .metrics {} { secrets := some "certs", keyStore := some "server.jks", keyStoreAlgorithm := some "$ALGORITHM" } _ _ rfl]
  decide +kernel

end

end CoherenceOperator
