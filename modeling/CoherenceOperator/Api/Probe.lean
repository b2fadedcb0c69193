import CoherenceOperator.Api.Kubernetes

/-!
# Probes

The actions that the operator can take on a member of the cluster, with the checks that the controller makes of them: of a
probe with an HTTP action (`validateAction`), and of the record of how the health server of a member is
secured (`HealthMutatorConnection`).
-/

namespace CoherenceOperator

/-- The annotation with the connection that a Pod was made with. -/
def HealthMutatorAnnotation : String := "coherence.oracle.com/health-mutator-connection"

/-- The environment variable with that connection. -/
def HealthMutatorEnv : String := "COHERENCE_HEALTH_MUTATOR_CONNECTION"

/-- `corev1.SecretKeySelector`. -/
structure SecretKeySelector where
  name : String := ""
  key : String := ""
  optional : Option Bool := none
  deriving DecidableEq, Repr

/-- Does the selector name a key that has to be there? -/
def SecretKeySelector.valid (s : SecretKeySelector) : Bool := s.name ≠ "" ∧ s.key ≠ "" ∧ s.optional ≠ some true

/-- `HTTPBasicAuth`. -/
structure HTTPBasicAuth where
  username : SecretKeySelector
  password : SecretKeySelector
  deriving DecidableEq, Repr

/-- `HTTPClientTLS`. -/
structure HTTPClientTLS where
  caSecret : SecretKeySelector
  serverName : String := ""
  deriving DecidableEq, Repr

/-- `HTTPAction`, with the fields of its `HTTPEndpoint`. -/
structure HTTPAction where
  path : String := ""
  port : IntOrString
  host : String := ""
  scheme : String := ""
  httpHeaders : List HTTPActionHeader := []
  method : String := ""
  basicAuth : Option HTTPBasicAuth := none
  tls : Option HTTPClientTLS := none
  deriving DecidableEq, Repr

/-- `Probe`, with the fields of its `ProbeHandler`; of `exec` the command, of `grpc` the port. -/
structure Probe where
  http : Option HTTPAction := none
  exec : Option (List String) := none
  httpGet : Option HTTPGetAction := none
  tcpSocket : Option TCPSocketAction := none
  grpc : Option ℤ := none
  timeoutSeconds : Option ℤ := none
  deriving DecidableEq, Repr

/-- `GetTimeout`, in seconds. -/
def Probe.getTimeout (p : Probe) : ℤ :=
  match p.timeoutSeconds with
  | some n => if n ≤ 0 then 1 else n
  | none => 1

/-- Is the request of the probe another than a `GET`? `IsStatusHA` refuses it then. -/
def Probe.mutates (p : Probe) : Bool := p.http.any fun a => a.method ≠ "" ∧ a.method ≠ "GET"

/-- The errors of a probe: a `RequestError`, with the status of the response if there was one, a `SuspensionCauseError`, or what
the action itself returned. -/
inductive ProbeError where
  | request (kind : String) (statusCode : Option ℤ := none)
  | podNotReady (pod phase : String)
  | podCountMismatch (actual expected : ℤ)
  | probeUnavailable
  | workloadLookupFailed
  | other (text : String)
  deriving DecidableEq, Repr

/-- `strings.EqualFold(name, "Authorization")`. -/
def HTTPActionHeader.isAuthorization (h : HTTPActionHeader) : Bool := h.name.toLower == "authorization"

/-- `strings.HasPrefix`. -/
def hasPrefix (s t : String) : Bool := t.toList.isPrefixOf s.toList

/-- Is the host more than a host, or the path not an absolute one? -/
def HTTPAction.hasInvalidEndpoint (a : HTTPAction) : Bool :=
  a.host.toList.any (fun c => c ∈ "/@?#".toList) || (!hasPrefix a.path "/" && a.path ≠ "") || hasPrefix a.path "//"

/-- The checks of `ValidateAction` on credentials. -/
def HTTPAction.validateBasicAuth (a : HTTPAction) (auth : HTTPBasicAuth) : Except String Unit :=
  if a.host ≠ "" then .error "basic authentication requires the target Pod address; host must be empty"
  else if a.scheme ≠ "HTTPS" then .error "basic authentication requires HTTPS"
  else if !auth.username.valid || !auth.password.valid then .error "required credential Secret selectors are incomplete"
  else if a.httpHeaders.any (·.isAuthorization) then .error "authorization conflicts with basicAuth"
  else .ok ()

/-- `ValidateAction`, for a probe that is there. -/
def Probe.validateAction (p : Probe) : Except String Unit :=
  match p.http with
  | none => .ok ()
  | some a => do
    if p.exec.isSome || p.httpGet.isSome || p.tcpSocket.isSome || p.grpc.isSome then
      throw "HTTP cannot be combined with a legacy probe action"
    if a.method ≠ "" ∧ a.method ≠ "GET" ∧ a.method ≠ "PUT" then throw "HTTP method must be GET or PUT"
    if a.scheme ≠ "" ∧ a.scheme ≠ "HTTP" ∧ a.scheme ≠ "HTTPS" then throw "unsupported HTTP scheme"
    if a.hasInvalidEndpoint then throw "invalid HTTP endpoint"
    if a.httpHeaders.any (·.isAuthorization) ∧ a.scheme ≠ "HTTPS" then throw "authorization requires HTTPS"
    match a.basicAuth with
    | some auth => a.validateBasicAuth auth
    | none => pure ()
    if a.tls.any fun tls => a.scheme ≠ "HTTPS" || !tls.caSecret.valid then
      throw "TLS requires HTTPS and a required CA Secret selector"

/-- A check that was passed. -/
theorem ite_error_eq_ok {ε α : Type} {c : Prop} [Decidable c] {e : ε} {x : Except ε α} {r : α} :
    (if c then .error e else x) = .ok r ↔ ¬ c ∧ x = .ok r := by
  by_cases hc : c
  · simp [hc]
  · simp [hc]

/-- What an HTTP action is, that has passed all checks. -/
structure HTTPAction.IsValid (p : Probe) (a : HTTPAction) : Prop where
  alone : (p.exec.isSome || p.httpGet.isSome || p.tcpSocket.isSome || p.grpc.isSome) = false
  method : a.method = "" ∨ a.method = "GET" ∨ a.method = "PUT"
  scheme : a.scheme = "" ∨ a.scheme = "HTTP" ∨ a.scheme = "HTTPS"
  endpoint : a.hasInvalidEndpoint = false
  authorization : a.httpHeaders.any (·.isAuthorization) = true → a.scheme = "HTTPS"
  basicAuth : ∀ auth, a.basicAuth = some auth → a.validateBasicAuth auth = .ok ()
  tls : ∀ tls, a.tls = some tls → a.scheme = "HTTPS" ∧ tls.caSecret.valid = true

/-- The check of the certificates, which is the last one. -/
theorem HTTPAction.tls_iff {a : HTTPAction} {e : String} :
    (if a.tls.any (fun tls => a.scheme ≠ "HTTPS" || !tls.caSecret.valid) then .error e else .ok () : Except String Unit) =
      .ok () ↔ ∀ tls, a.tls = some tls → a.scheme = "HTTPS" ∧ tls.caSecret.valid = true := by
  rw [ite_error_eq_ok]
  cases a.tls with
  | none => simp
  | some tls => simp

theorem Probe.validateAction_eq_ok_iff {p : Probe} {a : HTTPAction} (hhttp : p.http = some a) :
    p.validateAction = .ok () ↔ a.IsValid p := by
  rw [Probe.validateAction, hhttp]
  simp only [bind, Except.bind, throw, throwThe, MonadExceptOf.throw, pure, Except.pure]
  rw [ite_error_eq_ok, ite_error_eq_ok, ite_error_eq_ok, ite_error_eq_ok, ite_error_eq_ok]
  constructor
  · rintro ⟨halone, hmethod, hscheme, hendpoint, hauthorization, h⟩
    have hlast : (∀ auth, a.basicAuth = some auth → a.validateBasicAuth auth = .ok ()) ∧
        ∀ tls, a.tls = some tls → a.scheme = "HTTPS" ∧ tls.caSecret.valid = true := by
      cases hauth : a.basicAuth with
      | none =>
        rw [hauth] at h
        exact ⟨fun _ h => absurd h (by simp), HTTPAction.tls_iff.1 h⟩
      | some auth =>
        simp only [hauth] at h
        cases hvalid : a.validateBasicAuth auth with
        | error e =>
          rw [hvalid] at h
          cases h
        | ok _ =>
          rw [hvalid] at h
          refine ⟨?_, HTTPAction.tls_iff.1 h⟩
          rintro _ ⟨⟩
          exact hvalid
    exact ⟨by simpa using halone, by tauto, by tauto, by simpa using hendpoint, by tauto, hlast.1, hlast.2⟩
  · rintro ⟨halone, hmethod, hscheme, hendpoint, hauthorization, hbasic, htls⟩
    refine ⟨by simp [halone], by tauto, by tauto, by simp [hendpoint], by tauto, ?_⟩
    cases hauth : a.basicAuth with
    | none => exact HTTPAction.tls_iff.2 htls
    | some auth =>
      simp only [hbasic auth hauth]
      exact HTTPAction.tls_iff.2 htls

/-- `SSLSpec`. -/
structure SSLSpec where
  enabled : Option Bool := none
  secrets : Option String := none
  keyStore : Option String := none
  keyStorePasswordFile : Option String := none
  keyPasswordFile : Option String := none
  keyStoreAlgorithm : Option String := none
  keyStoreProvider : Option String := none
  keyStoreType : Option String := none
  trustStore : Option String := none
  trustStorePasswordFile : Option String := none
  trustStoreAlgorithm : Option String := none
  trustStoreProvider : Option String := none
  trustStoreType : Option String := none
  requireClientCert : Option Bool := none
  deriving DecidableEq, Repr

/-- `HealthMutatorConnection`; `jaas` is the mode of its `HealthJAAS`. -/
structure HealthMutatorConnection where
  secure : Bool := false
  basicAuth : Option HTTPBasicAuth := none
  tls : Option HTTPClientTLS := none
  serverTLS : Option SSLSpec := none
  jaas : Option String := none
  deriving DecidableEq, Repr

/-- Is this the one-way TLS identity of a member? -/
def SSLSpec.isOneWay (s : SSLSpec) : Bool := s.enabled = some true ∧ s.requireClientCert ≠ some true

/-- `HealthMutatorConnection.Validate`, for a connection that is there. -/
def HealthMutatorConnection.validate (c : HealthMutatorConnection) : Except String Unit :=
  if !c.secure then
    if c.basicAuth.isSome || c.tls.isSome || c.serverTLS.isSome || c.jaas.isSome then
      .error "security settings require secure mode"
    else .ok ()
  else
    match c.basicAuth, c.tls, c.serverTLS with
    | some basicAuth, some tls, some serverTLS => do
      if tls.serverName = "" || !serverTLS.isOneWay then
        throw "secure health mutators require credentials and one-way TLS with a verified server name"
      { http := some { port := .int 0, scheme := "HTTPS", basicAuth, tls } : Probe }.validateAction
      if c.jaas.any fun mode => mode ≠ "" ∧ mode ≠ "packaged" ∧ mode ≠ "existing" then
        throw "unsupported health JAAS mode"
      if [serverTLS.keyStore, serverTLS.keyStorePasswordFile, serverTLS.keyPasswordFile].any fun f => f.getD "" = "" then
        throw "server keystore and password files are required"
    | _, _, _ => .error "secure health mutators require credentials and one-way TLS with a verified server name"

end CoherenceOperator
