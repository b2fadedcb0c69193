import CoherenceOperator.Footprint.Contacting

/-!
# Where credentials go

The requests of an HTTP action: a request that carries credentials is made over TLS, those that are read from Secrets go to the
address of the Pod only, and there is no request at all if a Secret is not as it should be.
-/

namespace CoherenceOperator

open Effect Prog

/-! ### What `ValidateAction` has checked -/

section

variable {p : Probe} {a : HTTPAction}

theorem HTTPAction.eq_of_validateBasicAuth {auth : HTTPBasicAuth} (h : a.validateBasicAuth auth = .ok ()) :
    a.host = "" ∧ a.scheme = "HTTPS" := by
  rw [validateBasicAuth] at h
  split at h
  · cases h
  rename_i hhost
  split at h
  · cases h
  rename_i hscheme
  exact ⟨not_not.1 hhost, not_not.1 hscheme⟩

/-- Credentials that are read are for TLS, and for the Pod. -/
theorem Probe.eq_of_basicAuth {auth : HTTPBasicAuth} (h : p.validateAction = .ok ()) (hhttp : p.http = some a)
    (hauth : a.basicAuth = some auth) : a.host = "" ∧ a.scheme = "HTTPS" :=
  HTTPAction.eq_of_validateBasicAuth (((validateAction_eq_ok_iff hhttp).1 h).basicAuth auth hauth)

end

namespace ProbeActions

section

variable {env : ProbeEnv} {svc : String} {op : Operator} {options : ProbeExecutionOptions} {p active : Probe}
  {a : HTTPAction} {req : HTTPRequest} {pod : Pod} {ns : String}

/-! ### The request -/

/-- The Secrets of the action were read: its credentials are in the request, and the certificates are those to be trusted. -/
structure Reads (env : ProbeEnv) (ns : String) (a : HTTPAction) (req : HTTPRequest) : Prop where
  credentials : ∀ auth, a.basicAuth = some auth → ∃ username password,
    secretValue env ns auth.username = .ok username ∧ secretValue env ns auth.password = .ok password ∧
      (∀ c ∈ username.toList, c ≠ ':' ∧ c ≠ '\r' ∧ c ≠ '\n') ∧ basicAuthHeader username password ∈ req.headers
  trust : ∀ tls, a.tls = some tls → ∃ pem, secretValue env ns tls.caSecret = .ok pem ∧ env.hasCerts pem = true ∧
    req.tls = { rootCAs := some pem, serverName := tls.serverName }

/-- The host of the address of a Pod, with a port. -/
def podHost (env : ProbeEnv) (pod : Pod) (port : ℤ) : List Char :=
  Url.hostOf (Url.joinHostPort (getPodIpOrHostName env pod).toList (toString port).toList)

/-- An address that ends nowhere but at its end. -/
def IsPlain (address : String) : Prop := ∀ c ∈ address.toList, c ≠ '/' ∧ c ≠ '?' ∧ c ≠ '#' ∧ c ≠ '@'

/-- A number is a sign and digits. -/
theorem mem_toString {port : ℤ} {c : Char} (h : c ∈ (toString port).toList) : c = '-' ∨ c.isDigit = true := by
  have hrepr : ∀ {n : ℕ}, c ∈ n.repr.toList → c.isDigit = true := by
    intro n hc
    rw [Nat.repr, String.toList_ofList] at hc
    exact Nat.isDigit_of_mem_toDigits (by decide) (by decide) hc
  cases port with
  | ofNat n => exact .inr (hrepr h)
  | negSucc n =>
    change c ∈ ("-" ++ (n + 1).repr).toList at h
    rw [String.toList_append, List.mem_append] at h
    rcases h with h | h
    · exact .inl (by simpa using h)
    · exact .inr (hrepr h)

/-- The host of a plain address is the address, with the port. -/
theorem podHost_of_plain {port : ℤ} (h : IsPlain (getPodIpOrHostName env pod)) :
    podHost env pod port = Url.joinHostPort (getPodIpOrHostName env pod).toList (toString port).toList := by
  have hport : ∀ c ∈ (toString port).toList, c ≠ '/' ∧ c ≠ '?' ∧ c ≠ '#' ∧ c ≠ '@' := by
    intro c hc
    rcases mem_toString hc with rfl | hdigit
    · decide
    · refine ⟨?_, ?_, ?_, ?_⟩
      all_goals
        rintro rfl
        exact absurd hdigit (by decide)
  refine Url.hostOf_of_plain fun c hc => ?_
  rw [Url.joinHostPort] at hc
  split at hc
  · simp only [List.cons_append, List.mem_cons, List.mem_append] at hc
    rcases hc with rfl | hc | rfl | rfl | hc
    · decide
    · exact h c hc
    · decide
    · decide
    · exact hport c hc
  · rcases List.mem_append.1 hc with hc | hc
    · exact h c hc
    rcases List.mem_cons.1 hc with rfl | hc
    · decide
    · exact hport c hc

/-- Where the credentials of a request go, and that the Secrets that it takes were read. -/
structure Confined (env : ProbeEnv) (pod : Pod) (a : HTTPAction) (req : HTTPRequest) : Prop where
  scheme : req.headers.any (·.isAuthorization) = true → req.url.scheme = "https".toList
  address : a.basicAuth.isSome = true → req.url.scheme = "https".toList ∧ ∃ port : ℤ, req.url.host = podHost env pod port ∧
    (IsPlain (getPodIpOrHostName env pod) →
      req.url.host = Url.joinHostPort (getPodIpOrHostName env pod).toList (toString port).toList)
  reads : Reads env pod.ns a req

theorem tlsConfig_eq_ok {config : TLSConfig} (h : tlsConfig env ns a = .ok config) {tls : HTTPClientTLS}
    (htls : a.tls = some tls) : ∃ pem, secretValue env ns tls.caSecret = .ok pem ∧ env.hasCerts pem = true ∧
      config = { rootCAs := some pem, serverName := tls.serverName } := by
  simp only [tlsConfig, htls] at h
  obtain ⟨pem, hpem, h⟩ := bind_eq_ok.1 h
  split at h
  · rename_i hcerts
    cases h
    exact ⟨pem, hpem, hcerts, rfl⟩
  · cases h

theorem authorization_eq_ok {headers : List HTTPActionHeader} (h : authorization env ns a = .ok headers)
    {auth : HTTPBasicAuth} (hauth : a.basicAuth = some auth) : ∃ username password,
      secretValue env ns auth.username = .ok username ∧ secretValue env ns auth.password = .ok password ∧
        (∀ c ∈ username.toList, c ≠ ':' ∧ c ≠ '\r' ∧ c ≠ '\n') ∧ headers = [basicAuthHeader username password] := by
  simp only [authorization, hauth] at h
  obtain ⟨username, husername, h⟩ := bind_eq_ok.1 h
  obtain ⟨password, hpassword, h⟩ := bind_eq_ok.1 h
  split at h
  · cases h
  rename_i hchars
  cases h
  refine ⟨username, password, husername, hpassword, ?_, rfl⟩
  simpa [not_or] using hchars

/-- Without `basicAuth` there are no credentials that are read. -/
theorem authorization_of_none (hauth : a.basicAuth = none) : authorization env ns a = .ok [] := by
  rw [authorization, hauth]

/-- The parts that a request is built of. -/
theorem buildRequest_eq_ok (h : buildRequest env svc pod p a = .ok req) : ∃ port url tls auth,
    p.validateAction = .ok () ∧
      buildHTTPProbeURL (if a.scheme = "" then "HTTP" else a.scheme)
        (if a.host = "" then getPodIpOrHostName env pod else a.host) port a.path = .ok url ∧
      tlsConfig env pod.ns a = .ok tls ∧ authorization env pod.ns a = .ok auth ∧
      req.url = url ∧ req.headers = a.httpHeaders.filter (!isHost ·) ++ auth ∧ req.tls = tls := by
  rw [buildRequest] at h
  split at h
  · cases h
  rename_i hvalid
  obtain ⟨port, -, h⟩ := bind_eq_ok.1 h
  obtain ⟨url, hurl, h⟩ := bind_eq_ok.1 h
  obtain ⟨tls, htls, h⟩ := bind_eq_ok.1 h
  obtain ⟨auth, hauth, h⟩ := bind_eq_ok.1 h
  cases h
  refine ⟨port, url, tls, auth, hvalid, ?_, htls, hauth, rfl, rfl, rfl⟩
  revert hurl
  cases buildHTTPProbeURL _ _ port a.path with
  | error e =>
    intro hurl
    cases hurl
  | ok u =>
    intro hurl
    cases hurl
    rfl

/-- A URL over TLS. -/
theorem eq_of_buildHTTPProbeURL {host path : String} {port : ℤ} {url : Url.URL}
    (h : buildHTTPProbeURL "HTTPS" host port path = .ok url) :
    url.scheme = "https".toList ∧ url.host = Url.hostOf (Url.joinHostPort host.toList (toString port).toList) := by
  rw [buildHTTPProbeURL] at h
  exact Url.host_parse_https h

/-- **A request is confined.** -/
theorem confined_of_buildRequest (hhttp : p.http = some a) (h : buildRequest env svc pod p a = .ok req) :
    Confined env pod a req := by
  obtain ⟨port, url, tls, auth, hvalid, hurl, htls, hauth, rfl, hheaders, rfl⟩ := buildRequest_eq_ok h
  -- credentials that are read are for the Pod, over TLS
  have haddress : a.basicAuth.isSome = true →
      req.url.scheme = "https".toList ∧ req.url.host = podHost env pod port := by
    intro hsome
    obtain ⟨basicAuth, hbasic⟩ := Option.isSome_iff_exists.1 hsome
    obtain ⟨hhost, hscheme⟩ := Probe.eq_of_basicAuth hvalid hhttp hbasic
    rw [hhost, hscheme] at hurl
    exact eq_of_buildHTTPProbeURL hurl
  refine ⟨?_, ?_, ⟨?_, fun t ht => tlsConfig_eq_ok htls ht⟩⟩
  · intro hany
    rw [hheaders, List.any_append, Bool.or_eq_true] at hany
    rcases hany with hany | hany
    · have hcustom : a.httpHeaders.any (·.isAuthorization) = true := by
        obtain ⟨header, hmem, hheader⟩ := List.any_eq_true.1 hany
        exact List.any_eq_true.2 ⟨header, (List.mem_filter.1 hmem).1, hheader⟩
      have hscheme := ((Probe.validateAction_eq_ok_iff hhttp).1 hvalid).authorization hcustom
      rw [hscheme] at hurl
      exact (eq_of_buildHTTPProbeURL hurl).1
    · cases hbasic : a.basicAuth with
      | none =>
        rw [authorization_of_none hbasic] at hauth
        cases hauth
        cases hany
      | some _ => exact (haddress (by rw [hbasic]; rfl)).1
  · intro hsome
    obtain ⟨hscheme, hhost⟩ := haddress hsome
    exact ⟨hscheme, port, hhost, fun hplain => hhost.trans (podHost_of_plain hplain)⟩
  · intro basicAuth hbasic
    obtain ⟨username, password, husername, hpassword, hchars, rfl⟩ := authorization_eq_ok hauth hbasic
    refine ⟨username, password, husername, hpassword, hchars, ?_⟩
    rw [hheaders]
    exact List.mem_append_right _ List.mem_cons_self

/-! ### The execution of a probe -/

/-- A probe with an HTTP action has one under the security of a member. -/
theorem isSome_http_of_activeProbe (hhttp : p.http.isSome = true)
    (h : CoherenceProbe.activeProbe op options p pod = .ok active) : active.http.isSome = true := by
  have hsecure : ∀ {c}, CoherenceProbe.secureProbe options c p = .ok active → active.http.isSome = true := by
    intro c h
    rw [CoherenceProbe.secureProbe] at h
    split at h
    · rw [CoherenceProbe.secureSuspend] at h
      split at h
      · split at h
        · cases h
          rfl
        · cases h
      · cases h
    split at h
    · split at h
      · cases h
        exact hhttp
      · cases h
        exact hhttp
    · cases h
      exact hhttp
  simp only [CoherenceProbe.activeProbe] at h
  split at h
  · split at h
    · cases h
    split at h
    · cases h
    split at h
    · exact hsecure h
    · cases h
      exact hhttp
  split at h
  · cases h
  · cases h
    exact hhttp

/-- There is no contact, or one request to the Pod, which is confined. -/
def OneConfined (env : ProbeEnv) (pod : Pod) (p : Probe) (contacts : List Contact) : Prop :=
  contacts = [] ∨ ∃ a req, p.http = some a ∧ contacts = [.http pod a req] ∧ Confined env pod a req

/-- **Running an HTTP action.** -/
theorem oneConfined_of_ran {r : Except ProbeError Bool} {contacts : List Contact} (hhttp : p.http.isSome = true)
    (h : Ran env svc pod p r contacts) : OneConfined env pod p contacts := by
  cases h with
  | idle => exact .inl rfl
  | http ha hreq => exact .inr ⟨_, _, ha, rfl, confined_of_buildRequest ha hreq⟩
  | other hnone =>
    rw [hnone] at hhttp
    cases hhttp

end

/-- **Credentials are confined.** Whatever an HTTP action is executed on, there is one request at most, and it is confined: with
the action as the connection of the Pod has it, or as it is if it is run on its own. -/
theorem credentials_confined (env : ProbeEnv) (svc : String) (op : Operator) (p : Probe) (hhttp : p.http.isSome = true) :
    (∀ pod, OneConfined env pod p (exec (runProbe env svc pod p) []).2) ∧
      ∀ sts stsPods pods options, (exec (executeProbeForPods env svc op sts p stsPods pods options) []).2 = [] ∨
        ∃ pod ∈ pods, ∃ active, CoherenceProbe.activeProbe op options p pod = .ok active ∧
          OneConfined env pod active (exec (executeProbeForPods env svc op sts p stsPods pods options) []).2 := by
  constructor
  · intro pod
    obtain ⟨r, cs, hr, hran, -⟩ := comes_runProbe env svc pod p
    rw [hr, List.append_nil]
    exact oneConfined_of_ran hhttp hran
  · intro sts stsPods pods options
    obtain ⟨cs, hcs, hmade, hone, -⟩ := comes_executeProbeForPods env svc op p options pods stsPods sts
    rw [hcs, List.append_nil]
    have hfinal : isFinal options p = true := by simp [isFinal, hhttp]
    cases cs with
    | nil => exact .inl rfl
    | cons c rest =>
      right
      obtain ⟨pod, hpod, -, active, r, made, hactive, hran, hc⟩ := hmade c List.mem_cons_self
      refine ⟨pod, hpod, active, hactive, ?_⟩
      rw [(hone hfinal c List.mem_cons_self).1, ← (hran.pod_eq hc).1]
      exact oneConfined_of_ran (isSome_http_of_activeProbe hhttp hactive) hran

/-- The request of a secured member's suspension. -/
def securedSuspend : Probe where
  http := some {
    path := "/suspend"
    port := .int 6676
    scheme := "HTTPS"
    method := "PUT"
    basicAuth := some { username := { name := "health", key := "user" }, password := { name := "health", key := "password" } }
    tls := some { caSecret := { name := "health", key := "ca.crt" }, serverName := "storage" } }

def readableSecrets : ProbeEnv where
  secrets := some fun _ => .ok fun key => some key

def securedMember : Pod where
  name := "storage-0"
  ns := "default"
  podIP := "10.0.0.7"

theorem credentials_confined_securedSuspend :
    (exec (runProbe readableSecrets "storage-wka" securedMember securedSuspend) []).2.length = 1 ∧
      OneConfined readableSecrets securedMember securedSuspend
        (exec (runProbe readableSecrets "storage-wka" securedMember securedSuspend) []).2 :=
  ⟨by decide +kernel, (credentials_confined readableSecrets "storage-wka" default securedSuspend rfl).1 securedMember⟩

end ProbeActions

end CoherenceOperator
