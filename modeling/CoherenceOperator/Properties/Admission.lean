import CoherenceOperator.Api.Admission

/-!
# Admission and the controllers agree

The rules of the custom resource definitions are met by an object exactly if the controllers accept what it is decoded to.
-/

namespace CoherenceOperator

namespace Crd

open Cel

/-! ### Secrets -/

theorem SecretKeySelector.rule_iff {s : SecretKeySelector} : s.rule = some true ↔ s.decode.valid = true := by
  obtain ⟨name, key, optional⟩ := s
  simp only [rule, nonempty, and_eq_true, has_eq, select_eq, or_eq_true, not_eq, Bool.not_true, decode,
    CoherenceOperator.SecretKeySelector.valid]
  cases name <;> cases optional <;> simp
  tauto

/-! ### HTTP actions -/

section

variable {a : HTTPAction} {p : CoherenceOperator.Probe}

theorem isHTTPS_iff : a.isHTTPS = some true ↔ a.decode.scheme = "HTTPS" := by
  obtain ⟨path, port, host, scheme, headers, method, basicAuth, tls⟩ := a
  simp only [HTTPAction.isHTTPS, HTTPAction.decode, and_eq_true, has_eq, select_eq]
  cases scheme with
  | none => simp
  | some scheme => cases scheme <;> simp [Scheme.decode]

theorem headers_iff : or (not (has a.httpHeaders)) (select a.httpHeaders fun hs => all hs notAuthorization) = some true ↔
    a.decode.httpHeaders.any (·.isAuthorization) = false := by
  simp only [HTTPAction.decode, or_eq_true, not_eq, Bool.not_true, has_eq, select_eq, all_eq_true, notAuthorization]
  cases a.httpHeaders with
  | none => simp
  | some hs => simp [HTTPActionHeader.isAuthorization]

theorem hostContains_iff {c : Char} : a.hostContains c = some false ↔ ∃ host, a.host = some host ∧ c ∉ host.toList := by
  simp only [HTTPAction.hostContains, select_eq, Option.some.injEq, List.any_eq_false, decide_eq_true_eq]
  constructor
  · rintro ⟨host, hhost, h⟩
    exact ⟨host, hhost, fun hc => h c hc rfl⟩
  · rintro ⟨host, hhost, h⟩
    refine ⟨host, hhost, ?_⟩
    rintro _ hc rfl
    exact h hc

/-- The rules for the host and the path are what `ValidateAction` says of the endpoint. -/
theorem endpoint_iff :
    or (not (has a.host)) (and (and (and (not (a.hostContains '@')) (not (a.hostContains '/'))) (not (a.hostContains '?')))
        (not (a.hostContains '#'))) = some true ∧
      or (not (has a.path)) (and (select a.path fun path => some (hasPrefix path.1 "/"))
        (not (select a.path fun path => some (hasPrefix path.1 "//")))) = some true ↔
      a.decode.hasInvalidEndpoint = false := by
  have hhost : or (not (has a.host)) (and (and (and (not (a.hostContains '@')) (not (a.hostContains '/')))
      (not (a.hostContains '?'))) (not (a.hostContains '#'))) = some true ↔
        (a.host.getD "").toList.any (fun c => c ∈ "/@?#".toList) = false := by
    simp only [or_eq_true, and_eq_true, hostContains_iff, not_eq, has_eq, Bool.not_true]
    cases a.host with
    | none => simp
    | some host =>
      simp only [Option.isSome_some, Bool.true_eq_false, Option.some.injEq, exists_eq_left', false_or, Option.getD_some,
        List.any_eq_false, decide_eq_true_eq]
      constructor
      · rintro ⟨⟨⟨hat, hslash⟩, hquestion⟩, hhash⟩ c hc hmem
        have hcases : c = '/' ∨ c = '@' ∨ c = '?' ∨ c = '#' := by simpa using hmem
        rcases hcases with rfl | rfl | rfl | rfl
        · exact hslash hc
        · exact hat hc
        · exact hquestion hc
        · exact hhash hc
      · exact fun h => ⟨⟨⟨fun hc => h _ hc (by simp), fun hc => h _ hc (by simp)⟩, fun hc => h _ hc (by simp)⟩,
          fun hc => h _ hc (by simp)⟩
  have hpath : or (not (has a.path)) (and (select a.path fun path => some (hasPrefix path.1 "/"))
      (not (select a.path fun path => some (hasPrefix path.1 "//")))) = some true ↔
        ((!hasPrefix ((a.path.map (·.1)).getD "") "/" && (a.path.map (·.1)).getD "" ≠ "") = false ∧
          hasPrefix ((a.path.map (·.1)).getD "") "//" = false) := by
    simp only [or_eq_true, and_eq_true, select_eq, not_eq, has_eq, Bool.not_true]
    cases a.path with
    | none => simp [hasPrefix]
    | some path => simp [path.2]
  rw [hhost, hpath, CoherenceOperator.HTTPAction.hasInvalidEndpoint]
  simp only [HTTPAction.decode, Bool.or_eq_false_iff]
  tauto

theorem validateBasicAuth_iff {a : CoherenceOperator.HTTPAction} {auth : CoherenceOperator.HTTPBasicAuth} :
    a.validateBasicAuth auth = .ok () ↔ a.host = "" ∧ a.scheme = "HTTPS" ∧
      (auth.username.valid = true ∧ auth.password.valid = true) ∧ a.httpHeaders.any (·.isAuthorization) = false := by
  rw [CoherenceOperator.HTTPAction.validateBasicAuth, ite_error_eq_ok, ite_error_eq_ok, ite_error_eq_ok, ite_error_eq_ok]
  simp

/-- The method and the scheme of an action are those that there are. -/
theorem decode_method : a.decode.method = "" ∨ a.decode.method = "GET" ∨ a.decode.method = "PUT" := by
  rw [HTTPAction.decode]
  cases a.method with
  | none => exact .inl rfl
  | some m =>
    cases m with
    | get => exact .inr (.inl rfl)
    | put => exact .inr (.inr rfl)

theorem decode_scheme : a.decode.scheme = "" ∨ a.decode.scheme = "HTTP" ∨ a.decode.scheme = "HTTPS" := by
  rw [HTTPAction.decode]
  cases a.scheme with
  | none => exact .inl rfl
  | some s =>
    cases s with
    | http => exact .inr (.inl rfl)
    | https => exact .inr (.inr rfl)

/-- The rules for credentials. -/
theorem basicAuth_iff :
    (or (not (has a.basicAuth)) a.isHTTPS = some true ∧
      or (or (not (has a.basicAuth)) (not (has a.host))) (select a.host fun host => some (host = "")) = some true ∧
      or (or (not (has a.basicAuth)) (not (has a.httpHeaders)))
        (select a.httpHeaders fun hs => all hs notAuthorization) = some true ∧
      Admitted ((a.basicAuth.map (·.rules)).getD [])) ↔
      ∀ auth, a.decode.basicAuth = some auth → a.decode.validateBasicAuth auth = .ok () := by
  cases hauth : a.basicAuth with
  | none =>
    have hnone : a.decode.basicAuth = none := by rw [HTTPAction.decode, hauth]; rfl
    rw [hnone]
    simp [Admitted]
  | some auth =>
    have hsome : a.decode.basicAuth = some auth.decode := by rw [HTTPAction.decode, hauth]; rfl
    have hhost : or (or (not (has (some auth))) (not (has a.host))) (select a.host fun host => some (host = "")) = some true ↔
        a.decode.host = "" := by
      rw [HTTPAction.decode]
      cases a.host <;> simp
    have hheaders : or (or (not (has (some auth))) (not (has a.httpHeaders)))
        (select a.httpHeaders fun hs => all hs notAuthorization) = some true ↔
          a.decode.httpHeaders.any (·.isAuthorization) = false := by
      rw [← headers_iff]
      simp
    have hrules : Admitted (((some auth).map HTTPBasicAuth.rules).getD []) ↔
        auth.decode.username.valid = true ∧ auth.decode.password.valid = true := by
      simp [Admitted, HTTPBasicAuth.rules, HTTPBasicAuth.decode, SecretKeySelector.rule_iff]
    rw [hhost, hheaders, hrules, hsome]
    simp only [or_eq_true, not_eq, has_eq, Option.isSome_some, Bool.not_true, Bool.true_eq_false, false_or, isHTTPS_iff,
      Option.some.injEq, forall_eq', validateBasicAuth_iff]
    tauto

/-- The rules for certificates. -/
theorem tls_iff : (or (not (has a.tls)) a.isHTTPS = some true ∧ Admitted ((a.tls.map (·.rules)).getD [])) ↔
    ∀ tls, a.decode.tls = some tls → a.decode.scheme = "HTTPS" ∧ tls.caSecret.valid = true := by
  cases htls : a.tls with
  | none =>
    have hnone : a.decode.tls = none := by rw [HTTPAction.decode, htls]; rfl
    rw [hnone]
    simp [Admitted]
  | some tls =>
    have hsome : a.decode.tls = some tls.decode := by rw [HTTPAction.decode, htls]; rfl
    rw [hsome]
    simp [Admitted, HTTPClientTLS.rules, HTTPClientTLS.decode, SecretKeySelector.rule_iff, isHTTPS_iff]

theorem admitted_nil : Admitted [] := fun _ hr => absurd hr List.not_mem_nil

theorem admitted_cons {r : Cel.Result} {rules : List Cel.Result} : Admitted (r :: rules) ↔ r = some true ∧ Admitted rules :=
  List.forall_mem_cons

theorem admitted_append {rules rules' : List Cel.Result} : Admitted (rules ++ rules') ↔ Admitted rules ∧ Admitted rules' :=
  List.forall_mem_append

/-- **The rules of an action** are met exactly if it is valid, on its own. -/
theorem admitted_action_iff (halone : (p.exec.isSome || p.httpGet.isSome || p.tcpSocket.isSome || p.grpc.isSome) = false) :
    Admitted a.allRules ↔ a.decode.IsValid p := by
  rw [HTTPAction.allRules, admitted_append, admitted_append, HTTPAction.rules]
  simp only [admitted_cons, admitted_nil, and_true]
  have hauthorization : or (or (not (has a.httpHeaders)) (select a.httpHeaders fun hs => all hs notAuthorization)) a.isHTTPS =
      some true ↔ (a.decode.httpHeaders.any (·.isAuthorization) = true → a.decode.scheme = "HTTPS") := by
    rw [or_eq_true, headers_iff, isHTTPS_iff]
    cases a.decode.httpHeaders.any (·.isAuthorization) <;> simp
  constructor
  · rintro ⟨⟨⟨hauth, hhost, hheaders, htls, hhost', hpath, hheaders'⟩, hbasic⟩, hca⟩
    exact ⟨halone, decode_method, decode_scheme, endpoint_iff.1 ⟨hhost', hpath⟩, hauthorization.1 hheaders',
      basicAuth_iff.1 ⟨hauth, hhost, hheaders, hbasic⟩, tls_iff.1 ⟨htls, hca⟩⟩
  · rintro ⟨-, -, -, hendpoint, hheaders, hbasic, htls⟩
    obtain ⟨hhost, hpath⟩ := endpoint_iff.2 hendpoint
    obtain ⟨hauth, hhost', hheaders', hrules⟩ := basicAuth_iff.2 hbasic
    obtain ⟨htls, hca⟩ := tls_iff.2 htls
    exact ⟨⟨⟨hauth, hhost', hheaders', htls, hhost, hpath, hauthorization.2 hheaders⟩, hrules⟩, hca⟩

end

/-! ### Probes -/

/-- **A probe** is admitted exactly if its action is valid. -/
theorem admitted_probe_iff {p : Probe} : Admitted p.allRules ↔ p.decode.validateAction = .ok () := by
  rw [Probe.allRules, admitted_cons]
  cases hhttp : p.http with
  | none =>
    have hnone : p.decode.http = none := by rw [Probe.decode, hhttp]; rfl
    have hrule : p.rule = some true := by simp [Probe.rule, hhttp]
    rw [hrule, CoherenceOperator.Probe.validateAction, hnone]
    exact ⟨fun _ => rfl, fun _ => ⟨rfl, admitted_nil⟩⟩
  | some a =>
    have hsome : p.decode.http = some a.decode := by rw [Probe.decode, hhttp]; rfl
    have hrule : p.rule = some true ↔
        (p.decode.exec.isSome || p.decode.httpGet.isSome || p.decode.tcpSocket.isSome || p.decode.grpc.isSome) = false := by
      simp only [Probe.rule, hhttp, or_eq_true, and_eq_true, not_eq, has_eq, Option.isSome_some, Bool.not_true,
        Bool.true_eq_false, false_or, Bool.or_eq_false_iff]
      rfl
    rw [hrule, CoherenceOperator.Probe.validateAction_eq_ok_iff hsome]
    constructor
    · rintro ⟨halone, hrules⟩
      exact (admitted_action_iff halone).1 hrules
    · exact fun hvalid => ⟨hvalid.alone, (admitted_action_iff hvalid.alone).2 hvalid⟩

/-- **The specification of the scaling** is admitted exactly if its probe is accepted. -/
theorem admitted_scaling_iff {s : ScalingSpec} : Admitted s.allRules ↔ s.decode.Accepted := by
  rw [ScalingSpec.allRules, admitted_cons]
  cases hprobe : s.probe with
  | none =>
    have hnone : s.decode.probe = none := by rw [ScalingSpec.decode, hprobe]; rfl
    have hrule : s.rule = some true := by simp [ScalingSpec.rule, hprobe]
    rw [hrule, CoherenceOperator.ScalingSpec.Accepted, hnone]
    exact ⟨fun _ _ h => absurd h (by simp), fun _ => ⟨rfl, admitted_nil⟩⟩
  | some p =>
    have hsome : s.decode.probe = some p.decode := by rw [ScalingSpec.decode, hprobe]; rfl
    have hrule : s.rule = some true ↔ p.decode.mutates = false := by
      rw [CoherenceOperator.Probe.mutates, Probe.decode, ScalingSpec.rule, hprobe]
      cases hhttp : p.http with
      | none => simp [hhttp]
      | some a =>
        cases hmethod : a.method with
        | none => simp [hhttp, hmethod, HTTPAction.decode]
        | some m => cases m <;> simp [hhttp, hmethod, HTTPAction.decode, Method.decode]
    rw [hrule, CoherenceOperator.ScalingSpec.Accepted, hsome]
    simp only [Option.map_some, Option.getD_some, Option.some.injEq, forall_eq', admitted_probe_iff]
    tauto

/-! ### The security of the health server -/

/-- What a secured connection asks of the request for it. -/
theorem validateAction_secure_iff {basicAuth : CoherenceOperator.HTTPBasicAuth} {tls : CoherenceOperator.HTTPClientTLS} :
    ({ http := some { port := .int 0, scheme := "HTTPS", basicAuth, tls } } : CoherenceOperator.Probe).validateAction = .ok () ↔
      (basicAuth.username.valid = true ∧ basicAuth.password.valid = true) ∧ tls.caSecret.valid = true := by
  rw [CoherenceOperator.Probe.validateAction_eq_ok_iff rfl]
  constructor
  · rintro ⟨-, -, -, -, -, hbasic, htls⟩
    exact ⟨(validateBasicAuth_iff.1 (hbasic basicAuth rfl)).2.2.1, (htls tls rfl).2⟩
  · rintro ⟨hbasic, htls⟩
    refine ⟨rfl, .inl rfl, .inr (.inr rfl), rfl, fun _ => rfl, ?_, ?_⟩
    · rintro _ ⟨⟩
      exact validateBasicAuth_iff.2 ⟨rfl, rfl, hbasic, rfl⟩
    · rintro _ ⟨⟩
      exact ⟨rfl, htls⟩

/-- The modes that there are. -/
theorem mode_supported {jaas : Option Mode} :
    ((jaas.map (·.decode)).any fun mode => mode ≠ "" ∧ mode ≠ "packaged" ∧ mode ≠ "existing") = false := by
  cases jaas with
  | none => rfl
  | some mode => cases mode <;> rfl

theorem serverHas_iff {c : HealthMutatorConnection} {f : SSLSpec → Option String} :
    c.serverHas f = some true ↔ ∃ server, c.serverTLS = some server ∧ (f server).getD "" ≠ "" := by
  cases hserver : c.serverTLS with
  | none => simp [HealthMutatorConnection.serverHas, hserver]
  | some server =>
    cases hf : f server with
    | none => simp [HealthMutatorConnection.serverHas, hserver, hf]
    | some s => simp [HealthMutatorConnection.serverHas, hserver, hf, nonempty]

/-- A connection that is not secured. -/
theorem admitted_plain_iff {c : HealthMutatorConnection} (hsecure : c.secure = false) :
    Admitted c.allRules ↔ c.decode.validate = .ok () := by
  have hvalidate : c.decode.validate = .ok () ↔
      c.basicAuth = none ∧ c.tls = none ∧ c.serverTLS = none ∧ c.jaas = none := by
    rw [CoherenceOperator.HealthMutatorConnection.validate, HealthMutatorConnection.decode, hsecure]
    simp only [Bool.not_false, if_true, ite_error_eq_ok, and_true]
    simp [and_assoc]
  rw [hvalidate, HealthMutatorConnection.allRules, admitted_append, admitted_append, HealthMutatorConnection.rules]
  simp only [admitted_cons, admitted_nil, and_true, or_eq_true, and_eq_true, not_eq, has_eq,
    HealthMutatorConnection.isSecure, hsecure]
  constructor
  · rintro ⟨⟨⟨-, h, -⟩, -⟩, -⟩
    simpa [and_assoc] using h
  · rintro ⟨hbasic, htls, hserver, hjaas⟩
    simp [hbasic, htls, hserver, hjaas, admitted_nil]

/-- What a secured connection has to have. -/
structure IsSecured (c : HealthMutatorConnection) (basicAuth : HTTPBasicAuth) (tls : HTTPClientTLS) (server : SSLSpec) :
    Prop where
  serverName : tls.serverName.getD "" ≠ ""
  isOneWay : server.isOneWay = true
  credentials : basicAuth.decode.username.valid = true ∧ basicAuth.decode.password.valid = true
  caSecret : tls.decode.caSecret.valid = true
  keyStore : server.keyStore.getD "" ≠ "" ∧ server.keyStorePasswordFile.getD "" ≠ "" ∧ server.keyPasswordFile.getD "" ≠ ""

theorem validate_secure_iff {c : HealthMutatorConnection} {basicAuth : HTTPBasicAuth} {tls : HTTPClientTLS}
    {server : SSLSpec} (hsecure : c.secure = true) (hbasic : c.basicAuth = some basicAuth) (htls : c.tls = some tls)
    (hserver : c.serverTLS = some server) : c.decode.validate = .ok () ↔ IsSecured c basicAuth tls server := by
  have hmode := @mode_supported c.jaas
  rw [CoherenceOperator.HealthMutatorConnection.validate, HealthMutatorConnection.decode, hsecure, hbasic, htls, hserver]
  simp only [Bool.not_true, Bool.false_eq_true, if_false, Option.map_some, bind, Except.bind, throw, throwThe,
    MonadExceptOf.throw, pure, Except.pure, hmode, ite_error_eq_ok]
  have hserverName : tls.decode.serverName = tls.serverName.getD "" := rfl
  have haction := @validateAction_secure_iff basicAuth.decode tls.decode
  generalize CoherenceOperator.Probe.validateAction _ = r at haction
  constructor
  · rintro ⟨hone, h⟩
    cases r with
    | error e => cases h
    | ok _ =>
      obtain ⟨hcredentials, hca⟩ := haction.1 rfl
      simp only [ite_error_eq_ok] at h
      simp [hserverName] at hone h
      exact ⟨hone.1, hone.2, hcredentials, hca, h⟩
  · rintro ⟨hname, hone, hcredentials, hca, hkeys⟩
    obtain rfl := haction.2 ⟨hcredentials, hca⟩
    simp only [ite_error_eq_ok]
    simp [hserverName, hname, hone, hkeys]

/-- The rules for a connection that is secured. -/
theorem rules_secure_iff {c : HealthMutatorConnection} {basicAuth : HTTPBasicAuth} {tls : HTTPClientTLS} {server : SSLSpec}
    (hsecure : c.secure = true) (hbasic : c.basicAuth = some basicAuth) (htls : c.tls = some tls)
    (hserver : c.serverTLS = some server) : Admitted c.allRules ↔ IsSecured c basicAuth tls server := by
  have hname : (select c.tls fun t => has t.serverName) = some true ∧
      (select c.tls fun t => select t.serverName nonempty) = some true ↔ tls.serverName.getD "" ≠ "" := by
    rw [htls]
    cases hserverName : tls.serverName <;> simp [hserverName, nonempty]
  have hone : ((select c.serverTLS fun s => has s.enabled) = some true ∧
      (select c.serverTLS fun s => select s.enabled fun enabled => some enabled) = some true) ∧
        ((select c.serverTLS fun s => has s.requireClientCert) = some false ∨
          (select c.serverTLS fun s => select s.requireClientCert fun required => some required) = some false) ↔
      server.isOneWay = true := by
    rw [hserver, SSLSpec.isOneWay]
    cases henabled : server.enabled <;> cases hrequired : server.requireClientCert <;> simp [henabled, hrequired]
  rw [HealthMutatorConnection.allRules, admitted_append, admitted_append, HealthMutatorConnection.rules]
  simp only [admitted_cons, admitted_nil, and_true, or_eq_true, and_eq_true, not_eq, has_eq, Bool.not_true,
    HealthMutatorConnection.isSecure, hsecure, Option.some.injEq, Bool.true_eq_false, false_or, true_or, true_and, hname, hone,
    serverHas_iff]
  simp only [hbasic, htls, hserver, Option.isSome_some, and_true, true_and, Option.some.injEq, exists_eq_left',
    Option.map_some, Option.getD_some, HTTPBasicAuth.rules, HTTPClientTLS.rules, admitted_cons, admitted_nil,
    SecretKeySelector.rule_iff]
  constructor
  · rintro ⟨⟨⟨hone, hname, hkeys⟩, hcredentials⟩, hca⟩
    exact ⟨hname, hone, hcredentials, hca, hkeys.1.1, hkeys.1.2, hkeys.2⟩
  · rintro ⟨hname, hone, hcredentials, hca, hkeys⟩
    exact ⟨⟨⟨hone, hname, ⟨hkeys.1, hkeys.2.1⟩, hkeys.2.2⟩, hcredentials⟩, hca⟩

/-- A connection that is secured. -/
theorem admitted_secure_iff {c : HealthMutatorConnection} (hsecure : c.secure = true) :
    Admitted c.allRules ↔ c.decode.validate = .ok () := by
  by_cases hall : c.basicAuth.isSome = true ∧ c.tls.isSome = true ∧ c.serverTLS.isSome = true
  · obtain ⟨basicAuth, hbasic⟩ := Option.isSome_iff_exists.1 hall.1
    obtain ⟨tls, htls⟩ := Option.isSome_iff_exists.1 hall.2.1
    obtain ⟨server, hserver⟩ := Option.isSome_iff_exists.1 hall.2.2
    rw [rules_secure_iff hsecure hbasic htls hserver, validate_secure_iff hsecure hbasic htls hserver]
  · have hrules : ¬ Admitted c.allRules := by
      rw [HealthMutatorConnection.allRules, admitted_append, admitted_append, HealthMutatorConnection.rules]
      simp only [admitted_cons, or_eq_true, and_eq_true, not_eq, has_eq, HealthMutatorConnection.isSecure, hsecure]
      rintro ⟨⟨⟨h, -⟩, -⟩, -⟩
      exact hall (by simpa [and_assoc] using h)
    have hvalidate : c.decode.validate ≠ .ok () := by
      rw [CoherenceOperator.HealthMutatorConnection.validate, HealthMutatorConnection.decode, hsecure]
      cases hbasic : c.basicAuth <;> cases htls : c.tls <;> cases hserver : c.serverTLS <;> simp_all
    exact ⟨fun h => absurd h hrules, fun h => absurd h hvalidate⟩

/-- **A connection** is admitted exactly if it is valid. -/
theorem admitted_connection_iff {c : HealthMutatorConnection} : Admitted c.allRules ↔ c.decode.validate = .ok () := by
  cases hsecure : c.secure with
  | false => exact admitted_plain_iff hsecure
  | true => exact admitted_secure_iff hsecure

/-! ### The specification -/

section

variable {s : CoherenceStatefulSetResourceSpec} {spec : CoherenceOperator.CoherenceStatefulSetResourceSpec}

/-- The connection is valid, and a probe of one's own is not with a secured one. -/
theorem connection_accepted_iff : validateHealthMutatorConfiguration { s.decode spec with application := none } = .ok () ↔
    ∀ c, s.healthMutatorConnection = some c → c.decode.validate = .ok () ∧ (c.secure = false ∨ s.suspendProbe = none) := by
  cases hconnection : s.healthMutatorConnection with
  | none =>
    have hnone : (s.decode spec).healthMutatorConnection = none := by
      rw [CoherenceStatefulSetResourceSpec.decode, hconnection]
      rfl
    rw [validateHealthMutatorConfiguration, hnone]
    simp
  | some c =>
    have hsome : (s.decode spec).healthMutatorConnection = some c.decode := by
      rw [CoherenceStatefulSetResourceSpec.decode, hconnection]
      rfl
    have hprobe : (s.decode spec).suspendProbe.isSome = s.suspendProbe.isSome := by
      rw [CoherenceStatefulSetResourceSpec.decode, Option.isSome_map]
    have hsecure : c.decode.secure = c.secure := rfl
    rw [validateHealthMutatorConfiguration, hsome]
    simp only [bind, Except.bind, throw, throwThe, MonadExceptOf.throw, pure, Except.pure, hprobe, hsecure,
      validateManagedHealthLauncher, Option.some.injEq, forall_eq']
    cases c.decode.validate with
    | error e => simp
    | ok _ =>
      cases c.secure with
      | false => simp
      | true => cases s.suspendProbe <;> simp

theorem rule_iff : s.rule = some true ↔
    ∀ c, s.healthMutatorConnection = some c → c.secure = false ∨ s.suspendProbe = none := by
  rw [CoherenceStatefulSetResourceSpec.rule]
  cases hconnection : s.healthMutatorConnection with
  | none => simp
  | some c => simp [HealthMutatorConnection.isSecure]

/-- **A specification** is admitted exactly if it is accepted. -/
theorem admitted_spec_iff : Admitted s.allRules ↔ (s.decode spec).Accepted := by
  have hconnection : Admitted ((s.healthMutatorConnection.map (·.allRules)).getD []) ↔
      ∀ c, s.healthMutatorConnection = some c → c.decode.validate = .ok () := by
    cases s.healthMutatorConnection with
    | none => simp [admitted_nil]
    | some c => simp [admitted_connection_iff]
  have hprobe : Admitted ((s.suspendProbe.map (·.allRules)).getD []) ↔
      ∀ p, (s.decode spec).suspendProbe = some p → p.validateAction = .ok () := by
    rw [CoherenceStatefulSetResourceSpec.decode]
    cases s.suspendProbe with
    | none => simp [admitted_nil]
    | some p => simp [admitted_probe_iff]
  have hscaling : Admitted ((s.scaling.map (·.allRules)).getD []) ↔
      ∀ scaling, (s.decode spec).scaling = some scaling → scaling.Accepted := by
    rw [CoherenceStatefulSetResourceSpec.decode]
    cases s.scaling with
    | none => simp [admitted_nil]
    | some scaling => simp [admitted_scaling_iff]
  rw [CoherenceStatefulSetResourceSpec.allRules, admitted_cons, admitted_append, admitted_append, rule_iff, hconnection,
    hprobe, hscaling]
  constructor
  · rintro ⟨hrule, ⟨hvalid, hprobe⟩, hscaling⟩
    exact ⟨connection_accepted_iff.2 fun c hc => ⟨hvalid c hc, hrule c hc⟩, hprobe, hscaling⟩
  · rintro ⟨haccepted, hprobe, hscaling⟩
    have hboth := connection_accepted_iff.1 haccepted
    exact ⟨fun c hc => (hboth c hc).2, ⟨fun c hc => (hboth c hc).1, hprobe⟩, hscaling⟩

end

/-- **Admission and the controllers agree** on a probe, an action by itself with the credentials and the certificates in it, the
specification of the scaling, the security of the health server, and on a specification with these in it. -/
theorem admission_agrees :
    (∀ p : Probe, Admitted p.allRules ↔ p.decode.validateAction = .ok ()) ∧
    (∀ a : HTTPAction, Admitted a.allRules ↔
      ({ http := some a.decode } : CoherenceOperator.Probe).validateAction = .ok ()) ∧
    (∀ s : ScalingSpec, Admitted s.allRules ↔ s.decode.Accepted) ∧
    (∀ c : HealthMutatorConnection, Admitted c.allRules ↔ c.decode.validate = .ok ()) ∧
    ∀ (s : CoherenceStatefulSetResourceSpec) (spec : CoherenceOperator.CoherenceStatefulSetResourceSpec),
      Admitted s.allRules ↔ (s.decode spec).Accepted :=
  ⟨fun _ => admitted_probe_iff,
    fun _ => (admitted_action_iff rfl).trans (CoherenceOperator.Probe.validateAction_eq_ok_iff rfl).symm,
    fun _ => admitted_scaling_iff, fun _ => admitted_connection_iff, fun _ _ => admitted_spec_iff⟩

end Crd

end CoherenceOperator
