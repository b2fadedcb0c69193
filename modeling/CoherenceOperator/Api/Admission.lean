import CoherenceOperator.Api.Coherence
import CoherenceOperator.Lib.Cel

/-!
# What the API server admits

The objects of the custom resource definitions as they are sent to the API server, where a field may be there or not, with the
rules that they are checked by; and what the controllers check of the same objects once they are decoded.

An enumeration of the schema is a type here, so there is no other value. A path is not explicitly empty.
-/

namespace CoherenceOperator

/-! ### The objects and their rules -/

namespace Crd

inductive Scheme where
  | http | https
  deriving DecidableEq

inductive Method where
  | get | put
  deriving DecidableEq

inductive Mode where
  | packaged | existing
  deriving DecidableEq

structure SecretKeySelector where
  name : Option String
  key : String
  optional : Option Bool

structure HTTPBasicAuth where
  username : SecretKeySelector
  password : SecretKeySelector

structure HTTPClientTLS where
  caSecret : SecretKeySelector
  serverName : Option String

structure HTTPAction where
  path : Option { s : String // s ≠ "" }
  port : IntOrString
  host : Option String
  scheme : Option Scheme
  httpHeaders : Option (List HTTPActionHeader)
  method : Option Method
  basicAuth : Option HTTPBasicAuth
  tls : Option HTTPClientTLS

structure Probe where
  http : Option HTTPAction
  exec : Option (List String)
  httpGet : Option HTTPGetAction
  tcpSocket : Option TCPSocketAction
  grpc : Option ℤ
  timeoutSeconds : Option ℤ

structure ScalingSpec where
  policy : Option ScalingPolicy
  probe : Option Probe

structure HealthMutatorConnection where
  secure : Bool
  basicAuth : Option HTTPBasicAuth
  tls : Option HTTPClientTLS
  serverTLS : Option SSLSpec
  jaas : Option Mode

/-- The fields of `CoherenceStatefulSetResourceSpec` with rules. -/
structure CoherenceStatefulSetResourceSpec where
  healthMutatorConnection : Option HealthMutatorConnection
  suspendProbe : Option Probe
  scaling : Option ScalingSpec

open Cel

/-- `size(s) > 0`. -/
def nonempty (s : String) : Cel.Result := some (s ≠ "")

/-- The rule for a Secret: `has(s.name) && size(s.name) > 0 && size(s.key) > 0 && (!has(s.optional) || !s.optional)`. -/
def SecretKeySelector.rule (s : SecretKeySelector) : Cel.Result :=
  and (and (and (has s.name) (select s.name nonempty)) (nonempty s.key))
    (or (not (has s.optional)) (not (select s.optional fun optional => some optional)))

def HTTPBasicAuth.rules (a : HTTPBasicAuth) : List Cel.Result := [a.username.rule, a.password.rule]

def HTTPClientTLS.rules (t : HTTPClientTLS) : List Cel.Result := [t.caSecret.rule]

/-- `h.name.lowerAscii() != 'authorization'`. -/
def notAuthorization (h : HTTPActionHeader) : Cel.Result := some (h.name.toLower ≠ "authorization")

namespace HTTPAction

variable (a : HTTPAction)

/-- `has(self.scheme) && self.scheme == 'HTTPS'`. -/
def isHTTPS : Cel.Result := and (has a.scheme) (select a.scheme fun s => some (s = .https))

/-- `host.contains(..)`, for one of the delimiters. -/
def hostContains (c : Char) : Cel.Result := select a.host fun host => some (host.toList.any (· = c))

def rules : List Cel.Result :=
  [ or (not (has a.basicAuth)) a.isHTTPS,
    or (or (not (has a.basicAuth)) (not (has a.host))) (select a.host fun host => some (host = "")),
    or (or (not (has a.basicAuth)) (not (has a.httpHeaders))) (select a.httpHeaders fun hs => all hs notAuthorization),
    or (not (has a.tls)) a.isHTTPS,
    or (not (has a.host)) (and (and (and (not (a.hostContains '@')) (not (a.hostContains '/'))) (not (a.hostContains '?')))
      (not (a.hostContains '#'))),
    or (not (has a.path)) (and (select a.path fun path => some (hasPrefix path.1 "/"))
      (not (select a.path fun path => some (hasPrefix path.1 "//")))),
    or (or (not (has a.httpHeaders)) (select a.httpHeaders fun hs => all hs notAuthorization)) a.isHTTPS ]

/-- All rules of the action and of what is in it. -/
def allRules : List Cel.Result :=
  a.rules ++ (a.basicAuth.map (·.rules)).getD [] ++ (a.tls.map (·.rules)).getD []

end HTTPAction

namespace Probe

variable (p : Probe)

def rule : Cel.Result :=
  or (not (has p.http)) (and (and (and (not (has p.exec)) (not (has p.httpGet))) (not (has p.tcpSocket))) (not (has p.grpc)))

def allRules : List Cel.Result := p.rule :: (p.http.map (·.allRules)).getD []

end Probe

namespace ScalingSpec

variable (s : ScalingSpec)

def rule : Cel.Result :=
  or (or (or (not (has s.probe)) (not (select s.probe fun p => has p.http)))
    (not (select s.probe fun p => select p.http fun a => has a.method)))
    (select s.probe fun p => select p.http fun a => select a.method fun m => some (m = .get))

def allRules : List Cel.Result := s.rule :: (s.probe.map (·.allRules)).getD []

end ScalingSpec

namespace HealthMutatorConnection

variable (c : HealthMutatorConnection)

def isSecure : Cel.Result := some c.secure

/-- `has(self.serverTLS.f) && size(self.serverTLS.f) > 0`. -/
def serverHas (f : SSLSpec → Option String) : Cel.Result :=
  and (select c.serverTLS fun s => has (f s)) (select c.serverTLS fun s => select (f s) nonempty)

def rules : List Cel.Result :=
  [ or (not c.isSecure) (and (and (has c.basicAuth) (has c.tls)) (has c.serverTLS)),
    or c.isSecure (and (and (and (not (has c.basicAuth)) (not (has c.tls))) (not (has c.serverTLS))) (not (has c.jaas))),
    or (not c.isSecure) (and (and (select c.serverTLS fun s => has s.enabled)
      (select c.serverTLS fun s => select s.enabled fun enabled => some enabled))
      (or (not (select c.serverTLS fun s => has s.requireClientCert))
        (not (select c.serverTLS fun s => select s.requireClientCert fun required => some required)))),
    or (not c.isSecure) (and (select c.tls fun t => has t.serverName) (select c.tls fun t => select t.serverName nonempty)),
    or (not c.isSecure) (and (and (c.serverHas (·.keyStore)) (c.serverHas (·.keyStorePasswordFile)))
      (c.serverHas (·.keyPasswordFile))) ]

def allRules : List Cel.Result :=
  c.rules ++ (c.basicAuth.map (·.rules)).getD [] ++ (c.tls.map (·.rules)).getD []

end HealthMutatorConnection

namespace CoherenceStatefulSetResourceSpec

variable (s : CoherenceStatefulSetResourceSpec)

def rule : Cel.Result :=
  or (or (not (has s.healthMutatorConnection)) (not (select s.healthMutatorConnection fun c => c.isSecure)))
    (not (has s.suspendProbe))

def allRules : List Cel.Result :=
  s.rule :: ((s.healthMutatorConnection.map (·.allRules)).getD [] ++ (s.suspendProbe.map (·.allRules)).getD [] ++
    (s.scaling.map (·.allRules)).getD [])

end CoherenceStatefulSetResourceSpec

/-- An object is admitted if all rules are met. -/
def Admitted (rules : List Cel.Result) : Prop := ∀ r ∈ rules, r = some true

/-! ### What the objects are decoded to -/

def Scheme.decode : Scheme → String
  | http => "HTTP"
  | https => "HTTPS"

def Method.decode : Method → String
  | get => "GET"
  | put => "PUT"

def Mode.decode : Mode → String
  | packaged => "packaged"
  | existing => "existing"

def SecretKeySelector.decode (s : SecretKeySelector) : CoherenceOperator.SecretKeySelector :=
  { name := s.name.getD "", key := s.key, optional := s.optional }

def HTTPBasicAuth.decode (a : HTTPBasicAuth) : CoherenceOperator.HTTPBasicAuth :=
  { username := a.username.decode, password := a.password.decode }

def HTTPClientTLS.decode (t : HTTPClientTLS) : CoherenceOperator.HTTPClientTLS :=
  { caSecret := t.caSecret.decode, serverName := t.serverName.getD "" }

def HTTPAction.decode (a : HTTPAction) : CoherenceOperator.HTTPAction :=
  { path := (a.path.map (·.1)).getD ""
    port := a.port
    host := a.host.getD ""
    scheme := (a.scheme.map (·.decode)).getD ""
    httpHeaders := a.httpHeaders.getD []
    method := (a.method.map (·.decode)).getD ""
    basicAuth := a.basicAuth.map (·.decode)
    tls := a.tls.map (·.decode) }

def Probe.decode (p : Probe) : CoherenceOperator.Probe :=
  { http := p.http.map (·.decode)
    exec := p.exec
    httpGet := p.httpGet
    tcpSocket := p.tcpSocket
    grpc := p.grpc
    timeoutSeconds := p.timeoutSeconds }

def ScalingSpec.decode (s : ScalingSpec) : CoherenceOperator.ScalingSpec :=
  { policy := s.policy, probe := s.probe.map (·.decode) }

def HealthMutatorConnection.decode (c : HealthMutatorConnection) : CoherenceOperator.HealthMutatorConnection :=
  { secure := c.secure
    basicAuth := c.basicAuth.map (·.decode)
    tls := c.tls.map (·.decode)
    serverTLS := c.serverTLS
    jaas := c.jaas.map (·.decode) }

/-- The fields are set in a specification with other ones. -/
def CoherenceStatefulSetResourceSpec.decode (s : CoherenceStatefulSetResourceSpec)
    (spec : CoherenceOperator.CoherenceStatefulSetResourceSpec) : CoherenceOperator.CoherenceStatefulSetResourceSpec :=
  { spec with
    healthMutatorConnection := s.healthMutatorConnection.map (·.decode)
    suspendProbe := s.suspendProbe.map (·.decode)
    scaling := s.scaling.map (·.decode) }

end Crd

/-! ### What the controllers check -/

/-- `validateManagedHealthLauncher`. -/
def validateManagedHealthLauncher (application : Option ApplicationSpec) : Except String Unit :=
  match application with
  | none => .ok ()
  | some a =>
    if a.useImageEntryPoint ≠ some true then
      if a.entryPoint ≠ [] then
        .error "managed secure health with application.entryPoint requires application.useImageEntryPoint=true and a supported generated JVM argument delivery option"
      else .ok ()
    else if a.useJdkJavaOptions = some false ∧ a.alternateJdkJavaOptions.getD "" = "" then
      .error "managed secure health with application.useImageEntryPoint=true requires application.useJdkJavaOptions=true (or omitted), or a non-empty application.alternateJdkJavaOptions that the application passes to the member JVM"
    else .ok ()

/-- `validateHealthMutatorConfiguration`. -/
def validateHealthMutatorConfiguration (spec : CoherenceStatefulSetResourceSpec) : Except String Unit :=
  match spec.healthMutatorConnection with
  | none => .ok ()
  | some c => do
    c.validate
    if !c.secure then return ()
    if spec.suspendProbe.isSome then throw "managed secure health mode excludes custom suspend probes"
    validateManagedHealthLauncher spec.application

/-- A probe for the scaling is accepted: its action is valid, and `IsStatusHA` does not refuse it. -/
def ScalingSpec.Accepted (s : ScalingSpec) : Prop :=
  ∀ p, s.probe = some p → p.validateAction = .ok () ∧ p.mutates = false

/-- The specification is accepted, whatever its application: so are its connection and its probes. -/
structure CoherenceStatefulSetResourceSpec.Accepted (spec : CoherenceStatefulSetResourceSpec) : Prop where
  connection : validateHealthMutatorConfiguration { spec with application := none } = .ok ()
  suspendProbe : ∀ p, spec.suspendProbe = some p → p.validateAction = .ok ()
  scaling : ∀ s, spec.scaling = some s → s.Accepted

end CoherenceOperator
