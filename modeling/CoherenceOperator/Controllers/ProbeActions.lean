import CoherenceOperator.Controllers.UpgradeStrategy
import CoherenceOperator.Lib.Base64
import CoherenceOperator.Lib.Url

/-!
# The actions of a probe

What the operator does on a member when it runs the action of a probe: a request over HTTP, as an action of its own
(`probeUsingHTTPAction`) or as a probe of Kubernetes has it, a command, or a connection. Each of them is a contact of the
member, and the contacts are what the state of these programs is: the list of them, the last one first.

`executeProbeForPods` is here as it goes through the Pods and runs the actions; what it comes to is what `CoherenceProbe` says,
given what the actions come to (`ProbeActions.comes_executeProbeForPods`). The scaling probe is executed where the operator asks
whether it is safe to go on: in `isStatusHA`, and for the Pods of a node that are to be upgraded. The suspend probe is executed
by `suspendServicesWithError`.
-/

namespace CoherenceOperator

open Effect Prog

/-! ### Contacts -/

/-- What of `tls.Config` is set: the certificates to be trusted and the name that is verified. -/
structure TLSConfig where
  rootCAs : Option String := none
  serverName : String := ""
  deriving DecidableEq, Repr

/-- `http.Request`; `host` is what the header `Host` says. -/
structure HTTPRequest where
  method : String
  url : Url.URL
  host : String
  headers : List HTTPActionHeader := []
  tls : TLSConfig := {}
  timeout : ℤ
  deriving DecidableEq, Repr

/-- `http.Response`; can its body be read? -/
structure HTTPResponse where
  statusCode : ℤ
  readable : Bool := true
  deriving DecidableEq, Repr

/-- A contact of the operator with a member. -/
inductive Contact where
  | http (pod : Pod) (action : HTTPAction) (req : HTTPRequest)
  | httpGet (pod : Pod) (url : Url.URL) (headers : List HTTPActionHeader)
  | exec (pod : Pod) (command : List String)
  | tcp (pod : Pod) (address : String)
  deriving DecidableEq

/-- The member that is contacted. -/
def Contact.pod : Contact → Pod
  | http pod _ _ | httpGet pod _ _ | exec pod _ | tcp pod _ => pod

instance : Acts (List Contact) Contact := ⟨List.cons⟩

/-- A program that runs the action of a probe. -/
abbrev ProbeOp (α : Type) := Prog (List Contact) ProbeError α

/-- What the operator is set up with to run actions, and what the world answers. -/
structure ProbeEnv where
  /-- `SetGetPodHostName`. -/
  getPodHostName : Option (Pod → String) := none
  /-- `SetTranslatePort`. -/
  translatePort : Option (String → ℤ → ℤ) := none
  /-- The data of a Secret, or why it cannot be read, if there is a client to read it with. -/
  secrets : Option (NamespacedName → Except String (String → Option String)) := none
  /-- `AppendCertsFromPEM`: are there certificates in the text? -/
  hasCerts : String → Bool := fun _ => true
  respond : HTTPRequest → Except String HTTPResponse := fun _ => .ok { statusCode := 200 }
  /-- The request that the client makes of a response that redirects it. -/
  redirect : HTTPRequest → HTTPResponse → Option HTTPRequest := fun _ _ => none
  /-- `HTTPProbe.Probe`. -/
  httpGet : Url.URL → List HTTPActionHeader → Except ProbeError Bool := fun _ _ => .ok true
  /-- `PodExec`: the exit code. -/
  podExec : Pod → List String → Except String ℤ := fun _ _ => .ok 0
  /-- `TCPProbe.Probe`. -/
  dial : String → Except String Bool := fun _ => .ok true

namespace ProbeActions

/-! ### The address of a Pod -/

/-- The label with a host name, for tests. -/
def LabelTestHostName : String := "coherence.oracle.com/test_hostname"

/-- The label with the port of the health server, for tests. -/
def LabelTestHealthPort : String := "coherence.oracle.com/test_health_port"

section

variable (env : ProbeEnv) (svc : String)

/-- `GetPodIpOrHostName`. -/
def getPodIpOrHostName (pod : Pod) : String :=
  match pod.labels.lookup LabelTestHostName with
  | some hostName => hostName
  | none =>
    match env.getPodHostName with
    | some f => f pod
    | none => if pod.podIP = "" then pod.hostname ++ "." ++ pod.subdomain ++ "." ++ pod.ns ++ ".svc" else pod.podIP

/-- `GetPodHostName`. -/
def getPodHostName (pod : Pod) : String :=
  match pod.labels.lookup LabelTestHostName with
  | some hostName => hostName
  | none =>
    match env.getPodHostName with
    | some f => f pod
    | none => s!"{pod.name}.{svc}.{pod.ns}"

/-- `strconv.Atoi`: digits, with a sign or without. -/
def atoi (s : String) : Option ℤ :=
  let digits (cs : List Char) : Option ℤ :=
    if cs ≠ [] ∧ cs.all Char.isDigit then some (cs.foldl (fun n c => 10 * n + (c.toNat - 48 : ℤ)) 0) else none
  match s.toList with
  | '-' :: cs => (digits cs).map (- ·)
  | '+' :: cs => digits cs
  | cs => digits cs

/-- `findPortInContainer`. -/
def findPortInContainer (pod : Pod) (c : Container) (name : String) : Except String ℤ :=
  match c.ports.find? fun p => p.name = name with
  | some p => .ok ((env.translatePort.getD fun _ port => port) p.name p.containerPort)
  | none => .error s!"cannot find port '{name}' in coherence container in Pod '{pod.name}'"

/-- `findPortInPod`. -/
def findPortInPod (pod : Pod) (name : String) : Except String ℤ :=
  match if name = "health" then pod.labels.lookup LabelTestHealthPort else none with
  | some p =>
    match atoi p with
    | some port => .ok port
    | none => .error s!"strconv.Atoi: parsing \"{p}\": invalid syntax"
  | none =>
    match pod.containers.find? fun c => c.name = "coherence" with
    | some c => findPortInContainer env pod c name
    | none => .error s!"cannot find coherence container in Pod '{pod.name}'"

/-- `findPort`. -/
def findPort (pod : Pod) : IntOrString → Except String ℤ
  | .int port => .ok port
  | .str s =>
    match atoi s with
    | some port => .ok port
    | none => findPortInPod env pod s

/-- `buildHTTPProbeURL`. -/
def buildHTTPProbeURL (scheme host : String) (port : ℤ) (path : String) : Except String Url.URL :=
  let hostAndPort := Url.joinHostPort host.toList (toString port).toList
  let path := match path.toList with
    | '/' :: s => s
    | s => s
  Url.parse (scheme.toList ++ "://".toList ++ hostAndPort ++ '/' :: path)

/-! ### The HTTP action -/

/-- `secretValue`. -/
def secretValue (ns : String) (ref : SecretKeySelector) : Except ProbeError String :=
  match env.secrets with
  | none => .error (.request "Secret client unavailable")
  | some get =>
    match get ⟨ns, ref.name⟩ with
    | .error _ => .error (.request "Secret unavailable")
    | .ok data =>
      match data ref.key with
      | some value => if value = "" then .error (.request "Secret key missing or empty") else .ok value
      | none => .error (.request "Secret key missing or empty")

/-- The client's side of TLS: the certificates to be trusted are read from a Secret. -/
def tlsConfig (ns : String) (a : HTTPAction) : Except ProbeError TLSConfig :=
  match a.tls with
  | none => .ok {}
  | some tls => do
    let pem ← secretValue env ns tls.caSecret
    if env.hasCerts pem then return { rootCAs := some pem, serverName := tls.serverName }
    else throw (.request "invalid CA bundle")

/-- `SetBasicAuth`. -/
def basicAuthHeader (username password : String) : HTTPActionHeader :=
  ⟨"Authorization", "Basic " ++ String.ofList (Base64.encode (username ++ ":" ++ password).toUTF8.toList)⟩

/-- The header with the credentials, which are read from Secrets. -/
def authorization (ns : String) (a : HTTPAction) : Except ProbeError (List HTTPActionHeader) :=
  match a.basicAuth with
  | none => .ok []
  | some auth => do
    let username ← secretValue env ns auth.username
    let password ← secretValue env ns auth.password
    if username.toList.any fun c => c = ':' ∨ c = '\r' ∨ c = '\n' then throw (.request "invalid Basic username")
    return [basicAuthHeader username password]

/-- `strings.EqualFold(name, "Host")`: the long s folds to an s, too. -/
def isHost (h : HTTPActionHeader) : Bool :=
  (h.name.toLower.map fun c => if c = Char.ofNat 383 then 's' else c) == "host"

/-- What `ProbeUsingHTTPAction` sends: the request, with the headers of the action. The text of a URL that was parsed is parsed
again without an error, and the method is a valid one. -/
def buildRequest (pod : Pod) (p : Probe) (a : HTTPAction) : Except ProbeError HTTPRequest :=
  match p.validateAction with
  | .error _ => .error (.request "configuration")
  | .ok _ => do
    let scheme := if a.scheme = "" then "HTTP" else a.scheme
    let host := if a.host = "" then getPodIpOrHostName env pod else a.host
    let port ← (findPort env pod a.port).mapError fun _ => .request "port configuration"
    let url ← (buildHTTPProbeURL scheme host port a.path).mapError fun _ => .request "endpoint configuration"
    let method := if a.method = "" then "GET" else a.method
    let hosts := a.httpHeaders.filter isHost
    let headers := a.httpHeaders.filter (!isHost ·)
    let tls ← tlsConfig env pod.ns a
    let auth ← authorization env pod.ns a
    return { method, url, host := (hosts.getLast?.map (·.value)).getD (getPodHostName env svc pod)
             headers := headers ++ auth, tls, timeout := p.getTimeout }

/-- `CheckRedirect`: what to do with a response that redirects. -/
inductive CheckRedirect where
  | follow | useLastResponse
  deriving DecidableEq, Repr

/-- `http.Client.Do`: send a request, and those that redirects lead to, up to a limit. -/
def doRequest (pod : Pod) (a : HTTPAction) (check : CheckRedirect) : ℕ → HTTPRequest → ProbeOp HTTPResponse
  | 0, _ => throw (.request "transport or TLS")
  | n + 1, req => do
    perform (.http pod a req)
    match env.respond req with
    | .error _ => throw (.request "transport or TLS")
    | .ok res =>
      match env.redirect req res, check with
      | some next, .follow => doRequest pod a check n next
      | _, _ => return res

/-- `ProbeUsingHTTPAction`: a response that redirects is the last one. -/
def probeUsingHTTPAction (pod : Pod) (p : Probe) (a : HTTPAction) : ProbeOp Bool := do
  let req ← outcome (buildRequest env svc pod p a)
  let res ← doRequest env pod a .useLastResponse 10 req
  if res.statusCode ≠ 200 then throw (.request "rejected response" res.statusCode)
  else if !res.readable then throw (.request "uncertain response")
  else return true

/-! ### The other actions -/

/-- `ProbeUsingExec`. -/
def probeUsingExec (pod : Pod) (command : List String) : ProbeOp Bool := do
  perform (.exec pod command)
  match env.podExec pod command with
  | .error e => throw (.other e)
  | .ok exitCode => return exitCode = 0

/-- `DoHTTPProbe`, given why there was no response, a timeout or something else, or the response that there was. -/
def doHTTPProbe (response : Except Bool HTTPResponse) : Except ProbeError Bool :=
  match response with
  | .error timeout => .error (.request (if timeout then "transport timeout" else "transport"))
  | .ok res =>
    if !res.readable then .error (.request "uncertain response")
    else if res.statusCode ≥ 200 ∧ res.statusCode < 400 then .ok true
    else .error (.request "rejected response" res.statusCode)

/-- The URL that `ProbeUsingHTTP` sends a request to. -/
def httpGetURL (pod : Pod) (a : HTTPGetAction) : Except ProbeError Url.URL := do
  let scheme := if a.scheme = "" then "HTTP" else a.scheme
  let host := if a.host = "" then getPodIpOrHostName env pod else a.host
  let port ← (findPort env pod a.port).mapError .other
  (buildHTTPProbeURL scheme host port a.path).mapError .other

/-- `ProbeUsingHTTP`. -/
def probeUsingHTTP (pod : Pod) (a : HTTPGetAction) : ProbeOp Bool := do
  let url ← outcome (httpGetURL env pod a)
  let headers := ⟨"Host", getPodHostName env svc pod⟩ :: a.httpHeaders
  perform (.httpGet pod url headers)
  outcome (env.httpGet url headers)

/-- The address that `ProbeUsingTCP` connects to. -/
def tcpAddress (pod : Pod) (a : TCPSocketAction) : Except String String := do
  let host := if a.host = "" then getPodIpOrHostName env pod else a.host
  let port ← findPort env pod a.port
  return String.ofList (Url.joinHostPort host.toList (toString port).toList)

/-- `ProbeUsingTCP`. -/
def probeUsingTCP (pod : Pod) (a : TCPSocketAction) : ProbeOp Bool := do
  let address ← outcome ((tcpAddress env pod a).mapError .other)
  perform (.tcp pod address)
  outcome ((env.dial address).mapError .other)

/-- The action of a probe that has one. -/
def runAction (pod : Pod) (p : Probe) : ProbeOp Bool :=
  match p.http with
  | some a => probeUsingHTTPAction env svc pod p a
  | none =>
    match p.exec with
    | some command => probeUsingExec env pod command
    | none =>
      match p.httpGet with
      | some a => probeUsingHTTP env svc pod a
      | none =>
        match p.tcpSocket with
        | some a => probeUsingTCP env pod a
        | none => return true

/-- `runProbe`. -/
def runProbe (pod : Pod) (p : Probe) : ProbeOp Bool :=
  match p.validateAction with
  | .error _ => throw (.request "configuration")
  | .ok _ => if p.legacyNoOpReason.isSome then return true else runAction env svc pod p

/-! ### The Pods of a StatefulSet -/

variable (op : Operator)

/-- Run the probe on the first Pod that answers. -/
def executeOnPods (options : ProbeExecutionOptions) (p : Probe) : List Pod → ProbeOp Bool
  | [] => throw .probeUnavailable
  | pod :: pods =>
    if pod.phase = "Running" then do
      let active ← outcome (CoherenceProbe.activeProbe op options p pod)
      match ← observe (runProbe env svc pod active) with
      | .ok ha => return ha
      | .error e =>
        if options.suspension || p.http.isSome || p.httpGet.isSome then throw e else executeOnPods options p pods
    else executeOnPods options p pods

/-- `executeProbeForPods`. -/
def executeProbeForPods (sts : StatefulSet) (p : Probe) (stsPods pods : List Pod) (options : ProbeExecutionOptions) :
    ProbeOp Bool :=
  if options.suspension && !p.validateAction.isOk then throw (.request "configuration")
  else
    match stsPods.find? fun pod => !pod.isReady.1 with
    | some pod => throw (.podNotReady pod.name pod.isReady.2)
    | none =>
      if stsPods.length = 0 then return true
      else if (stsPods.length : ℤ) ≠ sts.spec.replicas.getD 1 then
        throw (.podCountMismatch stsPods.length (sts.spec.replicas.getD 1))
      else executeOnPods env svc op options p pods

/-! ### The scaling probe -/

/-- `ExecuteScalingProbeForSubSetOfPods`. -/
def executeScalingProbeForSubSetOfPods (sts : StatefulSet) (resolved : ResolvedScalingProbe) (stsPods pods : List Pod) :
    ProbeOp Bool := do
  match ← observe (executeProbeForPods env svc op sts resolved.probe stsPods pods
      { generatedHealthProbe := resolved.generated }) with
  | .ok ha => return ha
  | .error _ => return false

/-- `ExecuteScalingProbe`, with the Pods that the selector of the StatefulSet matches or why they could not be listed. -/
def executeScalingProbe (sts : StatefulSet) (resolved : ResolvedScalingProbe) (found : Except GoError (List Pod)) :
    ProbeOp Bool :=
  match found with
  | .error _ => return false
  | .ok pods => executeScalingProbeForSubSetOfPods env svc op sts resolved pods pods

/-- `IsStatusHA`, for a resource that has the specification of a StatefulSet. -/
def isStatusHA (sts : StatefulSet) (spec : CoherenceStatefulSetResourceSpec) (found : Except GoError (List Pod)) :
    ProbeOp Bool :=
  if (resolveScalingProbe spec).probe.mutates then return false
  else executeScalingProbe env svc op sts (resolveScalingProbe spec) found

/-! ### The suspension of services -/

/-- `SuspensionError`. -/
structure SuspensionError where
  cause : Option ProbeError := none
  deriving DecidableEq, Repr

/-- What is returned for a suspension: the status, and the error that comes with the status `failed`. -/
abbrev SuspensionResult := ServiceSuspendStatus × Option SuspensionError

/-- `suspensionFailure`. -/
def suspensionFailure (cause : Option ProbeError) : SuspensionResult := (.failed, some ⟨cause⟩)

/-- Why no services can be suspended, in the way in which the resource is set up. -/
def misconfiguration (c : Coherence) : Option ProbeError :=
  match c.spec.healthMutatorConnection with
  | none => none
  | some connection =>
    match connection.validate with
    | .error _ => some (.request "configuration")
    | .ok _ =>
      if connection.secure && c.spec.suspendProbe.isSome then
        some (.request "managed security requires the generated suspend action")
      else none

/-- What the execution of the suspend probe comes to. -/
def suspensionResult (p : Probe) : Except ProbeError Bool → SuspensionResult
  | .ok true => if p.legacyNoOpReason.isSome then (.skipped, none) else (.successful, none)
  | .ok false => suspensionFailure none
  | .error e => suspensionFailure (some e)

/-- `SuspendServicesWithError`, with the Pods that the selector of the StatefulSet matches or why they could not be listed. -/
def suspendServicesWithError (deployment : Deployment) (sts : StatefulSet) (found : Except GoError (List Pod)) :
    ProbeOp SuspensionResult :=
  match deployment with
  | .coherence (some c) =>
    if op.skipServiceSuspend then return (.skipped, none)
    else if !c.spec.isSuspendServicesOnShutdown then return (.skipped, none)
    else
      match misconfiguration c, found with
      | some e, _ => return suspensionFailure (some e)
      | none, .error _ => return suspensionFailure (some .workloadLookupFailed)
      | none, .ok pods => do
        let r ← observe (executeProbeForPods env c.toResource.wkaServiceName op sts c.spec.getSuspendProbe pods pods
          { suspension := true })
        return suspensionResult c.spec.getSuspendProbe r
  | .coherenceJob (some _) => return (.skipped, none)
  | _ => throw (.other "invalid memory address or nil pointer dereference")

end

end ProbeActions

end CoherenceOperator
