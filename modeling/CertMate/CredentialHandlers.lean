import CertMate.CredentialService
import CertMate.ThreadPools

/-!
# The HTTP handlers of the DNS credentials

`internal/httpapi/credentials.go`, for requests that have passed the CSRF check
and whose bodies are within `maxCertificateBody`, as they are decoded. A body that
is not the JSON a handler wants is `none`. The list of providers, a constant, is
left out.
-/
namespace CredentialHandlers
open CallTrees ThreadPools CredentialModel
open CredentialService (Row Service)
open CertificateModel (Certificate Status Id)

structure Event where
  eventType : String
  actor : String
  clientIP : String
  result : String
  detail : List (String × String)
  deriving DecidableEq, Repr

structure LogLine where
  message : String
  eventType : Option String
  err : Error
  deriving DecidableEq, Repr

structure Reference where
  id : Id
  name : String
  primaryDomain : String
  status : Status

inductive Body where
  | empty
  | error (code message : String)
  | credential (value : Credential)
  | credentials (items : List Credential)
  | valid
  | references (items : List Reference)

structure Response where
  status : Nat
  body : Body

def writeError (status : Nat) (code message : String) : Response := ⟨status, .error code message⟩

def invalidRequest : Response := writeError 400 "INVALID_REQUEST" "请求格式无效"

def credentialNotFound : Response := writeError 404 "DNS_CREDENTIAL_NOT_FOUND" "DNS 凭据不存在"

def credentialInvalid : Response := writeError 400 "DNS_CREDENTIAL_INVALID" "DNS 凭据配置无效"

/-- `middleware.Recoverer`. -/
def recovered : Response := ⟨500, .empty⟩

inductive Route where
  | listDNSCredentials
  | createDNSCredential (body : Option CreateRequest)
  | updateDNSCredential (id : String) (body : Option CreateRequest)
  | testDNSCredential (id : String)
  | dnsCredentialReferences (id : String)
  | deleteDNSCredential (id : String)
  deriving DecidableEq

/-- `clientIP` is what `auth.ClientIP` makes of the request. -/
structure Request where
  clientIP : String
  route : Route
  deriving DecidableEq

inductive Eff where
  | credentials (e : CredentialService.Eff)
  | list
  | certificates
  | currentUser
  | createAuditEvent (event : Event)
  | log (line : LogLine)
  | respond (request : Request) (response : Response)

abbrev Ans : Eff → Type
  | .credentials e => CredentialService.Ans e
  | .list => Except Error (List Row)
  | .certificates => Except Error (List Certificate)
  | .currentUser => Option String
  | .createAuditEvent _ => Except Error Unit
  | .log _ => Unit
  | .respond _ _ => Unit

/-- What comes from outside at the `n`-th call; `certificates` is what
`rt.certificates.List` answers and `currentUser` what the session manager does. -/
structure Environment where
  service : CredentialService.Environment
  listFails : Nat → Option String
  certificates : Nat → Except Error (List Certificate)
  currentUser : Nat → Option String
  auditFails : Nat → Option String

/-- `exchanges` has the requests that have been answered, with the thread and the response. -/
structure World where
  service : CredentialService.World
  audits : List Event
  logs : List LogLine
  exchanges : List (Nat × Request × Response)
  calls : Nat

def World.tick (w : World) : World := { w with calls := w.calls + 1 }

section Execution
variable (env : Environment) (t : Nat)

def exec : (e : Eff) → World → Ans e × World
  | .credentials e, w =>
    ((CredentialService.exec env.service e w.service).1,
      { w with service := (CredentialService.exec env.service e w.service).2 })
  | .list, w =>
    match env.listFails w.calls with
    | some err => (.error (.database err), w.tick)
    | none => (.ok (w.service.table.rows.insertionSort fun r r' => r.name ≤ r'.name), w.tick)
  | .certificates, w => (env.certificates w.calls, w.tick)
  | .currentUser, w => (env.currentUser w.calls, w.tick)
  | .createAuditEvent event, w =>
    match env.auditFails w.calls with
    | some err => (.error (.database err), w.tick)
    | none => (.ok (), { w.tick with audits := event :: w.audits })
  | .log line, w => ((), { w with logs := line :: w.logs })
  | .respond request response, w =>
    ((), { w with exchanges := (t, request, response) :: w.exchanges })

end Execution

abbrev Operation (α : Type) := Prog Eff Ans α

def credentials {α : Type} (p : CredentialService.Operation α) : Operation α :=
  p.lift fun e => Prog.perform (Eff.credentials e)

/-- `errors.Is` with `credential.ErrNotFound`. -/
def isNotFound : Error → Bool
  | .notFound => true
  | .wrap _ cause => isNotFound cause
  | _ => false

def internalError (operation : String) (err : Error) : Operation Response := do
  Prog.perform (Eff.log ⟨operation, none, err⟩)
  return writeError 500 "INTERNAL_ERROR" "服务器内部错误"

def auditAdminEvent (clientIP eventType fallbackActor result : String)
    (detail : List (String × String)) : Operation Unit := do
  let user ← Prog.perform Eff.currentUser
  let actor := user.getD fallbackActor
  let event : Event :=
    ⟨eventType, if actor = "" then "unknown" else actor, clientIP, result, detail⟩
  match ← Prog.perform (Eff.createAuditEvent event) with
  | .error err => Prog.perform (Eff.log ⟨"create audit event", some eventType, err⟩)
  | .ok () => return ()

def requireAuth (next : Operation Response) : Operation Response := do
  match ← Prog.perform Eff.currentUser with
  | none => return writeError 401 "AUTH_REQUIRED" "请先登录"
  | some _ => next

section Handlers
variable (s : Service)

/-- The loop of `DNSCredentials` over the rows. -/
def scanRows : List Row → Except Error (List Credential)
  | [] => .ok []
  | row :: rest =>
    match CredentialService.scanDNSCredential s row with
    | .error err => .error err
    | .ok (value, _) =>
      match scanRows rest with
      | .error err => .error err
      | .ok values => .ok (value :: values)

def dnsCredentials : Operation (Except Error (List Credential)) := do
  match ← Prog.perform Eff.list with
  | .error err => return .error err
  | .ok rows => return scanRows s rows

def listDNSCredentials : Operation Response := do
  match ← dnsCredentials s with
  | .error err => internalError "list DNS credentials" err
  | .ok values => return ⟨200, .credentials values⟩

def createDNSCredential (clientIP : String) (body : Option CreateRequest) : Operation Response := do
  match body with
  | none => return invalidRequest
  | some request =>
    match ← credentials (CredentialService.create s request) with
    | .error _ =>
      auditAdminEvent clientIP "dns_credential.create" "admin" "failed"
        [("provider", request.provider)]
      return credentialInvalid
    | .ok value =>
      auditAdminEvent clientIP "dns_credential.create" "admin" "succeeded"
        [("credential_id", value.id), ("provider", value.provider)]
      return ⟨201, .credential value⟩

/-- A request without a provider only renames. -/
def changeDNSCredential (id : String) (request : CreateRequest) :
    CredentialService.Operation (Except Error Credential) :=
  if request.provider = "" then CredentialService.rename s id request.name
  else CredentialService.update s id request

def updateDNSCredential (clientIP id : String) (body : Option CreateRequest) :
    Operation Response := do
  match body with
  | none => return invalidRequest
  | some request =>
    match ← credentials (changeDNSCredential s id request) with
    | .error err =>
      if isNotFound err then return credentialNotFound
      else
        auditAdminEvent clientIP "dns_credential.update" "admin" "failed" [("credential_id", id)]
        return credentialInvalid
    | .ok value =>
      auditAdminEvent clientIP "dns_credential.update" "admin" "succeeded"
        [("credential_id", id), ("provider", value.provider)]
      return ⟨200, .credential value⟩

/-- `Test` throws the values that `Resolve` returns away. -/
def testDNSCredential (clientIP id : String) : Operation Response := do
  match ← credentials (CredentialService.resolve s id) with
  | .error .panicked => return recovered
  | .error err =>
    if isNotFound err then return credentialNotFound
    else
      auditAdminEvent clientIP "dns_credential.test" "admin" "failed" [("credential_id", id)]
      return writeError 400 "DNS_CREDENTIAL_TEST_FAILED" "凭据无法解析，请检查密文或环境变量引用"
  | .ok _ =>
    auditAdminEvent clientIP "dns_credential.test" "admin" "succeeded" [("credential_id", id)]
    return ⟨200, .valid⟩

def referencesTo (id : String) (values : List Certificate) : List Reference :=
  (values.filter fun value => value.dnsCredentialID = id).map fun value =>
    ⟨value.id, value.name, value.primaryDomain, value.status⟩

def dnsCredentialReferences (id : String) : Operation Response := do
  match ← credentials (CredentialService.dnsCredential s id) with
  | .error err =>
    if isNotFound err then return credentialNotFound
    else internalError "get DNS credential" err
  | .ok _ =>
    match ← Prog.perform Eff.certificates with
    | .error err => internalError "list DNS credential references" err
    | .ok values => return ⟨200, .references (referencesTo id values)⟩

def deleteDNSCredential (clientIP id : String) : Operation Response := do
  match ← credentials (CredentialService.delete id) with
  | .error err =>
    if isNotFound err then return credentialNotFound
    else internalError "delete DNS credential" err
  | .ok () =>
    auditAdminEvent clientIP "dns_credential.delete" "admin" "succeeded" [("credential_id", id)]
    return ⟨204, .empty⟩

def authorized (clientIP : String) : Route → Operation Response
  | .listDNSCredentials => listDNSCredentials s
  | .createDNSCredential body => createDNSCredential s clientIP body
  | .updateDNSCredential id body => updateDNSCredential s clientIP id body
  | .testDNSCredential id => testDNSCredential s clientIP id
  | .dnsCredentialReferences id => dnsCredentialReferences s id
  | .deleteDNSCredential id => deleteDNSCredential clientIP id

def handle (request : Request) : Operation Unit := do
  let response ← requireAuth (authorized s request.clientIP request.route)
  Prog.perform (Eff.respond request response)

def thread (request : Request) : Thread Eff Ans Request Unit := ⟨handle s request, request⟩

def pool (env : Environment) : System Eff Ans World Request Unit where
  exec := exec env
  enabled _ _ _ := true
  note request _ _ := request
  spawn _ _ := none
  starts th := ∃ request, th = thread s request
  restart w := w

end Handlers

end CredentialHandlers
