import CertMate.SessionManager

/-!
# The HTTP handlers

`internal/httpapi/auth.go` and `internal/httpapi/certificates.go`, for requests
that have passed the CSRF check. A body that is not the JSON a handler wants is
`none`; identifiers come without blanks around them.
-/
namespace HttpHandlers
open CertificateModel CallTrees SessionManager
open CertificateService (Service CreateSelfSignedRequest CreateACMERequest UpdateRequest)
open FileSystem (Content)
open LoginLimiter (Manager)

structure FileItem where
  fileType : String
  filename : String
  isPrivate : Bool
  containerPath : String
  deriving DecidableEq, Repr

inductive Body where
  | empty
  | error (code message : String)
  | fields (values : List (String × Detail))
  | certificate (value : Certificate)
  | certificates (items : List Certificate)
  | files (items : List FileItem)
  | file (filename : String) (content : Content)
  | archive (entries : List (String × Content))

structure Response where
  status : Nat
  headers : List (String × String)
  body : Body

def writeJSON (status : Nat) (body : Body) : Response :=
  ⟨status, [("Content-Type", "application/json; charset=utf-8")], body⟩

def writeError (status : Nat) (code message : String) : Response :=
  writeJSON status (.error code message)

def noContent : Response := ⟨204, [], .empty⟩

def internalError : Response := writeError 500 "INTERNAL_ERROR" "服务器内部错误"

def invalidRequest : Response := writeError 400 "INVALID_REQUEST" "请求格式无效"

def certificateNotFound : Response := writeError 404 "CERT_NOT_FOUND" "证书不存在"

def operationRunning : Response :=
  writeError 409 "CERT_OPERATION_RUNNING" "该证书已有任务正在运行"

/-- `middleware.Recoverer`. -/
def recovered : Response := ⟨500, [], .empty⟩

/-- The errors that `errors.Is` and `errors.As` look at. -/
def errorChain : Error → List Error
  | .wrap context cause => .wrap context cause :: errorChain cause
  | .dnsZoneUnavailable domain cause => .dnsZoneUnavailable domain cause :: errorChain cause
  | .deleteFilesBackup cause => .deleteFilesBackup cause :: errorChain cause
  | .join first second => .join first second :: (errorChain first ++ errorChain second)
  | err => [err]

def isNotFound (err : Error) : Bool := errorChain err |>.any (· == .notFound)

def isRevokeNotAllowed (err : Error) : Bool := errorChain err |>.any (· == .revokeNotAllowed)

def isDeleteFilesBackup (err : Error) : Bool :=
  errorChain err |>.any fun e => match e with | .deleteFilesBackup _ => true | _ => false

def redundantDomainError (err : Error) : Option Error :=
  errorChain err |>.find? fun e => match e with | .redundantDomain _ _ _ => true | _ => false

def dnsZoneUnavailableError (err : Error) : Option Error :=
  errorChain err |>.find? fun e => match e with | .dnsZoneUnavailable _ _ => true | _ => false

/-- `writeRedundantDomainError` and `writeDNSZoneUnavailableError`, then the
message of the handler. -/
def configurationError (err : Error) (code message : String) : Response :=
  match redundantDomainError err with
  | some found => writeError 400 "CERT_DOMAIN_REDUNDANT" found.message
  | none =>
    match dnsZoneUnavailableError err with
    | some found => writeError 400 "CERT_DNS_ZONE_UNAVAILABLE" found.message
    | none => writeError 400 code message

structure CreateRequest where
  mode : String
  name : String
  primaryDomain : String
  sans : List String
  keyType : String
  validDays : Int
  outputDirectory : String
  autoRenewEnabled : Bool
  renewBeforeDays : Int
  createRenewedMarker : Bool
  challengeType : String
  dnsCredentialID : String
  caDirectoryURL : String
  acmeEmail : String
  deriving DecidableEq, Repr

structure DeleteRequest where
  password : String
  confirmName : String
  deleteFiles : Bool
  deriving DecidableEq, Repr

structure ArchiveRequest where
  includePrivateKey : Bool
  password : String
  deriving DecidableEq, Repr

structure LoginRequest where
  username : String
  password : String
  deriving DecidableEq, Repr

inductive Route where
  | login (body : Option LoginRequest)
  | logout
  | me
  | reauthenticate (password : Option String)
  | listCertificates
  | createCertificate (body : Option CreateRequest)
  | getCertificate (id : Id)
  | updateCertificate (id : Id) (body : Option UpdateRequest)
  | deleteCertificate (id : Id) (body : Option DeleteRequest)
  | issueCertificate (id : Id)
  | renewCertificate (id : Id)
  | forceRenewCertificate (id : Id)
  | revokeCertificate (id : Id) (password : Option String)
  | listCertificateFiles (id : Id)
  | viewCertificateFile (id : Id) (fileType : String)
  | downloadCertificateFile (id : Id) (fileType : String)
  | downloadCertificateArchive (id : Id) (body : Option ArchiveRequest)
  | revealPrivateKey (id : Id) (password : Option String)
  | auditPrivateKeyCopy (id : Id)
  deriving DecidableEq, Repr

/-- `clientIP` is what `auth.ClientIP` makes of the request. -/
structure Request where
  cookie : Presented
  clientIP : String
  route : Route
  deriving DecidableEq, Repr

/-- A request that has been let in, with its session. -/
structure Visit where
  cookie : Presented
  clientIP : String
  session : Option Session

structure Router where
  appName : String
  manager : Manager
  certificates : Service

section Handlers
variable (rt : Router)

/-- `actor, _ := rt.auth.CurrentUser(r)`. -/
def actorOf (session : Option Session) : Operation String := do
  let user ← currentUser rt.manager session
  return user.getD ""

def adminEvent (eventType actor clientIP result : String) : Event where
  id := 0
  certificateID := none
  eventType := eventType
  actor := actor
  clientIP := clientIP
  result := result
  detail := []
  createdAt := SqliteStore.zeroTime

def auditAdminEvent (session : Option Session) (clientIP eventType fallbackActor result : String) :
    Operation Unit := do
  let user ← currentUser rt.manager session
  let actor := user.getD fallbackActor
  let _ ← service (CertificateService.store (.createAuditEvent
    (adminEvent eventType (if actor = "" then "unknown" else actor) clientIP result)))
  return ()

def requireAuth (cookie : Presented) (next : Option Session → Operation Response) :
    Operation Response := do
  let presented ← present cookie
  match ← currentUser rt.manager presented.2 with
  | none => return writeError 401 "AUTH_REQUIRED" "请先登录"
  | some _ => next presented.2

/-- `certificateByID`, which answers an error itself. -/
def certificateByID (id : Id) : Operation (Except Response Certificate) := do
  match ← service (CertificateService.get id) with
  | .error err => return .error (if isNotFound err then certificateNotFound else internalError)
  | .ok value => return .ok value

def auditFileAccess (id : Id) (eventType actor clientIP : String) :
    CertificateService.Operation (Except Error Unit) :=
  CertificateService.audit id eventType actor clientIP "succeeded" []

def loginHandler (cookie : Presented) (clientIP : String) (body : Option LoginRequest) :
    Operation Response := do
  match body with
  | none => return invalidRequest
  | some request =>
    match ← limiter (LoginLimiter.authenticate rt.manager clientIP request.username
        request.password) with
    | some .rateLimited =>
      let presented ← present cookie
      auditAdminEvent rt presented.2 clientIP "auth.login" "unknown" "rate_limited"
      return writeError 429 "AUTH_RATE_LIMITED" "登录尝试过于频繁，请稍后重试"
    | some .invalidCredentials =>
      let presented ← present cookie
      auditAdminEvent rt presented.2 clientIP "auth.login" "unknown" "failed"
      return writeError 401 "AUTH_INVALID_CREDENTIALS" "用户名或密码错误"
    | none =>
      let presented ← present cookie
      match ← login rt.manager cookie presented.2 request.username request.password with
      | .error _ => return writeError 500 "INTERNAL_ERROR" "登录暂时不可用"
      | .ok session =>
        auditAdminEvent rt (presented.2.map fun _ => session) clientIP "auth.login" request.username
          "succeeded"
        return writeJSON 200
          (.fields [("username", .text request.username), ("authenticated", .flag true)])

def logoutHandler (visit : Visit) : Operation Response := do
  let actor ← actorOf rt visit.session
  match ← logout visit.cookie with
  | .error _ => return writeError 500 "INTERNAL_ERROR" "退出失败"
  | .ok () =>
    auditAdminEvent rt (visit.session.map fun _ => .empty) visit.clientIP "auth.logout" actor
      "succeeded"
    return writeJSON 200 (.fields [("authenticated", .flag false)])

def meHandler (visit : Visit) : Operation Response := do
  match ← currentUser rt.manager visit.session with
  | none => return writeError 401 "AUTH_REQUIRED" "请先登录"
  | some username =>
    let fresh ← reauthenticated rt.manager visit.session
    return writeJSON 200 (.fields [("username", .text username), ("authenticated", .flag true),
      ("reauthenticated", .flag fresh)])

def reauthenticateHandler (visit : Visit) (body : Option String) : Operation Response := do
  match body with
  | none => return invalidRequest
  | some password =>
    match ← reauthenticate rt.manager visit.cookie visit.session password with
    | .error .invalidCredentials =>
      auditAdminEvent rt visit.session visit.clientIP "auth.reauthenticate" "admin" "failed"
      return writeError 401 "AUTH_INVALID_CREDENTIALS" "密码错误"
    | .error .unauthenticated => return writeError 401 "AUTH_REQUIRED" "请先登录"
    | .error (.failed _) => return writeError 500 "INTERNAL_ERROR" "重新认证失败"
    | .ok session =>
      auditAdminEvent rt (some session) visit.clientIP "auth.reauthenticate" "admin" "succeeded"
      return writeJSON 200 (.fields [("reauthenticated", .flag true)])

def listCertificates : Operation Response := do
  match ← service CertificateService.list with
  | .error _ => return internalError
  | .ok values => return writeJSON 200 (.certificates values)

def selfSignedOf (request : CreateRequest) : CreateSelfSignedRequest where
  name := request.name
  primaryDomain := request.primaryDomain
  sans := request.sans
  keyType := request.keyType
  validDays := request.validDays
  outputDirectory := request.outputDirectory
  autoRenewEnabled := request.autoRenewEnabled
  renewBeforeDays := request.renewBeforeDays
  createRenewedMarker := request.createRenewedMarker

def acmeOf (request : CreateRequest) : CreateACMERequest where
  name := request.name
  primaryDomain := request.primaryDomain
  sans := request.sans
  keyType := request.keyType
  outputDirectory := request.outputDirectory
  autoRenewEnabled := request.autoRenewEnabled
  renewBeforeDays := request.renewBeforeDays
  createRenewedMarker := request.createRenewedMarker
  challengeType := request.challengeType
  dnsCredentialID := request.dnsCredentialID
  caDirectoryURL := request.caDirectoryURL
  acmeEmail := request.acmeEmail

def createdResponse : Outcome Certificate → Response
  | .panicked => recovered
  | .ok value => writeJSON 201 (.certificate value)
  | .error err => configurationError err "CERT_ISSUE_FAILED" "证书创建失败，请检查配置和任务日志"

def createCertificate (visit : Visit) (body : Option CreateRequest) : Operation Response := do
  match body with
  | none => return invalidRequest
  | some request =>
    let actor ← actorOf rt visit.session
    match request.mode with
    | "self_signed" =>
      let outcome ← service (CertificateService.createSelfSigned rt.certificates
        (selfSignedOf request) actor visit.clientIP)
      return createdResponse outcome
    | "acme" =>
      let outcome ← service (CertificateService.createACME rt.certificates (acmeOf request) actor
        visit.clientIP)
      return createdResponse outcome
    | _ => return writeError 400 "CERT_MODE_UNSUPPORTED" "不支持的证书模式"

def getCertificate (id : Id) : Operation Response := do
  match ← certificateByID id with
  | .error response => return response
  | .ok value => return writeJSON 200 (.certificate value)

def updatedResponse : Outcome Certificate → Response
  | .panicked => recovered
  | .ok value => writeJSON 200 (.certificate value)
  | .error err =>
    if isNotFound err then certificateNotFound
    else writeError 400 "CERT_UPDATE_INVALID" "证书设置无效"

def updateCertificate (visit : Visit) (id : Id) (body : Option UpdateRequest) :
    Operation Response := do
  match body with
  | none => return invalidRequest
  | some request =>
    let actor ← actorOf rt visit.session
    let outcome ← service (CertificateService.update id request actor visit.clientIP)
    return updatedResponse outcome

def issuedResponse : Outcome Certificate → Response
  | .panicked => recovered
  | .ok value => writeJSON 200 (.certificate value)
  | .error err =>
    if isNotFound err then certificateNotFound
    else if err.isOperationRunning then operationRunning
    else configurationError err "CERT_ISSUE_FAILED" "证书重新签发失败，请查看任务日志"

def issueCertificate (visit : Visit) (id : Id) : Operation Response := do
  let actor ← actorOf rt visit.session
  let outcome ← service (CertificateService.issue rt.certificates id actor visit.clientIP)
  return issuedResponse outcome

def renewedResponse : Outcome Certificate → Response
  | .panicked => recovered
  | .ok value => writeJSON 200 (.certificate value)
  | .error err =>
    if isNotFound err then certificateNotFound
    else if err.isOperationRunning then operationRunning
    else
      match dnsZoneUnavailableError err with
      | some found => writeError 400 "CERT_DNS_ZONE_UNAVAILABLE" found.message
      | none => writeError 400 "CERT_RENEW_FAILED" "证书续签失败，请查看任务日志"

def runCertificateRenewal (visit : Visit) (id : Id) (force : Bool) : Operation Response := do
  let actor ← actorOf rt visit.session
  let outcome ← service (CertificateService.renew rt.certificates id force actor visit.clientIP)
  return renewedResponse outcome

def renewCertificate (visit : Visit) (id : Id) : Operation Response :=
  runCertificateRenewal rt visit id false

def forceRenewCertificate (visit : Visit) (id : Id) : Operation Response := do
  match ← reauthenticated rt.manager visit.session with
  | false => return writeError 403 "AUTH_REAUTH_REQUIRED" "强制续签前必须重新认证"
  | true => runCertificateRenewal rt visit id true

def revokedResponse : Outcome Certificate → Response
  | .panicked => recovered
  | .ok value => writeJSON 200 (.certificate value)
  | .error err =>
    if isNotFound err then certificateNotFound
    else if err.isOperationRunning then operationRunning
    else if isRevokeNotAllowed err then
      writeError 409 "CERT_REVOKE_NOT_ALLOWED" "当前记录没有可撤销的已签发公共证书"
    else writeError 400 "CERT_REVOKE_FAILED" "证书撤销失败，请查看任务日志"

def revokeCertificate (visit : Visit) (id : Id) (body : Option String) : Operation Response := do
  match body with
  | none => return invalidRequest
  | some password =>
    match ← reauthenticate rt.manager visit.cookie visit.session password with
    | .error _ => return writeError 401 "AUTH_REAUTH_REQUIRED" "撤销证书前必须重新认证"
    | .ok session =>
      let actor ← actorOf rt (some session)
      let outcome ← service (CertificateService.revoke rt.certificates id actor visit.clientIP)
      return revokedResponse outcome

def deletedResponse : Outcome Unit → Response
  | .panicked => recovered
  | .ok () => noContent
  | .error err =>
    if err.isOperationRunning then operationRunning
    else if isDeleteFilesBackup err then
      writeError 409 "CERT_DELETE_FILES_BACKUP_FAILED" "证书文件备份失败，管理记录未删除"
    else internalError

def deleteCertificate (visit : Visit) (id : Id) (body : Option DeleteRequest) :
    Operation Response := do
  match body with
  | none => return invalidRequest
  | some request =>
    match ← certificateByID id with
    | .error response => return response
    | .ok value =>
      if request.confirmName ≠ value.name then
        return writeError 400 "CERT_DELETE_CONFIRMATION_INVALID" "证书名称确认不匹配"
      else
        match ← reauthenticate rt.manager visit.cookie visit.session request.password with
        | .error _ => return writeError 401 "AUTH_REAUTH_REQUIRED" "删除证书前必须重新认证"
        | .ok session =>
          let actor ← actorOf rt (some session)
          let outcome ← service (CertificateService.delete value.id request.deleteFiles actor
            visit.clientIP)
          return deletedResponse outcome

def certificateFiles : List (String × String) :=
  [("cert", "cert.pem"), ("chain", "chain.pem"), ("fullchain", "fullchain.pem"),
    ("private-key", "privkey.pem")]

def certificateFileName (fileType : String) : Option String := certificateFiles.lookup fileType

def containerPath (value : Certificate) (fileName : String) : String :=
  "/certs/" ++ value.outputDirectory ++ "/" ++ fileName

def fileItems (value : Certificate) (available : List String) : List FileItem :=
  (certificateFiles.filter fun d => d.2 ∈ available).map fun d =>
    ⟨d.1, d.2, d.1 = "private-key", containerPath value d.2⟩

def listCertificateFiles (id : Id) : Operation Response := do
  match ← certificateByID id with
  | .error response => return response
  | .ok value =>
    match ← service (CertificateService.availableFiles value.id) with
    | .error _ => return internalError
    | .ok available => return writeJSON 200 (.files (fileItems value available))

/-- The response of `serveCertificateFile`. -/
def fileResponse (fileType filename : String) (download : Bool) (content : Content) : Response where
  status := 200
  headers := [("Content-Type", "application/x-pem-file"), ("X-Content-Type-Options", "nosniff")] ++
    (if fileType = "private-key" then [("Cache-Control", "no-store, private")] else []) ++
    if download then [("Content-Disposition", "attachment; filename=\"" ++ filename ++ "\"")]
    else []
  body := .file filename content

def serveCertificateFile (visit : Visit) (id : Id) (fileType : String) (download : Bool) :
    Operation Response := do
  match certificateFileName fileType with
  | none => return writeError 400 "CERT_FILE_NOT_FOUND" "不支持的证书文件类型"
  | some filename =>
    match ← service (CertificateService.readFile id filename) with
    | .error err =>
      return if isNotFound err then certificateNotFound
        else writeError 404 "CERT_FILE_NOT_FOUND" "证书文件不存在"
    | .ok content =>
      if fileType = "private-key" then
        let actor ← actorOf rt visit.session
        let _ ← service (auditFileAccess id
          (if download then "private_key.download" else "private_key.view") actor visit.clientIP)
        return fileResponse fileType filename download content
      else return fileResponse fileType filename download content

def viewCertificateFile (visit : Visit) (id : Id) (fileType : String) : Operation Response :=
  if fileType = "private-key" then
    return writeError 403 "PRIVATE_KEY_ACCESS_DENIED" "私钥必须通过重新认证接口查看"
  else serveCertificateFile rt visit id fileType false

def downloadCertificateFile (visit : Visit) (id : Id) (fileType : String) : Operation Response := do
  if fileType = "private-key" then
    match ← reauthenticated rt.manager visit.session with
    | false => return writeError 403 "AUTH_REAUTH_REQUIRED" "下载私钥前必须重新认证"
    | true => serveCertificateFile rt visit id fileType true
  else serveCertificateFile rt visit id fileType true

/-- The loop of `downloadCertificateArchive`; `entries` are those written. -/
def archiveEntries (id : Id) :
    List String → List (String × Content) → Operation (Except Response (List (String × Content)))
  | [], entries => return .ok entries
  | fileType :: rest, entries => do
    match certificateFileName fileType with
    | none => return .error internalError
    | some filename =>
      match ← service (CertificateService.readFile id filename) with
      | .error _ =>
        return .error (writeError 404 "CERT_FILE_NOT_FOUND" "证书文件不完整，无法创建压缩包")
      | .ok content => archiveEntries id rest (entries ++ [(filename, content)])

def readmeText (value : Certificate) (includePrivateKey : Bool) : String :=
  rt.appName ++ " certificate bundle\n\nCertificate: " ++ value.name ++ "\nPrimary domain: " ++
    value.primaryDomain ++ "\nContainer directory: /certs/" ++ value.outputDirectory ++
    "\nPrivate key included: " ++ (if includePrivateKey then "true" else "false") ++
    "\n\nKeep privkey.pem confidential and restrict it to the service account that " ++
    "terminates TLS.\n"

def archiveTypes (includePrivateKey : Bool) : List String :=
  ["cert", "chain", "fullchain"] ++ if includePrivateKey then ["private-key"] else []

/-- `downloadCertificateArchive` once the password is checked, where it must be.
Writing the archive to memory does not fail. -/
def writeArchive (visit : Visit) (value : Certificate) (includePrivateKey : Bool) :
    Operation Response := do
  match ← archiveEntries value.id (archiveTypes includePrivateKey) [] with
  | .error response => return response
  | .ok entries =>
    let readme := ("README.txt", Content.bytes (utf8 (readmeText rt value includePrivateKey)))
    let response : Response :=
      ⟨200, [("Content-Type", "application/zip"),
          ("Content-Disposition", "attachment; filename=\"certificate-bundle.zip\""),
          ("Cache-Control", "no-store, private"), ("X-Content-Type-Options", "nosniff")],
        .archive (entries ++ [readme])⟩
    let actor ← actorOf rt visit.session
    let _ ← service (auditFileAccess value.id "certificate_files.archive_download" actor
      visit.clientIP)
    if includePrivateKey then
      let _ ← service (auditFileAccess value.id "private_key.archive_download" actor visit.clientIP)
      return response
    else return response

def downloadCertificateArchive (visit : Visit) (id : Id) (body : Option ArchiveRequest) :
    Operation Response := do
  match body with
  | none => return invalidRequest
  | some request =>
    match ← certificateByID id with
    | .error response => return response
    | .ok value =>
      if request.includePrivateKey then
        match ← reauthenticate rt.manager visit.cookie visit.session request.password with
        | .error _ =>
          return writeError 401 "AUTH_REAUTH_REQUIRED" "下载包含私钥的压缩包前必须重新认证"
        | .ok session => writeArchive rt { visit with session := some session } value true
      else writeArchive rt visit value false

def revealPrivateKey (visit : Visit) (id : Id) (body : Option String) : Operation Response := do
  match body with
  | none => return invalidRequest
  | some password =>
    match ← reauthenticate rt.manager visit.cookie visit.session password with
    | .error _ => return writeError 401 "AUTH_REAUTH_REQUIRED" "管理员密码错误"
    | .ok session =>
      serveCertificateFile rt { visit with session := some session } id "private-key" false

def auditPrivateKeyCopy (visit : Visit) (id : Id) : Operation Response := do
  match ← reauthenticated rt.manager visit.session with
  | false => return writeError 403 "AUTH_REAUTH_REQUIRED" "复制私钥前必须重新认证"
  | true =>
    match ← certificateByID id with
    | .error response => return response
    | .ok _ =>
      let actor ← actorOf rt visit.session
      match ← service (auditFileAccess id "private_key.copy" actor visit.clientIP) with
      | .error _ => return internalError
      | .ok () => return noContent

/-- The handlers behind `requireAuth`. -/
def authorized (visit : Visit) : Route → Operation Response
  | .login _ => return internalError
  | .logout => logoutHandler rt visit
  | .me => meHandler rt visit
  | .reauthenticate password => reauthenticateHandler rt visit password
  | .listCertificates => listCertificates
  | .createCertificate body => createCertificate rt visit body
  | .getCertificate id => getCertificate id
  | .updateCertificate id body => updateCertificate rt visit id body
  | .deleteCertificate id body => deleteCertificate rt visit id body
  | .issueCertificate id => issueCertificate rt visit id
  | .renewCertificate id => renewCertificate rt visit id
  | .forceRenewCertificate id => forceRenewCertificate rt visit id
  | .revokeCertificate id password => revokeCertificate rt visit id password
  | .listCertificateFiles id => listCertificateFiles id
  | .viewCertificateFile id fileType => viewCertificateFile rt visit id fileType
  | .downloadCertificateFile id fileType => downloadCertificateFile rt visit id fileType
  | .downloadCertificateArchive id body => downloadCertificateArchive rt visit id body
  | .revealPrivateKey id password => revealPrivateKey rt visit id password
  | .auditPrivateKeyCopy id => auditPrivateKeyCopy rt visit id

def handle (request : Request) : Operation Response :=
  match request.route with
  | .login body => loginHandler rt request.cookie request.clientIP body
  | route => requireAuth rt request.cookie fun session =>
      authorized rt ⟨request.cookie, request.clientIP, session⟩ route

end Handlers

end HttpHandlers
