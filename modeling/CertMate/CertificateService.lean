import CertMate.ServiceWorld

/-!
# The certificate service

`internal/certificate/service.go`, operation by operation. A method that
dereferences a nil pointer ends in `panicked`; its deferred unlock still runs.
-/
namespace CertificateService
open CertificateModel DomainValidation CallTrees SqliteStore ServiceWorld CertificateFiles

abbrev Operation (α : Type) := Prog Eff Ans α

/-- Which of its engines and services the service was built with. -/
structure Service where
  engine : Bool
  acme : Bool
  credentials : Bool
  deriving DecidableEq, Repr

structure CreateSelfSignedRequest where
  name : String
  primaryDomain : String
  sans : List String
  keyType : String
  validDays : Int
  outputDirectory : String
  autoRenewEnabled : Bool
  renewBeforeDays : Int
  createRenewedMarker : Bool
  deriving DecidableEq, Repr

structure CreateACMERequest where
  name : String
  primaryDomain : String
  sans : List String
  keyType : String
  outputDirectory : String
  autoRenewEnabled : Bool
  renewBeforeDays : Int
  createRenewedMarker : Bool
  challengeType : String
  dnsCredentialID : String
  caDirectoryURL : String
  acmeEmail : String
  deriving DecidableEq, Repr

structure UpdateRequest where
  name : String
  autoRenewEnabled : Bool
  renewBeforeDays : Int
  createRenewedMarker : Bool
  deriving DecidableEq, Repr

section Calls

abbrev store (q : Query) : Operation (Except Error (Reply q)) := Prog.perform (Eff.store q)
abbrev loadOrStore (certificate : Id) : Operation Nat := Prog.perform (Eff.loadOrStore certificate)
abbrev tryLock (lock : Nat) : Operation Bool := Prog.perform (Eff.tryLock lock)
abbrev unlock (lock : Nat) : Operation Unit := Prog.perform (Eff.unlock lock)
abbrev dropLock (certificate : Id) : Operation Unit := Prog.perform (Eff.dropLock certificate)
abbrev clock : Operation Time := Prog.perform Eff.now
abbrev resolve (credential : String) : Operation (Except Error ProcessValues) :=
  Prog.perform (Eff.resolve credential)
abbrev issueSelfSigned (certificate : Id) (request : SelfSignedRequest) :
    Operation (Except CommandFailure (Option SelfSignedResult)) :=
  Prog.perform (Eff.issueSelfSigned certificate request)
abbrev renewSelfSigned (certificate : Id) (request : SelfSignedRequest) :
    Operation (Except CommandFailure (Option SelfSignedResult)) :=
  Prog.perform (Eff.renewSelfSigned certificate request)
abbrev issueACME (certificate : Id) (request : IssueRequest) :
    Operation (Except CommandFailure (Option ACMEResult)) :=
  Prog.perform (Eff.issueACME certificate request)
abbrev renewACME (certificate : Id) (request : RenewRequest) :
    Operation (Except CommandFailure (Option ACMEResult)) :=
  Prog.perform (Eff.renewACME certificate request)
abbrev revokeACME (certificate : Id) (request : RevokeRequest) :
    Operation (Except CommandFailure Unit) :=
  Prog.perform (Eff.revokeACME certificate request)

/-- The publisher's work for one certificate. -/
def publisher {α : Type} (certificate : Id) (p : Files α) : Operation α :=
  p.lift fun e => Prog.perform (Eff.file certificate e)

end Calls

/-- A certificate before it is stored. -/
def blankCertificate : Certificate where
  id := 0
  name := ""
  mode := .selfSigned
  primaryDomain := ""
  domains := []
  keyType := ""
  status := .issuing
  outputDirectory := ""
  issuer := ""
  serialNumber := ""
  notBefore := none
  notAfter := none
  fingerprintSHA256 := ""
  autoRenewEnabled := false
  renewBeforeDays := 0
  challengeType := ""
  dnsProvider := ""
  dnsCredentialID := ""
  caDirectoryURL := ""
  acmeEmail := ""
  selfSignedValidDays := 0
  createRenewedMarker := false
  createdAt := zeroTime
  updatedAt := zeroTime
  lastIssuedAt := none
  lastRenewedAt := none
  lastError := []

def runningJob (certificate : Id) (jobType : JobType) : Run where
  id := 0
  certificateID := some certificate
  jobType := jobType
  status := .running
  startedAt := zeroTime
  finishedAt := none
  exitCode := none
  sanitizedOutput := []
  errorMessage := []
  attempt := 0

def auditEvent (certificate : Id) (eventType actor clientIP result : String)
    (detail : List (String × Detail)) : Event where
  id := 0
  certificateID := some certificate
  eventType := eventType
  actor := actor
  clientIP := clientIP
  result := result
  detail := detail
  createdAt := zeroTime

def audit (certificate : Id) (eventType actor clientIP result : String)
    (detail : List (String × Detail)) : Operation (Except Error Unit) :=
  store (.createAuditEvent (auditEvent certificate eventType actor clientIP result detail))

def revokeAllowed (status : Status) : Bool := status = .active || status = .expiring

def renewAllowed (status : Status) : Bool :=
  status = .active || status = .expiring || status = .expired

def manualIssueAllowed : Status → Bool
  | .pending | .failed | .active | .expiring | .expired => true
  | _ => false

/-- `time.Duration(value.RenewBeforeDays) * 24 * time.Hour` does not wrap: the table and
`Update` keep the days between 1 and 365, and the nanoseconds of up to 106751 days fit. -/
def dueForRenewal (value : Certificate) (now : Time) : Bool :=
  match value.notAfter with
  | none => false
  | some notAfter =>
    if !value.autoRenewEnabled || value.status = .disabled || value.status = .revoked then false
    else decide (notAfter - value.renewBeforeDays * day ≤ now)

/-- The parts of a result that `issueExisting` goes on with. -/
structure Material where
  certPEM : Bytes
  chainPEM : Bytes
  fullchainPEM : Bytes
  privateKeyPEM : Bytes
  metadata : Metadata
  exit : Int
  output : Bytes
  deriving DecidableEq, Repr

def Material.ofSelfSigned (result : SelfSignedResult) : Material where
  certPEM := result.certificatePEM
  chainPEM := result.certificatePEM
  fullchainPEM := result.certificatePEM
  privateKeyPEM := result.privateKeyPEM
  metadata := result.metadata
  exit := result.exitCode
  output := result.outputSummary

def Material.ofACME (result : ACMEResult) : Material where
  certPEM := result.certificatePEM
  chainPEM := result.chainPEM
  fullchainPEM := result.fullchainPEM
  privateKeyPEM := result.privateKeyPEM
  metadata := result.metadata
  exit := result.exitCode
  output := result.outputSummary

/-- How the work on the engine ends: with material, with an error and the exit
code that is recorded for it, or on a nil pointer. -/
inductive Obtained where
  | material (value : Material)
  | failed (exit : Int) (err : Error)
  | panicked
  deriving DecidableEq, Repr

def acmeExitCode (err : Error) : Int := err.exitCode

def selfSignedObtained : Except CommandFailure (Option SelfSignedResult) → Obtained
  | .error err => .failed (Error.command err).exitCode (.command err)
  | .ok none => .failed (-1) (.new "自签名引擎未返回签发结果")
  | .ok (some result) => .material (.ofSelfSigned result)

def acmeObtained (primaryDomain : String) :
    Except CommandFailure (Option ACMEResult) → Obtained
  | .error err =>
    .failed (acmeExitCode (normalizeACMEError err primaryDomain))
      (normalizeACMEError err primaryDomain)
  | .ok none => .failed (-1) (.new "ACME 引擎未返回签发结果")
  | .ok (some result) => .material (.ofACME result)

def noProcessValues : ProcessValues := ⟨"", []⟩

def renewRequest (value : Certificate) (force : Bool) (values : ProcessValues) : RenewRequest where
  certificateID := value.id
  primaryDomain := value.primaryDomain
  keyType := value.keyType
  force := force
  dnsProvider := values.acmeDNSCode
  dnsVariables := values.environment
  caDirectory := value.caDirectoryURL

def issueRequest (value : Certificate) (values : ProcessValues) : IssueRequest where
  certificateID := value.id
  primaryDomain := value.primaryDomain
  domains := value.domains
  keyType := value.keyType
  challengeType := value.challengeType
  dnsProvider := values.acmeDNSCode
  dnsVariables := values.environment
  caDirectory := value.caDirectoryURL
  email := value.acmeEmail

def selfSignedRequest (value : Certificate) : SelfSignedRequest where
  primaryDomain := value.primaryDomain
  domains := value.domains
  keyType := value.keyType
  validDays := value.selfSignedValidDays

/-- The part of `issueExisting` between `CreateJob` and the metadata. -/
def renewMaterial (s : Service) (value : Certificate) (force : Bool) : Operation Obtained := do
  match value.mode with
  | .selfSigned =>
    if s.engine then
      let result ← renewSelfSigned value.id (selfSignedRequest value)
      return selfSignedObtained result
    else return .panicked
  | .acme =>
    if s.acme then
      if value.challengeType = "dns-01" then
        if s.credentials then
          match ← resolve value.dnsCredentialID with
          | .error err => return .failed (-1) err
          | .ok values =>
            let result ← renewACME value.id (renewRequest value force values)
            return acmeObtained value.primaryDomain result
        else return .failed (-1) (.new "DNS 凭据服务不可用")
      else
        let result ← renewACME value.id (renewRequest value force noProcessValues)
        return acmeObtained value.primaryDomain result
    else return .failed (-1) (.new "ACME 功能未启用")
  | .other _ => return .failed (-1) (.new "未知证书模式")

/-- The same part of `issueExistingCertificate`. -/
def issueMaterial (s : Service) (value : Certificate) : Operation Obtained := do
  match value.mode with
  | .selfSigned =>
    if s.engine then
      let result ← issueSelfSigned value.id (selfSignedRequest value)
      return selfSignedObtained result
    else return .failed (-1) (.new "自签名功能未启用")
  | .acme =>
    if s.acme then
      if value.challengeType = "dns-01" then
        if s.credentials then
          match ← resolve value.dnsCredentialID with
          | .error err => return .failed (-1) err
          | .ok values =>
            let result ← issueACME value.id (issueRequest value values)
            return acmeObtained value.primaryDomain result
        else return .failed (-1) (.new "DNS 凭据服务不可用")
      else if value.challengeType = "http-01" then
        let result ← issueACME value.id (issueRequest value noProcessValues)
        return acmeObtained value.primaryDomain result
      else return .failed (-1) (.new "仅支持 dns-01 或 http-01")
    else return .failed (-1) (.new "ACME 功能未启用")
  | .other _ => return .failed (-1) (.new "未知证书模式")

/-- The error of `json.MarshalIndent`, which takes the fields in the order of their names. -/
def marshalError (m : Metadata) (now : Time) : Error :=
  .new ("json: error calling MarshalJSON for type time.Time: Time.MarshalJSON: " ++
    ([m.notAfter, m.notBefore, utc now].findSome? jsonFault).getD "")

/-- `json.MarshalIndent` fails exactly on a time that JSON cannot hold. -/
def metadataDocument (value : Certificate) (m : Metadata) (now : Time) :
    Except Error FileSystem.Document :=
  if jsonTime m.notBefore && jsonTime m.notAfter && jsonTime (utc now) then
    .ok {
      certificateID := value.id
      name := value.name
      mode := value.mode
      primaryDomain := value.primaryDomain
      domains := value.domains
      issuer := m.issuer
      serialNumber := m.serialNumber
      notBefore := m.notBefore
      notAfter := m.notAfter
      fingerprintSHA256 := m.fingerprintSHA256
      keyAlgorithm := m.keyAlgorithm
      updatedAt := utc now }
  else .error (marshalError m now)

def payload (material : Material) (document : FileSystem.Document) (createMarker : Bool) :
    Payload where
  certPEM := .bytes material.certPEM
  chainPEM := .bytes material.chainPEM
  fullchainPEM := .bytes material.fullchainPEM
  privateKeyPEM := .bytes material.privateKeyPEM
  metadataJSON := .document document
  createMarker := createMarker

/-- The certificate with what was read off the new material. -/
def withMaterial (value : Certificate) (material : Material) : Certificate :=
  { value with
    issuer := material.metadata.issuer
    serialNumber := material.metadata.serialNumber
    notBefore := some material.metadata.notBefore.instant
    notAfter := some material.metadata.notAfter.instant
    fingerprintSHA256 := material.metadata.fingerprintSHA256 }

def list : Operation (Except Error (List Certificate)) := store .certificates

def get (id : Id) : Operation (Except Error Certificate) := store (.certificate id)

def readFile (id : Id) (fileName : String) : Operation (Except Error FileSystem.Content) := do
  match ← get id with
  | .error err => return .error err
  | .ok value =>
    match ← publisher id (CertificateFiles.read value.outputDirectory fileName) with
    | .error err => return .error err
    | .ok (content, _) => return .ok content

def availableFiles (id : Id) : Operation (Except Error (List String)) := do
  match ← get id with
  | .error err => return .error err
  | .ok value => publisher id (available value.outputDirectory)

/-- What a reading operation returns to its caller. -/
def answer {α : Type} : Except Error α → Outcome α
  | .ok value => .ok value
  | .error err => .error err

def validName (name : String) : Bool := name ≠ "" && decide (name.utf8ByteSize ≤ 100)

def update (id : Id) (request : UpdateRequest) (actor clientIP : String) :
    Operation (Outcome Certificate) := do
  let name := trimSpace request.name
  if !validName name then return .error (.new "证书名称长度无效")
  else if request.renewBeforeDays < 1 ∨ 365 < request.renewBeforeDays then
    return .error (.new "提前续签天数必须在 1 到 365 之间")
  else
    match ← get id with
    | .error err => return .error err
    | .ok _ =>
      match ← store (.updateCertificateSettings id name request.autoRenewEnabled
          request.renewBeforeDays request.createRenewedMarker) with
      | .error err => return .error err
      | .ok () =>
        let _ ← audit id "certificate.update" actor clientIP "succeeded"
          [("auto_renew_enabled", .flag request.autoRenewEnabled),
            ("renew_before_days", .number request.renewBeforeDays),
            ("create_renewed_marker", .flag request.createRenewedMarker)]
        return answer (← get id)

/-- `Revoke` from `CreateJob` on, with the lock held. -/
def revokeLocked (value : Certificate) (actor clientIP : String) :
    Operation (Outcome Certificate) := do
  match ← store (.createJob (runningJob value.id .revoke)) with
  | .error err => return .error err
  | .ok job =>
    match ← revokeACME value.id ⟨value.primaryDomain, value.keyType⟩ with
    | .error refusal =>
      let err := Error.command refusal
      let _ ← store (.finishJob job.id .failed (acmeExitCode err) [] (safeError err))
      let _ ← audit value.id "certificate.revoke" actor clientIP "failed" []
      return .error err
    | .ok () =>
      match ← store (.setCertificateStatus value.id .revoked) with
      | .error err => return .error err
      | .ok () =>
        let _ ← store (.finishJob job.id .succeeded 0 [] [])
        let _ ← audit value.id "certificate.revoke" actor clientIP "succeeded" []
        return answer (← get value.id)

def revoke (s : Service) (id : Id) (actor clientIP : String) : Operation (Outcome Certificate) := do
  match ← get id with
  | .error err => return .error err
  | .ok value =>
    if value.mode ≠ .acme ∨ !revokeAllowed value.status then return .error .revokeNotAllowed
    else if !s.acme then return .error (.new "ACME 功能未启用")
    else
      let lock ← loadOrStore id
      match ← tryLock lock with
      | false => return .error .operationRunning
      | true =>
        let result ← revokeLocked value actor clientIP
        let _ ← unlock lock
        return result

def deleteDetail (value : Certificate) (deleteFiles : Bool) (result : BackupResult) :
    List (String × Detail) :=
  [("certificate_id", .id value.id), ("certificate_name", .text value.name),
    ("certificate_status", .status value.status), ("delete_files", .flag deleteFiles),
    ("files_checked", .flag deleteFiles), ("files_existed", .flag result.directoryExisted),
    ("backup_created", .flag result.backupCreated)]

/-- `Delete` after the backup. -/
def deleteRecord (value : Certificate) (deleteFiles : Bool) (result : BackupResult)
    (actor clientIP : String) : Operation (Outcome Unit) := do
  match ← store (.deleteCertificateWithAudit value.id (auditEvent value.id "certificate.delete" actor
      clientIP "succeeded" (deleteDetail value deleteFiles result))) with
  | .error err => return .error err
  | .ok () =>
    if deleteFiles then
      match ← publisher value.id (removeDirectory value.outputDirectory) with
      | .error err => return .error (.wrap "管理记录已删除，但证书目录清理失败" err)
      | .ok () =>
        let _ ← dropLock value.id
        return .ok ()
    else
      let _ ← dropLock value.id
      return .ok ()

/-- `Delete` with the lock held. -/
def deleteLocked (value : Certificate) (deleteFiles : Bool) (actor clientIP : String) :
    Operation (Outcome Unit) := do
  if deleteFiles then
    match ← publisher value.id (backup value.outputDirectory) with
    | (result, .error err) =>
      let audited ← audit value.id "certificate.delete" actor clientIP "failed"
        (deleteDetail value true ⟨result.directoryExisted, false⟩)
      match audited with
      | .ok () => return .error (.deleteFilesBackup err)
      | .error auditErr => return .error (.join (.deleteFilesBackup err) auditErr)
    | (result, .ok ()) => deleteRecord value true result actor clientIP
  else deleteRecord value false ⟨false, false⟩ actor clientIP

def delete (id : Id) (deleteFiles : Bool) (actor clientIP : String) : Operation (Outcome Unit) := do
  match ← get id with
  | .error err => return .error err
  | .ok value =>
    let lock ← loadOrStore id
    match ← tryLock lock with
    | false => return .error .operationRunning
    | true =>
      let result ← deleteLocked value deleteFiles actor clientIP
      let _ ← unlock lock
      return result

def failRenewal (value : Certificate) (job : Id) (exit : Int) (output : Bytes) (renewErr : Error)
    (eventType actor clientIP : String) : Operation (Outcome Certificate) := do
  let message := safeError renewErr
  let _ ← store (.finishJob job .failed exit output message)
  let _ ← store (.markCertificateFailed value.id message)
  let _ ← audit value.id eventType actor clientIP "failed" [("mode", .mode value.mode)]
  return .error renewErr

/-- The end of `issueExisting` and `issueExistingCertificate`, which record the
new material with `mark`. -/
def publishAndRecord (value : Certificate) (material : Material) (job : Id)
    (mark : Certificate → Operation (Except Error Unit)) (eventType actor clientIP : String) :
    Operation (Outcome Certificate) := do
  let now ← clock
  match metadataDocument value material.metadata now with
  | .error err =>
    failRenewal value job material.exit material.output err eventType actor clientIP
  | .ok document =>
    match ← publisher value.id (publish value.outputDirectory
        (payload material document value.createRenewedMarker)) with
    | .error err =>
      failRenewal value job material.exit material.output err eventType actor clientIP
    | .ok _ =>
      match ← mark (withMaterial value material) with
      | .error err => return .error err
      | .ok () =>
        let _ ← store (.finishJob job .succeeded material.exit material.output [])
        let _ ← audit value.id eventType actor clientIP "succeeded" [("mode", .mode value.mode)]
        return answer (← get value.id)

/-- From the engine on, `issueExisting` and `issueExistingCertificate` agree. -/
def finishIssue (value : Certificate) (job : Id) (obtained : Obtained)
    (mark : Certificate → Operation (Except Error Unit)) (eventType actor clientIP : String) :
    Operation (Outcome Certificate) := do
  match obtained with
  | .panicked => return .panicked
  | .failed exit err => failRenewal value job exit [] err eventType actor clientIP
  | .material material => publishAndRecord value material job mark eventType actor clientIP

def issueExistingCertificate (s : Service) (value : Certificate) (actor clientIP : String) :
    Operation (Outcome Certificate) := do
  match (if value.mode = .acme then validateACMEDomains value.primaryDomain value.domains
      else .ok ()) with
  | .error err => return .error err
  | .ok () =>
    match ← store (.setCertificateStatus value.id .issuing) with
    | .error err => return .error err
    | .ok () =>
      match ← store (.createJob (runningJob value.id .issue)) with
      | .error err =>
        let _ ← store (.markCertificateFailed value.id (utf8 "无法创建任务记录"))
        return .error err
      | .ok job =>
        let obtained ← issueMaterial s value
        finishIssue value job.id obtained (fun c => store (.markCertificateIssued c))
          "certificate.issue" actor clientIP

/-- `issueExisting` with the lock held, for a renewal. -/
def renewLocked (s : Service) (value : Certificate) (force : Bool) (jobType : JobType)
    (eventType actor clientIP : String) : Operation (Outcome Certificate) := do
  if !renewAllowed value.status then return .error (.new "当前证书状态不允许续签")
  else
    match ← store (.setCertificateStatus value.id .renewing) with
    | .error err => return .error err
    | .ok () =>
      match ← store (.createJob (runningJob value.id jobType)) with
      | .error err => return .error err
      | .ok job =>
        let obtained ← renewMaterial s value force
        finishIssue value job.id obtained (fun c => store (.markCertificateRenewed c))
          eventType actor clientIP

/-- `issueExisting` with the lock held. -/
def issueLocked (s : Service) (value : Certificate) (force : Bool) (jobType : JobType)
    (eventType actor clientIP : String) : Operation (Outcome Certificate) := do
  if jobType = .issue then
    if !manualIssueAllowed value.status then return .error (.new "当前证书状态不允许重新签发")
    else issueExistingCertificate s value actor clientIP
  else renewLocked s value force jobType eventType actor clientIP

def issueExisting (s : Service) (id : Id) (force : Bool) (jobType : JobType)
    (eventType actor clientIP : String) : Operation (Outcome Certificate) := do
  match ← get id with
  | .error err => return .error err
  | .ok value =>
    let lock ← loadOrStore id
    match ← tryLock lock with
    | false => return .error .operationRunning
    | true =>
      let result ← issueLocked s value force jobType eventType actor clientIP
      let _ ← unlock lock
      return result

def renew (s : Service) (id : Id) (force : Bool) (actor clientIP : String) :
    Operation (Outcome Certificate) :=
  if force then issueExisting s id force .forceRenew "certificate.force_renew" actor clientIP
  else issueExisting s id force .renew "certificate.renew" actor clientIP

def issue (s : Service) (id : Id) (actor clientIP : String) : Operation (Outcome Certificate) := do
  match ← get id with
  | .error err => return .error err
  | .ok value =>
    if !manualIssueAllowed value.status then return .error (.new "当前证书状态不允许重新签发")
    else issueExisting s id true .issue "certificate.issue" actor clientIP

/-- A nil result of `Issue` is dereferenced by the creating methods. -/
def Obtained.dereferenced : Except CommandFailure (Option Material) →
    (CommandFailure → Error) → Obtained
  | .error err, normalize => .failed (normalize err).exitCode (normalize err)
  | .ok none, _ => .panicked
  | .ok (some result), _ => .material result

/-- What `CreateACME` and `CreateSelfSigned` do from `CreateCertificate` on. -/
def issueCreated (value : Certificate) (jobType : JobType)
    (engine : Certificate → Operation Obtained) (detail : List (String × Detail))
    (actor clientIP : String) : Operation (Outcome Certificate) := do
  match ← store (.createCertificate value) with
  | .error err => return .error err
  | .ok value =>
    match ← store (.createJob (runningJob value.id jobType)) with
    | .error err =>
      let _ ← store (.markCertificateFailed value.id (utf8 "无法创建任务记录"))
      return .error err
    | .ok job =>
      match ← engine value with
      | .panicked => return .panicked
      | .failed exit err =>
        let message := safeError err
        let _ ← store (.finishJob job.id .failed exit [] message)
        let _ ← store (.markCertificateFailed value.id message)
        let _ ← audit value.id "certificate.create" actor clientIP "failed"
          [("mode", .mode value.mode)]
        return .error err
      | .material material =>
        let now ← clock
        match metadataDocument value material.metadata now with
        | .error err => return .error err
        | .ok document =>
          match ← publisher value.id (publish value.outputDirectory
              (payload material document value.createRenewedMarker)) with
          | .error err =>
            let message := safeError err
            let _ ← store (.finishJob job.id .failed material.exit material.output message)
            let _ ← store (.markCertificateFailed value.id message)
            return .error err
          | .ok _ =>
            match ← store (.markCertificateIssued (withMaterial value material)) with
            | .error err => return .error err
            | .ok () =>
              let _ ← store (.finishJob job.id .succeeded material.exit material.output [])
              let _ ← audit value.id "certificate.create" actor clientIP "succeeded" detail
              return answer (← get value.id)

def supportedKeyType (keyType : String) : Bool :=
  keyType = "ec-256" || keyType = "rsa-2048" || keyType = "rsa-3072"

/-- The checks of a request that both creating methods begin with: the trimmed
name, the domains and the output directory. -/
def normalizeRequest (name primaryDomain : String) (sans : List String)
    (outputDirectory : String) (domainsAllowed : String → List String → Except Error Unit) :
    Except Error (String × String × List String × String) :=
  let name := trimSpace name
  if !validName name then .error (.new "证书名称长度必须在 1 到 100 之间")
  else
    match normalizeDomains primaryDomain sans with
    | .error err => .error err
    | .ok (primary, domains) =>
      match domainsAllowed primary domains with
      | .error err => .error err
      | .ok () =>
        let directory :=
          if outputDirectory = "" then safeDirectoryFromDomain primary else outputDirectory
        match validateSafeDirectory directory with
        | .error err => .error err
        | .ok () => .ok (name, primary, domains, directory)

-- A goal about a program is otherwise reduced as far as the texts in it go.
attribute [local irreducible] trimSpace normalizeDomains in
theorem normalizeRequest_ok {name primaryDomain name' primary directory outputDirectory : String}
    {sans domains : List String} {allowed : String → List String → Except Error Unit}
    (h : normalizeRequest name primaryDomain sans outputDirectory allowed =
      .ok (name', primary, domains, directory)) :
    normalizeDomains primaryDomain sans = .ok (primary, domains) ∧
      allowed primary domains = .ok () := by
  unfold normalizeRequest at h
  simp only at h
  split at h
  · cases h
  · split at h
    · cases h
    · rename_i found
      split at h
      · cases h
      · rename_i passed
        split at h
        · cases h
        · cases h
          exact ⟨found, passed⟩

def challengeValues (s : Service) (challengeType dnsCredentialID : String) :
    Operation (Except Error ProcessValues) := do
  if challengeType = "dns-01" then
    if !s.credentials ∨ dnsCredentialID = "" then
      return .error (.new "DNS-01 必须选择 DNS 凭据")
    else resolve dnsCredentialID
  else if challengeType = "http-01" then return .ok noProcessValues
  else return .error (.new "仅支持 dns-01 或 http-01")

def createACME (s : Service) (request : CreateACMERequest) (actor clientIP : String) :
    Operation (Outcome Certificate) := do
  if !s.acme then return .error (.new "ACME 功能未启用")
  else
    match normalizeRequest request.name request.primaryDomain request.sans request.outputDirectory
        validateACMEDomains with
    | .error err => return .error err
    | .ok (name, primary, domains, directory) =>
      if request.renewBeforeDays < 1 ∨ 90 < request.renewBeforeDays then
        return .error (.new "ACME 提前续签天数必须在 1 到 90 之间")
      else if !supportedKeyType request.keyType then
        return .error (.new "不支持的 ACME 密钥类型")
      else
        match ← challengeValues s request.challengeType request.dnsCredentialID with
        | .error err => return .error err
        | .ok values =>
          let value : Certificate := { blankCertificate with
            name := name
            mode := .acme
            primaryDomain := primary
            domains := domains
            keyType := request.keyType
            status := .issuing
            outputDirectory := directory
            autoRenewEnabled := request.autoRenewEnabled
            renewBeforeDays := request.renewBeforeDays
            challengeType := request.challengeType
            dnsProvider := values.acmeDNSCode
            dnsCredentialID := request.dnsCredentialID
            caDirectoryURL := request.caDirectoryURL
            acmeEmail := request.acmeEmail
            createRenewedMarker := request.createRenewedMarker }
          issueCreated value .acmeIssue
            (fun value => do
              let result ← issueACME value.id (issueRequest value values)
              return .dereferenced (result.map fun r => r.map Material.ofACME)
                fun err => normalizeACMEError err primary)
            [("mode", .mode .acme), ("challenge_type", .text request.challengeType)] actor clientIP

def createSelfSigned (s : Service) (request : CreateSelfSignedRequest) (actor clientIP : String) :
    Operation (Outcome Certificate) := do
  match normalizeRequest request.name request.primaryDomain request.sans request.outputDirectory
      fun _ _ => .ok () with
  | .error err => return .error err
  | .ok (name, primary, domains, directory) =>
    if request.validDays < 1 ∨ 3650 < request.validDays then
      return .error (.new "有效天数必须在 1 到 3650 之间")
    else if request.renewBeforeDays < 1 ∨ request.validDays ≤ request.renewBeforeDays then
      return .error (.new "提前重新生成天数必须大于 0 且小于有效天数")
    else if !supportedKeyType request.keyType then
      return .error (.new "不支持的自签名密钥类型")
    else
      let value : Certificate := { blankCertificate with
        name := name
        mode := .selfSigned
        primaryDomain := primary
        domains := domains
        keyType := request.keyType
        status := .issuing
        outputDirectory := directory
        autoRenewEnabled := request.autoRenewEnabled
        renewBeforeDays := request.renewBeforeDays
        selfSignedValidDays := request.validDays
        createRenewedMarker := request.createRenewedMarker }
      issueCreated value .selfSignedIssue
        (fun value => do
          if s.engine then
            let result ← issueSelfSigned value.id (selfSignedRequest value)
            return .dereferenced (result.map fun r => r.map Material.ofSelfSigned) .command
          else return .panicked)
        [("mode", .mode .selfSigned), ("domain_count", .number domains.length),
          ("key_type", .text request.keyType)] actor clientIP

/-- How the retry loop of a worker ends. -/
inductive Attempts where
  | ended (renewErr : Option Error)
  | cancelled
  | panicked

/-- One round of the retry loop; `again` is what follows a failure. -/
def renewalAttempt (s : Service) (id : Id) (again : Error → Operation Attempts) :
    Operation Attempts := do
  match ← renew s id false "scheduler" "" with
  | .ok _ => return .ended none
  | .panicked => return .panicked
  | .error renewErr =>
    if renewErr.isOperationRunning || renewErr.isCanceled then return .ended (some renewErr)
    else again renewErr

/-- The retry loop, with `left` attempts after this one. -/
def renewalAttempts (s : Service) (policy : Policy) (id : Id) : Nat → Operation Attempts
  | 0 => renewalAttempt s id fun renewErr => return .ended (some renewErr)
  | left + 1 =>
    renewalAttempt s id fun _ => do
      match ← Prog.perform (Eff.pause policy.retryIntervalSeconds) with
      | false => return .cancelled
      | true => renewalAttempts s policy id left

/-- The goroutine of one certificate. A panic there ends the process: nothing
after it runs. -/
def renewalWorker (s : Service) (policy : Policy) (scan : Nat) (id : Id) : Operation Unit := do
  match ← Prog.perform (Eff.acquireSlot scan) with
  | false => Prog.perform (Eff.workerDone scan id)
  | true =>
    match ← renewalAttempts s policy id policy.retryCount with
    | .panicked => return ()
    | .cancelled =>
      let _ ← Prog.perform (Eff.releaseSlot scan)
      Prog.perform (Eff.workerDone scan id)
    | .ended none =>
      let _ ← Prog.perform (Eff.releaseSlot scan)
      Prog.perform (Eff.workerDone scan id)
    | .ended (some renewErr) =>
      if renewErr.isOperationRunning then
        let _ ← Prog.perform (Eff.releaseSlot scan)
        Prog.perform (Eff.workerDone scan id)
      else
        let _ ← Prog.perform (Eff.reportError scan renewErr)
        let _ ← Prog.perform (Eff.releaseSlot scan)
        Prog.perform (Eff.workerDone scan id)

/-- The loop of `RunRenewalScan` over the certificates. -/
def startWorkers (policy : Policy) (scan : Nat) : List Certificate → Operation Unit
  | [] => return ()
  | item :: rest => do
    let now ← clock
    if dueForRenewal item now then
      let _ ← Prog.perform (Eff.addWorker scan item.id)
      let _ ← Prog.perform (Eff.startWorker scan item.id policy)
      startWorkers policy scan rest
    else startWorkers policy scan rest

def runRenewalScan (policy : Policy) : Operation (Outcome Unit) := do
  match ← list with
  | .error err => return .error err
  | .ok values =>
    let scan ← Prog.perform (Eff.newScan policy.maxConcurrency)
    startWorkers policy scan values
    let _ ← Prog.perform (Eff.waitWorkers scan)
    let renewalErrors ← Prog.perform (Eff.reportedErrors scan)
    match Error.joinAll renewalErrors with
    | none => return .ok ()
    | some err => return .error err

end CertificateService
