import Mathlib

/-!
# Certificates, jobs and audit events

The records of `internal/certificate/model.go`, `internal/jobs/model.go`,
`internal/audit/model.go` and `internal/scheduler/model.go`. Row numbers stand
for the random identifiers of `newID`, which do not repeat.
-/
namespace CertificateModel

abbrev Bytes := List UInt8

/-- Nanoseconds since 1970 in UTC. -/
abbrev Time := Int

abbrev Id := Nat

def utf8 (text : String) : Bytes := text.toUTF8.data.toList

def day : Int := 24 * 60 * 60 * 1000000000

/-- A `time.Time` with the zone it is written in, seconds east of UTC. -/
structure ZonedTime where
  instant : Time
  offset : Int
  deriving DecidableEq, Repr

/-- `t.UTC()`. -/
def utc (t : Time) : ZonedTime := ⟨t, 0⟩

/-- What `time.Time.MarshalJSON` has against a time: the year and the hours of the offset,
both as they are written. -/
def jsonFault (t : ZonedTime) : Option String :=
  let written := t.instant + t.offset * 1000000000
  if written < -62167219200 * 1000000000 ∨ 253402300800 * 1000000000 ≤ written then
    some "year outside of range [0,9999]"
  else if 24 ≤ t.offset.natAbs / 3600 then some "timezone hour outside of range [0,23]"
  else none

def jsonTime (t : ZonedTime) : Bool := (jsonFault t).isNone

inductive Mode where
  | acme
  | selfSigned
  | other (name : String)
  deriving DecidableEq, Repr

inductive Status where
  | pending
  | issuing
  | active
  | expiring
  | expired
  | renewing
  | failed
  | disabled
  | revoked
  deriving DecidableEq, Repr

structure Certificate where
  id : Id
  name : String
  mode : Mode
  primaryDomain : String
  domains : List String
  keyType : String
  status : Status
  outputDirectory : String
  issuer : String
  serialNumber : String
  notBefore : Option Time
  notAfter : Option Time
  fingerprintSHA256 : String
  autoRenewEnabled : Bool
  renewBeforeDays : Int
  challengeType : String
  dnsProvider : String
  dnsCredentialID : String
  caDirectoryURL : String
  acmeEmail : String
  selfSignedValidDays : Int
  createRenewedMarker : Bool
  createdAt : Time
  updatedAt : Time
  lastIssuedAt : Option Time
  lastRenewedAt : Option Time
  lastError : Bytes
  deriving DecidableEq, Repr

/-- What of a certificate no later change of its record touches. -/
structure Terms where
  mode : Mode
  primaryDomain : String
  domains : List String
  keyType : String
  outputDirectory : String
  challengeType : String
  dnsProvider : String
  dnsCredentialID : String
  caDirectoryURL : String
  acmeEmail : String
  selfSignedValidDays : Int
  createdAt : Time
  deriving DecidableEq, Repr

def Certificate.terms (c : Certificate) : Terms where
  mode := c.mode
  primaryDomain := c.primaryDomain
  domains := c.domains
  keyType := c.keyType
  outputDirectory := c.outputDirectory
  challengeType := c.challengeType
  dnsProvider := c.dnsProvider
  dnsCredentialID := c.dnsCredentialID
  caDirectoryURL := c.caDirectoryURL
  acmeEmail := c.acmeEmail
  selfSignedValidDays := c.selfSignedValidDays
  createdAt := c.createdAt

inductive JobType where
  | selfSignedIssue
  | acmeIssue
  | issue
  | renew
  | forceRenew
  | revoke
  deriving DecidableEq, Repr

inductive JobStatus where
  | pending
  | running
  | succeeded
  | failed
  | interrupted
  | cancelled
  deriving DecidableEq, Repr

structure Run where
  id : Id
  certificateID : Option Id
  jobType : JobType
  status : JobStatus
  startedAt : Time
  finishedAt : Option Time
  exitCode : Option Int
  sanitizedOutput : Bytes
  errorMessage : Bytes
  attempt : Nat
  deriving DecidableEq, Repr

/-- The values an audit detail holds: `map[string]any` restricted to what the
code puts there. -/
inductive Detail where
  | id (value : Id)
  | text (value : String)
  | status (value : Status)
  | mode (value : Mode)
  | flag (value : Bool)
  | number (value : Int)
  deriving DecidableEq, Repr

structure Event where
  id : Id
  certificateID : Option Id
  eventType : String
  actor : String
  clientIP : String
  result : String
  detail : List (String × Detail)
  createdAt : Time
  deriving DecidableEq, Repr

structure Policy where
  enabled : Bool
  cronExpression : String
  timezone : String
  maxConcurrency : Nat
  retryCount : Nat
  retryIntervalSeconds : Nat
  deriving DecidableEq, Repr

/-- What the parser reads off a certificate. -/
structure Metadata where
  issuer : String
  serialNumber : String
  fingerprintSHA256 : String
  keyAlgorithm : String
  notBefore : ZonedTime
  notAfter : ZonedTime
  deriving DecidableEq, Repr

inductive Errno where
  | notExist
  | exist
  | other
  deriving DecidableEq, Repr

/-- An error of `acme.sh` or OpenSSL. `exitCode` is that of a `*CommandError`
in its chain, `zoneUnavailable` says that its kind is
`FailureDNSZoneUnavailable`, `canceled` that it is `context.Canceled`. -/
structure CommandFailure where
  message : String
  exitCode : Option Int
  zoneUnavailable : Bool
  canceled : Bool
  deriving DecidableEq, Repr

inductive Error where
  | new (message : String)
  | wrap (context : String) (cause : Error)
  | os (code : Errno) (message : String)
  | database (message : String) (canceled : Bool)
  | command (failure : CommandFailure)
  | dnsZoneUnavailable (domain : String) (cause : Error)
  | redundantDomain (domain wildcard : String) (primary : Bool)
  | notFound
  | operationRunning
  | revokeNotAllowed
  | deleteFilesBackup (cause : Error)
  | join (first second : Error)
  deriving DecidableEq, Repr

namespace Error

/-- `%q` of a text without quotes, backslashes and unprintable characters, which every
accepted domain name is. It would escape those of a SAN that is refused, so for such a SAN
only the text of the error is another. -/
def quote (text : String) : String := "\"" ++ text ++ "\""

def message : Error → String
  | .new text => text
  | .wrap context cause => context ++ ": " ++ cause.message
  | .os _ text => text
  | .database text _ => text
  | .command failure => failure.message
  | .dnsZoneUnavailable domain _ =>
    "Cloudflare 无法访问域名 " ++ quote domain ++ " 的 Zone；请确认 Token 有效，具备 Zone:Zone:Read 和 Zone:DNS:Edit 权限，资源范围包含该 Zone，且 Token IP 限制允许当前服务器"
  | .redundantDomain domain wildcard true =>
    "主域名 " ++ quote domain ++ " 已被通配符 " ++ quote wildcard ++ " 覆盖，请将主域名改为基础域名或删除通配符"
  | .redundantDomain domain wildcard false =>
    "SAN 域名 " ++ quote domain ++ " 已被通配符 " ++ quote wildcard ++ " 覆盖，请删除其中一个"
  | .notFound => "certificate not found"
  | .operationRunning => "certificate operation already running"
  | .revokeNotAllowed => "certificate revoke not allowed"
  | .deleteFilesBackup cause => "certificate files backup failed: " ++ cause.message
  | .join first second => first.message ++ "\n" ++ second.message

/-- The exit code of the `*CommandError` that `errors.As` finds. -/
def commandExit : Error → Option Int
  | .command failure => failure.exitCode
  | .wrap _ cause => cause.commandExit
  | .dnsZoneUnavailable _ cause => cause.commandExit
  | .deleteFilesBackup cause => cause.commandExit
  | .join first second => first.commandExit.or second.commandExit
  | _ => none

def exitCode (err : Error) : Int := err.commandExit.getD (-1)

/-- `errors.Is(err, context.Canceled)`. -/
def isCanceled : Error → Bool
  | .command failure => failure.canceled
  | .database _ canceled => canceled
  | .wrap _ cause => cause.isCanceled
  | .dnsZoneUnavailable _ cause => cause.isCanceled
  | .deleteFilesBackup cause => cause.isCanceled
  | .join first second => first.isCanceled || second.isCanceled
  | _ => false

/-- `errors.Is(err, ErrOperationRunning)`. -/
def isOperationRunning : Error → Bool
  | .operationRunning => true
  | .wrap _ cause => cause.isOperationRunning
  | .dnsZoneUnavailable _ cause => cause.isOperationRunning
  | .deleteFilesBackup cause => cause.isOperationRunning
  | .join first second => first.isOperationRunning || second.isOperationRunning
  | _ => false

/-- `errors.Join` of the errors of a list. -/
def joinAll : List Error → Option Error
  | [] => none
  | [err] => some err
  | err :: rest => (joinAll rest).map (.join err)

end Error

/-- `safeError`: at most 2048 bytes of the message. -/
def safeError (err : Error) : Bytes := (utf8 err.message).take 2048

/-- `normalizeACMEError`. -/
def normalizeACMEError (failure : CommandFailure) (primaryDomain : String) : Error :=
  if failure.zoneUnavailable then .dnsZoneUnavailable primaryDomain (.command failure)
  else .command failure

/-- How a call of the service ends: a nil pointer of the source is a panic. -/
inductive Outcome (α : Type) where
  | ok (value : α)
  | error (err : Error)
  | panicked
  deriving Repr

def Outcome.void {α : Type} : Outcome α → Outcome Unit
  | .ok _ => .ok ()
  | .error err => .error err
  | .panicked => .panicked

end CertificateModel
