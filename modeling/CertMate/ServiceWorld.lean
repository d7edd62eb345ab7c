import CertMate.CertificateFiles
import CertMate.SqliteStore

/-!
# What the certificate service works with

One call of the service at a time: the store, the publisher's file calls, the
per-certificate locks, the engines, and what `RunRenewalScan` shares with its
workers.
-/
namespace ServiceWorld
open CertificateModel CallTrees SqliteStore

/-- `selfsigned.Request`. -/
structure SelfSignedRequest where
  primaryDomain : String
  domains : List String
  keyType : String
  validDays : Int
  deriving DecidableEq, Repr

/-- `selfsigned.Result`. -/
structure SelfSignedResult where
  certificatePEM : Bytes
  privateKeyPEM : Bytes
  metadata : Metadata
  exitCode : Int
  outputSummary : Bytes
  deriving DecidableEq, Repr

/-- `acmesh.IssueRequest`. -/
structure IssueRequest where
  certificateID : Id
  primaryDomain : String
  domains : List String
  keyType : String
  challengeType : String
  dnsProvider : String
  dnsVariables : List (String × String)
  caDirectory : String
  email : String
  deriving DecidableEq, Repr

/-- `acmesh.RenewRequest`. -/
structure RenewRequest where
  certificateID : Id
  primaryDomain : String
  keyType : String
  force : Bool
  dnsProvider : String
  dnsVariables : List (String × String)
  caDirectory : String
  deriving DecidableEq, Repr

/-- `acmesh.RevokeRequest`. -/
structure RevokeRequest where
  primaryDomain : String
  keyType : String
  deriving DecidableEq, Repr

/-- `acmesh.Result`. -/
structure ACMEResult where
  certificatePEM : Bytes
  chainPEM : Bytes
  fullchainPEM : Bytes
  privateKeyPEM : Bytes
  metadata : Metadata
  exitCode : Int
  outputSummary : Bytes
  deriving DecidableEq, Repr

/-- `credential.ProcessValues`. -/
structure ProcessValues where
  acmeDNSCode : String
  environment : List (String × String)
  deriving DecidableEq, Repr

/-- The calls of the service. The first argument of a file call or of an engine
call is the certificate it is made for; the calls do not see it. -/
inductive Eff where
  | store (q : Query)
  | file (certificate : Id) (e : FileSystem.Call)
  | loadOrStore (certificate : Id)
  | tryLock (lock : Nat)
  | unlock (lock : Nat)
  | dropLock (certificate : Id)
  | now
  | resolve (credential : String)
  | issueSelfSigned (certificate : Id) (request : SelfSignedRequest)
  | renewSelfSigned (certificate : Id) (request : SelfSignedRequest)
  | issueACME (certificate : Id) (request : IssueRequest)
  | renewACME (certificate : Id) (request : RenewRequest)
  | revokeACME (certificate : Id) (request : RevokeRequest)
  | newScan (maxConcurrency : Nat)
  | addWorker (scan : Nat) (certificate : Id)
  | startWorker (scan : Nat) (certificate : Id) (policy : Policy)
  | workerDone (scan : Nat) (certificate : Id)
  | waitWorkers (scan : Nat)
  | acquireSlot (scan : Nat)
  | releaseSlot (scan : Nat)
  | pause (seconds : Nat)
  | reportError (scan : Nat) (err : Error)
  | reportedErrors (scan : Nat)

/-- An engine answers an error, a result, or a nil result without an error.
`acquireSlot` and `pause` answer whether they got there before the context was
cancelled. -/
abbrev Ans : Eff → Type
  | .store q => Except Error (Reply q)
  | .file _ e => FileSystem.Answer e
  | .loadOrStore _ => Nat
  | .tryLock _ => Bool
  | .now => Time
  | .resolve _ => Except Error ProcessValues
  | .issueSelfSigned _ _ => Except CommandFailure (Option SelfSignedResult)
  | .renewSelfSigned _ _ => Except CommandFailure (Option SelfSignedResult)
  | .issueACME _ _ => Except CommandFailure (Option ACMEResult)
  | .renewACME _ _ => Except CommandFailure (Option ACMEResult)
  | .revokeACME _ _ => Except CommandFailure Unit
  | .newScan _ => Nat
  | .acquireSlot _ => Bool
  | .pause _ => Bool
  | .reportedErrors _ => List Error
  | _ => Unit

/-- The outside of the service: the disk, the database, and what engines and
the credential service answer to the `n`-th call. Engine calls are counted for
each certificate; one is one step here, which `EngineCalls.engine_calls_atomic`
bears out for calls that overlap. -/
structure Environment where
  host : FileSystem.Host
  backend : Backend
  selfSigned : Id → Nat → Except CommandFailure (Option SelfSignedResult)
  acme : Id → Nat → Except CommandFailure (Option ACMEResult)
  revoke : Id → Nat → Except CommandFailure Unit
  credentials : Nat → String → Except Error ProcessValues
  clock : Nat → Time
  cancelled : Nat → Bool

/-- The semaphore, the wait group and the collected errors of one scan.
`outstanding` names the certificates the wait group still counts. -/
structure Scan where
  capacity : Nat
  used : Nat
  outstanding : List Id
  errors : List Error

/-- `ticks` counts the readings of the clock, the resolutions and the waits.
`publications` remembers what was put in place for which certificate, newest
first. Since the last publication for a certificate, `revokes` counts the calls
of the CA's revoke. -/
structure World where
  db : Db
  fs : FileSystem.Fs
  locks : Id → Option Nat
  holder : Nat → Option Nat
  nextLock : Nat
  engineCalls : Id → Nat
  revokeCalls : Id → Nat
  ticks : Nat
  scans : Nat → Scan
  nextScan : Nat
  publications : List (Id × String × FileSystem.Node)
  revokes : Id → Nat

/-- One more for `id`. -/
def bump (count : Id → Nat) (id : Id) : Id → Nat := Function.update count id (count id + 1)

namespace World

def tick (w : World) : World := { w with ticks := w.ticks + 1 }

def setScan (w : World) (scan : Nat) (s : Scan) : World :=
  { w with scans := Function.update w.scans scan s }

def published (w : World) (certificate : Id) (safeName : String) (node : FileSystem.Node) :
    World :=
  { w with
    publications := (certificate, safeName, node) :: w.publications
    revokes := Function.update w.revokes certificate 0 }

end World

/-- A file call, with a note of the publication when it put one in place. -/
def execFile (H : FileSystem.Host) (certificate : Id) (e : FileSystem.Call) (w : World) :
    FileSystem.Answer e × World :=
  let r := FileSystem.exec H e w.fs
  let moved : World := { w with fs := r.2 }
  (r.1,
    match e, r.1 with
    | .op (.rename .release source target), .ok () =>
      match w.fs.nodes source with
      | some node => moved.published certificate target.name node
      | none => moved
    | _, _ => moved)

def execStore (B : Backend) (q : Query) (w : World) : Except Error (Reply q) × World :=
  ((SqliteStore.exec B q w.db).1, { w with db := (SqliteStore.exec B q w.db).2 })

def countRevoke (w : World) (certificate : Id) : World :=
  { w with
    revokeCalls := bump w.revokeCalls certificate
    revokes := bump w.revokes certificate }

def countEngineCall (w : World) (certificate : Id) : World :=
  { w with engineCalls := bump w.engineCalls certificate }

section Execution
variable (env : Environment)

/-- `thread` is the number of the caller, which holds the locks it takes. -/
def exec (thread : Nat) : (e : Eff) → World → Ans e × World
  | .store q, w => execStore env.backend q w
  | .file certificate e, w => execFile env.host certificate e w
  | .loadOrStore certificate, w =>
    match w.locks certificate with
    | some lock => (lock, w)
    | none =>
      (w.nextLock, { w with
        locks := Function.update w.locks certificate (some w.nextLock)
        nextLock := w.nextLock + 1 })
  | .tryLock lock, w =>
    match w.holder lock with
    | some _ => (false, w)
    | none => (true, { w with holder := Function.update w.holder lock (some thread) })
  | .unlock lock, w => ((), { w with holder := Function.update w.holder lock none })
  | .dropLock certificate, w => ((), { w with locks := Function.update w.locks certificate none })
  | .now, w => (env.clock w.ticks, w.tick)
  | .resolve credential, w => (env.credentials w.ticks credential, w.tick)
  | .issueSelfSigned certificate _, w =>
    (env.selfSigned certificate (w.engineCalls certificate), countEngineCall w certificate)
  | .renewSelfSigned certificate _, w =>
    (env.selfSigned certificate (w.engineCalls certificate), countEngineCall w certificate)
  | .issueACME certificate _, w =>
    (env.acme certificate (w.engineCalls certificate), countEngineCall w certificate)
  | .renewACME certificate _, w =>
    (env.acme certificate (w.engineCalls certificate), countEngineCall w certificate)
  | .revokeACME certificate _, w =>
    (env.revoke certificate (w.revokeCalls certificate), countRevoke w certificate)
  | .newScan maxConcurrency, w =>
    (w.nextScan, { w.setScan w.nextScan ⟨maxConcurrency, 0, [], []⟩ with
      nextScan := w.nextScan + 1 })
  | .addWorker scan certificate, w =>
    ((), w.setScan scan { w.scans scan with
      outstanding := certificate :: (w.scans scan).outstanding })
  | .startWorker _ _ _, w => ((), w)
  | .workerDone scan certificate, w =>
    ((), w.setScan scan { w.scans scan with
      outstanding := (w.scans scan).outstanding.erase certificate })
  | .waitWorkers _, w => ((), w)
  | .acquireSlot scan, w =>
    if env.cancelled w.ticks then (false, w.tick)
    else (true, w.tick.setScan scan { w.scans scan with used := (w.scans scan).used + 1 })
  | .releaseSlot scan, w =>
    ((), w.setScan scan { w.scans scan with used := (w.scans scan).used - 1 })
  | .pause _, w => (!env.cancelled w.ticks, w.tick)
  | .reportError scan err, w =>
    ((), w.setScan scan { w.scans scan with errors := (w.scans scan).errors ++ [err] })
  | .reportedErrors scan, w => ((w.scans scan).errors, w)

/-- `wait.Wait` and the send on the semaphore block. -/
def enabled : Eff → World → Bool
  | .waitWorkers scan, w => (w.scans scan).outstanding.isEmpty
  | .acquireSlot scan, w =>
    env.cancelled w.ticks || decide ((w.scans scan).used < (w.scans scan).capacity)
  | _, _ => true

end Execution

end ServiceWorld
