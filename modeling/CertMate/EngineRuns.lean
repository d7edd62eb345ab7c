import CertMate.AcmeEngine

/-!
# What the engine makes of its processes

`run`, `install`, `Issue` and `Renew` of `internal/certificate/acmesh/engine.go`,
over the processes of `acme.sh` that they start.
-/
namespace AcmeEngine
open CertificateModel ServiceWorld
open DomainValidation (trimSpace)

/-- How a process ends; one that is killed or cannot be started has no exit status. -/
inductive Ending where
  | exited (status : Int)
  | deadline
  | killed (canceled : Bool)
  deriving DecidableEq, Repr

/-- `output` is what `run` makes of both streams: trimmed, without secrets and cut
to 8192 bytes. -/
structure Process where
  ending : Ending
  output : String
  deriving DecidableEq, Repr

/-- Of the error of a run only counts whether it is a cancellation. -/
structure Ran where
  exitCode : Int
  output : String
  err : Option Bool
  deriving DecidableEq, Repr

def run (values : List (String × String)) (process : Process) : Ran :=
  match checkVariables values with
  | .error _ => ⟨-1, "", some false⟩
  | .ok () =>
    match process.ending with
    | .deadline => ⟨-1, process.output, some false⟩
    | .killed canceled => ⟨-1, process.output, some canceled⟩
    | .exited status =>
      if status = 0 then ⟨0, process.output, none⟩ else ⟨status, process.output, some false⟩

def containsText (text part : String) : Bool := decide (part.toList <:+: text.toList)

/-- `classifyDNSFailure`; the only kind is `FailureDNSZoneUnavailable`. -/
def classifyDNSFailure (dnsProvider output : String) : Bool :=
  dnsProvider = "dns_cf" && containsText output "invalid domain" &&
    containsText output "Error adding TXT record to domain:"

def commandError (operation : String) (exitCode : Int) (summary : String)
    (zoneUnavailable canceled : Bool) : CommandFailure where
  message := "acme.sh " ++ operation ++ " 失败(exit=" ++ toString exitCode ++ "): " ++ summary
  exitCode := some exitCode
  zoneUnavailable := zoneUnavailable
  canceled := canceled

def newCommandError (operation dnsProvider : String) (exitCode : Int) (output : String)
    (canceled : Bool) : CommandFailure :=
  commandError operation exitCode output (classifyDNSFailure dnsProvider output) canceled

/-- An error that is not a `*CommandError`. -/
def plainError (err : Error) : CommandFailure := ⟨err.message, none, false, false⟩

/-- What the installation meets: a temporary directory that cannot be made, its
process, and what is read from the files and parsed. -/
structure Installation where
  unprepared : Option CommandFailure
  process : Process
  collected : Except CommandFailure ACMEResult

def install (values : List (String × String)) (previousOutput : String)
    (installation : Installation) : Except CommandFailure (Option ACMEResult) :=
  match installation.unprepared with
  | some failure => .error failure
  | none =>
    let ran := run values installation.process
    let combined := trimSpace (previousOutput ++ "\n" ++ ran.output)
    match ran.err with
    | some canceled => .error (commandError "install" ran.exitCode combined false canceled)
    | none =>
      match installation.collected with
      | .error failure => .error failure
      | .ok result =>
        .ok (some { result with
          exitCode := ran.exitCode
          outputSummary := utf8 combined })

section Calls
variable (c : CLI) (p : Parsers)

def issue (request : IssueRequest) (process : Process) (installation : Installation) :
    Except CommandFailure (Option ACMEResult) :=
  match issueArguments c p request with
  | .error err => .error (plainError err)
  | .ok _ =>
    let ran := run request.dnsVariables process
    match ran.err with
    | some canceled =>
      .error (newCommandError "issue" request.dnsProvider ran.exitCode ran.output canceled)
    | none => install request.dnsVariables ran.output installation

def renew (request : RenewRequest) (process : Process) (installation : Installation) :
    Except CommandFailure (Option ACMEResult) :=
  match renewArguments c p request with
  | .error err => .error (plainError err)
  | .ok _ =>
    let ran := run request.dnsVariables process
    match ran.err with
    | some canceled =>
      .error (newCommandError "renew" request.dnsProvider ran.exitCode ran.output canceled)
    | none => install request.dnsVariables ran.output installation

/-- The answers of an `Issue` or of an un-forced `Renew` whose `acme.sh` has been
started and has ended with status 2. -/
inductive NotDue : Except CommandFailure (Option ACMEResult) → Prop
  | issue {request : IssueRequest} {arguments : List String} {process : Process}
      {installation : Installation} (built : issueArguments c p request = .ok arguments)
      (started : checkVariables request.dnsVariables = .ok ())
      (ended : process.ending = .exited 2) : NotDue (issue c p request process installation)
  | renew {request : RenewRequest} {arguments : List String} {process : Process}
      {installation : Installation} (built : renewArguments c p request = .ok arguments)
      (unforced : request.force = false)
      (started : checkVariables request.dnsVariables = .ok ())
      (ended : process.ending = .exited 2) : NotDue (renew c p request process installation)

theorem run_exited {values : List (String × String)} {process : Process} {status : Int}
    (started : checkVariables values = .ok ()) (ended : process.ending = .exited status)
    (bad : status ≠ 0) : run values process = ⟨status, process.output, some false⟩ := by
  unfold run
  rw [started, ended]
  exact if_neg bad

variable {c p}

/-- The engine reports every status but 0 as an error of the command. -/
theorem NotDue.failed {answer : Except CommandFailure (Option ACMEResult)}
    (h : NotDue c p answer) :
    ∃ failure, answer = .error failure ∧ failure.exitCode = some 2 := by
  have bad : (2 : Int) ≠ 0 := by decide
  cases h with
  | @issue request _ process _ built started ended =>
    refine ⟨newCommandError "issue" request.dnsProvider 2 process.output false, ?_, rfl⟩
    unfold AcmeEngine.issue
    rw [built, run_exited started ended bad]
  | @renew request _ process _ built unforced started ended =>
    refine ⟨newCommandError "renew" request.dnsProvider 2 process.output false, ?_, rfl⟩
    unfold AcmeEngine.renew
    rw [built, run_exited started ended bad]

end Calls

end AcmeEngine
