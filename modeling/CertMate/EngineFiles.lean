import CertMate.BoundedBuffers
import CertMate.CertificateParser
import CertMate.ChildEnvironment
import CertMate.PrivateCells
import CertMate.SelfSignedConfig

/-!
# The temporary directories of the engines

`generate` of `internal/certificate/selfsigned/engine.go`, and `Issue`, `Renew`, `install` and
`Revoke` of `internal/certificate/acmesh/engine.go`, call by call. Each works in a directory of
its own below the temporary root, which the two engines share.
-/
namespace EngineFiles
open CertificateModel CallTrees ServiceWorld PrivateCells
open FileSystem (FileMode)
open AcmeEngine (CLI Parsers join)
open OutputRedaction (Finished RunError Secrets trimSpace)
open BoundedBuffers (EngineBuffer limitedBuffer)
open ChildEnvironment (baseEnvironment dedupEnv entry)
open DomainValidation (sortStrings)

structure TempFile where
  content : Bytes
  mode : FileMode
  deriving DecidableEq, Repr

abbrev Files := String → Option TempFile

structure TempDir where
  mode : FileMode
  files : Files

def TempDir.put (d : TempDir) (name : String) (file : TempFile) : TempDir :=
  { d with files := Function.update d.files name (some file) }

/-- What is started, and the directory that its arguments name. -/
structure Command where
  binary : String
  arguments : List String
  environment : Except Error (List String)
  directory : Option String

inductive Eff where
  | mkdirAll
  | mkdirTemp (pattern : String)
  | chmodDir (dir : String)
  | remove (dir : String)
  | removeAll (dir : String)
  | writeFile (dir name : String) (content : Bytes)
  | run (command : Command)
  | secrets (values : List (String × String))
  | readFile (dir name : String) (limit : Nat)
  | chmodFile (dir name : String)
  | now

abbrev Ans : Eff → Type
  | .mkdirTemp _ => Except Error String
  | .run _ => Finished
  | .secrets values => Secrets values
  | .readFile _ _ _ => Except Error Bytes
  | .now => Time
  | _ => Except Error Unit

/-- What the operating system and the binaries do at the `n`-th call of a thread: whether a
file call fails, which files a removal that fails does not reach, how much of its content a
write that fails has written, the last name that `os.MkdirTemp` tries, and how a process
ends and what it leaves in its directory. -/
structure Host where
  fails : Nat → Bool
  keeps : Nat → String → Bool
  written : Nat → Option Nat
  tempName : Nat → String
  umask : FileMode
  process : Nat → Command → Finished
  leaves : Nat → Command → Files → Files
  secrets : Nat → (values : List (String × String)) → Secrets values
  clock : Nat → Time

def Host.masked (H : Host) (mode : FileMode) : FileMode := mode ^^^ (mode &&& H.umask)

def ioError : Error := .os .other "input/output error"

def notExist : Error := .os .notExist "no such file or directory"

def fileExists : Error := .os .exist "file exists"

/-- A process that is not started. -/
def unstarted : Finished := ⟨[], [], false, none⟩

def Host.run (H : Host) (n : Nat) (command : Command) : Finished :=
  match command.environment with
  | .error _ => unstarted
  | .ok _ => H.process n command

/-- The files of the directory of a process after it. -/
def Host.after (H : Host) (n : Nat) (command : Command) (files : Files) : Files :=
  if (H.run n command).exitCode.isNone then files else H.leaves n command files

/-- The directory that a call is about. -/
def place : Eff → Option String
  | .chmodDir dir => some dir
  | .remove dir => some dir
  | .removeAll dir => some dir
  | .writeFile dir _ _ => some dir
  | .run command => command.directory
  | .readFile dir _ _ => some dir
  | .chmodFile dir _ => some dir
  | .mkdirAll => none
  | .mkdirTemp _ => none
  | .secrets _ => none
  | .now => none

def makes : Eff → Bool
  | .mkdirTemp _ => true
  | _ => false

/-- The mode that a file is written with. -/
def Host.writeMode (H : Host) (d : TempDir) (name : String) : FileMode :=
  ((d.files name).map TempFile.mode).getD (H.masked 0o600)

/-- What a call does that the operating system lets through. -/
def Host.done (H : Host) (n : Nat) : (e : Eff) → Option TempDir → Ans e × Option TempDir
  | .mkdirAll, d => (.ok (), d)
  | .mkdirTemp _, some d => (.error fileExists, some d)
  | .mkdirTemp pattern, none =>
    (.ok (pattern ++ H.tempName n), some ⟨H.masked 0o700, fun _ => none⟩)
  | .chmodDir _, some d => (.ok (), some { d with mode := 0o700 })
  | .chmodDir _, none => (.error notExist, none)
  | .remove _, some _ => (.ok (), none)
  | .remove _, none => (.error notExist, none)
  | .removeAll _, _ => (.ok (), none)
  | .writeFile _ name content, some d => (.ok (), some (d.put name ⟨content, H.writeMode d name⟩))
  | .writeFile _ _ _, none => (.error notExist, none)
  | .run command, d =>
    (H.run n command, d.map fun d => { d with files := H.after n command d.files })
  | .secrets values, d => (H.secrets n values, d)
  | .readFile _ name limit, d =>
    match d.bind fun d => d.files name with
    | none => (.error notExist, d)
    | some file => (.ok (file.content.take (limit + 1)), d)
  | .chmodFile _ name, d =>
    match d, d.bind fun d => d.files name with
    | some d, some file => (.ok (), some (d.put name { file with mode := 0o600 }))
    | _, _ => (.error notExist, d)
  | .now, d => (H.clock n, d)

/-- A call that fails. -/
def Host.failed (H : Host) (n : Nat) : (e : Eff) → Option TempDir → Ans e × Option TempDir
  | .mkdirAll, d => (.error ioError, d)
  | .mkdirTemp _, d => (.error ioError, d)
  | .chmodDir _, d => (.error ioError, d)
  | .remove _, d => (.error ioError, d)
  | .removeAll _, d =>
    (.error ioError, d.map fun d =>
      { d with files := fun name => if H.keeps n name then d.files name else none })
  | .writeFile _ name content, d =>
    (.error ioError, d.map fun d =>
      match H.written n with
      | none => d
      | some count => d.put name ⟨content.take count, H.writeMode d name⟩)
  | .readFile _ _ _, d => (.error ioError, d)
  | .chmodFile _ _, d => (.error ioError, d)
  | .run command, d => H.done n (.run command) d
  | .secrets values, d => H.done n (.secrets values) d
  | .now, d => H.done n .now d

/-- Every thread has a host of its own, so that its answers may depend on when it asks. -/
def device (hosts : Nat → Host) : Device Eff Ans String TempDir where
  key t n
    | .mkdirTemp pattern => some (pattern ++ (hosts t).tempName n)
    | e => place e
  effect t n e d := if (hosts t).fails n then (hosts t).failed n e d else (hosts t).done n e d

abbrev Engine (α : Type) := Prog Eff Ans α

/-- The two engines, with the paths they are given. -/
structure Setup where
  opensslBinary : String
  acmeBinary : String
  tempRoot : String
  cli : CLI
  parsers : Parsers

/-- An error of Go, or the `CommandError` of one of the packages. -/
inductive Failure where
  | error (err : Error)
  | openssl (exitCode : Int) (summary : Bytes) (cause : RunError)
  | acme (operation : String) (exitCode : Int) (summary : Bytes) (retryable zoneUnavailable : Bool)
      (cause : RunError)
  deriving DecidableEq, Repr

/-- `selfsigned.Result`. -/
structure Generated (Name : Type) where
  certificatePEM : Bytes
  privateKeyPEM : Bytes
  metadata : CertificateParser.Metadata Name
  exitCode : Int
  outputSummary : Bytes

/-- `acmesh.Result`. -/
structure Installed (Name : Type) where
  certificatePEM : Bytes
  chainPEM : Bytes
  fullchainPEM : Bytes
  privateKeyPEM : Bytes
  metadata : CertificateParser.Metadata Name
  exitCode : Int
  outputSummary : Bytes

inductive Reply (Name : Type) where
  | generated (result : Generated Name)
  | installed (result : Installed Name)
  | revoked

def mkdirAll : Engine (Except Error Unit) := Prog.perform Eff.mkdirAll

def mkdirTemp (pattern : String) : Engine (Except Error String) :=
  Prog.perform (Eff.mkdirTemp pattern)

def chmodDir (dir : String) : Engine (Except Error Unit) := Prog.perform (Eff.chmodDir dir)

def writeFile (dir name : String) (content : Bytes) : Engine (Except Error Unit) :=
  Prog.perform (Eff.writeFile dir name content)

def chmodFile (dir name : String) : Engine (Except Error Unit) :=
  Prog.perform (Eff.chmodFile dir name)

/-- `if err != nil { return nil, … }`. -/
def check {ε α β : Type} (fail : ε → Failure) (next : α → Engine (Except Failure β)) :
    Except ε α → Engine (Except Failure β)
  | .error err => .ret (.error (fail err))
  | .ok a => next a

def wrapped (context : String) (err : Error) : Failure := .error (.wrap context err)

/-- `defer os.RemoveAll(tempDir)`. -/
def removing {α : Type} (dir : String) (body : Engine α) : Engine α := do
  let result ← body
  let _ ← Prog.perform (Eff.removeAll dir)
  return result

/-- `2<<20`. -/
def fileLimit : Nat := 2097152

/-- What is read, if it is not over the limit. -/
def sized (large : Error) : Except Error Bytes → Except Error Bytes
  | .error err => .error err
  | .ok value => if fileLimit < value.length then .error large else .ok value

/-- `readFile`, and `readLimited` with its limit. -/
def readPEM (large : Error) (dir name : String) : Engine (Except Error Bytes) := do
  let value ← Prog.perform (Eff.readFile dir name fileLimit)
  return sized large value

def maxCommandOutput : Int := 262144

/-- `io.Copy` of what is read of the pipe, until a write fails. -/
def copyLimited (b : EngineBuffer) : List Bytes → EngineBuffer × Option Error
  | [] => (b, none)
  | chunk :: rest =>
    match limitedBuffer.write chunk b with
    | ((_, some err), b) => (b, some err)
    | ((_, none), b) => copyLimited b rest

/-- The error of `command.Run`. -/
def runError (process : Finished) (copied : Option Error) : Option RunError :=
  match process.exitCode, copied with
  | none, _ => some .notStarted
  | some 0, none => none
  | some 0, some err => some (.copy err)
  | some code, _ => some (.exit code)

/-- The code of an `ExitError`. -/
def exitCodeOf : RunError → Int
  | .exit code => code
  | _ => -1

def buildArguments (request : SelfSignedRequest) : Except Error (List String) :=
  let arguments :=
    ["req", "-x509", "-new", "-nodes", "-sha256", "-days", toString request.validDays]
  match request.keyType with
  | "ec-256" => .ok (arguments ++ ["-newkey", "ec", "-pkeyopt", "ec_paramgen_curve:P-256"])
  | "rsa-2048" => .ok (arguments ++ ["-newkey", "rsa:2048"])
  | "rsa-3072" => .ok (arguments ++ ["-newkey", "rsa:3072"])
  | _ => .error (.new "不支持的自签名密钥类型")

/-- `<temp>`. -/
def tempMark : PatchedTexts.Mark UInt8 := ⟨60, utf8 "temp", 62⟩

def sanitizeOutput (value tempDir : Bytes) : Bytes :=
  let value := trimSpace (PatchedTexts.replaceAll tempMark tempDir value)
  if 4096 < value.length then value.take 4096 ++ utf8 "…" else value

/-- What is made of the end of an OpenSSL process: a summary, if there is no error. -/
def opensslEnded (tempDir : String) (process : Finished) : Except Failure Bytes :=
  let stdout := copyLimited (.new maxCommandOutput) process.stdout
  let stderr := copyLimited (.new maxCommandOutput) process.stderr
  let summary := sanitizeOutput (stdout.1.buffer ++ [10] ++ stderr.1.buffer) (utf8 tempDir)
  match runError process (stdout.2.or stderr.2) with
  | none => .ok summary
  | some err =>
    if process.deadline then
      .error (wrapped "OpenSSL 执行超时" (.new "context deadline exceeded"))
    else .error (.openssl (exitCodeOf err) summary err)

section Programs
variable {Name PublicKey PrivateKey : Type}
  (lib : CertificateParser.Crypto Name PublicKey PrivateKey) (s : Setup)

def opensslCommand (arguments : List String) (dir : String) : Command :=
  let tempDir := join s.tempRoot dir
  { binary := s.opensslBinary
    arguments := arguments ++ ["-keyout", join tempDir "privkey.pem", "-out",
      join tempDir "cert.pem", "-config", join tempDir "openssl.cnf", "-extensions", "v3_req"]
    environment := dedupEnv baseEnvironment
    directory := some dir }

def tooLarge : Error := .new "证书工具输出文件超过大小限制"

/-- What `generate` does in its directory. -/
def generateIn (request : SelfSignedRequest) (arguments : List String) (dir : String) :
    Engine (Except Failure (Reply Name)) :=
  writeFile dir "openssl.cnf"
      (utf8 (SelfSignedConfig.buildConfig request.primaryDomain request.domains)) >>=
    check (wrapped "写入 OpenSSL 配置") fun _ =>
  Prog.perform (Eff.run (opensslCommand s arguments dir)) >>= fun process =>
  check id (fun summary =>
    readPEM tooLarge dir "cert.pem" >>= check .error fun certificatePEM =>
    readPEM tooLarge dir "privkey.pem" >>= check .error fun privateKeyPEM =>
    chmodFile dir "privkey.pem" >>= check (wrapped "设置临时私钥权限") fun _ =>
    Prog.perform Eff.now >>= fun now =>
    check (wrapped "验证 OpenSSL 生成结果")
      (fun metadata => .ret (.ok (.generated
        { certificatePEM := certificatePEM
          privateKeyPEM := privateKeyPEM
          metadata := metadata
          exitCode := 0
          outputSummary := summary })))
      (CertificateParser.validateCertificateAndKey lib certificatePEM privateKeyPEM request.domains
        now)) (opensslEnded (join s.tempRoot dir) process)

/-- The directory is only removed at the end when its mode could be set. -/
def chmodded (dir : String) (body : Engine (Except Failure (Reply Name))) :
    Except Error Unit → Engine (Except Failure (Reply Name))
  | .error err => do
    let _ ← Prog.perform (Eff.remove dir)
    return .error (.error err)
  | .ok () => removing dir body

/-- `generate` with its arguments. -/
def generateWith (request : SelfSignedRequest) (arguments : List String) :
    Engine (Except Failure (Reply Name)) :=
  mkdirAll >>= check (wrapped "创建证书临时根目录") fun _ =>
  mkdirTemp "selfsigned-" >>= check (wrapped "创建证书临时目录") fun dir =>
  chmodDir dir >>= chmodded dir (generateIn lib s request arguments dir)

/-- `generate`. -/
def generate (request : SelfSignedRequest) : Engine (Except Failure (Reply Name)) :=
  if request.validDays < 1 ∨ 3650 < request.validDays then
    .ret (.error (.error (.new "自签名证书有效天数必须在 1 到 3650 之间")))
  else check .error (generateWith lib s request) (buildArguments request)

def acmeEnvironment (values : List (String × String)) : Except Error (List String) :=
  dedupEnv (baseEnvironment ++
    (sortStrings (values.map Prod.fst)).map fun name => entry name ((values.lookup name).getD ""))

def acmeCommand (arguments : List String) (values : List (String × String))
    (directory : Option String) : Command :=
  ⟨s.acmeBinary, arguments, acmeEnvironment values, directory⟩

/-- `run`. -/
def runAcme (arguments : List String) (values : List (String × String))
    (directory : Option String) : Engine OutputRedaction.Ran :=
  match AcmeEngine.checkVariables values with
  | .error err => .ret ⟨-1, [], some (.refused err)⟩
  | .ok () =>
    Prog.perform (Eff.run (acmeCommand s arguments values directory)) >>= fun process =>
    Prog.perform (Eff.secrets values) >>= fun secrets =>
    .ret (OutputRedaction.run values secrets process)

/-- `classifyDNSFailure`, of the output as it is. -/
def classifyDNSFailure (dnsProvider : String) (output : Bytes) : Bool :=
  dnsProvider = "dns_cf" && decide (utf8 "invalid domain" <:+: output) &&
    decide (utf8 "Error adding TXT record to domain:" <:+: output)

def newCommandError (operation dnsProvider : String) (ran : OutputRedaction.Ran) (err : RunError) :
    Failure :=
  .acme operation ran.exitCode ran.output true (classifyDNSFailure dnsProvider ran.output) err

def installTooLarge : Error := .new "acme.sh 安装文件过大"

/-- The files that `install` reads, and what it finds in them. -/
def collect (dir : String) (exitCode : Int) (combined : Bytes) :
    Engine (Except Failure (Reply Name)) :=
  readPEM installTooLarge dir "cert.pem" >>= check .error fun certificatePEM =>
  readPEM installTooLarge dir "chain.pem" >>= check .error fun chainPEM =>
  readPEM installTooLarge dir "fullchain.pem" >>= check .error fun fullchainPEM =>
  readPEM installTooLarge dir "privkey.pem" >>= check .error fun privateKeyPEM =>
  check .error (fun parsed =>
    check .error (fun _ => .ret (.ok (.installed
      { certificatePEM := certificatePEM
        chainPEM := chainPEM
        fullchainPEM := fullchainPEM
        privateKeyPEM := privateKeyPEM
        metadata := parsed.2
        exitCode := exitCode
        outputSummary := combined })))
      (CertificateParser.validateKeyMatches lib parsed.1 privateKeyPEM))
    (CertificateParser.parseCertificate lib certificatePEM)

/-- What `install` does in its directory. -/
def installIn (primaryDomain keyType : String) (values : List (String × String))
    (previousOutput : Bytes) (dir : String) : Engine (Except Failure (Reply Name)) := do
  let arguments := AcmeEngine.installArguments s.cli primaryDomain keyType (join s.tempRoot dir)
  let ran ← runAcme s arguments values (some dir)
  let combined := trimSpace (previousOutput ++ [10] ++ ran.output)
  match ran.err with
  | some err => return .error (.acme "install" ran.exitCode combined true false err)
  | none => collect lib dir ran.exitCode combined

def install (primaryDomain keyType : String) (values : List (String × String))
    (previousOutput : Bytes) : Engine (Except Failure (Reply Name)) :=
  mkdirAll >>= check .error fun _ =>
  mkdirTemp "acme-install-" >>= check .error fun dir =>
  removing dir (chmodDir dir >>= check .error fun _ =>
    installIn lib s primaryDomain keyType values previousOutput dir)

/-- What `Issue` and `Renew` do with their arguments. -/
def runAndInstall (operation dnsProvider primaryDomain keyType : String)
    (values : List (String × String)) (arguments : List String) :
    Engine (Except Failure (Reply Name)) := do
  let ran ← runAcme s arguments values none
  match ran.err with
  | some err => return .error (newCommandError operation dnsProvider ran err)
  | none => install lib s primaryDomain keyType values ran.output

def issue (request : IssueRequest) : Engine (Except Failure (Reply Name)) :=
  check .error (runAndInstall lib s "issue" request.dnsProvider request.primaryDomain
    request.keyType request.dnsVariables) (AcmeEngine.issueArguments s.cli s.parsers request)

def renew (request : RenewRequest) : Engine (Except Failure (Reply Name)) :=
  check .error (runAndInstall lib s "renew" request.dnsProvider request.primaryDomain
    request.keyType request.dnsVariables) (AcmeEngine.renewArguments s.cli s.parsers request)

def revokeWith (arguments : List String) : Engine (Except Failure (Reply Name)) := do
  let ran ← runAcme s arguments [] none
  match ran.err with
  | some err => return .error (.acme "revoke" ran.exitCode ran.output false false err)
  | none => return .ok .revoked

def revoke (request : RevokeRequest) : Engine (Except Failure (Reply Name)) :=
  check .error (revokeWith s) (AcmeEngine.revokeArguments s.cli request)

/-- A call of one of the engines; `Issue` and `Renew` of the self-signed engine are the
same. -/
inductive Request where
  | generate (request : SelfSignedRequest)
  | issue (request : IssueRequest)
  | renew (request : RenewRequest)
  | revoke (request : RevokeRequest)
  deriving DecidableEq, Repr

def programOf : Request → Engine (Except Failure (Reply Name))
  | .generate request => generate lib s request
  | .issue request => issue lib s request
  | .renew request => renew lib s request
  | .revoke request => revoke s request

end Programs

def sampleSetup : Setup where
  opensslBinary := "/usr/bin/openssl"
  acmeBinary := "/opt/acme.sh/acme.sh"
  tempRoot := "/data/temp"
  cli := AcmeEngine.dataCLI
  parsers := AcmeEngine.plainParsers

def sortedSecrets (values : List (String × String)) : Secrets values where
  list := ((values.map fun e => utf8 e.2).filter fun secret => secret ≠ []).insertionSort
    fun first second => second.length ≤ first.length
  perm := List.perm_insertionSort _ _
  sorted := by
    have total : Std.Total fun first second : Bytes => second.length ≤ first.length :=
      ⟨fun _ _ => Nat.le_total _ _⟩
    have trans : IsTrans Bytes fun first second => second.length ≤ first.length :=
      ⟨fun _ _ _ ab bc => bc.trans ab⟩
    exact List.pairwise_insertionSort _ _

/-- Everything goes well: every process leaves a certificate and its key. -/
def goodHost (name : String) : Host where
  fails _ := false
  keeps _ _ := false
  written _ := none
  tempName _ := name
  umask := 0o022
  process _ _ := ⟨[], [], false, some 0⟩
  leaves _ _ files := Function.update (Function.update files "cert.pem" (some ⟨[0], 0o644⟩))
    "privkey.pem" (some ⟨[1, 2, 3, 4, 5, 6, 7], 0o644⟩)
  secrets _ := sortedSecrets
  clock _ := 1

def monthRequest : SelfSignedRequest where
  primaryDomain := "www.example.com"
  domains := ["www.example.com", "example.com"]
  keyType := "ec-256"
  validDays := 30

end EngineFiles
