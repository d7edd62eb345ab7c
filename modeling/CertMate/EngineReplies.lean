import CertMate.EngineCalls

/-!
# What an engine hands over

A certificate that a call of an engine answers is what a process of this very call has left
in the directory that was made for it, and it is what the parser has accepted.
-/
namespace EngineReplies
open CertificateModel CallTrees ThreadPools PrivateCells EngineFiles EngineCalls
open AcmeEngine (join)
open OutputRedaction (Finished Secrets trimSpace)
open ServiceWorld (SelfSignedRequest IssueRequest RenewRequest RevokeRequest)

/-- The files have this content under the name, and it is not over the limit. -/
def Holds (files : Files) (name : String) (content : Bytes) : Prop :=
  ∃ file, files name = some file ∧ file.content = content ∧ content.length ≤ fileLimit

/-- The directory is there with these files. -/
def Contains (dir : String) (files : Files) (w : Store String TempDir) : Prop :=
  ∃ mode, w.cells dir = some ⟨mode, files⟩

section Steps
variable {hosts : Nat → Host} {t : Nat} {w w' : Store String TempDir} {dir : String} {files : Files}

/-- A program of the engines, run by one thread. -/
abbrev runBy (hosts : Nat → Host) (t : Nat) {α : Type} (p : Engine α) (w : Store String TempDir) :
    α × Store String TempDir := run ((device hosts).exec t) p w

theorem run_split {α β : Type} {p : Engine α} {f : α → Engine β} {b : β}
    (h : runBy hosts t (p >>= f) w = (b, w')) :
    ∃ a v, runBy hosts t p w = (a, v) ∧ runBy hosts t (f a) v = (b, w') :=
  ⟨_, _, rfl, (run_bind _ p f w).symm.trans h⟩

theorem run_check {ε α β : Type} {p : Engine (Except ε α)} {fail : ε → Failure}
    {next : α → Engine (Except Failure β)} {b : β}
    (h : runBy hosts t (p >>= check fail next) w = (.ok b, w')) :
    ∃ a v, runBy hosts t p w = (.ok a, v) ∧ runBy hosts t (next a) v = (.ok b, w') := by
  obtain ⟨r, v, ran, h⟩ := run_split h
  cases r with
  | error err => cases h
  | ok a => exact ⟨a, v, ran, h⟩

/-- The same for a check of a value. -/
theorem run_checked {ε α β : Type} {r : Except ε α} {fail : ε → Failure}
    {next : α → Engine (Except Failure β)} {b : β}
    (h : runBy hosts t (check fail next r) w = (.ok b, w')) :
    ∃ a, r = .ok a ∧ runBy hosts t (next a) w = (.ok b, w') := by
  cases r with
  | error err => cases h
  | ok a => exact ⟨a, rfl, h⟩

/-- A call that is not about a directory. -/
theorem run_idle {e : Eff} (plain : makes e = false) (nowhere : place e = none) {r : Ans e}
    (h : runBy hosts t (Prog.perform e) w = (r, w')) : w'.cells = w.cells := by
  have key := ((manners_suit hosts).placed t (w.counts t) e plain).trans nowhere
  change (device hosts).exec t e w = (r, w') at h
  rw [exec_none key] at h
  cases h
  rfl

theorem run_now {now : Time} (h : runBy hosts t (Prog.perform Eff.now) w = (now, w')) :
    now = (hosts t).clock (w.counts t) := by
  have key : (device hosts).key t (w.counts t) .now = none := rfl
  change (device hosts).exec t .now w = (now, w') at h
  rw [exec_none key] at h
  by_cases fails : (hosts t).fails (w.counts t) = true
  · simp only [device, fails, if_true] at h
    cases h
    rfl
  · simp only [device, fails] at h
    cases h
    rfl

theorem run_mkdirTemp {pattern name : String}
    (h : runBy hosts t (mkdirTemp pattern) w = (.ok name, w')) :
    Contains name (fun _ => none) w' := by
  have key : (device hosts).key t (w.counts t) (.mkdirTemp pattern) =
    some (pattern ++ (hosts t).tempName (w.counts t)) := rfl
  change (device hosts).exec t (.mkdirTemp pattern) w = (.ok name, w') at h
  rw [exec_some key] at h
  by_cases fails : (hosts t).fails (w.counts t) = true
  · simp only [device, fails, if_true] at h
    cases h
  · cases there : w.cells (pattern ++ (hosts t).tempName (w.counts t)) with
    | some d =>
      simp only [device, fails, there] at h
      cases h
    | none =>
      simp only [device, fails, there] at h
      cases h
      exact ⟨(hosts t).masked 0o700, by simp [Host.done]⟩

/-- A call in a directory that is there, and what is made of the directory. -/
theorem run_at {e : Eff} (plain : makes e = false) (here : place e = some dir) {mode : Nat}
    (there : w.cells dir = some ⟨mode, files⟩) {r : Ans e}
    (h : runBy hosts t (Prog.perform e) w = (r, w')) :
    r = ((device hosts).effect t (w.counts t) e (some ⟨mode, files⟩)).1 ∧
      w'.cells dir = ((device hosts).effect t (w.counts t) e (some ⟨mode, files⟩)).2 := by
  change (device hosts).exec t e w = (r, w') at h
  rw [exec_at plain here, there] at h
  cases h
  exact ⟨rfl, by simp⟩

theorem run_chmodDir {u : Unit} (h : runBy hosts t (chmodDir dir) w = (.ok u, w'))
    (there : Contains dir files w) : Contains dir files w' := by
  obtain ⟨mode, there⟩ := there
  obtain ⟨answer, cell⟩ := run_at rfl rfl there h
  by_cases fails : (hosts t).fails (w.counts t) = true
  · simp only [device, fails, if_true] at answer
    cases answer
  · simp only [device, fails] at cell
    exact ⟨_, cell⟩

theorem run_writeFile {name : String} {content : Bytes} {u : Unit}
    (h : runBy hosts t (writeFile dir name content) w = (.ok u, w'))
    (there : Contains dir files w) :
    ∃ mode, Contains dir (Function.update files name (some ⟨content, mode⟩)) w' := by
  obtain ⟨mode, there⟩ := there
  obtain ⟨answer, cell⟩ := run_at rfl rfl there h
  by_cases fails : (hosts t).fails (w.counts t) = true
  · simp only [device, fails, if_true] at answer
    cases answer
  · simp only [device, fails] at cell
    exact ⟨_, _, cell⟩

theorem effect_run (n : Nat) (command : Command) (cell : Option TempDir) :
    (device hosts).effect t n (.run command) cell = ((hosts t).run n command,
      cell.map fun d => { d with files := (hosts t).after n command d.files }) := by
  by_cases fails : (hosts t).fails n = true
  · simp only [device, fails, if_true]
    rfl
  · simp only [device, fails]
    rfl

theorem run_process {command : Command} {process : Finished}
    (h : runBy hosts t (Prog.perform (Eff.run command)) w = (process, w')) :
    process = (hosts t).run (w.counts t) command ∧
      ∀ dir files, command.directory = some dir → Contains dir files w →
        Contains dir ((hosts t).after (w.counts t) command files) w' := by
  change (device hosts).exec t (.run command) w = (process, w') at h
  cases here : command.directory with
  | none =>
    have key : (device hosts).key t (w.counts t) (.run command) = none := here
    rw [exec_none key, effect_run] at h
    cases h
    exact ⟨rfl, fun dir files none => by cases none⟩
  | some name =>
    rw [exec_at (e := Eff.run command) rfl here, effect_run] at h
    cases h
    refine ⟨rfl, ?_⟩
    rintro dir files ⟨⟩ ⟨mode, there⟩
    exact ⟨mode, by simp [there]⟩

/-- What is read of a file that is not over the limit. -/
theorem sized_holds {large : Error} {file : TempFile} {name : String} {value : Bytes}
    (found : files name = some file)
    (good : sized large (.ok (file.content.take (fileLimit + 1))) = .ok value) :
    Holds files name value := by
  rw [sized] at good
  split at good
  · cases good
  · rename_i fits
    cases good
    have whole : file.content.take (fileLimit + 1) = file.content := by
      apply List.take_of_length_le
      rw [List.length_take] at fits
      omega
    refine ⟨file, found, whole.symm, ?_⟩
    omega

theorem run_readPEM {large : Error} {name : String} {value : Bytes}
    (h : runBy hosts t (readPEM large dir name) w = (.ok value, w'))
    (there : Contains dir files w) : Holds files name value ∧ Contains dir files w' := by
  obtain ⟨mode, there⟩ := there
  have split : runBy hosts t (readPEM large dir name) w =
      (sized large (runBy hosts t (Prog.perform (Eff.readFile dir name fileLimit)) w).1,
        (runBy hosts t (Prog.perform (Eff.readFile dir name fileLimit)) w).2) := rfl
  rw [split] at h
  cases read : runBy hosts t (Prog.perform (Eff.readFile dir name fileLimit)) w with
  | mk r v =>
    rw [read] at h
    obtain ⟨good, rfl⟩ := Prod.mk.inj h
    obtain ⟨answer, cell⟩ := run_at rfl rfl there read
    by_cases fails : (hosts t).fails (w.counts t) = true
    · simp only [device, fails, if_true] at answer
      subst answer
      cases good
    · simp only [device, fails] at answer cell
      cases found : files name with
      | none =>
        simp only [Host.done, Option.bind_some, found] at answer
        subst answer
        cases good
      | some file =>
        simp only [Host.done, Option.bind_some, found] at answer cell
        subst answer
        exact ⟨sized_holds found good, mode, cell⟩

/-- A directory that is removed in the end. -/
theorem run_removing {α : Type} {body : Engine α} {a : α}
    (h : runBy hosts t (removing dir body) w = (a, w')) :
    ∃ v, runBy hosts t body w = (a, v) := by
  cases ran : runBy hosts t body w with
  | mk a' v =>
    have split : (runBy hosts t (removing dir body) w).1 = (runBy hosts t body w).1 := by
      simp [removing, runBy]
    rw [h, ran] at split
    exact ⟨v, by rw [show a = a' from split]⟩

end Steps

section Replies
variable {Name PublicKey PrivateKey : Type}
  (lib : CertificateParser.Crypto Name PublicKey PrivateKey) (s : Setup) (H : Host)

/-- The answer of `generate`: a process of OpenSSL has ended well in a directory with nothing
but the configuration, and has left the certificate and the key there. -/
def GeneratedFrom (request : SelfSignedRequest) (result : Generated Name) : Prop :=
  ∃ arguments dir mode n m,
    buildArguments request = .ok arguments ∧
    opensslEnded (join s.tempRoot dir) (H.run n (opensslCommand s arguments dir)) =
      .ok result.outputSummary ∧
    (∃ files, files = H.after n (opensslCommand s arguments dir)
        (Function.update (fun _ => none) "openssl.cnf" (some
          ⟨utf8 (SelfSignedConfig.buildConfig request.primaryDomain request.domains), mode⟩)) ∧
      Holds files "cert.pem" result.certificatePEM ∧
      Holds files "privkey.pem" result.privateKeyPEM) ∧
    CertificateParser.validateCertificateAndKey lib result.certificatePEM result.privateKeyPEM
      request.domains (H.clock m) = .ok result.metadata

/-- What an issue or a renewal asks of `acme.sh`. -/
structure Order where
  primaryDomain : String
  keyType : String
  values : List (String × String)
  arguments : Except Error (List String)

def issueOrder (request : IssueRequest) : Order where
  primaryDomain := request.primaryDomain
  keyType := request.keyType
  values := request.dnsVariables
  arguments := AcmeEngine.issueArguments s.cli s.parsers request

def renewOrder (request : RenewRequest) : Order where
  primaryDomain := request.primaryDomain
  keyType := request.keyType
  values := request.dnsVariables
  arguments := AcmeEngine.renewArguments s.cli s.parsers request

/-- The process has ended well, and this is what is made of it. -/
def Succeeds (values : List (String × String)) (process : Finished) (ran : OutputRedaction.Ran) :
    Prop := ∃ secrets, ran = OutputRedaction.run values secrets process ∧ ran.err = none

def installCommand (order : Order) (dir : String) : Command :=
  acmeCommand s (AcmeEngine.installArguments s.cli order.primaryDomain order.keyType
    (join s.tempRoot dir)) order.values (some dir)

/-- The answer of `Issue` and `Renew`: a first process has ended well, and then a second one
that was to install into an empty directory, and has left the four files there. -/
def InstalledFrom (order : Order) (result : Installed Name) : Prop :=
  ∃ arguments dir first second n m certificate,
    order.arguments = .ok arguments ∧
    Succeeds order.values (H.run n (acmeCommand s arguments order.values none)) first ∧
    Succeeds order.values (H.run m (installCommand s order dir)) second ∧
    result.exitCode = second.exitCode ∧
    result.outputSummary = trimSpace (first.output ++ [10] ++ second.output) ∧
    (∃ files, files = H.after m (installCommand s order dir) (fun _ => none) ∧
      Holds files "cert.pem" result.certificatePEM ∧ Holds files "chain.pem" result.chainPEM ∧
      Holds files "fullchain.pem" result.fullchainPEM ∧
      Holds files "privkey.pem" result.privateKeyPEM) ∧
    CertificateParser.parseCertificate lib result.certificatePEM =
      .ok (certificate, result.metadata) ∧
    CertificateParser.validateKeyMatches lib certificate result.privateKeyPEM = .ok ()

/-- The answer of `Revoke`. -/
def RevokedFrom (request : RevokeRequest) : Prop :=
  ∃ arguments n ran, AcmeEngine.revokeArguments s.cli request = .ok arguments ∧
    Succeeds [] (H.run n (acmeCommand s arguments [] none)) ran

/-- What the engines answer, and what it is worth. -/
def Earned : Request → Reply Name → Prop
  | .generate request, .generated result => GeneratedFrom lib s H request result
  | .issue request, .installed result => InstalledFrom lib s H (issueOrder s request) result
  | .renew request, .installed result => InstalledFrom lib s H (renewOrder s request) result
  | .revoke request, .revoked => RevokedFrom s H request
  | _, _ => False

variable {lib s}

theorem run_generateIn {hosts : Nat → Host} {t : Nat} {w w' : Store String TempDir}
    {request : SelfSignedRequest} {arguments : List String} {dir : String} {reply : Reply Name}
    (built : buildArguments request = .ok arguments) (there : Contains dir (fun _ => none) w)
    (h : runBy hosts t (generateIn lib s request arguments dir) w = (.ok reply, w')) :
    ∃ result, reply = .generated result ∧ GeneratedFrom lib s (hosts t) request result := by
  obtain ⟨_, w₁, wrote, h⟩ := run_check h
  obtain ⟨mode, there⟩ := run_writeFile wrote there
  obtain ⟨process, w₂, ran, h⟩ := run_split h
  obtain ⟨rfl, left⟩ := run_process ran
  have there := left dir _ rfl there
  obtain ⟨summary, good, h⟩ := run_checked h
  obtain ⟨certificatePEM, w₃, read, h⟩ := run_check h
  obtain ⟨certificate, there⟩ := run_readPEM read there
  obtain ⟨privateKeyPEM, w₄, read, h⟩ := run_check h
  obtain ⟨privateKey, there⟩ := run_readPEM read there
  obtain ⟨_, w₅, -, h⟩ := run_check h
  obtain ⟨now, w₆, asked, h⟩ := run_split h
  obtain ⟨metadata, valid, h⟩ := run_checked h
  cases h
  rw [run_now asked] at valid
  exact ⟨_, rfl, arguments, dir, mode, w₁.counts t, w₅.counts t, built, good,
    ⟨_, rfl, certificate, privateKey⟩, valid⟩

theorem run_generate {hosts : Nat → Host} {t : Nat} {w w' : Store String TempDir}
    {request : SelfSignedRequest} {reply : Reply Name}
    (h : runBy hosts t (generate lib s request) w = (.ok reply, w')) :
    ∃ result, reply = .generated result ∧ GeneratedFrom lib s (hosts t) request result := by
  unfold generate at h
  split at h
  · cases h
  · obtain ⟨arguments, built, h⟩ := run_checked h
    obtain ⟨_, w₁, -, h⟩ := run_check h
    obtain ⟨dir, w₂, made, h⟩ := run_check h
    obtain ⟨mode, w₃, set, h⟩ := run_split h
    cases mode with
    | error err =>
      obtain ⟨_, w₄, -, h⟩ := run_split h
      cases h
    | ok _ =>
      obtain ⟨w₄, h⟩ := run_removing h
      exact run_generateIn built (run_chmodDir set (run_mkdirTemp made)) h

theorem run_secrets {hosts : Nat → Host} {t : Nat} {w w' : Store String TempDir}
    {values : List (String × String)} {secrets : Secrets values}
    (h : runBy hosts t (Prog.perform (Eff.secrets values)) w = (secrets, w')) :
    w'.cells = w.cells := run_idle (e := Eff.secrets values) rfl rfl h

section Acme
variable {hosts : Nat → Host} {t : Nat} {w w' : Store String TempDir} {reply : Reply Name}
  {dir : String} {files : Files} {values : List (String × String)} {arguments : List String}
  {ran : OutputRedaction.Ran} {directory : Option String}

/-- A run of `acme.sh` that has ended well. -/
theorem run_runAcme (h : runBy hosts t (runAcme s arguments values directory) w = (ran, w'))
    (good : ran.err = none) :
    ∃ n, Succeeds values ((hosts t).run n (acmeCommand s arguments values directory)) ran ∧
      ∀ dir files, directory = some dir → Contains dir files w →
        Contains dir ((hosts t).after n (acmeCommand s arguments values directory) files) w' := by
  unfold runAcme at h
  cases checked : AcmeEngine.checkVariables values with
  | error err =>
    rw [checked] at h
    cases h
    cases good
  | ok _ =>
    rw [checked] at h
    obtain ⟨process, w₁, started, h⟩ := run_split h
    obtain ⟨secrets, w₂, sorted, h⟩ := run_split h
    cases h
    obtain ⟨rfl, left⟩ := run_process started
    refine ⟨w.counts t, ⟨secrets, rfl, good⟩, ?_⟩
    intro dir files here there
    obtain ⟨mode, cell⟩ := left dir files here there
    exact ⟨mode, by rw [run_secrets sorted, cell]⟩

theorem run_collect {exitCode : Int} {combined : Bytes} (there : Contains dir files w)
    (h : runBy hosts t (collect lib dir exitCode combined) w = (.ok reply, w')) :
    ∃ result certificate, reply = .installed result ∧ result.exitCode = exitCode ∧
      result.outputSummary = combined ∧
      (Holds files "cert.pem" result.certificatePEM ∧ Holds files "chain.pem" result.chainPEM ∧
        Holds files "fullchain.pem" result.fullchainPEM ∧
        Holds files "privkey.pem" result.privateKeyPEM) ∧
      CertificateParser.parseCertificate lib result.certificatePEM =
        .ok (certificate, result.metadata) ∧
      CertificateParser.validateKeyMatches lib certificate result.privateKeyPEM = .ok () := by
  obtain ⟨certificatePEM, w₁, read, h⟩ := run_check h
  obtain ⟨certificate, there⟩ := run_readPEM read there
  obtain ⟨chainPEM, w₂, read, h⟩ := run_check h
  obtain ⟨chain, there⟩ := run_readPEM read there
  obtain ⟨fullchainPEM, w₃, read, h⟩ := run_check h
  obtain ⟨fullchain, there⟩ := run_readPEM read there
  obtain ⟨privateKeyPEM, w₄, read, h⟩ := run_check h
  obtain ⟨privateKey, there⟩ := run_readPEM read there
  obtain ⟨⟨parsed, metadata⟩, good, h⟩ := run_checked h
  obtain ⟨_, fits, h⟩ := run_checked h
  cases h
  exact ⟨_, parsed, rfl, rfl, rfl, ⟨certificate, chain, fullchain, privateKey⟩, good, fits⟩

theorem run_install {order : Order} {first : OutputRedaction.Ran} {n : Nat}
    (built : order.arguments = .ok arguments)
    (before : Succeeds order.values
      ((hosts t).run n (acmeCommand s arguments order.values none)) first)
    (h : runBy hosts t
      (install lib s order.primaryDomain order.keyType order.values first.output) w =
        (.ok reply, w')) :
    ∃ result, reply = .installed result ∧ InstalledFrom lib s (hosts t) order result := by
  obtain ⟨_, w₁, -, h⟩ := run_check h
  obtain ⟨dir, w₂, made, h⟩ := run_check h
  obtain ⟨w₃, h⟩ := run_removing h
  obtain ⟨_, w₄, set, h⟩ := run_check h
  have there := run_chmodDir set (run_mkdirTemp made)
  obtain ⟨second, w₅, ran, h⟩ := run_split h
  cases good : second.err with
  | some err =>
    rw [good] at h
    cases h
  | none =>
    rw [good] at h
    obtain ⟨m, after, left⟩ := run_runAcme ran good
    obtain ⟨result, certificate, rfl, code, summary, held, parsed, fits⟩ :=
      run_collect (left dir _ rfl there) h
    exact ⟨result, rfl, arguments, dir, first, second, n, m, certificate, built, before, after,
      code, summary, ⟨_, rfl, held⟩, parsed, fits⟩

theorem run_order {operation dnsProvider : String} (order : Order)
    (h : runBy hosts t (check .error (runAndInstall lib s operation dnsProvider
      order.primaryDomain order.keyType order.values) order.arguments) w = (.ok reply, w')) :
    ∃ result, reply = .installed result ∧ InstalledFrom lib s (hosts t) order result := by
  obtain ⟨arguments, built, h⟩ := run_checked h
  obtain ⟨first, w₁, ran, h⟩ := run_split h
  cases good : first.err with
  | some err =>
    rw [good] at h
    cases h
  | none =>
    rw [good] at h
    obtain ⟨n, before, -⟩ := run_runAcme ran good
    exact run_install built before h

theorem run_revoke {request : RevokeRequest}
    (h : runBy hosts t (revoke s request : Engine (Except Failure (Reply Name))) w =
      (.ok reply, w')) :
    reply = .revoked ∧ RevokedFrom s (hosts t) request := by
  obtain ⟨arguments, built, h⟩ := run_checked h
  obtain ⟨ran, w₁, revoked, h⟩ := run_split h
  cases good : ran.err with
  | some err =>
    rw [good] at h
    cases h
  | none =>
    rw [good] at h
    obtain ⟨n, before, -⟩ := run_runAcme revoked good
    cases h
    exact ⟨rfl, arguments, n, ran, built, before⟩

/-- Whatever a program of the engines answers is earned. -/
theorem run_programOf {request : Request}
    (h : runBy hosts t (programOf lib s request) w = (.ok reply, w')) :
    Earned lib s (hosts t) request reply := by
  cases request with
  | generate request =>
    obtain ⟨result, rfl, earned⟩ := run_generate h
    exact earned
  | issue request =>
    obtain ⟨result, rfl, earned⟩ := run_order (issueOrder s request) h
    exact earned
  | renew request =>
    obtain ⟨result, rfl, earned⟩ := run_order (renewOrder s request) h
    exact earned
  | revoke request =>
    obtain ⟨rfl, earned⟩ := run_revoke h
    exact earned

end Acme

end Replies

section Pool
variable {Name PublicKey PrivateKey : Type}
  {lib : CertificateParser.Crypto Name PublicKey PrivateKey} {s : Setup} {hosts : Nat → Host}

/-- However the calls of the engines overlap, and whichever are killed: what a call answers
comes from processes of its own thread, and from a directory that was empty but for what the
call itself had written, and the parser has accepted it. -/
theorem replies_earned {c₀ c : EngineState Name} (idle : ∀ t, c₀.threads t = none)
    (h : Reach (engines lib s hosts) .any c₀ c) {t : Nat} {reply : Reply Name} {call : Call}
    (ended : c.outcome t = some (.ok reply, call)) :
    Earned lib s (hosts t) call.request reply := by
  obtain ⟨c', w₀, v, -, -, -, -, -, whole, -⟩ := ended_at_one_moment (manners_suit hosts)
    (fun th begins => newcomer begins) textOf_note (fun th begins => textOf_begins begins) idle h
    ended
  exact run_programOf whole

/-- The second of two calls that have made all their calls in turn. -/
theorem replies_earned_turns : ∃ c result call, twoCalls 10 = some c ∧
    c.outcome 1 = some (.ok (.generated result), call) ∧
    GeneratedFrom CertificateParser.pairCrypto sampleSetup (twoHosts 1) monthRequest result := by
  obtain ⟨c, made, -, second⟩ := twoCalls_answered
  obtain ⟨reply, call, ended⟩ := outcome_of_answered second
  have reached := twoCalls_reach (D := .any) (fun _ _ => trivial) (fun _ _ _ => trivial) made
  have earned := replies_earned (fun _ => rfl) reached ended
  have asked : call.request = .generate monthRequest := by
    have played : (twoCalls 10).bind (fun c => (c.outcome 1).map fun r => r.2.request) =
        some (.generate monthRequest) := by
      decide +kernel
    simpa [made, ended] using played
  rw [asked] at earned
  cases reply with
  | generated result => exact ⟨c, result, call, made, ended, earned⟩
  | installed result => exact earned.elim
  | revoked => exact earned.elim

end Pool

end EngineReplies
