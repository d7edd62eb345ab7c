import CertMate.CertificateService
import CertMate.CredentialModel

/-!
# The command lines of the ACME engine

The argument vectors of `internal/certificate/acmesh/engine.go`. `url.Parse` and
`mail.ParseAddress` are parameters.
-/
namespace AcmeEngine
open CertificateModel ServiceWorld
open DomainValidation (toLower isWildcard trimWildcard labelRune)
open CredentialModel (validateCustomProviderCode validateProcessEnvironmentName)

/-- What the engine reads off a `url.URL` that has a scheme; `rest` is what
follows the scheme and its colon in the text of the URL. -/
structure URL where
  scheme : String
  host : String
  user : Bool
  fragment : String
  rest : String

def URL.string (u : URL) : String := u.scheme ++ ":" ++ u.rest

/-- `address` answers the address of a `mail.Address`, which has an `@`. -/
structure Parsers where
  url : String → Option URL
  address : String → Option String
  address_at : ∀ text a, address text = some a → '@' ∈ a.toList

/-- The paths are absolute, as `Config.Validate` wants them. -/
structure CLI where
  acmeHome : String
  challengeDir : String
  home_absolute : acmeHome.toList.head? = some '/'
  challenge_absolute : challengeDir.toList.head? = some '/'

/-- Directories as a configuration may have them. -/
def dataCLI : CLI := ⟨"/data/acme", "/data/challenge", rfl, rfl⟩

/-- Addresses without a name, and no URLs. -/
def plainParsers : Parsers where
  url _ := none
  address text := if '@' ∈ text.toList then some text else none
  address_at text a h := by
    split at h
    · cases h
      assumption
    · cases h

def noParsers : Parsers := ⟨fun _ => none, fun _ => none, fun _ _ h => nomatch h⟩

def validateLabel (label : List Char) : Except Error Unit :=
  if label.length = 0 ∨ 63 < (String.ofList label).utf8ByteSize ∨ label.head? = some '-' ∨
      label.getLast? = some '-' then
    .error (.new "ACME 域名标签无效")
  else if label.all labelRune then .ok ()
  else .error (.new "ACME 域名包含非法字符")

def validateLabels : List (List Char) → Except Error Unit
  | [] => .ok ()
  | label :: rest =>
    match validateLabel label with
    | .error err => .error err
    | .ok () => validateLabels rest

def validateDomain (value : String) : Except Error Unit :=
  if value = "" ∨ 253 < value.utf8ByteSize ∨ '\r' ∈ value.toList ∨ '\n' ∈ value.toList ∨
      value ≠ toLower value then
    .error (.new "ACME 域名参数无效")
  else
    let name := (trimWildcard value).toList
    if '*' ∈ name then .error (.new "ACME 通配符域名参数无效")
    else if (name.splitOn '.').length < 2 then .error (.new "ACME 域名至少需要两个标签")
    else validateLabels (name.splitOn '.')

def validateDomains : List String → Except Error Unit
  | [] => .ok ()
  | domain :: rest =>
    match validateDomain domain with
    | .error err => .error err
    | .ok () => validateDomains rest

def validateCA (p : Parsers) (value : String) : Except Error String :=
  if value = "letsencrypt" ∨ value = "letsencrypt_test" ∨ value = "zerossl" then .ok value
  else
    let invalid : Error := .new "ACME Directory URL 必须是有效的 HTTPS URL"
    match p.url value with
    | none => .error invalid
    | some parsed =>
      if parsed.scheme ≠ "https" ∨ parsed.host = "" ∨ parsed.user ∨ parsed.fragment ≠ "" then
        .error invalid
      else .ok parsed.string

def keyLength : String → Except Error String
  | "ec-256" => .ok "ec-256"
  | "rsa-2048" => .ok "2048"
  | "rsa-3072" => .ok "3072"
  | _ => .error (.new "不支持的 ACME 密钥类型")

def isECC (value : String) : Bool := value = "ec-256"

section Arguments
variable (c : CLI) (p : Parsers)

/-- `filepath.Join` of clean paths. -/
def join (directory name : String) : String := directory ++ "/" ++ name

def baseArguments : List String :=
  ["--config-home", c.acmeHome, "--cert-home", join c.acmeHome "certs"]

def eccArguments (keyType : String) : List String := if isECC keyType then ["--ecc"] else []

/-- The server of a renewal, where one is stored. -/
def serverArguments (caDirectory : String) : Except Error (List String) :=
  if caDirectory = "" then .ok []
  else (validateCA p caDirectory).map fun server => ["--server", server]

/-- The key type of a renewal. -/
def keyArguments (keyType : String) : Except Error (List String) :=
  if isECC keyType then .ok ["--ecc"]
  else if keyType ≠ "rsa-2048" ∧ keyType ≠ "rsa-3072" then
    .error (.new "不支持的 ACME 密钥类型")
  else .ok []

def renewArguments (request : RenewRequest) : Except Error (List String) := do
  validateDomain request.primaryDomain
  let server ← serverArguments p request.caDirectory
  let key ← keyArguments request.keyType
  return baseArguments c ++ ["--renew", "-d", request.primaryDomain] ++ server ++ key ++
    if request.force then ["--force"] else []

def revokeArguments (request : RevokeRequest) : Except Error (List String) := do
  validateDomain request.primaryDomain
  return baseArguments c ++ ["--revoke", "-d", request.primaryDomain] ++
    eccArguments request.keyType

/-- `strings.ContainsAny(email, "\r\n <>\"")`. -/
def unsafeEmail (email : String) : Bool :=
  email.toList.any fun ch => ch ∈ ['\r', '\n', ' ', '<', '>', '"']

def challengeArguments (request : IssueRequest) : Except Error (List String) :=
  match request.challengeType with
  | "dns-01" =>
    match validateCustomProviderCode request.dnsProvider with
    | .error _ => .error (.new "acme.sh DNS Provider Code 必须匹配 dns_[a-z0-9_]+")
    | .ok () =>
      if request.dnsVariables.isEmpty then .error (.new "DNS-01 缺少 Provider 凭据")
      else .ok ["--dns", request.dnsProvider]
  | "http-01" =>
    if request.domains.any isWildcard then .error (.new "HTTP-01 不支持通配符域名")
    else .ok ["--webroot", c.challengeDir]
  | _ => .error (.new "仅支持 dns-01 或 http-01")

def issueArguments (request : IssueRequest) : Except Error (List String) := do
  validateDomain request.primaryDomain
  if request.domains.length = 0 ∨ 100 < request.domains.length then
    .error (.new "ACME 域名数量无效")
  else
    let server ← validateCA p request.caDirectory
    if p.address request.email ≠ some request.email ∨ unsafeEmail request.email then
      .error (.new "ACME 邮箱格式无效")
    else
      validateDomains request.domains
      let length ← keyLength request.keyType
      let challenge ← challengeArguments c request
      return baseArguments c ++ ["--issue", "--server", server, "--accountemail", request.email] ++
        request.domains.flatMap (fun domain => ["-d", domain]) ++ ["--keylength", length] ++
        challenge

/-- The second run of `Issue` and `Renew`, which installs into `tempDir`. -/
def installArguments (primaryDomain keyType tempDir : String) : List String :=
  baseArguments c ++ ["--install-cert", "-d", primaryDomain] ++ eccArguments keyType ++
    ["--cert-file", join tempDir "cert.pem", "--ca-file", join tempDir "chain.pem",
      "--fullchain-file", join tempDir "fullchain.pem", "--key-file", join tempDir "privkey.pem"]

/-- What `run` checks of the variables before it starts the process. -/
def checkVariables : List (String × String) → Except Error Unit
  | [] => .ok ()
  | (name, value) :: rest =>
    match validateProcessEnvironmentName name with
    | .error _ => .error (.new "DNS Provider 环境变量无效")
    | .ok () =>
      if value = "" then .error (.new "DNS Provider 环境变量无效") else checkVariables rest

theorem checkVariables_ok_iff {values : List (String × String)} :
    checkVariables values = .ok () ↔
      ∀ e ∈ values, validateProcessEnvironmentName e.1 = .ok () ∧ e.2 ≠ "" := by
  induction values with
  | nil => simp [checkVariables]
  | cons e rest ih =>
    obtain ⟨name, value⟩ := e
    rw [List.forall_mem_cons, checkVariables]
    cases validateProcessEnvironmentName name with
    | error err => simp
    | ok =>
      by_cases empty : value = ""
      · simp [empty]
      · simp [empty, ih]

/-- The argument vectors that an engine call may start `acme.sh` with. -/
inductive Starts : Eff → List String → Prop
  | issue {id : Id} {request : IssueRequest} {arguments : List String}
      (built : issueArguments c p request = .ok arguments) :
      Starts (.issueACME id request) arguments
  | issueInstall {id : Id} {request : IssueRequest} {arguments : List String} {tempDir : String}
      (built : issueArguments c p request = .ok arguments) :
      Starts (.issueACME id request)
        (installArguments c request.primaryDomain request.keyType tempDir)
  | renew {id : Id} {request : RenewRequest} {arguments : List String}
      (built : renewArguments c p request = .ok arguments) :
      Starts (.renewACME id request) arguments
  | renewInstall {id : Id} {request : RenewRequest} {arguments : List String} {tempDir : String}
      (built : renewArguments c p request = .ok arguments) :
      Starts (.renewACME id request)
        (installArguments c request.primaryDomain request.keyType tempDir)
  | revoke {id : Id} {request : RevokeRequest} {arguments : List String}
      (built : revokeArguments c request = .ok arguments) :
      Starts (.revokeACME id request) arguments

end Arguments

section Force

theorem ne_force_of_head {text : String} {first : Char} (h : text.toList.head? = some first)
    (other : first ≠ '-') : text ≠ "--force" := by
  rintro rfl
  exact other (Option.some.inj h).symm

theorem ne_force_of_last {text : String} {last : Char} (h : text.toList.getLast? = some last)
    (other : last ≠ 'e') : text ≠ "--force" := by
  rintro rfl
  exact other (Option.some.inj h).symm

theorem head_join {directory : String} {first : Char} (h : directory.toList.head? = some first)
    (name : String) : (join directory name).toList.head? = some first := by
  simp [join, h]

theorem last_join {directory name : String} {last : Char} (h : name.toList.getLast? = some last) :
    (join directory name).toList.getLast? = some last := by
  simp [join, List.getLast?_cons, h]

theorem ne_force_of_domain {domain : String} (h : validateDomain domain = .ok ()) :
    domain ≠ "--force" := by
  rintro rfl
  have refused : validateDomain "--force" = .error (.new "ACME 域名至少需要两个标签") := by rfl
  rw [refused] at h
  cases h

theorem ne_force_of_domains {domains : List String} (h : validateDomains domains = .ok ()) :
    ∀ domain ∈ domains, domain ≠ "--force" := by
  induction domains with
  | nil => exact (fun _ h => nomatch h)
  | cons domain rest ih =>
    unfold validateDomains at h
    cases valid : validateDomain domain with
    | error err =>
      rw [valid] at h
      cases h
    | ok _ =>
      rw [valid] at h
      exact List.forall_mem_cons.mpr ⟨ne_force_of_domain valid, ih h⟩

theorem ne_force_of_server {p : Parsers} {value server : String}
    (h : validateCA p value = .ok server) : server ≠ "--force" := by
  unfold validateCA at h
  split at h
  · rename_i named
    cases h
    rcases named with rfl | rfl | rfl <;> decide
  · split at h
    · cases h
    · split at h
      · cases h
      · rename_i parsed _ fits
        cases h
        have scheme : parsed.scheme = "https" := by
          by_contra other
          exact fits (Or.inl other)
        have head : parsed.string.toList.head? = some 'h' := by
          simp [URL.string, scheme]
        exact ne_force_of_head head (by decide)

theorem ne_force_of_length {keyType length : String} (h : keyLength keyType = .ok length) :
    length ≠ "--force" := by
  unfold keyLength at h
  split at h
  · cases h; decide
  · cases h; decide
  · cases h; decide
  · cases h

theorem ne_force_of_provider {code : String} (h : validateCustomProviderCode code = .ok ()) :
    code ≠ "--force" := by
  rintro rfl
  cases h

theorem bind_ok {α β : Type} {x : Except Error α} {f : α → Except Error β} {b : β}
    (h : (x >>= f) = .ok b) : ∃ a, x = .ok a ∧ f a = .ok b := by
  cases x with
  | error err => cases h
  | ok a => exact ⟨a, rfl, h⟩

/-- No argument is `--force`. -/
def Unforced (arguments : List String) : Prop := ∀ argument ∈ arguments, argument ≠ "--force"

theorem Unforced.append {first second : List String} (h : Unforced first) (h' : Unforced second) :
    Unforced (first ++ second) :=
  fun argument there => (List.mem_append.mp there).elim (h argument) (h' argument)

theorem unforced_cons {argument : String} {rest : List String} :
    Unforced (argument :: rest) ↔ argument ≠ "--force" ∧ Unforced rest := List.forall_mem_cons

theorem unforced_nil : Unforced [] := fun _ h => nomatch h

variable (c : CLI) (p : Parsers)

theorem unforced_base : Unforced (baseArguments c) := by
  have home := c.home_absolute
  simp only [baseArguments, unforced_cons, unforced_nil, and_true]
  exact ⟨by decide, ne_force_of_head home (by decide), by decide,
    ne_force_of_head (head_join home "certs") (by decide)⟩

theorem unforced_ecc (keyType : String) : Unforced (eccArguments keyType) := by
  unfold eccArguments
  split
  · exact unforced_cons.mpr ⟨by decide, unforced_nil⟩
  · exact unforced_nil

theorem unforced_install {primaryDomain : String} (valid : validateDomain primaryDomain = .ok ())
    (keyType tempDir : String) : Unforced (installArguments c primaryDomain keyType tempDir) := by
  have pem : ∀ name : String, name.toList.getLast? = some 'm' → join tempDir name ≠ "--force" :=
    fun name last => ne_force_of_last (last_join last) (by decide)
  refine (((unforced_base c).append ?_).append (unforced_ecc keyType)).append ?_
  · simp only [unforced_cons, unforced_nil, and_true]
    exact ⟨by decide, by decide, ne_force_of_domain valid⟩
  · simp only [unforced_cons, unforced_nil, and_true]
    exact ⟨by decide, pem _ rfl, by decide, pem _ rfl, by decide, pem _ rfl, by decide, pem _ rfl⟩

theorem revokeArguments_unforced {request : RevokeRequest} {arguments : List String}
    (h : revokeArguments c request = .ok arguments) : Unforced arguments := by
  obtain ⟨_, valid, h⟩ := bind_ok h
  cases h
  refine ((unforced_base c).append ?_).append (unforced_ecc _)
  simp only [unforced_cons, unforced_nil, and_true]
  exact ⟨by decide, by decide, ne_force_of_domain valid⟩

theorem serverArguments_unforced {caDirectory : String} {arguments : List String}
    (h : serverArguments p caDirectory = .ok arguments) : Unforced arguments := by
  unfold serverArguments at h
  split at h
  · cases h
    exact unforced_nil
  · cases found : validateCA p caDirectory with
    | error err =>
      rw [found] at h
      cases h
    | ok server =>
      rw [found] at h
      cases h
      simp only [unforced_cons, unforced_nil, and_true]
      exact ⟨by decide, ne_force_of_server found⟩

theorem keyArguments_unforced {keyType : String} {arguments : List String}
    (h : keyArguments keyType = .ok arguments) : Unforced arguments := by
  unfold keyArguments at h
  split at h
  · cases h
    exact unforced_cons.mpr ⟨by decide, unforced_nil⟩
  · split at h
    · cases h
    · cases h
      exact unforced_nil

/-- What is checked of a renewal, and its arguments. -/
theorem renewArguments_ok {request : RenewRequest} {arguments : List String}
    (h : renewArguments c p request = .ok arguments) :
    ∃ server key, validateDomain request.primaryDomain = .ok () ∧
      serverArguments p request.caDirectory = .ok server ∧
      keyArguments request.keyType = .ok key ∧
      arguments = baseArguments c ++ ["--renew", "-d", request.primaryDomain] ++ server ++ key ++
        if request.force then ["--force"] else [] := by
  obtain ⟨_, valid, h⟩ := bind_ok h
  obtain ⟨server, built, h⟩ := bind_ok h
  obtain ⟨key, typed, h⟩ := bind_ok h
  exact ⟨server, key, valid, built, typed, (Except.ok.inj h).symm⟩

/-- What is checked of an issue request, and its arguments. -/
theorem issueArguments_ok {request : IssueRequest} {arguments : List String}
    (h : issueArguments c p request = .ok arguments) :
    ∃ server length challenge, validateDomain request.primaryDomain = .ok () ∧
      request.domains ≠ [] ∧ validateCA p request.caDirectory = .ok server ∧
      p.address request.email = some request.email ∧ validateDomains request.domains = .ok () ∧
      keyLength request.keyType = .ok length ∧ challengeArguments c request = .ok challenge ∧
      arguments = baseArguments c ++ ["--issue", "--server", server, "--accountemail",
        request.email] ++ request.domains.flatMap (fun domain => ["-d", domain]) ++
        ["--keylength", length] ++ challenge := by
  obtain ⟨_, valid, h⟩ := bind_ok h
  split at h
  · cases h
  · rename_i number
    obtain ⟨server, ca, h⟩ := bind_ok h
    split at h
    · cases h
    · rename_i email
      obtain ⟨_, domains, h⟩ := bind_ok h
      obtain ⟨length, key, h⟩ := bind_ok h
      obtain ⟨challenge, method, h⟩ := bind_ok h
      refine ⟨server, length, challenge, valid, ?_, ca, ?_, domains, key, method,
        (Except.ok.inj h).symm⟩
      · intro empty
        exact number (Or.inl (List.length_eq_zero_iff.mpr empty))
      · by_contra other
        exact email (Or.inl other)

/-- A renewal is forced when it asks for it. -/
theorem renewArguments_forced {request : RenewRequest} {arguments : List String}
    (h : renewArguments c p request = .ok arguments) :
    validateDomain request.primaryDomain = .ok () ∧
      ("--force" ∈ arguments ↔ request.force = true) := by
  obtain ⟨server, key, valid, built, typed, rfl⟩ := renewArguments_ok c p h
  have start : Unforced ["--renew", "-d", request.primaryDomain] := by
    simp only [unforced_cons, unforced_nil, and_true]
    exact ⟨by decide, by decide, ne_force_of_domain valid⟩
  have unforced := (((unforced_base c).append start).append
    (serverArguments_unforced p built)).append (keyArguments_unforced typed)
  refine ⟨valid, ?_⟩
  constructor
  · intro there
    rcases List.mem_append.mp there with there | there
    · exact absurd rfl (unforced _ there)
    · by_contra free
      rw [if_neg free] at there
      cases there
  · intro force
    rw [if_pos force]
    exact List.mem_append_right _ List.mem_cons_self

theorem challengeArguments_unforced {request : IssueRequest} {arguments : List String}
    (h : challengeArguments c request = .ok arguments) : Unforced arguments := by
  unfold challengeArguments at h
  split at h
  · split at h
    · cases h
    · rename_i provider
      split at h
      · cases h
      · cases h
        simp only [unforced_cons, unforced_nil, and_true]
        exact ⟨by decide, ne_force_of_provider provider⟩
  · split at h
    · cases h
    · cases h
      simp only [unforced_cons, unforced_nil, and_true]
      exact ⟨by decide, ne_force_of_head c.challenge_absolute (by decide)⟩
  · cases h

theorem issueArguments_unforced {request : IssueRequest} {arguments : List String}
    (h : issueArguments c p request = .ok arguments) :
    validateDomain request.primaryDomain = .ok () ∧ Unforced arguments := by
  obtain ⟨server, length, challenge, valid, -, ca, address, domains, key, method, rfl⟩ :=
    issueArguments_ok c p h
  have account : request.email ≠ "--force" := by
    intro same
    have there := p.address_at _ _ address
    rw [same] at there
    exact absurd there (by decide)
  refine ⟨valid, ((((unforced_base c).append ?_).append ?_).append ?_).append
    (challengeArguments_unforced c method)⟩
  · simp only [unforced_cons, unforced_nil, and_true]
    exact ⟨by decide, by decide, ne_force_of_server ca, by decide, account⟩
  · intro argument there
    obtain ⟨domain, mem, pair⟩ := List.mem_flatMap.mp there
    rcases List.mem_cons.mp pair with rfl | last
    · decide
    · cases List.mem_singleton.mp last
      exact ne_force_of_domains domains _ mem
  · simp only [unforced_cons, unforced_nil, and_true]
    exact ⟨by decide, ne_force_of_length key⟩

/-- Only a renewal that asks for it runs `acme.sh` with `--force`. -/
theorem starts_forced {e : Eff} {arguments : List String} (h : Starts c p e arguments)
    (forced : "--force" ∈ arguments) :
    ∃ id request, e = .renewACME id request ∧ request.force = true := by
  cases h with
  | issue built => exact absurd rfl ((issueArguments_unforced c p built).2 _ forced)
  | issueInstall built =>
    exact absurd rfl (unforced_install c (issueArguments_unforced c p built).1 _ _ _ forced)
  | renew built => exact ⟨_, _, rfl, (renewArguments_forced c p built).2.mp forced⟩
  | renewInstall built =>
    exact absurd rfl (unforced_install c (renewArguments_forced c p built).1 _ _ _ forced)
  | revoke built => exact absurd rfl (revokeArguments_unforced c built _ forced)

end Force

end AcmeEngine
