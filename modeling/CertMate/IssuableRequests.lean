import CertMate.NormalizedDomains
import CertMate.ServicePool

/-!
# What a creation stores and what the engine can issue

`CreateACME` and the argument builder of the engine check the same request in
two packages. They agree on the names of domains and on key types; the CA, the
e-mail address, the number of domains, wildcards under HTTP-01 and the variables
of a credential are checked by the engine alone.
-/
namespace IssuableRequests
open CertificateModel DomainValidation CallTrees ServiceWorld CertificateService AcmeEngine
  ServiceSteps
open SqliteStore hiding exec
open CredentialModel (validateCustomProviderCode)
open DomainNames (validateDomain_iff engine_validateDomain_iff)
open NormalizedDomains (normalizeDomains_iff)

/-- A name that a request may have is one the engine takes. -/
theorem validateDomain_agree {domain : String} {allowWildcard : Bool}
    (h : DomainValidation.validateDomain domain allowWildcard = .ok ()) :
    AcmeEngine.validateDomain domain = .ok () :=
  engine_validateDomain_iff.mpr (validateDomain_iff.mp h).1

theorem validateDomains_ok_iff {domains : List String} :
    validateDomains domains = .ok () ↔ ∀ d ∈ domains, AcmeEngine.validateDomain d = .ok () := by
  induction domains with
  | nil => simp [validateDomains]
  | cons domain rest ih =>
    rw [List.forall_mem_cons, validateDomains]
    cases AcmeEngine.validateDomain domain with
    | error err => simp
    | ok => simp [ih]

/-- The normalized names of a request are ones the engine takes. -/
theorem normalizeDomains_agree {primaryDomain primary : String} {sans domains : List String}
    (h : normalizeDomains primaryDomain sans = .ok (primary, domains)) :
    AcmeEngine.validateDomain primary = .ok () ∧ validateDomains domains = .ok () ∧
      domains.length ≠ 0 := by
  have normalized := normalizeDomains_iff.mp h
  have valid := normalized.valid_domains
  obtain ⟨rest, rfl, -, -⟩ := normalized.rest
  refine ⟨validateDomain_agree (valid primary List.mem_cons_self), ?_, ?_⟩
  · exact validateDomains_ok_iff.mpr fun d there => validateDomain_agree (valid d there)
  · rw [List.length_cons]
    omega

section Builder
variable (c : CLI) (p : Parsers)

theorem issueArguments_ok_iff (order : IssueRequest) :
    (∃ arguments, issueArguments c p order = .ok arguments) ↔
      AcmeEngine.validateDomain order.primaryDomain = .ok () ∧
      (order.domains.length ≠ 0 ∧ order.domains.length ≤ 100) ∧
      (∃ server, validateCA p order.caDirectory = .ok server) ∧
      (p.address order.email = some order.email ∧ unsafeEmail order.email = false) ∧
      validateDomains order.domains = .ok () ∧ (∃ length, keyLength order.keyType = .ok length) ∧
      ∃ challenge, challengeArguments c order = .ok challenge := by
  constructor
  · rintro ⟨arguments, h⟩
    obtain ⟨_, primary, h⟩ := bind_ok h
    split at h
    · cases h
    · rename_i number
      obtain ⟨server, ca, h⟩ := bind_ok h
      split at h
      · cases h
      · rename_i email
        obtain ⟨_, domains, h⟩ := bind_ok h
        obtain ⟨length, key, h⟩ := bind_ok h
        obtain ⟨challenge, method, h⟩ := bind_ok h
        refine ⟨primary, by omega, ⟨server, ca⟩, ⟨?_, ?_⟩, domains, ⟨length, key⟩, challenge, method⟩
        · exact by_contra fun other => email (Or.inl other)
        · exact Bool.eq_false_iff.mpr fun other => email (Or.inr other)
  · rintro ⟨primary, number, ⟨server, ca⟩, ⟨address, safe⟩, domains, ⟨length, key⟩, challenge, method⟩
    have filled : ¬ (order.domains.length = 0 ∨ 100 < order.domains.length) := by omega
    have email : ¬ (p.address order.email ≠ some order.email ∨ unsafeEmail order.email = true) := by
      simp [address, safe]
    simp only [issueArguments, primary, ca, domains, key, method, if_neg filled, if_neg email]
    exact ⟨_, rfl⟩

/-- One of the CAs with a name, or an HTTPS URL with a host and nothing hidden. -/
def KnownCA (value : String) : Prop :=
  value = "letsencrypt" ∨ value = "letsencrypt_test" ∨ value = "zerossl" ∨
    ∃ u, p.url value = some u ∧ u.scheme = "https" ∧ u.host ≠ "" ∧ u.user = false ∧ u.fragment = ""

theorem validateCA_ok_iff (value : String) :
    (∃ server, validateCA p value = .ok server) ↔ KnownCA p value := by
  unfold validateCA KnownCA
  split
  · rename_i named
    exact ⟨fun _ => by tauto, fun _ => ⟨value, rfl⟩⟩
  · rename_i unnamed
    cases p.url value with
    | none =>
      constructor
      · rintro ⟨server, ⟨⟩⟩
      · rintro (h | h | h | ⟨u, ⟨⟩, -⟩) <;> exact absurd h (by tauto)
    | some parsed =>
      simp only
      split
      · rename_i refused
        constructor
        · rintro ⟨server, ⟨⟩⟩
        · rintro (h | h | h | ⟨u, ⟨⟩, scheme, host, user, fragment⟩)
          · exact absurd h (by tauto)
          · exact absurd h (by tauto)
          · exact absurd h (by tauto)
          · simp [scheme, host, user, fragment] at refused
      · rename_i fits
        push Not at fits
        obtain ⟨scheme, host, user, fragment⟩ := fits
        exact ⟨fun _ => Or.inr (Or.inr (Or.inr ⟨parsed, rfl, scheme, host, by simpa using user,
          fragment⟩)), fun _ => ⟨_, rfl⟩⟩

theorem keyLength_of_supported {keyType : String} (h : supportedKeyType keyType = true) :
    ∃ length, keyLength keyType = .ok length := by
  simp only [supportedKeyType, Bool.or_eq_true, decide_eq_true_eq] at h
  rcases h with (rfl | rfl) | rfl
  · exact ⟨_, rfl⟩
  · exact ⟨_, rfl⟩
  · exact ⟨_, rfl⟩

/-- What the challenge asks of the domains and of the values of the credential. -/
def Challenged (challengeType : String) (domains : List String) (values : ProcessValues) : Prop :=
  (challengeType = "dns-01" → validateCustomProviderCode values.acmeDNSCode = .ok () ∧
    values.environment ≠ []) ∧
  (challengeType = "http-01" → ∀ domain ∈ domains, isWildcard domain = false)

theorem challengeArguments_ok_iff {order : IssueRequest} {values : ProcessValues}
    (known : order.challengeType = "dns-01" ∨ order.challengeType = "http-01")
    (code : order.dnsProvider = values.acmeDNSCode)
    (environment : order.dnsVariables = values.environment) :
    (∃ challenge, challengeArguments c order = .ok challenge) ↔
      Challenged order.challengeType order.domains values := by
  unfold challengeArguments Challenged
  rw [code, environment]
  rcases known with dns | http
  · rw [dns]
    cases validateCustomProviderCode values.acmeDNSCode with
    | error err => simp
    | ok => cases values.environment <;> simp
  · rw [http]
    cases wild : order.domains.any isWildcard with
    | true =>
      have some : ∃ domain ∈ order.domains, isWildcard domain = true := by simpa using wild
      obtain ⟨domain, there, is⟩ := some
      constructor
      · rintro ⟨challenge, ⟨⟩⟩
      · rintro ⟨-, all⟩
        exact absurd is (by rw [all rfl domain there]; decide)
    | false =>
      have none : ∀ domain ∈ order.domains, isWildcard domain = false := by simpa using wild
      exact ⟨fun _ => ⟨(fun other => absurd other (by decide)), fun _ => none⟩, fun _ => ⟨_, rfl⟩⟩

end Builder

section Creation
variable {env : Environment} {thread : Nat} {s : Service} {w : World}

theorem next_absent (db : Db) : db.row db.certificates.next = none := by
  cases found : db.row db.certificates.next with
  | none => rfl
  | some c => exact absurd (Db.lt_next_of_row found) (Nat.lt_irrefl _)

/-- A record that a creation leaves has the terms of the value it was given. -/
theorem issueCreated_terms {value : Certificate} {jobType : JobType}
    {engine : Certificate → Operation Obtained} {detail : List (String × Detail)}
    {actor clientIP : String} {row : Certificate}
    (h : (run (exec env thread) (issueCreated value jobType engine detail actor clientIP) w).2.db.row
      w.db.certificates.next = some row) :
    ∃ createdAt, row.terms = { value with createdAt := createdAt }.terms := by
  unfold issueCreated at h
  rw [Prog.perform_bind, run_call] at h
  generalize answered : exec env thread (.store (.createCertificate value)) w = after at h
  have answer : (SqliteStore.exec env.backend (.createCertificate value) w.db).1 = after.1 := by
    rw [← answered]
    rfl
  have state : (SqliteStore.exec env.backend (.createCertificate value) w.db).2 = after.2.db := by
    rw [← answered]
    rfl
  cases made : after.1 with
  | error err =>
    rw [made] at answer h
    have unchanged : after.2.db = w.db.tick := by rw [← state, exec_error answer]
    dsimp only at h
    rw [Prog.pure_eq, run_ret, unchanged, Db.row_tick, next_absent] at h
    cases h
  | ok v =>
    rw [made] at answer h
    obtain ⟨-, inserted, next, -⟩ := createCertificate_ok answer
    rw [state] at inserted next
    have older : w.db.certificates.next < after.2.db.certificates.next := by omega
    obtain ⟨c, there, same⟩ := run_terms _ after.2 older h
    rw [inserted] at there
    cases there
    exact ⟨(newRow (env.backend.clock w.db.calls) value w.db.certificates.next).createdAt, same⟩

theorem challengeValues_db (challengeType dnsCredentialID : String) :
    (run (exec env thread) (challengeValues s challengeType dnsCredentialID) w).2.db = w.db := by
  unfold challengeValues
  split
  · split
    · rfl
    · rfl
  · split
    · rfl
    · rfl

theorem challengeValues_known {challengeType dnsCredentialID : String} {values : ProcessValues}
    (h : (run (exec env thread) (challengeValues s challengeType dnsCredentialID) w).1 =
      .ok values) : challengeType = "dns-01" ∨ challengeType = "http-01" := by
  unfold challengeValues at h
  split at h
  · rename_i dns
    exact Or.inl dns
  · split at h
    · rename_i http
      exact Or.inr http
    · cases h

/-- What `CreateACME` has checked of a request whose record it has inserted. -/
structure Stored (env : Environment) (thread : Nat) (s : Service) (w : World)
    (request : CreateACMERequest) (row : Certificate) (values : ProcessValues) : Prop where
  resolved : (run (exec env thread) (challengeValues s request.challengeType
    request.dnsCredentialID) w).1 = .ok values
  normalized : normalizeDomains request.primaryDomain request.sans =
    .ok (row.primaryDomain, row.domains)
  supported : supportedKeyType row.keyType = true
  keyType : row.keyType = request.keyType
  challengeType : row.challengeType = request.challengeType
  caDirectoryURL : row.caDirectoryURL = request.caDirectoryURL
  acmeEmail : row.acmeEmail = request.acmeEmail

-- A goal about a program is otherwise reduced as far as the texts in it go.
attribute [local irreducible] trimSpace normalizeDomains

theorem createACME_stored {request : CreateACMERequest} {actor clientIP : String}
    {row : Certificate}
    (inserted : (run (exec env thread) (createACME s request actor clientIP) w).2.db.row
      w.db.certificates.next = some row) :
    ∃ values, Stored env thread s w request row values := by
  have none : ∀ w' : World, w'.db = w.db → w'.db.row w.db.certificates.next ≠ some row := by
    intro w' same there
    rw [same, next_absent] at there
    cases there
  unfold createACME at inserted
  split at inserted
  · exact absurd inserted (none _ rfl)
  · split at inserted
    · exact absurd inserted (none _ rfl)
    · rename_i name primary domains directory normal
      split at inserted
      · exact absurd inserted (none _ rfl)
      · split at inserted
        · exact absurd inserted (none _ rfl)
        · rename_i supported
          rw [run_bind] at inserted
          have same : (run (exec env thread) (challengeValues s request.challengeType
              request.dnsCredentialID) w).2.db = w.db := challengeValues_db _ _
          cases answer : (run (exec env thread) (challengeValues s request.challengeType
              request.dnsCredentialID) w).1 with
          | error err =>
            rw [answer] at inserted
            exact absurd inserted (none _ same)
          | ok values =>
            rw [answer, ← same] at inserted
            obtain ⟨createdAt, terms⟩ := issueCreated_terms inserted
            refine ⟨values, answer, ?_, ?_, ?_, ?_, ?_, ?_⟩
            · have domains : row.domains = domains := congrArg Terms.domains terms
              have primary : row.primaryDomain = primary := congrArg Terms.primaryDomain terms
              rw [domains, primary]
              exact (normalizeRequest_ok normal).1
            · have key : row.keyType = request.keyType := congrArg Terms.keyType terms
              rw [key]
              simpa using supported
            · exact congrArg Terms.keyType terms
            · exact congrArg Terms.challengeType terms
            · exact congrArg Terms.caDirectoryURL terms
            · exact congrArg Terms.acmeEmail terms

end Creation

/-- What the engine wants of a request beyond what `CreateACME` checks. -/
structure Issuable (p : Parsers) (request : CreateACMERequest) (domains : List String)
    (values : ProcessValues) : Prop where
  ca : KnownCA p request.caDirectoryURL
  email : p.address request.acmeEmail = some request.acmeEmail ∧
    unsafeEmail request.acmeEmail = false
  number : domains.length ≤ 100
  challenge : Challenged request.challengeType domains values

/-- For every record that `CreateACME` inserts, the arguments of its issue request can
be built exactly if the request is one that the engine wants. -/
theorem created_issuable_iff (c : CLI) (p : Parsers) (env : Environment) (thread : Nat)
    (s : Service) (request : CreateACMERequest) (actor clientIP : String) (w : World)
    {row : Certificate}
    (inserted : (run (exec env thread) (createACME s request actor clientIP) w).2.db.row
      w.db.certificates.next = some row) :
    ∃ domains values,
      normalizeDomains request.primaryDomain request.sans = .ok (row.primaryDomain, domains) ∧
      (run (exec env thread) (challengeValues s request.challengeType request.dnsCredentialID) w).1 =
        .ok values ∧
      ((∃ arguments, issueArguments c p (issueRequest row values) = .ok arguments) ↔
        Issuable p request domains values) := by
  obtain ⟨values, stored⟩ := createACME_stored inserted
  obtain ⟨primary, names, some⟩ := normalizeDomains_agree stored.normalized
  refine ⟨row.domains, values, stored.normalized, stored.resolved, ?_⟩
  have known : (issueRequest row values).challengeType = "dns-01" ∨
      (issueRequest row values).challengeType = "http-01" := by
    rw [issueRequest, stored.challengeType]
    exact challengeValues_known stored.resolved
  have challenged : (∃ challenge, challengeArguments c (issueRequest row values) = .ok challenge) ↔
      Challenged row.challengeType row.domains values :=
    challengeArguments_ok_iff c known rfl rfl
  rw [issueArguments_ok_iff, challenged, validateCA_ok_iff]
  simp only [issueRequest, stored.challengeType, stored.caDirectoryURL, stored.acmeEmail]
  constructor
  · rintro ⟨-, ⟨-, number⟩, ca, email, -, -, challenge⟩
    exact ⟨ca, email, number, challenge⟩
  · rintro ⟨ca, email, number, challenge⟩
    exact ⟨primary, ⟨some, number⟩, ca, email, names, keyLength_of_supported stored.supported,
      challenge⟩

/-- A wildcard that is to be proved over HTTP. -/
def wildcardRequest : CreateACMERequest where
  name := "wildcard"
  primaryDomain := "example.org"
  sans := ["*.example.org"]
  keyType := "ec-256"
  outputDirectory := ""
  autoRenewEnabled := true
  renewBeforeDays := 30
  createRenewedMarker := false
  challengeType := "http-01"
  dnsCredentialID := ""
  caDirectoryURL := "letsencrypt"
  acmeEmail := "admin@example.org"

def wildcardOrder : IssueRequest where
  certificateID := 1
  primaryDomain := "example.org"
  domains := ["example.org", "*.example.org"]
  keyType := "ec-256"
  challengeType := "http-01"
  dnsProvider := ""
  dnsVariables := []
  caDirectory := "letsencrypt"
  email := "admin@example.org"

def wildcardCLI : CLI := dataCLI

def wildcardParsers : Parsers := plainParsers

theorem wildcard_stored : ∃ row,
    (run (exec ServicePool.sampleEnvironment 0) (createACME ServicePool.sampleService wildcardRequest
      "admin" "") ServicePool.sampleWorld).2.db.row 1 = some row ∧
        issueRequest row noProcessValues = wildcardOrder := by
  have ordered : ((run (exec ServicePool.sampleEnvironment 0) (createACME ServicePool.sampleService
      wildcardRequest "admin" "") ServicePool.sampleWorld).2.db.row 1).map
        (fun row => issueRequest row noProcessValues) = some wildcardOrder := by
    decide +kernel
  exact Option.map_eq_some_iff.mp ordered

theorem wildcard_refused : ¬ ∃ arguments,
    issueArguments wildcardCLI wildcardParsers wildcardOrder = .ok arguments := by
  have refused : issueArguments wildcardCLI wildcardParsers wildcardOrder =
      .error (.new "HTTP-01 不支持通配符域名") := by
    decide +kernel
  rintro ⟨arguments, built⟩
  cases refused.symm.trans built

/-- Neither side holds of the wildcard. -/
theorem created_issuable_iff_wildcard : ∃ row domains,
    (run (exec ServicePool.sampleEnvironment 0) (createACME ServicePool.sampleService
      wildcardRequest "admin" "") ServicePool.sampleWorld).2.db.row 1 = some row ∧
    normalizeDomains wildcardRequest.primaryDomain wildcardRequest.sans =
      .ok (row.primaryDomain, domains) ∧
    (¬ ∃ arguments, issueArguments wildcardCLI wildcardParsers (issueRequest row noProcessValues) =
      .ok arguments) ∧
    ¬ Issuable wildcardParsers wildcardRequest domains noProcessValues := by
  obtain ⟨row, stored, ordered⟩ := wildcard_stored
  obtain ⟨domains, values, normalized, resolved, decided⟩ :=
    created_issuable_iff wildcardCLI wildcardParsers ServicePool.sampleEnvironment 0
      ServicePool.sampleService wildcardRequest "admin" "" ServicePool.sampleWorld stored
  -- Without dns-01 no values are looked up.
  obtain rfl : noProcessValues = values := Except.ok.inj resolved
  rw [ordered] at decided
  exact ⟨row, domains, stored, normalized, ordered ▸ wildcard_refused,
    fun issuable => wildcard_refused (decided.mpr issuable)⟩

/-- The record is there, and its issue request is one the engine refuses. -/
theorem wildcard_not_issuable :
    ¬ ∀ row, (run (exec ServicePool.sampleEnvironment 0) (createACME ServicePool.sampleService
        wildcardRequest "admin" "") ServicePool.sampleWorld).2.db.row 1 = some row →
      ∃ arguments, issueArguments wildcardCLI wildcardParsers (issueRequest row noProcessValues) =
        .ok arguments := by
  intro all
  obtain ⟨row, stored, ordered⟩ := wildcard_stored
  have built := all row stored
  rw [ordered] at built
  exact wildcard_refused built

end IssuableRequests
