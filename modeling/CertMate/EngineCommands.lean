import CertMate.AcmeEngine
import CertMate.CommandLines

/-!
# What the command lines of the engine say

The argument vectors of `internal/certificate/acmesh/engine.go`, read back as options
with their operands.
-/
namespace EngineCommands
open CertificateModel ServiceWorld AcmeEngine CommandLines
open CredentialModel (validateCustomProviderCode)

/-- The options of an issue command. -/
def issueGrammar : Grammar String where
  valued := ["--config-home", "--cert-home", "--server", "--accountemail", "-d", "--keylength",
    "--dns", "--webroot"]
  flags := ["--issue"]

section Commands
variable (c : CLI) (p : Parsers)

def baseSettings : List (Setting String) :=
  [.valued "--config-home" c.acmeHome, .valued "--cert-home" (join c.acmeHome "certs")]

def challengeSetting (request : IssueRequest) : Setting String :=
  if request.challengeType = "dns-01" then .valued "--dns" request.dnsProvider
  else .valued "--webroot" c.challengeDir

def issueSettings (request : IssueRequest) (server length : String) : List (Setting String) :=
  baseSettings c ++ [.flag "--issue", .valued "--server" server,
    .valued "--accountemail" request.email] ++ request.domains.map (.valued "-d") ++
    [.valued "--keylength" length] ++ [challengeSetting c request]

theorem challengeArguments_render {request : IssueRequest} {arguments : List String}
    (h : challengeArguments c request = .ok arguments) :
    arguments = render [challengeSetting c request] ∧
      (request.challengeType = "dns-01" ∨ request.challengeType = "http-01") := by
  unfold challengeArguments at h
  rw [challengeSetting]
  split at h
  · rename_i dns
    rw [if_pos dns]
    split at h
    · cases h
    · split at h
      · cases h
      · cases h
        exact ⟨rfl, Or.inl dns⟩
  · rename_i http
    have other : request.challengeType ≠ "dns-01" := by
      rw [http]
      decide
    rw [if_neg other]
    split at h
    · cases h
    · cases h
      exact ⟨rfl, Or.inr http⟩
  · cases h

theorem render_domains (domains : List String) :
    render (domains.map (.valued "-d")) = domains.flatMap fun domain => ["-d", domain] := by
  rw [render, List.flatMap_map]
  rfl

theorem issueArguments_render {request : IssueRequest} {arguments : List String}
    (h : issueArguments c p request = .ok arguments) :
    ∃ server length, validateCA p request.caDirectory = .ok server ∧
      keyLength request.keyType = .ok length ∧
      (request.challengeType = "dns-01" ∨ request.challengeType = "http-01") ∧
      arguments = render (issueSettings c request server length) := by
  obtain ⟨server, length, challenge, -, -, ca, -, -, key, method, rfl⟩ := issueArguments_ok c p h
  obtain ⟨rfl, known⟩ := challengeArguments_render c method
  refine ⟨server, length, ca, key, known, ?_⟩
  simp only [issueSettings, render_append, render_domains]
  rfl

theorem issueSettings_fit (request : IssueRequest) (server length : String) :
    ∀ setting ∈ issueSettings c request server length, issueGrammar.Fits setting := by
  have challenge : issueGrammar.Fits (challengeSetting c request) := by
    rw [challengeSetting]
    split
    · exact fits_valued.mpr (by decide)
    · exact fits_valued.mpr (by decide)
  simp only [issueSettings, baseSettings, List.forall_mem_append, List.forall_mem_cons,
    List.forall_mem_map, fits_valued, fits_flag, List.not_mem_nil, false_implies, implies_true,
    and_true]
  exact ⟨⟨⟨⟨⟨by decide, by decide⟩, by decide, by decide, by decide⟩, fun _ _ => by decide⟩,
    by decide⟩, challenge⟩

theorem challengeArguments_values (request : IssueRequest) {values values' : List (String × String)}
    (some_ : values ≠ []) (some_' : values' ≠ []) :
    challengeArguments c { request with dnsVariables := values } =
      challengeArguments c { request with dnsVariables := values' } := by
  simp only [challengeArguments, List.isEmpty_eq_false_iff.mpr some_,
    List.isEmpty_eq_false_iff.mpr some_']

/-- The command line of an issue request is read back as the request has it, whatever
the variables of the credential are. -/
theorem issueArguments_parse (request : IssueRequest) :
    (∀ arguments, issueArguments c p request = .ok arguments →
      ∃ server length, validateCA p request.caDirectory = .ok server ∧
        keyLength request.keyType = .ok length ∧
        (request.challengeType = "dns-01" ∨ request.challengeType = "http-01") ∧
        issueGrammar.parse arguments = some
          ([.valued "--config-home" c.acmeHome, .valued "--cert-home" (join c.acmeHome "certs"),
              .flag "--issue", .valued "--server" server, .valued "--accountemail" request.email] ++
            request.domains.map (.valued "-d") ++
            [.valued "--keylength" length] ++
            [if request.challengeType = "dns-01" then .valued "--dns" request.dnsProvider
              else .valued "--webroot" c.challengeDir])) ∧
      ∀ values values', values ≠ [] → values' ≠ [] →
        issueArguments c p { request with dnsVariables := values } =
          issueArguments c p { request with dnsVariables := values' } := by
  constructor
  · intro arguments h
    obtain ⟨server, length, ca, key, known, rfl⟩ := issueArguments_render c p h
    exact ⟨server, length, ca, key, known, parse_render (issueSettings_fit c request server length)⟩
  · intro values values' some_ some_'
    simp only [issueArguments, challengeArguments_values c request some_ some_']

end Commands

def dnsOrder : IssueRequest where
  certificateID := 1
  primaryDomain := "example.org"
  domains := ["example.org", "*.example.org"]
  keyType := "ec-256"
  challengeType := "dns-01"
  dnsProvider := "dns_cf"
  dnsVariables := [("CF_Token", "token")]
  caDirectory := "letsencrypt"
  email := "admin@example.org"

/-- A wildcard over DNS, with one token and with another. -/
theorem issueArguments_parse_wildcard :
    (∃ arguments, issueArguments dataCLI plainParsers dnsOrder = .ok arguments ∧
      issueGrammar.parse arguments = some
        [.valued "--config-home" "/data/acme", .valued "--cert-home" "/data/acme/certs",
          .flag "--issue", .valued "--server" "letsencrypt",
          .valued "--accountemail" "admin@example.org", .valued "-d" "example.org",
          .valued "-d" "*.example.org", .valued "--keylength" "ec-256",
          .valued "--dns" "dns_cf"]) ∧
      issueArguments dataCLI plainParsers dnsOrder =
        issueArguments dataCLI plainParsers
          { dnsOrder with dnsVariables := [("CF_Token", "another")] } := by
  obtain ⟨parsed, same⟩ := issueArguments_parse dataCLI plainParsers dnsOrder
  refine ⟨?_, same [("CF_Token", "token")] _ (by decide) (by decide)⟩
  have built : ((issueArguments dataCLI plainParsers dnsOrder).toOption).isSome = true := by
    decide +kernel
  cases made : issueArguments dataCLI plainParsers dnsOrder with
  | error err =>
    rw [made] at built
    cases built
  | ok arguments =>
    obtain ⟨server, length, ca, key, -, read⟩ := parsed arguments made
    refine ⟨arguments, rfl, ?_⟩
    obtain rfl : server = "letsencrypt" := by
      have known : validateCA plainParsers dnsOrder.caDirectory = .ok "letsencrypt" := by
        decide +kernel
      exact Except.ok.inj (ca.symm.trans known)
    obtain rfl : length = "ec-256" := Except.ok.inj (key.symm.trans rfl)
    rw [read]
    decide +kernel

/-- The options of all commands. -/
def engineGrammar : Grammar String where
  valued := issueGrammar.valued ++ ["--cert-file", "--ca-file", "--fullchain-file", "--key-file"]
  flags := ["--issue", "--renew", "--install-cert", "--revoke", "--ecc", "--force"]

/-- `ec-256`, `ec-384` and so on. -/
def ecLength (length : String) : Bool := "ec-".toList.isPrefixOf length.toList

/-- An issue command puts the certificate under its first domain, with the elliptic curve
keys if its key length is one of theirs. -/
def Files (arguments : List String) (domain : String) (ecc : Bool) : Prop :=
  ∃ settings length, engineGrammar.parse arguments = some settings ∧
    .flag "--issue" ∈ settings ∧ (values "-d" settings).head? = some domain ∧
    values "--keylength" settings = [length] ∧ (ecLength length ↔ ecc)

/-- Any other command has one domain, and `--ecc` if it is about an elliptic curve key. -/
def Addresses (arguments : List String) (domain : String) (ecc : Bool) : Prop :=
  ∃ settings, engineGrammar.parse arguments = some settings ∧
    .flag "--issue" ∉ settings ∧ values "-d" settings = [domain] ∧
    (.flag "--ecc" ∈ settings ↔ ecc)

/-- What may follow the domain. -/
structure Closing (settings : List (Setting String)) (ecc : Bool) : Prop where
  fits : ∀ setting ∈ settings, engineGrammar.Fits setting
  no_issue : .flag "--issue" ∉ settings
  no_domain : values "-d" settings = []
  ecc : .flag "--ecc" ∈ settings ↔ ecc

section Closings
variable {first second : List (Setting String)} {ecc : Bool}

theorem Closing.append (h : Closing first ecc) (h' : Closing second false) :
    Closing (first ++ second) ecc where
  fits := List.forall_mem_append.mpr ⟨h.fits, h'.fits⟩
  no_issue there := (List.mem_append.mp there).elim h.no_issue h'.no_issue
  no_domain := by rw [values_append, h.no_domain, h'.no_domain, List.append_nil]
  ecc := by
    rw [List.mem_append, h.ecc, h'.ecc]
    exact or_iff_left Bool.false_ne_true

theorem Closing.append_left (h : Closing first false) (h' : Closing second ecc) :
    Closing (first ++ second) ecc where
  fits := List.forall_mem_append.mpr ⟨h.fits, h'.fits⟩
  no_issue there := (List.mem_append.mp there).elim h.no_issue h'.no_issue
  no_domain := by rw [values_append, h.no_domain, h'.no_domain, List.append_nil]
  ecc := by
    rw [List.mem_append, h.ecc, h'.ecc]
    exact or_iff_right Bool.false_ne_true

theorem closing_nil : Closing [] false where
  fits _ there := nomatch there
  no_issue there := nomatch there
  no_domain := rfl
  ecc := iff_of_false (fun there => nomatch there) Bool.false_ne_true

def eccSettings (keyType : String) : List (Setting String) :=
  if isECC keyType then [.flag "--ecc"] else []

theorem closing_ecc (keyType : String) : Closing (eccSettings keyType) (isECC keyType) := by
  rw [eccSettings]
  cases isECC keyType with
  | false => exact closing_nil
  | true =>
    constructor
    · intro setting there
      cases List.mem_singleton.mp there
      exact fits_flag.mpr (by decide)
    · decide
    · rfl
    · exact iff_of_true List.mem_cons_self rfl

theorem closing_valued {name value : String} (known : name ∈ engineGrammar.valued)
    (other : name ≠ "-d") : Closing [.valued name value] false where
  fits setting there := by
    cases List.mem_singleton.mp there
    exact fits_valued.mpr known
  no_issue there := nomatch List.mem_singleton.mp there
  no_domain := by rw [values_valued, if_neg other]; rfl
  ecc := iff_of_false (fun there => nomatch List.mem_singleton.mp there) Bool.false_ne_true

theorem closing_flag {name : String} (known : engineGrammar.Fits (.flag name))
    (action : name ≠ "--issue") (other : name ≠ "--ecc") : Closing [.flag name] false where
  fits setting there := by
    cases List.mem_singleton.mp there
    exact known
  no_issue there := by
    cases List.mem_singleton.mp there
    exact action rfl
  no_domain := rfl
  ecc := by
    apply iff_of_false _ Bool.false_ne_true
    intro there
    cases List.mem_singleton.mp there
    exact other rfl

end Closings

section Entries
variable (c : CLI) (p : Parsers) {arguments : List String}

theorem closing_base : Closing (baseSettings c) false :=
  (closing_valued (by decide) (by decide)).append (closing_valued (by decide) (by decide))

theorem addresses_closing {action domain : String} {settings : List (Setting String)} {ecc : Bool}
    (known : engineGrammar.Fits (.flag action)) (later : action ≠ "--issue")
    (other : action ≠ "--ecc") (closing : Closing settings ecc) :
    Addresses (render (baseSettings c ++ [.flag action, .valued "-d" domain] ++ settings)) domain
      ecc := by
  have base := closing_base c
  refine ⟨_, parse_render ?_, ?_, ?_, ?_⟩
  · rw [List.forall_mem_append, List.forall_mem_append, List.forall_mem_cons,
      List.forall_mem_singleton, fits_valued]
    exact ⟨⟨base.fits, known, by decide⟩, closing.fits⟩
  · rw [List.mem_append, List.mem_append]
    rintro ((there | there) | there)
    · exact base.no_issue there
    · rcases List.mem_cons.mp there with same | there
      · exact later (Setting.flag.inj same).symm
      · cases List.mem_singleton.mp there
    · exact closing.no_issue there
  · rw [values_append, values_append, base.no_domain, closing.no_domain, values_flag,
      values_valued, if_pos rfl]
    rfl
  · rw [List.mem_append, List.mem_append, closing.ecc, base.ecc]
    apply or_iff_right
    rintro (never | there)
    · exact Bool.false_ne_true never
    · rcases List.mem_cons.mp there with same | there
      · exact other (Setting.flag.inj same).symm
      · cases List.mem_singleton.mp there

theorem render_ecc (keyType : String) : render (eccSettings keyType) = eccArguments keyType := by
  rw [eccSettings, eccArguments]
  split
  · rfl
  · rfl

theorem revoke_addresses {request : RevokeRequest}
    (h : revokeArguments c request = .ok arguments) :
    Addresses arguments request.primaryDomain (isECC request.keyType) := by
  obtain ⟨_, valid, h⟩ := bind_ok h
  cases h
  have known : engineGrammar.Fits (.flag "--revoke") := fits_flag.mpr (by decide)
  have made : Addresses _ request.primaryDomain _ :=
    addresses_closing c known (by decide) (by decide) (closing_ecc request.keyType)
  rw [render_append, render_append, render_ecc] at made
  exact made

theorem install_addresses (primaryDomain keyType tempDir : String) :
    Addresses (installArguments c primaryDomain keyType tempDir) primaryDomain (isECC keyType) := by
  have file : ∀ name value : String, name ∈ engineGrammar.valued → name ≠ "-d" →
      Closing [.valued name value] false := fun _ _ => closing_valued
  have cert := file "--cert-file" (join tempDir "cert.pem") (by decide) (by decide)
  have chain := file "--ca-file" (join tempDir "chain.pem") (by decide) (by decide)
  have fullchain := file "--fullchain-file" (join tempDir "fullchain.pem") (by decide) (by decide)
  have key := file "--key-file" (join tempDir "privkey.pem") (by decide) (by decide)
  have known : engineGrammar.Fits (.flag "--install-cert") := fits_flag.mpr (by decide)
  have closing := (closing_ecc keyType).append (((cert.append chain).append fullchain).append key)
  have made : Addresses _ primaryDomain _ :=
    addresses_closing c known (by decide) (by decide) closing
  rw [render_append, render_append, render_append, render_ecc, ← List.append_assoc] at made
  exact made

/-- The server of a renewal as an option, where there is one. -/
theorem closing_server {caDirectory : String} {server : List String}
    (h : serverArguments p caDirectory = .ok server) :
    ∃ settings, server = render settings ∧ Closing settings false := by
  unfold serverArguments at h
  split at h
  · cases h
    exact ⟨[], rfl, closing_nil⟩
  · cases found : validateCA p caDirectory with
    | error err =>
      rw [found] at h
      cases h
    | ok value =>
      rw [found] at h
      cases h
      exact ⟨[.valued "--server" value], rfl, closing_valued (by decide) (by decide)⟩

theorem keyArguments_ecc {keyType : String} {key : List String}
    (h : keyArguments keyType = .ok key) : key = render (eccSettings keyType) := by
  unfold keyArguments at h
  rw [render_ecc, eccArguments]
  split at h
  · rename_i ecc
    cases h
    rw [if_pos ecc]
  · rename_i rsa
    split at h
    · cases h
    · cases h
      rw [if_neg rsa]

theorem renew_addresses {request : RenewRequest}
    (h : renewArguments c p request = .ok arguments) :
    Addresses arguments request.primaryDomain (isECC request.keyType) := by
  obtain ⟨server, key, -, built, typed, rfl⟩ := renewArguments_ok c p h
  obtain ⟨serverSettings, rfl, closing⟩ := closing_server p built
  cases keyArguments_ecc typed
  have force : ∃ settings, (if request.force then ["--force"] else []) = render settings ∧
      Closing settings false := by
    cases request.force with
    | false => exact ⟨[], rfl, closing_nil⟩
    | true =>
      exact ⟨[.flag "--force"], rfl,
        closing_flag (fits_flag.mpr (by decide)) (by decide) (by decide)⟩
  obtain ⟨forceSettings, forced, closing'⟩ := force
  have known : engineGrammar.Fits (.flag "--renew") := fits_flag.mpr (by decide)
  have closing := (closing.append_left (closing_ecc request.keyType)).append closing'
  have made : Addresses _ request.primaryDomain _ :=
    addresses_closing c known (by decide) (by decide) closing
  rw [render_append, render_append, render_append, render_append, ← List.append_assoc,
    ← List.append_assoc, ← forced] at made
  exact made

theorem engineGrammar_fits {setting : Setting String} (h : issueGrammar.Fits setting) :
    engineGrammar.Fits setting := by
  cases setting with
  | flag name =>
    cases List.mem_singleton.mp h.1
    exact fits_flag.mpr (by decide)
  | valued name value => exact List.mem_append_left _ h

theorem ecLength_iff {keyType length : String} (h : keyLength keyType = .ok length) :
    ecLength length ↔ isECC keyType := by
  unfold keyLength at h
  split at h
  · cases h; decide
  · cases h; decide
  · cases h; decide
  · cases h

/-- An issue command has the domains of the request and a length of its key type. -/
theorem issue_files {request : IssueRequest} (h : issueArguments c p request = .ok arguments)
    {domain : String} (first : request.domains.head? = some domain) :
    Files arguments domain (isECC request.keyType) := by
  obtain ⟨server, length, -, key, -, rfl⟩ := issueArguments_render c p h
  have challenge : ∀ name, name ≠ "--dns" → name ≠ "--webroot" →
      values name [challengeSetting c request] = [] := by
    intro name dns webroot
    rw [challengeSetting]
    split
    · rw [values_valued, if_neg dns.symm, values_nil]
    · rw [values_valued, if_neg webroot.symm, values_nil]
  have domains : values "--keylength" (request.domains.map (.valued "-d")) = [] :=
    values_map_other (by decide) _
  have base := (closing_base c).no_domain
  refine ⟨issueSettings c request server length, length, parse_render ?_, ?_, ?_, ?_,
    ecLength_iff key⟩
  · intro setting there
    exact engineGrammar_fits (issueSettings_fit c request server length setting there)
  · simp [issueSettings]
  · simp only [issueSettings, values_append, values_map, base,
      challenge "-d" (by decide) (by decide)]
    simp [values_valued, first]
  · simp only [issueSettings, baseSettings, values_append, domains,
      challenge "--keylength" (by decide) (by decide)]
    simp [values_valued]

end Entries

end EngineCommands
