import CertMate.AcmeEngine

/-!
# HTTP-01 challenge files

`internal/httpapi/challenge.go` and its routes, and the directory that
`internal/app/app.go` hands both to them and to the engine. What is on the disk is
read by clean paths.
-/
namespace ChallengeFiles
open CertificateModel ServiceWorld
open AcmeEngine (CLI Parsers issueArguments challengeArguments bind_ok join)

/-- What `os.Lstat` finds; a regular file with what opening it reads. -/
inductive Entry where
  | dir
  | link
  | file (content : Bytes)
  | other
  deriving DecidableEq, Repr

abbrev Disk := String → Option Entry

/-- The part of the configuration that `app.New` takes both sides from. -/
structure Config where
  acmeHome : String
  acmeChallengeDir : String
  home_absolute : acmeHome.toList.head? = some '/'
  challenge_absolute : acmeChallengeDir.toList.head? = some '/'

def Config.newCLI (cfg : Config) : CLI where
  acmeHome := cfg.acmeHome
  challengeDir := cfg.acmeChallengeDir
  home_absolute := cfg.home_absolute
  challenge_absolute := cfg.challenge_absolute

/-- Anything but a page that is not found is the content of a file. -/
inductive Reply where
  | content (value : Bytes)
  | notFound
  deriving DecidableEq, Repr

def tokenRune (c : Char) : Bool :=
  ('A' ≤ c && c ≤ 'Z') || ('a' ≤ c && c ≤ 'z') || ('0' ≤ c && c ≤ '9') || c == '_' || c == '-'

/-- `^[A-Za-z0-9_-]{1,128}$`. -/
def challengeTokenPattern (token : String) : Bool :=
  decide (1 ≤ token.toList.length) && decide (token.toList.length ≤ 128) &&
    token.toList.all tokenRune

section Routes
variable (cfg : Config) (disk : Disk)

def acmeHTTPChallenge (token : String) : Reply :=
  if !challengeTokenPattern token then .notFound
  else
    match disk cfg.acmeChallengeDir with
    | some .dir =>
      match disk (join cfg.acmeChallengeDir token) with
      | some (.file content) => .content content
      | _ => .notFound
    | _ => .notFound

/-- A GET below `/.well-known/acme-challenge/`: the first route takes one segment,
the second whatever is left. -/
def challengeRoute (rest : String) : Reply :=
  if rest ≠ "" ∧ '/' ∉ rest.toList then acmeHTTPChallenge cfg disk rest else .notFound

end Routes

/-- What `acme.sh` does to the disk when it answers a challenge in webroot mode: the
response is below `.well-known`, and nothing else in the webroot changes. -/
structure Responds (webroot token : String) (content : Bytes) (before after : Disk) : Prop where
  written : after (join webroot (".well-known/acme-challenge/" ++ token)) = some (.file content)
  root : after webroot = before webroot
  beside : ∀ name, '/' ∉ name.toList → name ≠ ".well-known" →
    after (join webroot name) = before (join webroot name)

theorem pattern_iff {token : String} : challengeTokenPattern token = true ↔
    1 ≤ token.toList.length ∧ token.toList.length ≤ 128 ∧ ∀ c ∈ token.toList, tokenRune c = true := by
  simp [challengeTokenPattern, and_assoc]

/-- A token is a segment of its own and not the name of the directory below. -/
theorem plain_of_pattern {token : String} (h : challengeTokenPattern token = true) :
    token ≠ "" ∧ '/' ∉ token.toList ∧ token ≠ ".well-known" := by
  obtain ⟨some, -, runes⟩ := pattern_iff.mp h
  refine ⟨?_, fun slash => absurd (runes _ slash) (by decide), ?_⟩
  · rintro rfl
    exact absurd some (by decide)
  · rintro rfl
    exact absurd (runes '.' (by decide)) (by decide)

section Served
variable {cfg : Config} {disk : Disk}

/-- Only a token is served, and only out of the challenge directory itself. -/
theorem challengeRoute_content_iff {rest : String} {content : Bytes} :
    challengeRoute cfg disk rest = .content content ↔
      challengeTokenPattern rest = true ∧ disk cfg.acmeChallengeDir = some .dir ∧
        disk (join cfg.acmeChallengeDir rest) = some (.file content) := by
  unfold challengeRoute acmeHTTPChallenge
  constructor
  · intro h
    split at h
    · split at h
      · cases h
      · rename_i token
        split at h
        · rename_i root
          split at h
          · rename_i found
            cases h
            exact ⟨by simpa using token, root, found⟩
          · cases h
        · cases h
    · cases h
  · rintro ⟨token, root, found⟩
    obtain ⟨some, segment, -⟩ := plain_of_pattern token
    rw [if_pos ⟨some, segment⟩, if_neg (by simp [token]), root]
    simp only [found]

theorem challengeRoute_notFound_iff {rest : String} :
    challengeRoute cfg disk rest = .notFound ↔
      ∀ content, challengeRoute cfg disk rest ≠ .content content := by
  cases challengeRoute cfg disk rest with
  | content value => exact ⟨(fun h => nomatch h), fun h => absurd rfl (h value)⟩
  | notFound => exact ⟨(fun _ _ h => nomatch h), fun _ => rfl⟩

end Served

/-- The webroot that an HTTP-01 issue is started with is the challenge directory. -/
theorem webroot_of_issue {c : CLI} {p : Parsers} {request : IssueRequest} {arguments : List String}
    (built : issueArguments c p request = .ok arguments) (http : request.challengeType = "http-01")
    {webroot : String} (started : ["--webroot", webroot] <:+ arguments) :
    webroot = c.challengeDir := by
  obtain ⟨_, -, built⟩ := bind_ok built
  split at built
  · cases built
  · obtain ⟨server, -, built⟩ := bind_ok built
    split at built
    · cases built
    · obtain ⟨_, -, built⟩ := bind_ok built
      obtain ⟨length, -, built⟩ := bind_ok built
      obtain ⟨challenge, method, built⟩ := bind_ok built
      cases built
      unfold challengeArguments at method
      rw [http] at method
      simp only at method
      split at method
      · cases method
      · cases method
        obtain ⟨front, same⟩ := started
        obtain ⟨-, tail⟩ := List.append_inj' same rfl
        simpa using tail

/-- After an HTTP-01 issue has written the response to a token, exactly the response
is served and nothing else, if and only if it had been in the challenge directory
itself before, alone among the names of tokens. -/
theorem challenge_served_iff (cfg : Config) (p : Parsers) {request : IssueRequest}
    {arguments : List String} (built : issueArguments cfg.newCLI p request = .ok arguments)
    (http : request.challengeType = "http-01") {webroot : String}
    (started : ["--webroot", webroot] <:+ arguments) {token : String}
    (pattern : challengeTokenPattern token = true) {content : Bytes} {before after : Disk}
    (responds : Responds webroot token content before after) :
    (challengeRoute cfg after token = .content content ∧
        ∀ rest, rest ≠ token → challengeRoute cfg after rest = .notFound) ↔
      before cfg.acmeChallengeDir = some .dir ∧
        before (join cfg.acmeChallengeDir token) = some (.file content) ∧
        ∀ other, other ≠ token → challengeTokenPattern other = true →
          ∀ content', before (join cfg.acmeChallengeDir other) ≠ some (.file content') := by
  obtain rfl : webroot = cfg.acmeChallengeDir := webroot_of_issue built http started
  have same : ∀ name, challengeTokenPattern name = true →
      after (join cfg.acmeChallengeDir name) = before (join cfg.acmeChallengeDir name) := by
    intro name token
    obtain ⟨-, segment, away⟩ := plain_of_pattern token
    exact responds.beside name segment away
  rw [challengeRoute_content_iff, responds.root, same token pattern]
  constructor
  · rintro ⟨⟨-, root, found⟩, rest⟩
    refine ⟨root, found, fun other away token content' there => ?_⟩
    have nothing := challengeRoute_notFound_iff.mp (rest other away) content'
    refine nothing (challengeRoute_content_iff.mpr ⟨token, responds.root.trans root, ?_⟩)
    rw [same other token]
    exact there
  · rintro ⟨root, found, alone⟩
    refine ⟨⟨pattern, root, found⟩, fun rest away => ?_⟩
    refine challengeRoute_notFound_iff.mpr fun content' served => ?_
    obtain ⟨token, -, there⟩ := challengeRoute_content_iff.mp served
    rw [same rest token] at there
    exact alone rest away token content' there

def sampleConfig : Config := ⟨"/data/acme", "/data/challenges", AcmeEngine.dataCLI.home_absolute, rfl⟩

def sampleParsers : Parsers := AcmeEngine.plainParsers

def sampleOrder : IssueRequest where
  certificateID := 0
  primaryDomain := "example.org"
  domains := ["example.org"]
  keyType := "ec-256"
  challengeType := "http-01"
  dnsProvider := ""
  dnsVariables := []
  caDirectory := "letsencrypt"
  email := "admin@example.org"

def emptyDisk : Disk := fun path => if path = "/data/challenges" then some .dir else none

/-- The directories below `.well-known`, and the response. -/
def respondedDisk : Disk := fun path =>
  if path = "/data/challenges/.well-known/acme-challenge/token-1" then some (.file [114, 49])
  else if path = "/data/challenges/.well-known" ∨
      path = "/data/challenges/.well-known/acme-challenge" then some .dir
  else emptyDisk path

theorem join_inj {directory name name' : String} (h : join directory name = join directory name') :
    name = name' := by
  have lists := congrArg String.toList h
  simpa [join, String.toList_inj] using lists

theorem sample_responds : Responds "/data/challenges" "token-1" [114, 49] emptyDisk respondedDisk where
  written := by decide
  root := by decide
  beside name segment away := by
    have apart : ∀ below path : String, join "/data/challenges" below = path →
        '/' ∈ below.toList ∨ below = ".well-known" → join "/data/challenges" name ≠ path := by
      rintro below _ rfl nested same
      rcases nested with slash | dot
      · exact segment (join_inj same ▸ slash)
      · exact away ((join_inj same).trans dot)
    unfold respondedDisk
    rw [if_neg (apart ".well-known/acme-challenge/token-1" _ (by decide) (by decide)), if_neg]
    rintro (same | same)
    · exact apart ".well-known" _ (by decide) (by decide) same
    · exact apart ".well-known/acme-challenge" _ (by decide) (by decide) same

theorem sample_built : issueArguments sampleConfig.newCLI sampleParsers sampleOrder =
    .ok ["--config-home", "/data/acme", "--cert-home", "/data/acme/certs", "--issue", "--server",
      "letsencrypt", "--accountemail", "admin@example.org", "-d", "example.org", "--keylength",
      "ec-256", "--webroot", "/data/challenges"] := by
  decide +kernel

theorem challenge_served_iff_sample :
    (challengeRoute sampleConfig respondedDisk "token-1" = .content [114, 49] ∧
        ∀ rest, rest ≠ "token-1" → challengeRoute sampleConfig respondedDisk rest = .notFound) ↔
      emptyDisk "/data/challenges" = some .dir ∧
        emptyDisk (join "/data/challenges" "token-1") = some (.file [114, 49]) ∧
        ∀ other, other ≠ "token-1" → challengeTokenPattern other = true →
          ∀ content', emptyDisk (join "/data/challenges" other) ≠ some (.file content') :=
  challenge_served_iff sampleConfig sampleParsers sample_built rfl
    (by decide) (by decide) sample_responds

/-- The issue is started with the challenge directory, and the response that `acme.sh`
has written is not found. -/
theorem challenge_not_found :
    (∃ arguments, issueArguments sampleConfig.newCLI sampleParsers sampleOrder = .ok arguments ∧
      ["--webroot", "/data/challenges"] <:+ arguments) ∧
      Responds "/data/challenges" "token-1" [114, 49] emptyDisk respondedDisk ∧
      challengeRoute sampleConfig respondedDisk "token-1" = .notFound := by
  refine ⟨⟨_, sample_built, by decide⟩, sample_responds, ?_⟩
  decide +kernel

end ChallengeFiles
