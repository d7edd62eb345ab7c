import CertMate.ServicePool

/-!
# What the creating methods store

`CreateSelfSigned` and `CreateACME` fill in some fields of a certificate and leave
the others as they are. Nothing else is ever inserted.
-/
namespace CreatedValues
open CertificateModel CallTrees ThreadPools ServiceWorld CertificateService ServicePool
  ServiceProtocol
open DomainValidation (trimSpace normalizeDomains)

/-- What the creating method of this mode checks of the days. -/
def DaysChecked (value : Certificate) : Prop :=
  match value.mode with
  | .acme => 1 ≤ value.renewBeforeDays ∧ value.renewBeforeDays ≤ 90 ∧ value.selfSignedValidDays = 0
  | .selfSigned => 1 ≤ value.renewBeforeDays ∧
      value.renewBeforeDays < value.selfSignedValidDays ∧ value.selfSignedValidDays ≤ 3650
  | .other _ => False

/-- A certificate as one of the creating methods builds it. -/
structure AsBuilt (value : Certificate) : Prop where
  blank : value = { blankCertificate with
    name := value.name
    mode := value.mode
    primaryDomain := value.primaryDomain
    domains := value.domains
    keyType := value.keyType
    outputDirectory := value.outputDirectory
    autoRenewEnabled := value.autoRenewEnabled
    renewBeforeDays := value.renewBeforeDays
    challengeType := value.challengeType
    dnsProvider := value.dnsProvider
    dnsCredentialID := value.dnsCredentialID
    caDirectoryURL := value.caDirectoryURL
    acmeEmail := value.acmeEmail
    selfSignedValidDays := value.selfSignedValidDays
    createRenewedMarker := value.createRenewedMarker }
  days : DaysChecked value

def BuiltCall : Eff → Prop
  | .store (.createCertificate value) => AsBuilt value
  | _ => True

section Programs
variable {s : Service}

-- A goal about a program is otherwise reduced as far as the texts in it go.
attribute [local irreducible] trimSpace normalizeDomains

abbrev Builds {α : Type} (p : Operation α) : Prop := Only Honest BuiltCall p

theorem builds_call {α : Type} {e : Eff} {f : Ans e → Operation α} (built : BuiltCall e)
    (rest : ∀ r, Builds (f r)) : Builds (Prog.perform e >>= f) :=
  only_call.mpr ⟨built, fun r _ => rest r⟩

theorem publisher_builds {α : Type} (certificate : Id) (p : CertificateFiles.Files α) :
    Builds (publisher certificate p) := by
  induction p with
  | ret a => exact trivial
  | call e k ih => exact ⟨trivial, fun r _ => ih r⟩

theorem issueCreated_builds {value : Certificate} (built : AsBuilt value)
    (jobType : JobType) {engine : Certificate → Operation Obtained}
    (others : ∀ c, Builds (engine c)) (detail : List (String × Detail))
    (actor clientIP : String) :
    Builds (issueCreated value jobType engine detail actor clientIP) := by
  refine builds_call built fun stored => ?_
  cases stored with
  | error err => exact trivial
  | ok value =>
    refine builds_call trivial fun created => ?_
    cases created with
    | error err => exact builds_call trivial fun _ => trivial
    | ok job =>
      apply only_bind (others value)
      intro obtained
      cases obtained with
      | panicked => exact trivial
      | failed exit err =>
        exact builds_call trivial fun _ => builds_call trivial fun _ =>
          builds_call trivial fun _ => trivial
      | material material =>
        refine builds_call trivial fun now => ?_
        split
        · exact trivial
        · apply only_bind (publisher_builds value.id _)
          intro published
          cases published with
          | error err =>
            exact builds_call trivial fun _ => builds_call trivial fun _ => trivial
          | ok _ =>
            refine builds_call trivial fun marked => ?_
            cases marked with
            | error err => exact trivial
            | ok _ =>
              exact builds_call trivial fun _ => builds_call trivial fun _ =>
                builds_call trivial fun _ => trivial

theorem createACME_builds (request : CreateACMERequest) (actor clientIP : String) :
    Builds (createACME s request actor clientIP) := by
  unfold createACME
  split
  · exact trivial
  split
  · exact trivial
  split
  · exact trivial
  rename_i days
  split
  · exact trivial
  apply only_bind (p := challengeValues s request.challengeType request.dnsCredentialID)
  · unfold challengeValues
    split
    · split
      · exact trivial
      · exact ⟨trivial, fun _ _ => trivial⟩
    · split <;> exact trivial
  · intro values
    cases values with
    | error err => exact trivial
    | ok values =>
      refine issueCreated_builds ⟨rfl, ?_⟩ _ (fun value => ?_) _ actor clientIP
      · change 1 ≤ request.renewBeforeDays ∧ request.renewBeforeDays ≤ 90 ∧ (0 : Int) = 0
        omega
      · exact builds_call trivial fun _ => trivial

theorem createSelfSigned_builds (request : CreateSelfSignedRequest) (actor clientIP : String) :
    Builds (createSelfSigned s request actor clientIP) := by
  unfold createSelfSigned
  split
  · exact trivial
  split
  · exact trivial
  rename_i validity
  split
  · exact trivial
  rename_i days
  split
  · exact trivial
  refine issueCreated_builds ⟨rfl, ?_⟩ _ (fun value => ?_) _ actor clientIP
  · change 1 ≤ request.renewBeforeDays ∧ request.renewBeforeDays < request.validDays ∧
      request.validDays ≤ 3650
    omega
  · split
    · exact builds_call trivial fun _ => trivial
    · exact trivial

theorem programOf_builds (request : Request) : Builds (programOf s request) := by
  by_cases creates : request.creates
  · cases request with
    | createSelfSigned request actor clientIP =>
      exact only_bind (createSelfSigned_builds request actor clientIP) fun _ => trivial
    | createACME request actor clientIP =>
      exact only_bind (createACME_builds request actor clientIP) fun _ => trivial
    | _ => exact creates.elim
  · -- What the others are allowed to do does not include an insert.
    refine (programOf_follows s request).only fun phase e allowed => ?_
    cases e with
    | store q =>
      cases q with
      | createCertificate value => exact absurd allowed.2.1 creates
      | _ => trivial
    | _ => trivial

end Programs

end CreatedValues
