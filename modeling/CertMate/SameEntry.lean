import CertMate.EngineCommands
import CertMate.EngineRequests
import CertMate.NormalizedDomains
import CertMate.CertificateColumns
import CertMate.IssuableRequests

/-!
# All commands about a certificate address one entry of acme.sh

`acme.sh` keeps a certificate under the first domain of its issue command, apart for
elliptic curve keys. The issue command has the list of domains, the other commands have
the primary domain, and the key type is read in four places.
-/
namespace SameEntry
open CertificateModel CallTrees ThreadPools ServiceWorld CertificateService ServicePool
  ServiceProtocol AcmeEngine EngineCommands EngineRequests
open SqliteStore hiding exec

/-- The certificate that `acme.sh` is asked about. -/
def acmeCertificate : Eff → Option Id
  | .issueACME id _ | .renewACME id _ | .revokeACME id _ => some id
  | _ => none

/-- The terms of this certificate are these, when a call tells of them. -/
def Told (id : Id) (terms : Terms) : (e : Eff) → Ans e → Prop
  | .store (.certificate _), .ok value => value.id = id → Certificate.terms value = terms
  | .store (.createCertificate _), .ok value => value.id = id → Certificate.terms value = terms
  | _, _ => True

/-- What is asked about this certificate has these terms, and a new certificate begins
with its primary domain. -/
def Asks (id : Id) (terms : Terms) : Eff → Prop
  | .store (.createCertificate value) => value.domains.head? = some value.primaryDomain
  | .issueACME key request => key = id → request.primaryDomain = terms.primaryDomain ∧
      request.domains = terms.domains ∧ request.keyType = terms.keyType
  | .renewACME key request => key = id → request.primaryDomain = terms.primaryDomain ∧
      request.keyType = terms.keyType
  | .revokeACME key request => key = id → request.primaryDomain = terms.primaryDomain ∧
      request.keyType = terms.keyType
  | _ => True

theorem sources (id : Id) (terms : Terms) :
    Sources (Told id terms) (Asks id terms) fun value => value.id = id → value.terms = terms where
  read _ _ told := told
  insert value normalized := by
    obtain ⟨primaryDomain, sans, normal⟩ := normalized
    obtain ⟨rest, domains, -⟩ := (NormalizedDomains.normalizeDomains_iff.mp normal).rest
    rw [Asks, domains]
    rfl
  inserted _ _ told := told
  issue value values known := by
    intro same
    cases known same
    exact ⟨rfl, rfl, rfl⟩
  renew value force values known := by
    intro same
    cases known same
    exact ⟨rfl, rfl⟩
  revoke value known := by
    intro same
    cases known same
    exact ⟨rfl, rfl⟩
  others e other := by
    cases e with
    | store q => cases q <;> first | exact other.elim | exact trivial
    | issueACME _ _ | renewACME _ _ | revokeACME _ _ => exact other.elim
    | _ => exact trivial

section Step
variable {env : Environment} {thread : Nat} {e : Eff} {w : World} {id : Id} {terms : Terms}

def Known (id : Id) (terms : Terms) (db : Db) : Prop :=
  ∀ row, db.row id = some row → row.terms = terms

/-- The terms of this certificate can be no others: it has them, or is still to come. -/
def Open (id : Id) (terms : Terms) (db : Db) : Prop :=
  db.certificates.next ≤ id ∨ ∃ row, db.row id = some row ∧ row.terms = terms

theorem Open.known {db : Db} (h : Open id terms db) : Known id terms db := by
  intro row there
  rcases h with new | ⟨row', there', same⟩
  · exact absurd (Db.lt_next_of_row there) (Nat.not_lt.mpr new)
  · cases there.symm.trans there'
    exact same

theorem open_before (h : Open id terms (exec env thread e w).2.db) : Open id terms w.db := by
  rcases Nat.lt_or_ge id w.db.certificates.next with old | new
  · rcases h with new | ⟨row', there, rfl⟩
    · have mono : w.db.certificates.next ≤ (exec env thread e w).2.db.certificates.next :=
        ServiceSteps.exec_next_mono
      omega
    · obtain ⟨row, before, same⟩ := ServiceSteps.row_terms old there
      exact Or.inr ⟨row, before, same.symm⟩
  · exact Or.inl new

theorem known_after (old : id < w.db.certificates.next) (h : Known id terms w.db) :
    Known id terms (exec env thread e w).2.db := by
  intro row' there
  obtain ⟨row, before, same⟩ := ServiceSteps.row_terms old there
  rw [same]
  exact h row before

theorem certificate_told {B : Backend} {db : Db} {key : Id} {value : Certificate}
    (answer : (SqliteStore.exec B (.certificate key) db).1 = .ok value)
    (known : Known id terms (SqliteStore.exec B (.certificate key) db).2) (same : value.id = id) :
    value.terms = terms := by
  have there := certificate_ok answer
  have here : key = id := (Db.id_of_row there).symm.trans same
  subst key
  apply known
  cases exec_row B (.certificate id) db id with
  | same row => exact row.trans there
  | changed u change row => cases change
  | created value query new row => cases query
  | deleted event query present row => cases query

theorem createCertificate_told {B : Backend} {db : Db} {value stored : Certificate}
    (answer : (SqliteStore.exec B (.createCertificate value) db).1 = .ok stored)
    (known : Known id terms (SqliteStore.exec B (.createCertificate value) db).2)
    (same : stored.id = id) : stored.terms = terms := by
  obtain ⟨rfl, there, -⟩ := createCertificate_ok answer
  subst same
  have inserted : (newRow (B.clock db.calls) value db.certificates.next).terms = terms :=
    known _ there
  exact inserted

theorem exec_told (known : Known id terms (exec env thread e w).2.db) :
    Told id terms e (exec env thread e w).1 := by
  cases e with
  | store q =>
    cases q with
    | certificate key =>
      change Told id terms (.store (.certificate key))
        (SqliteStore.exec env.backend (.certificate key) w.db).1
      cases answer : (SqliteStore.exec env.backend (.certificate key) w.db).1 with
      | error err => exact trivial
      | ok value => exact certificate_told answer known
    | createCertificate value =>
      change Told id terms (.store (.createCertificate value))
        (SqliteStore.exec env.backend (.createCertificate value) w.db).1
      cases answer : (SqliteStore.exec env.backend (.createCertificate value) w.db).1 with
      | error err => exact trivial
      | ok stored => exact createCertificate_told answer known
    | _ => exact trivial
  | _ => exact trivial

def Headed (db : Db) : Prop :=
  ∀ id row, db.row id = some row → row.domains.head? = some row.primaryDomain

theorem headed_of_terms {row row' : Certificate} (same : row'.terms = row.terms)
    (h : row.domains.head? = some row.primaryDomain) :
    row'.domains.head? = some row'.primaryDomain := by
  have domains : row'.domains = row.domains := congrArg Terms.domains same
  have primary : row'.primaryDomain = row.primaryDomain := congrArg Terms.primaryDomain same
  rw [domains, primary]
  exact h

theorem query_headed {B : Backend} {q : Query} {db : Db} (h : Headed db)
    (begins : ∀ value, q = .createCertificate value →
      value.domains.head? = some value.primaryDomain) :
    Headed (SqliteStore.exec B q db).2 := by
  intro id row' there
  cases exec_row B q db id with
  | same row => exact h id row' (row ▸ there)
  | changed u change row =>
    rw [row] at there
    obtain ⟨c, before, rfl⟩ := Option.map_eq_some_iff.mp there
    exact headed_of_terms (change_terms change c) (h id c before)
  | created value query new row =>
    rw [row] at there
    cases there
    exact begins value query
  | deleted event query present row =>
    rw [row] at there
    cases there

theorem exec_headed (h : Headed w.db)
    (begins : ∀ value, e = .store (.createCertificate value) →
      value.domains.head? = some value.primaryDomain) :
    Headed (exec env thread e w).2.db := by
  by_cases stored : ∃ q, e = .store q
  · obtain ⟨q, rfl⟩ := stored
    have after : Headed (SqliteStore.exec env.backend q w.db).2 :=
      query_headed h fun value same => begins value (congrArg Eff.store same)
    exact after
  · rw [ServiceSteps.exec_db fun q same => stored ⟨q, same⟩]
    exact h

end Step

/-- Whatever the terms of a certificate are or may still become, every thread that asks
about it has them. -/
def consistent : Assertion Eff Ans World Local (Outcome Unit) where
  world w := Headed w.db
  thread _ th w := ∀ id terms, Open id terms w.db → Only (Told id terms) (Asks id terms) th.prog

theorem consistent_stable (env : Environment) (s : Service) :
    consistent.Stable (pool env s) .any fun _ => True where
  own c t e k l _ h running _ _ := by
    have only := h.thread t _ running
    constructor
    · refine exec_headed h.world fun value same => ?_
      subst same
      exact (only c.world.db.certificates.next value.terms (Or.inl (Nat.le_refl _))).1
    · intro id terms here
      exact (only id terms (open_before here)).2 _ (exec_told here.known)
  other c t e k l u th _ h _ _ _ _ there :=
    fun id terms here => h.thread u th there id terms (open_before here)
  start c t th _ _ _ starts _ := by
    obtain ⟨request, -, rfl⟩ := starts
    exact fun id terms _ => (sources id terms).programOf s request
  spawn c t e k l u child _ _ _ new _ _ := by
    obtain ⟨request, rfl⟩ := spawn_some new
    exact fun id terms _ => (sources id terms).programOf s request
  crash _ _ h _ := h.world

/-- From its insertion on, the certificate has these terms, also after it is deleted. -/
def filed (id : Id) (terms : Terms) : Assertion Eff Ans World Local (Outcome Unit) where
  world w := id < w.db.certificates.next ∧ Known id terms w.db
  thread _ th _ := Only (Told id terms) (Asks id terms) th.prog

theorem filed_stable (env : Environment) (s : Service) (id : Id) (terms : Terms) :
    (filed id terms).Stable (pool env s) .any fun _ => True where
  own c t e k l _ h running _ _ := by
    obtain ⟨old, known⟩ := h.world
    have after : Known id terms (exec env t e c.world).2.db := known_after old known
    exact ⟨⟨Nat.lt_of_lt_of_le old ServiceSteps.exec_next_mono, after⟩,
      (h.thread t _ running).2 _ (exec_told after)⟩
  other c t e k l u th _ h _ _ _ _ there := h.thread u th there
  start c t th _ _ _ starts _ := by
    obtain ⟨request, -, rfl⟩ := starts
    exact (sources id terms).programOf s request
  spawn c t e k l u child _ _ _ new _ _ := by
    obtain ⟨request, rfl⟩ := spawn_some new
    exact (sources id terms).programOf s request
  crash _ _ h _ := h.world

theorem starts_entry {cli : CLI} {parsers : Parsers} {e : Eff} {arguments : List String} {id : Id}
    {terms : Terms} (asks : Asks id terms e) (about : acmeCertificate e = some id)
    (headed : terms.domains.head? = some terms.primaryDomain)
    (starts : Starts cli parsers e arguments) :
    Files arguments terms.primaryDomain (isECC terms.keyType) ∨
      Addresses arguments terms.primaryDomain (isECC terms.keyType) := by
  cases starts with
  | issue built =>
    obtain ⟨-, domains, key⟩ := asks (Option.some.inj about)
    rw [← domains] at headed
    rw [← key]
    exact Or.inl (issue_files cli parsers built headed)
  | issueInstall built =>
    obtain ⟨primary, -, key⟩ := asks (Option.some.inj about)
    rw [← primary, ← key]
    exact Or.inr (install_addresses cli _ _ _)
  | renew built =>
    obtain ⟨primary, key⟩ := asks (Option.some.inj about)
    rw [← primary, ← key]
    exact Or.inr (renew_addresses cli parsers built)
  | renewInstall built =>
    obtain ⟨primary, key⟩ := asks (Option.some.inj about)
    rw [← primary, ← key]
    exact Or.inr (install_addresses cli _ _ _)
  | revoke built =>
    obtain ⟨primary, key⟩ := asks (Option.some.inj about)
    rw [← primary, ← key]
    exact Or.inr (revoke_addresses cli built)

/-- From its creation on, whatever happens, a certificate has the names that are read from
its columns, and every command about it is about one entry of `acme.sh`: an issue command
makes it, any other addresses it. -/
theorem commands_same_entry {env : Environment} {s : Service} {start c c' : Configuration}
    (started : Started start) (empty : start.world.db.certificates.rows = [])
    (run : Reach (pool env s) .any start c) {id : Id} {row : Certificate}
    (there : c.world.db.row id = some row) (cli : CLI) (parsers : Parsers)
    (later : Reach (pool env s) .any c c') :
    (∀ v, CertificateColumns.scanCertificate (CertificateColumns.rowOf row) = some v →
      v.primaryDomain = row.primaryDomain ∧ v.domains = row.domains ∧ v.keyType = row.keyType) ∧
    ∀ t l e k arguments, c'.threads t = some ⟨.call e k, l⟩ → acmeCertificate e = some id →
      Starts cli parsers e arguments →
      Files arguments row.primaryDomain (isECC row.keyType) ∨
        Addresses arguments row.primaryDomain (isECC row.keyType) := by
  have first : Headed start.world.db := by
    intro id row there
    have member := (KeyedTables.Table.find?_eq_some_iff.mp there).1
    rw [empty] at member
    cases member
  have holds := ((consistent_stable env s).reach (fun _ _ _ _ => trivial) run trivial
    (started.holds first)).2
  have present : Open id row.terms c.world.db := Or.inr ⟨row, there, rfl⟩
  have begun : (filed id row.terms).Holds c := {
    world := ⟨Db.lt_next_of_row there, present.known⟩
    thread := fun t th running => holds.thread t th running id row.terms present }
  have still := ((filed_stable env s id row.terms).reach (fun _ _ _ _ => trivial) later trivial
    begun).2
  refine ⟨fun v read => CertificateColumns.names_of_scan read, ?_⟩
  intro t l e k arguments running about starts
  exact starts_entry (still.thread t _ running).1 about (holds.world id row there) starts

open IssuableRequests (wildcardRequest wildcardCLI wildcardParsers)

/-- The creation is thread 0 and the revocation thread 1. -/
def named : Configuration :=
  requested emptyWorld [.revoke 0 "admin" "",
    .createACME { wildcardRequest with sans := ["www.example.org", "api.example.org"] } "admin" ""]

def revocation (th : Thread Eff Ans Local (Outcome Unit)) : Option (Id × RevokeRequest) :=
  match th.prog with
  | .call (.revokeACME id request) _ => some (id, request)
  | _ => none

theorem revocation_some {th : Thread Eff Ans Local (Outcome Unit)} {id : Id}
    {request : RevokeRequest} (h : revocation th = some (id, request)) :
    ∃ k, th = ⟨.call (.revokeACME id request) k, th.seen⟩ := by
  obtain ⟨prog, seen⟩ := th
  unfold revocation at h
  split at h
  · rename_i key order k running
    cases h
    cases running
    exact ⟨k, rfl⟩
  · cases h

/-- The certificate is inserted by the first call of the creation. -/
theorem commands_same_entry_named : ∃ (c' : Configuration) (arguments : List String),
    revokeArguments wildcardCLI ⟨"example.org", "ec-256"⟩ = .ok arguments ∧
      (∃ th, c'.threads 1 = some th ∧ revocation th = some (0, ⟨"example.org", "ec-256"⟩)) ∧
      (Files arguments "example.org" true ∨ Addresses arguments "example.org" true) := by
  have played : ((playing (fun _ _ _ => true) [0] named).bind fun c =>
      (c.world.db.row 0).bind fun row =>
        (playing (fun _ _ _ => true) (List.replicate 25 0 ++ List.replicate 4 1) c).bind fun c' =>
          ((c'.threads 1).bind revocation).map fun asked =>
            (row.primaryDomain, isECC row.keyType, asked)) =
      some ("example.org", true, 0, ⟨"example.org", "ec-256"⟩) := by
    decide +kernel
  obtain ⟨c, begun, seen⟩ := Option.bind_eq_some_iff.mp played
  obtain ⟨row, there, seen⟩ := Option.bind_eq_some_iff.mp seen
  obtain ⟨c', ended, seen⟩ := Option.bind_eq_some_iff.mp seen
  obtain ⟨⟨id, request⟩, asked, values⟩ := Option.map_eq_some_iff.mp seen
  obtain ⟨th, running, asks⟩ := Option.bind_eq_some_iff.mp asked
  have primary : row.primaryDomain = "example.org" := congrArg (·.1) values
  have ecc : isECC row.keyType = true := congrArg (·.2.1) values
  have about : id = 0 := congrArg (·.2.2.1) values
  have order : request = ⟨"example.org", "ec-256"⟩ := congrArg (·.2.2.2) values
  subst about order
  obtain ⟨k, same⟩ := revocation_some asks
  have built : ∃ arguments,
      revokeArguments wildcardCLI ⟨"example.org", "ec-256"⟩ = .ok arguments := ⟨_, rfl⟩
  obtain ⟨arguments, built⟩ := built
  have first : Reach (pool sampleEnvironment sampleService) .any (requested emptyWorld []) named := by
    apply requested_reach _ fun _ _ => trivial
    simp [Request.external]
  have entry := (commands_same_entry (requested_started fun _ => rfl) rfl
    (first.trans (played_reach begun)) there wildcardCLI wildcardParsers (played_reach ended)).2 1
    th.seen _ k arguments (same ▸ running) rfl (.revoke built)
  rw [primary, ecc] at entry
  exact ⟨c', arguments, built, ⟨th, running, asks⟩, entry⟩

end SameEntry
