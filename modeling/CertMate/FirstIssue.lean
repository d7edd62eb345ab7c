import CertMate.OperationViews

/-!
# The first issue and an issue of the same record

A creation from its inserted record on, beside an issue of the same record in
status `pending`, both from the same surroundings.
-/
namespace FirstIssue
open CertificateModel CallTrees ServiceWorld CertificateService Bookkeeping OperationViews
open SqliteStore hiding exec
open CertificateFiles (Files publish)
open DomainValidation (trimSpace normalizeDomains validateACMEDomains)
open AuditedJobs (Healthy exec_healthy)

/-- Both end, and leave the same certificate, the same files and the same job. -/
structure SameTransition (id j : Id) (a b : Outcome Certificate × World) : Prop where
  first : a.1 ≠ .panicked
  again : b.1 ≠ .panicked
  row : (a.2.db.row id).map timeless = (b.2.db.row id).map timeless
  files : a.2.fs = b.2.fs
  job : (a.2.db.job j).map typeless = (b.2.db.job j).map typeless

theorem SameTransition.of_view {id j : Id} {a b : Outcome Certificate × World}
    (first : a.1 ≠ .panicked)
    (again : b.1 ≠ .panicked) (same : view id j a.2 = view id j b.2) : SameTransition id j a b :=
  ⟨first, again, congrArg View.row same, congrArg View.fs same, congrArg View.job same⟩

/-- The world in which the record has been inserted in status `pending`. -/
def pendingWorld (env : Environment) (w : World) (value : Certificate) : World :=
  { w with
    db := (SqliteStore.exec env.backend (.createCertificate { value with status := .pending }) w.db).2 }

/-- The pending record as it is read again. -/
def pendingRow (env : Environment) (w : World) (value : Certificate) : Certificate :=
  newRow (env.backend.clock w.db.calls) { value with status := .pending } w.db.certificates.next

/-- What an issue makes of the answer of the engine. -/
def obtainedFrom (normalize : CommandFailure → Error) (missing : String) :
    Except CommandFailure (Option Material) → Obtained
  | .error err => .failed (normalize err).exitCode (normalize err)
  | .ok none => .failed (-1) (.new missing)
  | .ok (some material) => .material material

theorem selfSignedObtained_eq (r : Except CommandFailure (Option SelfSignedResult)) :
    selfSignedObtained r = obtainedFrom .command "自签名引擎未返回签发结果"
      (r.map fun r => r.map Material.ofSelfSigned) := by
  rcases r with err | _ | result <;> rfl

theorem acmeObtained_eq (primaryDomain : String) (r : Except CommandFailure (Option ACMEResult)) :
    acmeObtained primaryDomain r = obtainedFrom (fun err => normalizeACMEError err primaryDomain)
      "ACME 引擎未返回签发结果" (r.map fun r => r.map Material.ofACME) := by
  rcases r with err | _ | result <;> rfl

theorem obtainedFrom_sound (normalize : CommandFailure → Error) (missing : String)
    (r : Except CommandFailure (Option Material)) : obtainedFrom normalize missing r ≠ .panicked := by
  rcases r with err | _ | material <;> exact (fun h => nomatch h)

theorem dereferenced_eq {r : Except CommandFailure (Option Material)} (answered : r ≠ .ok none)
    (normalize : CommandFailure → Error) (missing : String) :
    Obtained.dereferenced r normalize = obtainedFrom normalize missing r := by
  rcases r with err | _ | material
  · rfl
  · exact absurd rfl answered
  · rfl

theorem material_of_obtained {normalize : CommandFailure → Error} {missing : String}
    {r : Except CommandFailure (Option Material)} {material : Material}
    (made : obtainedFrom normalize missing r = .material material) : r = .ok (some material) := by
  rcases r with err | _ | material'
  · cases made
  · cases made
  · cases made
    rfl

section Beside
variable {env : Environment} {t : Nat} {value stored : Certificate} {w w₁ : World}
variable {s : Service} {r : Except CommandFailure (Option Material)}
variable {normalize : CommandFailure → Error} {missing : String}

/-- The record is inserted in status `pending` as it is in status `issuing`. -/
theorem inserted_pending (healthy : Healthy env.backend)
    (inserted : (SqliteStore.exec env.backend (.createCertificate value) w.db).1 = .ok stored) :
    (pendingWorld env w value).db.row w.db.certificates.next =
        some (pendingRow env w value) ∧
      (pendingWorld env w value).db.jobs.next = w.db.jobs.next := by
  have answered : ∃ c, (SqliteStore.exec env.backend (.createCertificate
      { value with status := .pending }) w.db).1 = .ok c := by
    rw [exec_healthy healthy] at inserted ⊢
    have same : violation w.db { value with status := .pending } = violation w.db value := rfl
    simp only [act, same] at inserted ⊢
    split at inserted
    · cases inserted
    · split at inserted
      · rename_i free
        exact ⟨_, by rw [dif_pos free]⟩
      · cases inserted
  obtain ⟨c, answer⟩ := answered
  obtain ⟨-, there, -⟩ := createCertificate_ok answer
  exact ⟨there, congrArg KeyedTables.Table.next (createCertificate_jobs _)⟩

/-- What is seen of the pending record once it has been set to `issuing`. -/
theorem pending_view (healthy : Healthy env.backend)
    (inserted : (SqliteStore.exec env.backend (.createCertificate value) w.db).1 = .ok stored) :
    { (view w.db.certificates.next w.db.jobs.next (pendingWorld env w value)).set .issuing with
      job := some (typeless (newRun (fun _ => 0) (runningJob w.db.certificates.next .issue)
        w.db.jobs.next)) } = begun w value w.ticks := by
  obtain ⟨there, -⟩ := inserted_pending healthy inserted
  unfold view begun View.set
  rw [there]
  rfl

/-- A creation up to what it makes of the answer of its engine. -/
theorem creation_delivered (healthy : Healthy env.backend) (issuing : value.status = .issuing)
    (inserted : (SqliteStore.exec env.backend (.createCertificate value) w.db).1 = .ok stored)
    (db : w₁.db = w.db) (fs : w₁.fs = w.fs) (calls : w₁.engineCalls = w.engineCalls)
    {engine : Certificate → Operation Obtained}
    (first : ∀ u, u.engineCalls w.db.certificates.next = w.engineCalls w.db.certificates.next →
      run (exec env t) (engine stored) u =
        (Obtained.dereferenced r normalize, countEngineCall u w.db.certificates.next))
    (jobType : JobType) (detail : List (String × Detail)) (actor clientIP : String) :
    ∃ u event, view w.db.certificates.next w.db.jobs.next u = (begun w value w₁.ticks).engine ∧
      run (exec env t) (issueCreated value jobType engine detail actor clientIP) w₁ =
        run (exec env t) (deliver stored w.db.jobs.next event actor clientIP
          (.dereferenced r normalize)) u := by
  obtain ⟨u, seen, ran⟩ := @created_run env t value stored w₁ healthy issuing
    (by rw [db]; exact inserted) jobType engine detail actor clientIP
  rw [db] at seen ran
  have start : begun w₁ value w₁.ticks = begun w value w₁.ticks := by
    unfold begun
    rw [db, fs, calls]
  rw [start] at seen
  refine ⟨countEngineCall u w.db.certificates.next,
    auditEvent stored.id "certificate.create" actor clientIP "succeeded" detail, ?_, ?_⟩
  · have counted : view w.db.certificates.next w.db.jobs.next
        (countEngineCall u w.db.certificates.next) =
        (view w.db.certificates.next w.db.jobs.next u).engine := by
      simp only [view, View.engine, countEngineCall, ServiceSteps.bump_self]
    rw [counted, seen]
  · rw [ran, run_bind, first u (congrArg View.engineCalls seen)]

/-- What an issue of the pending record leaves, whatever the engine answers. -/
theorem issue_recorded (healthy : Healthy env.backend)
    (inserted : (SqliteStore.exec env.backend (.createCertificate value) w.db).1 = .ok stored)
    (free : Unlocked w w.db.certificates.next)
    (allowed : (if value.mode = .acme then validateACMEDomains value.primaryDomain value.domains
      else .ok ()) = .ok ())
    (again : ∀ u, u.engineCalls w.db.certificates.next = w.engineCalls w.db.certificates.next →
      u.ticks = w.ticks → (run (exec env t) (issueMaterial s (pendingRow env w value)) u).1 =
          obtainedFrom normalize missing r ∧
        ∀ j, view w.db.certificates.next j (run (exec env t) (issueMaterial s (pendingRow env w
          value)) u).2 = { view w.db.certificates.next j u with
            engineCalls := w.engineCalls w.db.certificates.next + 1, ticks := w₁.ticks })
    (actor clientIP : String) :
    (run (exec env t) (issue s w.db.certificates.next actor clientIP)
        (pendingWorld env w value)).1 ≠ .panicked ∧
      view w.db.certificates.next w.db.jobs.next (run (exec env t) (issue s w.db.certificates.next
        actor clientIP) (pendingWorld env w value)).2 =
        (begun w value w₁.ticks).engine.recorded env (pendingRow env w value)
          (obtainedFrom normalize missing r) := by
  obtain ⟨there, jobs⟩ := inserted_pending healthy inserted
  obtain ⟨u, seen, outcome, final⟩ := @issued_run env t (pendingWorld env w value) healthy _ _ s
    there rfl free allowed actor clientIP
  rw [jobs, pending_view healthy inserted] at seen
  rw [jobs] at outcome final
  obtain ⟨obtained, called⟩ := again u (congrArg View.engineCalls seen) (congrArg View.ticks seen)
  have before : view w.db.certificates.next w.db.jobs.next (run (exec env t) (issueMaterial s
      (pendingRow env w value)) u).2 = (begun w value w₁.ticks).engine := by
    rw [called, seen]
    rfl
  rw [run_bind, obtained] at outcome final
  obtain ⟨ends, left⟩ := @finishIssue_view env t (pendingRow env w value) w.db.jobs.next
    (run (exec env t) (issueMaterial s (pendingRow env w value)) u).2 healthy _
    (obtainedFrom_sound normalize missing r) actor clientIP
  refine ⟨?_, ?_⟩
  · rw [outcome]
    exact ends
  · rw [final, ← before]
    exact left

/-- From one answer of the engine both make the same, if the engine does not
answer nothing and its material fits. -/
theorem transition_iff (healthy : Healthy env.backend) (issuing : value.status = .issuing)
    (inserted : (SqliteStore.exec env.backend (.createCertificate value) w.db).1 = .ok stored)
    (free : Unlocked w w.db.certificates.next) (db : w₁.db = w.db) (fs : w₁.fs = w.fs)
    (calls : w₁.engineCalls = w.engineCalls)
    (allowed : (if value.mode = .acme then validateACMEDomains value.primaryDomain value.domains
      else .ok ()) = .ok ())
    {engine : Certificate → Operation Obtained}
    (first : ∀ u, u.engineCalls w.db.certificates.next = w.engineCalls w.db.certificates.next →
      run (exec env t) (engine stored) u =
        (Obtained.dereferenced r normalize, countEngineCall u w.db.certificates.next))
    (again : ∀ u, u.engineCalls w.db.certificates.next = w.engineCalls w.db.certificates.next →
      u.ticks = w.ticks → (run (exec env t) (issueMaterial s (pendingRow env w value)) u).1 =
          obtainedFrom normalize missing r ∧
        ∀ j, view w.db.certificates.next j (run (exec env t) (issueMaterial s (pendingRow env w
          value)) u).2 = { view w.db.certificates.next j u with
            engineCalls := w.engineCalls w.db.certificates.next + 1, ticks := w₁.ticks })
    (jobType : JobType) (detail : List (String × Detail))
    (actor clientIP actor' clientIP' : String) :
    SameTransition w.db.certificates.next w.db.jobs.next
        (run (exec env t) (issueCreated value jobType engine detail actor clientIP) w₁)
        (run (exec env t) (issue s w.db.certificates.next actor' clientIP')
          (pendingWorld env w value)) ↔
      r ≠ .ok none ∧ ∀ material, r = .ok (some material) →
        fitsJSON material.metadata (env.clock w₁.ticks) = true := by
  obtain ⟨u, event, before, creation⟩ := @creation_delivered env t value stored w w₁ r normalize
    healthy issuing inserted db fs calls engine first jobType detail actor clientIP
  obtain ⟨ends, left⟩ := issue_recorded healthy inserted free allowed again actor' clientIP'
  have ticks : u.ticks = w₁.ticks := congrArg View.ticks before
  obtain ⟨rfl, -⟩ := createCertificate_ok inserted
  constructor
  · intro same
    have answered : r ≠ .ok none := by
      rintro rfl
      exact same.first (congrArg Prod.fst creation)
    refine ⟨answered, ?_⟩
    rintro material rfl
    cases unfit : fitsJSON material.metadata (env.clock w₁.ticks) with
    | true => rfl
    | false =>
      -- The job of the creation is left as it has begun, and the other has failed.
      have stays := @deliver_unfit env t (createdValue (env.backend.clock w.db.calls) value
        w.db.certificates.next) w.db.jobs.next u material (by rw [ticks, unfit]) event actor clientIP
      have running := congrArg View.job (stays.trans (congrArg View.tick before))
      have failed := congrArg View.job left
      have clocked : ((begun w value w₁.ticks).engine).ticks = w₁.ticks := rfl
      simp only [obtainedFrom, View.recorded, clocked] at failed
      cases made : metadataDocument (pendingRow env w value) material.metadata
          (env.clock w₁.ticks) with
      | ok document =>
        rw [metadataDocument_ok made] at unfit
        cases unfit
      | error err =>
        rw [made] at failed
        have jobs := same.job
        rw [creation] at jobs
        have statuses := congrArg (Option.map Run.status) (running.symm.trans (jobs.trans failed))
        cases statuses
  · rintro ⟨answered, fits⟩
    rw [dereferenced_eq answered normalize missing] at creation
    have fits' : ∀ material, obtainedFrom normalize missing r = .material material →
        fitsJSON material.metadata (env.clock u.ticks) = true := by
      intro material made
      rw [ticks]
      exact fits material (material_of_obtained made)
    obtain ⟨ended, made⟩ := @deliver_view env t (createdValue (env.backend.clock w.db.calls) value
      w.db.certificates.next) w.db.jobs.next u healthy _ (obtainedFrom_sound normalize missing r)
      fits' event actor clientIP
    have made := made.trans (congrArg (fun v => View.recorded env _ v _) before)
    apply SameTransition.of_view
    · rw [creation]
      exact ended
    · exact ends
    · rw [creation, left]
      exact made

end Beside

/-- The record that a call inserts. -/
def inserts : Eff → Option Certificate
  | .store (.createCertificate value) => some value
  | _ => none

section Insertions
variable {α β : Type} (handler : (e : Eff) → World → Ans e × World)

/-- The first record that a run inserts, and the state it inserts it in. -/
def insertion : Operation α → World → Option (Certificate × World)
  | .ret _, _ => none
  | .call e k, w =>
    match inserts e with
    | some value => some (value, w)
    | none => insertion (k (handler e w).1) (handler e w).2

theorem insertion_bind (p : Operation α) (f : α → Operation β) (w : World) :
    insertion handler (p >>= f) w = (insertion handler p w).or
      (insertion handler (f (run handler p w).1) (run handler p w).2) := by
  induction p generalizing w with
  | ret a => rfl
  | call e k ih =>
    rw [Prog.call_bind, run_call, insertion, insertion]
    cases inserts e with
    | some value => rfl
    | none => exact ih _ _

end Insertions

/-- The engine of a creation in ACME mode. -/
def acmeEngine (primary : String) (values : ProcessValues) (value : Certificate) :
    Operation Obtained := do
  let result ← issueACME value.id (issueRequest value values)
  return .dereferenced (result.map fun r => r.map Material.ofACME)
    fun err => normalizeACMEError err primary

/-- The engine of a self-signed creation. -/
def selfSignedEngine (s : Service) (value : Certificate) : Operation Obtained := do
  if s.engine then
    let result ← issueSelfSigned value.id (selfSignedRequest value)
    return .dereferenced (result.map fun r => r.map Material.ofSelfSigned) .command
  else return .panicked

section Walks
variable {env : Environment} {t : Nat} {s : Service} {w w₁ : World} {value : Certificate}
variable {actor clientIP : String}

/-- How the values for the challenge of a creation have been found. -/
inductive Resolved (env : Environment) (s : Service) (w : World) (challengeType : String)
    (dnsCredentialID : String) (values : ProcessValues) : World → Prop
  | dns (type : challengeType = "dns-01") (present : s.credentials = true)
      (found : env.credentials w.ticks dnsCredentialID = .ok values) :
      Resolved env s w challengeType dnsCredentialID values w.tick
  | http (type : challengeType = "http-01") (none : values = noProcessValues) :
      Resolved env s w challengeType dnsCredentialID values w

theorem challengeValues_insertion (challengeType dnsCredentialID : String) :
    insertion (exec env t) (challengeValues s challengeType dnsCredentialID) w = none := by
  unfold challengeValues
  split
  · split <;> rfl
  · split <;> rfl

theorem challengeValues_resolved {challengeType dnsCredentialID : String} {values : ProcessValues}
    (found : (run (exec env t) (challengeValues s challengeType dnsCredentialID) w).1 = .ok values) :
    Resolved env s w challengeType dnsCredentialID values
      (run (exec env t) (challengeValues s challengeType dnsCredentialID) w).2 := by
  unfold challengeValues at found ⊢
  by_cases dns : challengeType = "dns-01"
  · rw [if_pos dns] at found ⊢
    by_cases missing : (!s.credentials) = true ∨ dnsCredentialID = ""
    · rw [if_pos missing] at found
      cases found
    · rw [if_neg missing] at found ⊢
      have present : s.credentials = true := by
        by_contra absent
        exact missing (Or.inl (by rw [Bool.eq_false_iff.mpr absent]; rfl))
      exact .dns dns present found
  · rw [if_neg dns] at found ⊢
    by_cases http : challengeType = "http-01"
    · rw [if_pos http] at found ⊢
      cases found
      exact .http http rfl
    · rw [if_neg http] at found
      cases found

-- A goal about a program is otherwise reduced as far as the texts in it go.
attribute [local irreducible] trimSpace normalizeDomains validateACMEDomains

theorem createACME_inserts {request : CreateACMERequest}
    (h : insertion (exec env t) (createACME s request actor clientIP) w = some (value, w₁)) :
    s.acme = true ∧ value.mode = .acme ∧ value.status = .issuing ∧
      validateACMEDomains value.primaryDomain value.domains = .ok () ∧
      ∃ values, Resolved env s w value.challengeType value.dnsCredentialID values w₁ ∧
        ∃ detail, run (exec env t) (createACME s request actor clientIP) w =
          run (exec env t) (issueCreated value .acmeIssue (acmeEngine value.primaryDomain values)
            detail actor clientIP) w₁ := by
  unfold createACME at h ⊢
  split at h
  · cases h
  · rename_i present
    rw [if_neg present]
    split at h
    · cases h
    · rename_i normal
      split at h
      · cases h
      · rename_i days
        rw [if_neg days]
        split at h
        · cases h
        · rename_i supported
          rw [if_neg supported, run_bind]
          rw [insertion_bind, challengeValues_insertion, Option.none_or] at h
          cases found : (run (exec env t) (challengeValues s request.challengeType
              request.dnsCredentialID) w).1 with
          | error err =>
            rw [found] at h
            cases h
          | ok values =>
            have resolved := challengeValues_resolved found
            rw [found] at h
            cases h
            refine ⟨by simpa using present, rfl, rfl, (normalizeRequest_ok normal).2, values,
              resolved, _, rfl⟩

theorem createSelfSigned_inserts {request : CreateSelfSignedRequest}
    (h : insertion (exec env t) (createSelfSigned s request actor clientIP) w = some (value, w₁)) :
    value.mode = .selfSigned ∧ value.status = .issuing ∧ w₁ = w ∧
      ∃ detail, run (exec env t) (createSelfSigned s request actor clientIP) w =
        run (exec env t) (issueCreated value .selfSignedIssue (selfSignedEngine s) detail actor
          clientIP) w := by
  unfold createSelfSigned at h ⊢
  split at h
  · cases h
  · rename_i normal
    split at h
    · cases h
    · rename_i valid
      rw [if_neg valid]
      split at h
      · cases h
      · rename_i days
        rw [if_neg days]
        split at h
        · cases h
        · rename_i supported
          rw [if_neg supported]
          cases h
          exact ⟨rfl, rfl, rfl, _, rfl⟩

end Walks

/-- A request to create a certificate. -/
inductive Creation where
  | selfSigned (request : CreateSelfSignedRequest)
  | acme (request : CreateACMERequest)

namespace Creation

def program (s : Service) (actor clientIP : String) : Creation → Operation (Outcome Certificate)
  | .selfSigned request => createSelfSigned s request actor clientIP
  | .acme request => createACME s request actor clientIP

/-- The service has an engine for the mode; in ACME mode the creation has looked
for it itself. -/
def Equipped (s : Service) : Creation → Prop
  | .selfSigned _ => s.engine = true
  | .acme _ => True

/-- The answer to the next call of the engine for a certificate. -/
def answer (env : Environment) (w : World) (id : Id) :
    Creation → Except CommandFailure (Option Material)
  | .selfSigned _ => (env.selfSigned id (w.engineCalls id)).map fun r => r.map Material.ofSelfSigned
  | .acme _ => (env.acme id (w.engineCalls id)).map fun r => r.map Material.ofACME

/-- The engine is there, does not answer nothing without an error, and its material
and the time of its publication are such that JSON can hold them. -/
structure Orderly (s : Service) (c : Creation) (r : Except CommandFailure (Option Material))
    (now : Time) : Prop where
  equipped : c.Equipped s
  answered : r ≠ .ok none
  fits : ∀ material, r = .ok (some material) → fitsJSON material.metadata now = true

end Creation

section Engines
variable {env : Environment} {t : Nat} {s : Service} {w w₁ u : World} {value : Certificate}

theorem acmeEngine_run {stored : Certificate} (primary : String) (values : ProcessValues)
    (calls : u.engineCalls stored.id = w.engineCalls stored.id) :
    run (exec env t) (acmeEngine primary values stored) u =
      (.dereferenced ((env.acme stored.id (w.engineCalls stored.id)).map fun r =>
        r.map Material.ofACME) fun err => normalizeACMEError err primary,
        countEngineCall u stored.id) := by
  rw [← calls]
  rfl

theorem selfSignedEngine_run {stored : Certificate} (present : s.engine = true)
    (calls : u.engineCalls stored.id = w.engineCalls stored.id) :
    run (exec env t) (selfSignedEngine s stored) u =
      (.dereferenced ((env.selfSigned stored.id (w.engineCalls stored.id)).map fun r =>
        r.map Material.ofSelfSigned) .command, countEngineCall u stored.id) := by
  rw [← calls]
  unfold selfSignedEngine
  rw [if_pos present]
  rfl

/-- What is seen once the engine has been called. -/
theorem counted_view {id : Id} (calls : u.engineCalls id = w.engineCalls id) (j : Id) :
    view id j (countEngineCall u id) =
      { view id j u with engineCalls := w.engineCalls id + 1 } := by
  simp only [view, countEngineCall, ServiceSteps.bump_self, calls]

theorem issueMaterial_selfSigned {row : Certificate} (mode : row.mode = .selfSigned)
    (present : s.engine = true) (calls : u.engineCalls row.id = w.engineCalls row.id) :
    run (exec env t) (issueMaterial s row) u =
      (selfSignedObtained (env.selfSigned row.id (w.engineCalls row.id)),
        countEngineCall u row.id) := by
  rw [← calls]
  unfold issueMaterial
  rw [mode]
  dsimp only
  rw [if_pos present]
  rfl

theorem issueMaterial_acme {row : Certificate} {values : ProcessValues} (mode : row.mode = .acme)
    (present : s.acme = true)
    (resolved : Resolved env s w row.challengeType row.dnsCredentialID values w₁)
    (calls : u.engineCalls row.id = w.engineCalls row.id) (ticks : u.ticks = w.ticks) :
    (run (exec env t) (issueMaterial s row) u).1 =
        acmeObtained row.primaryDomain (env.acme row.id (w.engineCalls row.id)) ∧
      ∀ j, view row.id j (run (exec env t) (issueMaterial s row) u).2 =
        { view row.id j u with
          engineCalls := w.engineCalls row.id + 1
          ticks := w₁.ticks } := by
  unfold issueMaterial
  rw [mode]
  dsimp only
  rw [if_pos present]
  cases resolved with
  | dns type there found =>
    rw [if_pos type, if_pos there, Prog.perform_bind, run_call]
    have answer : (exec env t (.resolve row.dnsCredentialID) u).1 = .ok values := by
      rw [← ticks] at found
      exact found
    rw [answer]
    have ticked : w.tick.ticks = u.tick.ticks := congrArg (· + 1) ticks.symm
    dsimp only
    rw [Prog.perform_bind, run_call, ← calls, ticked]
    refine ⟨rfl, fun j => ?_⟩
    exact counted_view (u := u.tick) rfl j
  | http type none =>
    have other : row.challengeType ≠ "dns-01" := by
      rw [type]
      decide
    rw [if_neg other, if_pos type, Prog.perform_bind, run_call, ← calls, ← ticks]
    exact ⟨rfl, counted_view rfl⟩

end Engines

section Modes
variable {env : Environment} {s : Service} {t : Nat} {w w₁ : World} {value stored : Certificate}
variable (healthy : Healthy env.backend)
variable (accepted : (SqliteStore.exec env.backend (.createCertificate value) w.db).1 = .ok stored)
variable (free : Unlocked w w.db.certificates.next) (actor clientIP actor' clientIP' : String)
include healthy accepted free

theorem selfSigned_iff {request : CreateSelfSignedRequest}
    (inserted : insertion (exec env t) (createSelfSigned s request actor clientIP) w =
      some (value, w₁)) (present : s.engine = true) :
    SameTransition w.db.certificates.next w.db.jobs.next
        (run (exec env t) (createSelfSigned s request actor clientIP) w)
        (run (exec env t) (issue s w.db.certificates.next actor' clientIP')
          (pendingWorld env w value)) ↔
      (Creation.selfSigned request).answer env w w.db.certificates.next ≠ .ok none ∧
        ∀ material, (Creation.selfSigned request).answer env w w.db.certificates.next =
          .ok (some material) → fitsJSON material.metadata (env.clock w₁.ticks) = true := by
  obtain ⟨mode, issuing, same, detail, creation⟩ := createSelfSigned_inserts inserted
  subst w₁
  have named : stored.id = w.db.certificates.next := by
    obtain ⟨rfl, -⟩ := createCertificate_ok accepted
    rfl
  rw [creation]
  refine @transition_iff env t value stored w w s _ .command "自签名引擎未返回签发结果" healthy
    issuing accepted free rfl rfl rfl ?_ (selfSignedEngine s) ?_ ?_ .selfSignedIssue detail actor
    clientIP actor' clientIP'
  · rw [mode]
    rfl
  · intro u calls
    rw [← named] at calls ⊢
    exact selfSignedEngine_run present calls
  · intro u calls ticks
    have called := @issueMaterial_selfSigned env t s w u (pendingRow env w value) mode present calls
    rw [called]
    refine ⟨selfSignedObtained_eq _, fun j => ?_⟩
    rw [← ticks]
    exact counted_view calls j

theorem acme_iff {request : CreateACMERequest}
    (inserted : insertion (exec env t) (createACME s request actor clientIP) w = some (value, w₁)) :
    SameTransition w.db.certificates.next w.db.jobs.next
        (run (exec env t) (createACME s request actor clientIP) w)
        (run (exec env t) (issue s w.db.certificates.next actor' clientIP')
          (pendingWorld env w value)) ↔
      (Creation.acme request).answer env w w.db.certificates.next ≠ .ok none ∧
        ∀ material, (Creation.acme request).answer env w w.db.certificates.next =
          .ok (some material) → fitsJSON material.metadata (env.clock w₁.ticks) = true := by
  obtain ⟨present, mode, issuing, valid, values, resolved, detail, creation⟩ :=
    createACME_inserts inserted
  have named : stored.id = w.db.certificates.next := by
    obtain ⟨rfl, -⟩ := createCertificate_ok accepted
    rfl
  have surroundings : w₁.db = w.db ∧ w₁.fs = w.fs ∧ w₁.engineCalls = w.engineCalls := by
    cases resolved <;> exact ⟨rfl, rfl, rfl⟩
  obtain ⟨db, fs, calls⟩ := surroundings
  rw [creation]
  refine @transition_iff env t value stored w w₁ s _ (fun err => normalizeACMEError err
    value.primaryDomain) "ACME 引擎未返回签发结果" healthy issuing accepted free db fs calls ?_
    (acmeEngine value.primaryDomain values) ?_ ?_ .acmeIssue detail actor clientIP actor' clientIP'
  · rw [if_pos mode]
    exact valid
  · intro u calls
    rw [← named] at calls ⊢
    exact acmeEngine_run value.primaryDomain values calls
  · intro u calls ticks
    have called := @issueMaterial_acme env t s w w₁ u (pendingRow env w value) values mode present
      resolved calls ticks
    exact ⟨called.1.trans (acmeObtained_eq _ _), called.2⟩

end Modes

/-- For every creation that inserts its record, with a store that does not fail: it
and an issue of the record in status `pending` leave the same certificate, files and
job exactly if the engine is orderly. -/
theorem same_transition_iff {env : Environment} (healthy : Healthy env.backend) (s : Service)
    (t : Nat) (c : Creation) (actor clientIP actor' clientIP' : String) {w w₁ : World}
    {value stored : Certificate}
    (inserted : insertion (exec env t) (c.program s actor clientIP) w = some (value, w₁))
    (accepted : (SqliteStore.exec env.backend (.createCertificate value) w.db).1 = .ok stored)
    (free : Unlocked w w.db.certificates.next) :
    SameTransition w.db.certificates.next w.db.jobs.next
        (run (exec env t) (c.program s actor clientIP) w)
        (run (exec env t) (issue s w.db.certificates.next actor' clientIP')
          (pendingWorld env w value)) ↔
      c.Orderly s (c.answer env w w.db.certificates.next) (env.clock w₁.ticks) := by
  cases c with
  | acme request =>
    refine (acme_iff healthy accepted free actor clientIP actor' clientIP' inserted).trans ?_
    exact ⟨fun h => ⟨trivial, h.1, h.2⟩, fun h => ⟨h.answered, h.fits⟩⟩
  | selfSigned request =>
    by_cases present : s.engine = true
    · refine (selfSigned_iff healthy accepted free actor clientIP actor' clientIP' inserted
        present).trans ?_
      exact ⟨fun h => ⟨present, h.1, h.2⟩, fun h => ⟨h.answered, h.fits⟩⟩
    · obtain ⟨-, issuing, there, detail, creation⟩ := createSelfSigned_inserts inserted
      subst w₁
      obtain ⟨u, -, ran⟩ := @created_run env t value stored w healthy issuing accepted
        .selfSignedIssue (selfSignedEngine s) detail actor clientIP
      constructor
      · intro same
        refine absurd ?_ same.first
        rw [Creation.program, creation, ran]
        unfold selfSignedEngine
        rw [if_neg present]
        rfl
      · intro orderly
        exact absurd orderly.equipped present

open ServicePool (sampleService sampleEnvironment monthEnvironment emptyWorld monthRequest)

/-- What the request comes to. -/
def monthCertificate : Certificate :=
  { blankCertificate with
    name := "month"
    mode := .selfSigned
    primaryDomain := "example.org"
    domains := ["example.org"]
    keyType := "ec-256"
    outputDirectory := "example-org"
    autoRenewEnabled := true
    renewBeforeDays := 10
    selfSignedValidDays := 30 }

theorem month_normal : normalizeRequest monthRequest.name monthRequest.primaryDomain
    monthRequest.sans monthRequest.outputDirectory (fun _ _ => .ok ()) =
      .ok ("month", "example.org", ["example.org"], "example-org") := by
  decide +kernel

/-- It is inserted whatever the engine is. -/
theorem month_inserted (env : Environment) : ∃ w₁, insertion (exec env 0)
    ((Creation.selfSigned monthRequest).program sampleService "admin" "") emptyWorld =
      some (monthCertificate, w₁) := by
  refine ⟨emptyWorld, ?_⟩
  unfold Creation.program createSelfSigned
  dsimp only
  rw [month_normal]
  rfl

theorem same_transition_month : ∃ w₁, SameTransition 0 0
    (run (exec monthEnvironment 0)
      ((Creation.selfSigned monthRequest).program sampleService "admin" "") emptyWorld)
    (run (exec monthEnvironment 0) (issue sampleService 0 "admin" "")
      (pendingWorld monthEnvironment emptyWorld monthCertificate)) ∧
    insertion (exec monthEnvironment 0)
      ((Creation.selfSigned monthRequest).program sampleService "admin" "") emptyWorld =
        some (monthCertificate, w₁) := by
  obtain ⟨w₁, inserted⟩ := month_inserted monthEnvironment
  refine ⟨w₁, (same_transition_iff (fun _ => rfl) sampleService 0 _ "admin" "" "admin" "" inserted
    rfl rfl).mpr ⟨rfl, (fun h => nomatch h), ?_⟩, inserted⟩
  rintro material ⟨⟩
  exact (by decide : fitsJSON ServicePool.monthMaterial.metadata 0 = true)

/-- The engine answers nothing, without an error: the creation panics. -/
theorem same_transition_fails : ∃ w₁ stored,
    insertion (exec sampleEnvironment 0)
      ((Creation.selfSigned monthRequest).program sampleService "admin" "") emptyWorld =
        some (monthCertificate, w₁) ∧
    (SqliteStore.exec sampleEnvironment.backend (.createCertificate monthCertificate)
      emptyWorld.db).1 = .ok stored ∧
    Unlocked emptyWorld emptyWorld.db.certificates.next ∧
    ¬ SameTransition 0 0
      (run (exec sampleEnvironment 0)
        ((Creation.selfSigned monthRequest).program sampleService "admin" "") emptyWorld)
      (run (exec sampleEnvironment 0) (issue sampleService 0 "admin" "")
        (pendingWorld sampleEnvironment emptyWorld monthCertificate)) := by
  obtain ⟨w₁, inserted⟩ := month_inserted sampleEnvironment
  refine ⟨w₁, _, inserted, rfl, rfl, fun same => same.first ?_⟩
  unfold Creation.program createSelfSigned
  dsimp only
  rw [month_normal]
  rfl

end FirstIssue
