import CertMate.ServiceProtocol

/-!
# One allowed call

Where a call that the protocol allows can lead, and what it leaves alone in the
world.
-/
namespace ServiceSteps
open CertificateModel DomainValidation CallTrees ServiceWorld CertificateFiles CertificateService
open ServiceProtocol
open SqliteStore hiding exec
open PublishProtocol (Progress Quiet)

/-- A call that leaves the phase where it is. -/
def Still (phase : Phase) : (e : Eff) → Ans e → Prop
  | .tryLock _, _ | .unlock _, _ | .loadOrStore _, _ | .revokeACME _ _, _ => False
  | .store (.createCertificate _), .ok _ => False
  | .store (.setCertificateStatus _ _), .ok _ => False
  | .store (.deleteCertificateWithAudit _ _), .ok _ => False
  | .store (.markCertificateFailed _ _), _ => False
  | .store (.markCertificateIssued _), _ => False
  | .store (.markCertificateRenewed _), _ => False
  | .file _ e, _ => Quiet e
  | .dropLock certificate, _ =>
    ∃ value lock cleared, phase = .removing value lock cleared ∧ certificate = value.id
  | _, _ => True

/-- The material of an engine call that has delivered. -/
def delivered : (e : Eff) → Ans e → Option Material
  | .issueSelfSigned _ _, .ok (some result) => some (.ofSelfSigned result)
  | .renewSelfSigned _ _, .ok (some result) => some (.ofSelfSigned result)
  | .issueACME _ _, .ok (some result) => some (.ofACME result)
  | .renewACME _ _, .ok (some result) => some (.ofACME result)
  | _, _ => none

/-- The moves of an operation, with what the protocol knows at each. -/
inductive Move (request : Request) : Phase → (e : Eff) → Ans e → Phase → Prop where
  | stay {phase e r} (still : Still phase e r) : Move request phase e r phase
  | read {phase id v} (fresh : Fresh phase) (numbered : v.id = id) :
    Move request phase (.store (.certificate id)) (.ok v) (.read v)
  | create {value v} (creates : request.creates) (issuing : value.status = .issuing) :
    Move request .idle (.store (.createCertificate value)) (.ok v) (.marked v none)
  | locate {v lock} : Move request (.read v) (.loadOrStore v.id) lock (.found v lock)
  | take {v lock} : Move request (.found v lock) (.tryLock lock) true (.held v lock)
  | refuse {v lock} : Move request (.found v lock) (.tryLock lock) false .idle
  | mark {v lock status} (gate : request.gate v = true)
    (target : status = .renewing ∨ status = .issuing) :
    Move request (.held v lock) (.store (.setCertificateStatus v.id status)) (.ok ())
      (.marked v (some lock))
  | beginRevoke {v lock run job} (about : run.certificateID = some v.id)
    (gate : request.gate v = true) (revokes : request.revokes) :
    Move request (.held v lock) (.store (.createJob run)) (.ok job) (.revoking v lock)
  | remove {v lock event} (about : event.certificateID = some v.id) :
    Move request (.held v lock) (.store (.deleteCertificateWithAudit v.id event)) (.ok ())
      (.removing v lock false)
  | release {phase phase' lock} (mine : phase.lock = some lock) (done : phase.mayLeave)
    (next : phase' = .idle ∨ ∃ v, phase = .removing v lock true ∧ phase' = .cleared v) :
    Move request phase (.unlock lock) () phase'
  | work {v lock run job} (about : run.certificateID = some v.id) :
    Move request (.marked v lock) (.store (.createJob run)) (.ok job)
      (.working v lock none .checking)
  | giveUp {v lock message r} :
    Move request (.marked v lock) (.store (.markCertificateFailed v.id message)) r (.settled v lock)
  | deliver {v lock e r material} (got : delivered e r = some material) :
    Move request (.working v lock none .checking) e r (.working v lock (some material) .checking)
  | publish {v lock material p progress e r} (safe : safeDirectory v.outputDirectory = true)
    (matching : Matches v material p)
    (allowed : PublishProtocol.allows v.outputDirectory p progress e)
    (honest : PublishProtocol.Honest e r) :
    Move request (.working v lock (some material) progress) (.file v.id e) r
      (.working v lock (some material) (PublishProtocol.note progress e r))
  | record {v lock material} (q : Query) (r : Ans (.store q))
    (mark : q = .markCertificateIssued (withMaterial v material) ∨
      q = .markCertificateRenewed (withMaterial v material)) :
    Move request (.working v lock (some material) .released) (.store q) r (.settled v lock)
  | fail {v lock got progress message r} (abandoned : Abandoned progress) :
    Move request (.working v lock got progress) (.store (.markCertificateFailed v.id message)) r
      (.settled v lock)
  | revoke {v lock order} :
    Move request (.revoking v lock) (.revokeACME v.id order) (.ok ()) (.revoked v lock)
  | refusedRevoke {v lock order err} :
    Move request (.revoking v lock) (.revokeACME v.id order) (.error err) (.settled v (some lock))
  | recordRevoked {v lock r} :
    Move request (.revoked v lock) (.store (.setCertificateStatus v.id .revoked)) r
      (.settled v (some lock))
  | clear {v lock cleared certificate e r} (clears : request.clears)
    (removes : removesAt v.outputDirectory e) :
    Move request (.removing v lock cleared) (.file certificate e) r
      (.removing v lock (noteRemoval cleared e r))

theorem engine_move {request : Request} {phase : Phase} {e : Eff} {r : Ans e} {certificate : Id}
    (ok : allowsEngine phase certificate) (still : Still phase e r)
    (kept : delivered e r = none → note phase e r = phase)
    (moved : ∀ v lock material, phase = .working v lock none .checking →
      delivered e r = some material →
      note phase e r = .working v lock (some material) .checking) :
    Move request phase e r (note phase e r) := by
  obtain ⟨v, lock, atWork, -⟩ := ok
  cases got : delivered e r with
  | none =>
    rw [kept got]
    exact .stay still
  | some material =>
    rw [moved v lock material atWork got, atWork]
    exact .deliver got

/-- Every allowed call is one of the moves. -/
theorem note_move {request : Request} {phase : Phase} {e : Eff} {r : Ans e}
    (ok : allows request phase e) (honest : Honest e r) :
    Move request phase e r (note phase e r) := by
  cases e with
  | store q =>
    cases q with
    | certificate id =>
      cases r with
      | error err => cases phase <;> exact .stay trivial
      | ok v =>
        cases phase with
        | idle => exact .read (Or.inl rfl) honest
        | read value => exact .read (Or.inr ⟨value, rfl⟩) honest
        | _ => exact .stay trivial
    | createCertificate value =>
      obtain ⟨rfl, creates, issuing⟩ := ok
      cases r with
      | error err => exact .stay trivial
      | ok v => exact .create creates issuing
    | setCertificateStatus id status =>
      cases phase with
      | held v lock =>
        obtain ⟨rfl, gate, target⟩ := ok
        cases r with
        | error err => exact .stay trivial
        | ok _ => exact .mark gate target
      | revoked v lock =>
        obtain ⟨rfl, rfl⟩ := ok
        exact .recordRevoked
      | _ => exact ok.elim
    | createJob run =>
      cases phase with
      | held v lock =>
        obtain ⟨about, gate, revokes⟩ := ok
        cases r with
        | error err => exact .stay trivial
        | ok job => exact .beginRevoke about gate revokes
      | marked v lock =>
        cases r with
        | error err => exact .stay trivial
        | ok job => exact .work ok
      | _ => exact ok.elim
    | markCertificateFailed id message =>
      cases phase with
      | marked v lock =>
        obtain rfl : id = v.id := ok
        exact .giveUp
      | working v lock got progress =>
        obtain ⟨rfl, abandoned⟩ := ok
        exact .fail abandoned
      | _ => exact ok.elim
    | markCertificateIssued c =>
      cases phase with
      | working v lock got progress =>
        cases got with
        | none => exact ok.elim
        | some material =>
          cases progress with
          | released => exact .record _ r (Or.inl (congrArg Query.markCertificateIssued ok))
          | _ => exact ok.elim
      | _ => exact ok.elim
    | markCertificateRenewed c =>
      cases phase with
      | working v lock got progress =>
        cases got with
        | none => exact ok.elim
        | some material =>
          cases progress with
          | released => exact .record _ r (Or.inr (congrArg Query.markCertificateRenewed ok))
          | _ => exact ok.elim
      | _ => exact ok.elim
    | deleteCertificateWithAudit id event =>
      cases phase with
      | held v lock =>
        obtain ⟨rfl, about⟩ := ok
        cases r with
        | error err => exact .stay trivial
        | ok _ => exact .remove about
      | _ => exact ok.elim
    | certificates | finishJob | createAuditEvent | updateCertificateSettings =>
      cases phase <;> exact .stay trivial
  | file certificate e =>
    cases phase with
    | working v lock got progress =>
      cases got with
      | none =>
        have unmoved : PublishProtocol.note progress e r = progress := by
          cases e with
          | op o => simp [PublishProtocol.note, show PublishProtocol.Op.actsOnRoot o = false from ok]
          | now => rfl
          | range values => rfl
        change Move request _ _ r (.working v lock none (PublishProtocol.note progress e r))
        rw [unmoved]
        exact .stay ok
      | some material =>
        obtain ⟨rfl, safe, p, matching, allowed⟩ := ok
        exact .publish safe matching allowed honest
    | removing v lock cleared => exact .clear ok.1 ok.2
    | _ => exact .stay ok
  | loadOrStore certificate =>
    obtain ⟨v, rfl, rfl⟩ := ok
    exact .locate
  | tryLock lock =>
    obtain ⟨v, rfl⟩ := ok
    cases r with
    | false => exact .refuse
    | true => exact .take
  | unlock lock =>
    refine .release ok.1 ok.2.1 ?_
    cases phase with
    | removing v l cleared =>
      obtain rfl : l = lock := Option.some.inj ok.1
      cases cleared with
      | false => exact Or.inl rfl
      | true => exact Or.inr ⟨v, rfl, rfl⟩
    | idle | read | found | cleared => cases ok.1
    | _ => exact Or.inl rfl
  | dropLock certificate =>
    obtain ⟨v, lock, cleared, rfl, rfl⟩ := ok
    exact .stay ⟨v, lock, cleared, rfl, rfl⟩
  | issueSelfSigned certificate order =>
    rcases r with err | _ | result
    · exact engine_move ok trivial (fun _ => by cases phase <;> rfl) fun _ _ _ _ h => by cases h
    · exact engine_move ok trivial (fun _ => by cases phase <;> rfl) fun _ _ _ _ h => by cases h
    · refine engine_move ok trivial (fun h => by cases h) ?_
      rintro v lock material rfl h
      cases h
      rfl
  | renewSelfSigned certificate order =>
    rcases r with err | _ | result
    · exact engine_move ok trivial (fun _ => by cases phase <;> rfl) fun _ _ _ _ h => by cases h
    · exact engine_move ok trivial (fun _ => by cases phase <;> rfl) fun _ _ _ _ h => by cases h
    · refine engine_move ok trivial (fun h => by cases h) ?_
      rintro v lock material rfl h
      cases h
      rfl
  | issueACME certificate order =>
    rcases r with err | _ | result
    · exact engine_move ok trivial (fun _ => by cases phase <;> rfl) fun _ _ _ _ h => by cases h
    · exact engine_move ok trivial (fun _ => by cases phase <;> rfl) fun _ _ _ _ h => by cases h
    · refine engine_move ok trivial (fun h => by cases h) ?_
      rintro v lock material rfl h
      cases h
      rfl
  | renewACME certificate order =>
    rcases r with err | _ | result
    · exact engine_move ok trivial (fun _ => by cases phase <;> rfl) fun _ _ _ _ h => by cases h
    · exact engine_move ok trivial (fun _ => by cases phase <;> rfl) fun _ _ _ _ h => by cases h
    · refine engine_move ok trivial (fun h => by cases h) ?_
      rintro v lock material rfl h
      cases h
      rfl
  | revokeACME certificate order =>
    obtain ⟨v, lock, rfl, rfl⟩ := ok
    cases r with
    | error err => exact .refusedRevoke
    | ok _ => exact .revoke
  | now | resolve | newScan | addWorker | startWorker | workerDone | waitWorkers
  | acquireSlot | releaseSlot | pause | reportError | reportedErrors =>
    cases phase <;> exact .stay trivial

section Frames
variable {env : Environment} {thread : Nat} {e : Eff} {w : World}

theorem exec_db (h : ∀ q, e ≠ .store q) : (exec env thread e w).2.db = w.db := by
  cases e with
  | store q => exact absurd rfl (h q)
  | file certificate e =>
    simp only [exec, execFile]
    split
    · split <;> rfl
    · rfl
  | loadOrStore | tryLock | acquireSlot => simp only [exec]; split <;> rfl
  | _ => rfl

theorem exec_fs (h : ∀ certificate e', e ≠ .file certificate e') :
    (exec env thread e w).2.fs = w.fs := by
  cases e with
  | file certificate e => exact absurd rfl (h certificate e)
  | loadOrStore | tryLock | acquireSlot => simp only [exec]; split <;> rfl
  | _ => rfl

theorem exec_file_fs (certificate : Id) (e : FileSystem.Call) :
    (exec env thread (.file certificate e) w).2.fs = (FileSystem.exec env.host e w.fs).2 := by
  simp only [exec, execFile]
  split
  · split <;> rfl
  · rfl

theorem exec_holder (h : ∀ lock, e ≠ .tryLock lock ∧ e ≠ .unlock lock) :
    (exec env thread e w).2.holder = w.holder := by
  cases e with
  | tryLock lock => exact absurd rfl (h lock).1
  | unlock lock => exact absurd rfl (h lock).2
  | file certificate e =>
    simp only [exec, execFile]
    split
    · split <;> rfl
    · rfl
  | loadOrStore | acquireSlot => simp only [exec]; split <;> rfl
  | _ => rfl

/-- A lock that is obtained was free. -/
theorem free_of_taken {lock : Nat} (h : (exec env thread (.tryLock lock) w).1 = true) :
    w.holder lock = none := by
  simp only [exec] at h
  split at h
  · cases h
  · assumption

/-- A lock that is known for a certificate stays until it is dropped. -/
theorem exec_locks {id : Id} {lock : Nat} (h : e ≠ .dropLock id) (there : w.locks id = some lock) :
    (exec env thread e w).2.locks id = some lock := by
  cases e with
  | loadOrStore certificate =>
    simp only [exec]
    split
    · exact there
    · rename_i absent
      have away : id ≠ certificate := by
        rintro rfl
        rw [there] at absent
        cases absent
      exact (Function.update_of_ne away _ _).trans there
  | dropLock certificate =>
    have away : id ≠ certificate := fun he => h (he ▸ rfl)
    exact (Function.update_of_ne away _ _).trans there
  | file certificate e =>
    simp only [exec, execFile]
    split
    · split <;> exact there
    · exact there
  | tryLock | acquireSlot => simp only [exec]; split <;> exact there
  | _ => exact there

/-- A new entry of the lock table holds the next number. -/
theorem exec_locks_back {id : Id} {lock : Nat} (h : (exec env thread e w).2.locks id = some lock) :
    w.locks id = some lock ∨ lock = w.nextLock ∧ (exec env thread e w).2.nextLock = w.nextLock + 1 ∧
      e = .loadOrStore id := by
  cases e with
  | loadOrStore certificate =>
    simp only [exec] at h ⊢
    split at h
    · exact Or.inl h
    · have h : Function.update w.locks certificate (some w.nextLock) id = some lock := h
      by_cases he : id = certificate
      · subst id
        rw [Function.update_self] at h
        exact Or.inr ⟨(Option.some.inj h).symm, rfl, rfl⟩
      · rw [Function.update_of_ne he] at h
        exact Or.inl h
  | dropLock certificate =>
    have h : Function.update w.locks certificate none id = some lock := h
    by_cases he : id = certificate
    · subst id
      rw [Function.update_self] at h
      cases h
    · rw [Function.update_of_ne he] at h
      exact Or.inl h
  | file certificate e =>
    refine Or.inl ?_
    simp only [exec, execFile] at h
    split at h
    · split at h <;> exact h
    · exact h
  | tryLock | acquireSlot =>
    refine Or.inl ?_
    simp only [exec] at h
    split at h <;> exact h
  | _ => exact Or.inl h

theorem exec_nextLock : w.nextLock ≤ (exec env thread e w).2.nextLock := by
  cases e with
  | file certificate e =>
    simp only [exec, execFile]
    split
    · split <;> exact Nat.le_refl _
    · exact Nat.le_refl _
  | loadOrStore | tryLock | acquireSlot =>
    simp only [exec]
    split <;> first | exact Nat.le_refl _ | exact Nat.le_succ _
  | _ => exact Nat.le_refl _

theorem exec_next_mono : w.db.certificates.next ≤ (exec env thread e w).2.db.certificates.next := by
  by_cases h : ∃ q, e = .store q
  · obtain ⟨q, rfl⟩ := h
    exact exec_next env.backend q w.db
  · rw [exec_db fun q he => h ⟨q, he⟩]

theorem row_old {id : Id} (old : id < w.db.certificates.next) {c' : Certificate}
    (h : (exec env thread e w).2.db.row id = some c') :
    ∃ c, w.db.row id = some c ∧ c'.outputDirectory = c.outputDirectory := by
  by_cases hq : ∃ q, e = .store q
  · obtain ⟨q, rfl⟩ := hq
    exact exec_row_old old h
  · rw [exec_db fun q he => hq ⟨q, he⟩] at h
    exact ⟨c', h, rfl⟩

theorem row_directory {id : Id} {c' : Certificate}
    (h : (exec env thread e w).2.db.row id = some c') :
    (∃ c, w.db.row id = some c ∧ c'.outputDirectory = c.outputDirectory) ∨
      ∃ value, e = .store (.createCertificate value) ∧
        c'.outputDirectory = value.outputDirectory := by
  by_cases hq : ∃ q, e = .store q
  · obtain ⟨q, rfl⟩ := hq
    rcases exec_row_directory h with kept | ⟨value, rfl, same⟩
    · exact Or.inl kept
    · exact Or.inr ⟨value, rfl, same⟩
  · rw [exec_db fun q he => hq ⟨q, he⟩] at h
    exact Or.inl ⟨c', h, rfl⟩

theorem row_status {id : Id} (old : id < w.db.certificates.next) {c' : Certificate}
    (h : (exec env thread e w).2.db.row id = some c') :
    ∃ c, w.db.row id = some c ∧
      (c'.status = c.status ∨ ∃ q, e = .store q ∧ q.setsStatus = some (id, c'.status)) := by
  by_cases hq : ∃ q, e = .store q
  · obtain ⟨q, rfl⟩ := hq
    obtain ⟨c, there, same | set⟩ := exec_status old h
    · exact ⟨c, there, Or.inl same⟩
    · exact ⟨c, there, Or.inr ⟨q, rfl, set⟩⟩
  · rw [exec_db fun q he => hq ⟨q, he⟩] at h
    exact ⟨c', h, Or.inl rfl⟩

theorem row_terms {id : Id} (old : id < w.db.certificates.next) {c' : Certificate}
    (h : (exec env thread e w).2.db.row id = some c') :
    ∃ c, w.db.row id = some c ∧ c'.terms = c.terms := by
  by_cases hq : ∃ q, e = .store q
  · obtain ⟨q, rfl⟩ := hq
    exact (exec_terms h).resolve_right (Nat.ne_of_lt old)
  · rw [exec_db fun q he => hq ⟨q, he⟩] at h
    exact ⟨c', h, rfl⟩

theorem row_gone {id : Id} (old : id < w.db.certificates.next) (gone : w.db.row id = none) :
    (exec env thread e w).2.db.row id = none := by
  cases found : (exec env thread e w).2.db.row id with
  | none => rfl
  | some c' =>
    obtain ⟨c, there, -⟩ := row_old old found
    rw [gone] at there
    cases there

theorem row_kept {id : Id} {c : Certificate} (there : w.db.row id = some c)
    (kept : ∀ event, e ≠ .store (.deleteCertificateWithAudit id event)) :
    ∃ c', (exec env thread e w).2.db.row id = some c' ∧ c'.outputDirectory = c.outputDirectory := by
  by_cases hq : ∃ q, e = .store q
  · obtain ⟨q, rfl⟩ := hq
    exact exec_row_kept there fun event he => kept event (congrArg Eff.store he)
  · rw [exec_db fun q he => hq ⟨q, he⟩]
    exact ⟨c, there, rfl⟩

theorem bump_self (count : Id → Nat) (id : Id) : bump count id id = count id + 1 :=
  Function.update_self _ _ _

theorem bump_other (count : Id → Nat) {id other : Id} (h : other ≠ id) :
    bump count id other = count other := Function.update_of_ne h _ _

/-- Whatever an operation does, a row of before has the terms it had. -/
theorem run_terms {α : Type} (p : Operation α) (w : World) {id : Id}
    (old : id < w.db.certificates.next) {c' : Certificate}
    (h : (run (exec env thread) p w).2.db.row id = some c') :
    ∃ c, w.db.row id = some c ∧ c'.terms = c.terms := by
  have related := run_related (exec env thread)
    (P := fun w w' => id < w.db.certificates.next → id < w'.db.certificates.next ∧
      ∀ c', w'.db.row id = some c' →
        ∃ c, w.db.row id = some c ∧ c'.terms = c.terms)
    (fun _ old => ⟨old, fun c' h => ⟨c', h, rfl⟩⟩) ?_ ?_ p w
  · exact (related old).2 c' h
  · intro w w' w'' first second old
    obtain ⟨old', first⟩ := first old
    obtain ⟨old'', second⟩ := second old'
    refine ⟨old'', fun c'' h => ?_⟩
    obtain ⟨c', there, same⟩ := second c'' h
    obtain ⟨c, there, same'⟩ := first c' there
    exact ⟨c, there, same.trans same'⟩
  · intro e w old
    exact ⟨Nat.lt_of_lt_of_le old exec_next_mono, fun c' h => row_terms old h⟩

/-- `Issue` or `Renew` of an engine. -/
def issues : Eff → Option Id
  | .issueSelfSigned certificate _ | .renewSelfSigned certificate _
  | .issueACME certificate _ | .renewACME certificate _ => some certificate
  | _ => none

theorem exec_engineCalls {id : Id} (h : issues e ≠ some id) :
    (exec env thread e w).2.engineCalls id = w.engineCalls id := by
  have other : ∀ {certificate : Id}, some certificate ≠ some id → id ≠ certificate := by
    rintro certificate h rfl
    exact h rfl
  cases e with
  | issueSelfSigned | renewSelfSigned | issueACME | renewACME => exact bump_other _ (other h)
  | file certificate e =>
    simp only [exec, execFile]
    split
    · split <;> rfl
    · rfl
  | loadOrStore | tryLock | acquireSlot => simp only [exec]; split <;> rfl
  | _ => rfl

end Frames

end ServiceSteps
