import CertMate.EngineRuns
import CertMate.ServicePool

/-!
# A certificate that `acme.sh` does not renew yet

The service takes the answer "not due" for a failure of the command. Whatever
attempt gets it leaves the certificate in a status that later scans pass over.
-/
namespace NotDueRuns
open CertificateModel CallTrees ServiceWorld CertificateService ServiceSteps
open SqliteStore hiding exec
open DomainValidation (trimSpace validateACMEDomains)
open ServiceProtocol (Request programOf)

/-- A status from which no scan renews. -/
def Blocking (status : Status) : Prop :=
  status = .renewing ∨ status = .issuing ∨ status = .failed

theorem Blocking.refused {status : Status} (h : Blocking status) : renewAllowed status = false := by
  rcases h with rfl | rfl | rfl <;> rfl

/-- How far an attempt on the certificate has come: the status is set, the
engine has been called. -/
inductive Stage where
  | before
  | marked
  | called
  deriving DecidableEq

/-- The certificate that is read is an ACME certificate, and the engine fails. -/
def Fails (id : Id) : (e : Eff) → Ans e → Prop
  | .store (.certificate i), .ok v => i = id → v.id = id ∧ v.mode = .acme
  | .issueACME i _, r => i = id → ∃ failure, r = .error failure
  | .renewACME i _, r => i = id → ∃ failure, r = .error failure
  | _, _ => True

def allows (id : Id) (stage : Stage) : Eff → Prop
  | .store (.certificate i) => i = id
  | .store (.setCertificateStatus i status) =>
    i = id ∧ stage = .before ∧ (status = .renewing ∨ status = .issuing)
  | .store (.markCertificateFailed i _) => i = id ∧ stage ≠ .before
  | .store (.createJob _) | .store (.finishJob _ _ _ _ _) | .store (.createAuditEvent _) => True
  | .issueACME i _ | .renewACME i _ => i = id ∧ stage = .marked
  | .loadOrStore _ | .tryLock _ | .unlock _ | .resolve _ => True
  | _ => False

def note : Stage → (e : Eff) → Ans e → Stage
  | .before, .store (.setCertificateStatus _ _), .ok _ => .marked
  | .marked, .issueACME _ _, _ => .called
  | .marked, .renewACME _ _, _ => .called
  | stage, _, _ => stage

section Conformance
variable {id : Id}

abbrev Keeps (id : Id) {α : Type} (p : Operation α) (stage : Stage) (Q : α → Stage → Prop) : Prop :=
  Follows (Fails id) (allows id) note p stage Q

-- A goal about a program is otherwise reduced as far as the texts in it go.
attribute [local irreducible] trimSpace

variable {s : Service} {value : Certificate}

theorem failRenewal_keeps (here : value.id = id) (job : Id) (exit : Int) (output : Bytes)
    (renewErr : Error) (eventType actor clientIP : String) {stage : Stage}
    (late : stage ≠ .before) :
    Keeps id (failRenewal value job exit output renewErr eventType actor clientIP) stage
      fun _ _ => True := by
  cases stage with
  | before => exact absurd rfl late
  | marked =>
    refine follows_call.mpr ⟨trivial, fun _ _ => ?_⟩
    refine follows_call.mpr ⟨⟨here, late⟩, fun _ _ => ?_⟩
    exact follows_call.mpr ⟨trivial, fun _ _ => trivial⟩
  | called =>
    refine follows_call.mpr ⟨trivial, fun _ _ => ?_⟩
    refine follows_call.mpr ⟨⟨here, late⟩, fun _ _ => ?_⟩
    exact follows_call.mpr ⟨trivial, fun _ _ => trivial⟩

/-- The engine has not delivered. -/
def Empty (obtained : Obtained) (stage : Stage) : Prop :=
  stage ≠ .before ∧ ∃ exit err, obtained = .failed exit err

theorem empty_marked (exit : Int) (err : Error) : Empty (.failed exit err) .marked :=
  ⟨(fun h => nomatch h), exit, err, rfl⟩

theorem renewACME_keeps (here : value.id = id) (order : RenewRequest) :
    Keeps id (renewACME value.id order >>= fun result => pure (acmeObtained value.primaryDomain result))
      .marked Empty := by
  refine follows_call.mpr ⟨⟨here, rfl⟩, fun r fails => ?_⟩
  obtain ⟨failure, rfl⟩ := fails here
  exact ⟨(fun h => nomatch h), _, _, rfl⟩

theorem issueACME_keeps (here : value.id = id) (order : IssueRequest) :
    Keeps id (issueACME value.id order >>= fun result => pure (acmeObtained value.primaryDomain result))
      .marked Empty := by
  refine follows_call.mpr ⟨⟨here, rfl⟩, fun r fails => ?_⟩
  obtain ⟨failure, rfl⟩ := fails here
  exact ⟨(fun h => nomatch h), _, _, rfl⟩

theorem renewMaterial_keeps (here : value.id = id) (acme : value.mode = .acme) (force : Bool) :
    Keeps id (renewMaterial s value force) .marked Empty := by
  unfold renewMaterial
  rw [acme]
  simp only
  split
  · split
    · split
      · refine follows_call.mpr ⟨trivial, fun resolved _ => ?_⟩
        cases resolved with
        | error err => exact empty_marked _ _
        | ok values => exact renewACME_keeps here _
      · exact empty_marked _ _
    · exact renewACME_keeps here _
  · exact empty_marked _ _

theorem issueMaterial_keeps (here : value.id = id) (acme : value.mode = .acme) :
    Keeps id (issueMaterial s value) .marked Empty := by
  unfold issueMaterial
  rw [acme]
  simp only
  split
  · split
    · split
      · refine follows_call.mpr ⟨trivial, fun resolved _ => ?_⟩
        cases resolved with
        | error err => exact empty_marked _ _
        | ok values => exact issueACME_keeps here _
      · exact empty_marked _ _
    · split
      · exact issueACME_keeps here _
      · exact empty_marked _ _
  · exact empty_marked _ _

theorem finishIssue_keeps (here : value.id = id) (job : Id) {obtained : Obtained} {stage : Stage}
    (empty : Empty obtained stage) (mark : Certificate → Operation (Except Error Unit))
    (eventType actor clientIP : String) :
    Keeps id (finishIssue value job obtained mark eventType actor clientIP) stage
      fun _ _ => True := by
  obtain ⟨late, exit, err, rfl⟩ := empty
  exact failRenewal_keeps here job exit [] err eventType actor clientIP late

theorem renewLocked_keeps (here : value.id = id) (acme : value.mode = .acme) (force : Bool)
    (jobType : JobType) (eventType actor clientIP : String) :
    Keeps id (renewLocked s value force jobType eventType actor clientIP) .before
      fun _ _ => True := by
  unfold renewLocked
  split
  · trivial
  · refine follows_call.mpr ⟨⟨here, rfl, Or.inl rfl⟩, fun r _ => ?_⟩
    cases r with
    | error err => trivial
    | ok _ =>
      refine follows_call.mpr ⟨trivial, fun r _ => ?_⟩
      cases r with
      | error err => trivial
      | ok job =>
        exact (renewMaterial_keeps here acme force).bind fun obtained stage empty =>
          finishIssue_keeps here job.id empty _ eventType actor clientIP

theorem issueExistingCertificate_keeps (here : value.id = id) (acme : value.mode = .acme)
    (actor clientIP : String) :
    Keeps id (issueExistingCertificate s value actor clientIP) .before fun _ _ => True := by
  unfold issueExistingCertificate
  split
  · trivial
  · refine follows_call.mpr ⟨⟨here, rfl, Or.inr rfl⟩, fun r _ => ?_⟩
    cases r with
    | error err => trivial
    | ok _ =>
      refine follows_call.mpr ⟨trivial, fun r _ => ?_⟩
      cases r with
      | error err =>
        exact follows_call.mpr ⟨⟨here, (fun h => nomatch h)⟩, fun _ _ => trivial⟩
      | ok job =>
        exact (issueMaterial_keeps here acme).bind fun obtained stage empty =>
          finishIssue_keeps here job.id empty _ _ actor clientIP

theorem issueLocked_keeps (here : value.id = id) (acme : value.mode = .acme) (force : Bool)
    (jobType : JobType) (eventType actor clientIP : String) :
    Keeps id (issueLocked s value force jobType eventType actor clientIP) .before
      fun _ _ => True := by
  unfold issueLocked
  split
  · split
    · trivial
    · exact issueExistingCertificate_keeps here acme actor clientIP
  · exact renewLocked_keeps here acme force jobType eventType actor clientIP

theorem issueExisting_keeps (force : Bool) (jobType : JobType) (eventType actor clientIP : String) :
    Keeps id (issueExisting s id force jobType eventType actor clientIP) .before
      fun _ _ => True := by
  refine follows_call.mpr ⟨rfl, fun r read => ?_⟩
  cases r with
  | error err => trivial
  | ok value =>
    obtain ⟨here, acme⟩ := read rfl
    refine follows_call.mpr ⟨trivial, fun lock _ => ?_⟩
    refine follows_call.mpr ⟨trivial, fun r _ => ?_⟩
    cases r with
    | false => trivial
    | true =>
      refine (issueLocked_keeps here acme force jobType eventType actor clientIP).bind ?_
      exact fun _ _ _ => follows_call.mpr ⟨trivial, fun _ _ => trivial⟩

theorem renew_keeps (force : Bool) (actor clientIP : String) :
    Keeps id (renew s id force actor clientIP) .before fun _ _ => True := by
  unfold renew
  split
  · exact issueExisting_keeps _ _ _ actor clientIP
  · exact issueExisting_keeps _ _ _ actor clientIP

theorem issue_keeps (actor clientIP : String) :
    Keeps id (issue s id actor clientIP) .before fun _ _ => True := by
  refine follows_call.mpr ⟨rfl, fun r read => ?_⟩
  cases r with
  | error err => trivial
  | ok value =>
    simp only
    split
    · trivial
    · exact issueExisting_keeps true .issue _ actor clientIP

end Conformance

section Runs
variable {env : Environment} {thread : Nat} {id : Id} {n : Nat}

/-- The record of an ACME certificate for which the engine has been called `n`
times, or once more with nothing to show for it. -/
structure Holds (id : Id) (n : Nat) (stage : Stage) (w : World) : Prop where
  record : ∃ c, w.db.row id = some c ∧ c.mode = .acme ∧ (stage ≠ .before → Blocking c.status)
  calls : w.engineCalls id = if stage = .called then n + 1 else n

variable (env thread) in
theorem row_after {e : Eff} {w : World} {c : Certificate} (there : w.db.row id = some c)
    (kept : ∀ event, e ≠ .store (.deleteCertificateWithAudit id event)) :
    ∃ c', (exec env thread e w).2.db.row id = some c' ∧ c'.mode = c.mode ∧
      (c'.status = c.status ∨ ∃ q, e = .store q ∧ q.setsStatus = some (id, c'.status)) := by
  have found : ∃ c', (exec env thread e w).2.db.row id = some c' ∧
      c'.outputDirectory = c.outputDirectory := row_kept there kept
  obtain ⟨c', found, -⟩ := found
  have old := Db.lt_next_of_row there
  obtain ⟨c₁, there₁, terms⟩ := row_terms old found
  obtain ⟨c₂, there₂, status⟩ := row_status old found
  cases there₁.symm.trans there
  cases there₂.symm.trans there
  exact ⟨c', found, congrArg Terms.mode terms, status⟩

/-- A call that is not noted sets a blocking status, if any. -/
theorem Holds.kept {stage : Stage} {e : Eff} {w : World} (h : Holds id n stage w)
    (unnoted : ∀ r, note stage e r = stage) (apart : issues e ≠ some id)
    (present : ∀ event, e ≠ .store (.deleteCertificateWithAudit id event))
    (sets : ∀ q status, e = .store q → q.setsStatus = some (id, status) → Blocking status) :
    Holds id n (note stage e (exec env thread e w).1) (exec env thread e w).2 := by
  rw [unnoted]
  obtain ⟨c, there, acme, blocking⟩ := h.record
  obtain ⟨c', found, mode, status⟩ := row_after env thread there present
  refine ⟨⟨c', found, mode.trans acme, fun late => ?_⟩, ?_⟩
  · rcases status with same | ⟨q, isStore, set⟩
    · rw [same]
      exact blocking late
    · exact sets q _ isStore set
  · rw [exec_engineCalls apart]
    exact h.calls

/-- A call of the engine for the certificate. -/
theorem Holds.engine {e : Eff} {w : World} (h : Holds id n .marked w)
    (counted : (exec env thread e w).2 = countEngineCall w id) :
    Holds id n .called (exec env thread e w).2 := by
  obtain ⟨c, there, acme, blocking⟩ := h.record
  rw [counted]
  refine ⟨⟨c, there, acme, fun _ => blocking (fun h => nomatch h)⟩, ?_⟩
  change bump w.engineCalls id id = n + 1
  rw [bump_self, h.calls]
  rfl

/-- The status is set without an error. -/
theorem Holds.marked {status : Status} {v : Unit} {w : World} (h : Holds id n .before w)
    (ok : (exec env thread (.store (.setCertificateStatus id status)) w).1 = .ok v)
    (blocking : Blocking status) :
    Holds id n .marked (exec env thread (.store (.setCertificateStatus id status)) w).2 := by
  obtain ⟨c, there, acme, -⟩ := h.record
  obtain ⟨c', found, mode, -⟩ := row_after env thread
    (e := .store (.setCertificateStatus id status)) there fun event same => nomatch same
  refine ⟨⟨c', found, mode.trans acme, fun _ => ?_⟩, h.calls⟩
  rw [setCertificateStatus_ok ok found]
  exact blocking

variable (failed : ∃ failure, env.acme id n = .error failure)
include failed

theorem holds_step (stage : Stage) (e : Eff) (w : World) (allowed : allows id stage e)
    (h : Holds id n stage w) :
    Fails id e (exec env thread e w).1 ∧
      Holds id n (note stage e (exec env thread e w).1) (exec env thread e w).2 := by
  cases e with
  | store q =>
    cases q with
    | certificate i =>
      obtain rfl : i = id := allowed
      constructor
      · obtain ⟨c, there, acme, -⟩ := h.record
        cases answer : (exec env thread (.store (.certificate i)) w).1 with
        | error err => exact trivial
        | ok v =>
          cases (certificate_ok answer).symm.trans there
          exact fun _ => ⟨Db.id_of_row there, acme⟩
      · refine h.kept (fun r => by cases stage <;> rfl) (fun same => by cases same)
          (fun _ same => by cases same) ?_
        rintro _ _ ⟨⟩ ⟨⟩
    | setCertificateStatus i status =>
      obtain ⟨rfl, rfl, target⟩ := allowed
      refine ⟨trivial, ?_⟩
      cases answer : (exec env thread (.store (.setCertificateStatus i status)) w).1 with
      | error err =>
        have unchanged : (exec env thread (.store (.setCertificateStatus i status)) w).2.db.row i =
            w.db.row i := by
          have same := exec_error answer
          change (SqliteStore.exec env.backend (.setCertificateStatus i status) w.db).2.row i = _
          rw [same, Db.row_tick]
        refine ⟨?_, h.calls⟩
        rw [unchanged]
        exact h.record
      | ok v => exact h.marked answer (target.elim Or.inl fun issuing => Or.inr (Or.inl issuing))
    | markCertificateFailed i message =>
      obtain ⟨rfl, late⟩ := allowed
      refine ⟨trivial, h.kept (fun r => by cases stage <;> rfl) (fun same => by cases same)
        (fun _ same => by cases same) ?_⟩
      rintro _ _ ⟨⟩ ⟨⟩
      exact Or.inr (Or.inr rfl)
    | createJob | finishJob | createAuditEvent =>
      refine ⟨trivial, h.kept (fun r => by cases stage <;> rfl) (fun same => by cases same)
        (fun _ same => by cases same) ?_⟩
      rintro _ _ ⟨⟩ ⟨⟩
    | _ => exact allowed.elim
  | issueACME i order =>
    obtain ⟨rfl, rfl⟩ := allowed
    exact ⟨fun _ => by rw [exec, h.calls]; exact failed, h.engine rfl⟩
  | renewACME i order =>
    obtain ⟨rfl, rfl⟩ := allowed
    exact ⟨fun _ => by rw [exec, h.calls]; exact failed, h.engine rfl⟩
  | loadOrStore | tryLock | unlock | resolve =>
    refine ⟨trivial, h.kept (fun r => by cases stage <;> rfl) (fun same => by cases same)
      (fun _ same => by cases same) ?_⟩
    rintro _ _ ⟨⟩
  | _ => exact allowed.elim

/-- The certificate is where it was, but for its status, or the engine has been
called for it and it is blocked. -/
def Spent (id : Id) (n : Nat) (w : World) : Prop := Holds id n .before w ∨ Holds id n .called w

theorem attempt_spent {α : Type} {p : Operation α}
    (keeps : Keeps id p .before fun _ _ => True) {w : World} (h : Holds id n .before w) :
    Spent id n (run (exec env thread) p w).2 := by
  obtain ⟨-, stage, -, final⟩ := keeps.run_invariant (holds_step failed) h
  cases stage with
  | before => exact Or.inl final
  | marked =>
    obtain ⟨c, there, acme, -⟩ := final.record
    exact Or.inl ⟨⟨c, there, acme, fun h => absurd rfl h⟩, final.calls⟩
  | called => exact Or.inr final

end Runs

section Retries
variable {env : Environment} {thread : Nat} {id : Id} {n : Nat} {s : Service}

/-- The certificate that is read may not be renewed. -/
def Passes (id : Id) : (e : Eff) → Ans e → Prop
  | .store (.certificate i), .ok v => i = id → renewAllowed v.status = false
  | _, _ => True

def Looks (id : Id) : Eff → Prop
  | .store (.certificate i) => i = id
  | .loadOrStore _ | .tryLock _ | .unlock _ | .acquireSlot _ | .releaseSlot _ | .pause _
  | .reportError _ _ | .workerDone _ _ => True
  | _ => False

theorem looks_keeps {stage : Stage} {e : Eff} (looks : Looks id e) {w : World}
    (h : Holds id n stage w) : Holds id n stage (exec env thread e w).2 := by
  have unnoted : ∀ r, note stage e r = stage := by
    intro r
    cases e with
    | store q =>
      cases q with
      | certificate i => cases stage <;> rfl
      | _ => exact looks.elim
    | issueACME i order => exact looks.elim
    | renewACME i order => exact looks.elim
    | _ => cases stage <;> rfl
  rw [← unnoted (exec env thread e w).1]
  refine h.kept unnoted ?_ ?_ ?_
  · intro issued
    cases e <;> first | exact looks.elim | cases issued
  · rintro event rfl
    exact looks.elim
  · rintro q status rfl set
    cases q <;> first | exact looks.elim | cases set

theorem renew_passes (actor clientIP : String) :
    Silent (Passes id) (Looks id) (renew s id false actor clientIP) fun _ => True := by
  refine follows_call.mpr ⟨rfl, fun r read => ?_⟩
  cases r with
  | error err => trivial
  | ok value =>
    refine follows_call.mpr ⟨trivial, fun lock _ => ?_⟩
    refine follows_call.mpr ⟨trivial, fun r _ => ?_⟩
    cases r with
    | false => trivial
    | true =>
      have refused : issueLocked s value false .renew "certificate.renew" actor clientIP =
          .ret (.error (.new "当前证书状态不允许续签")) := by
        rw [issueLocked, if_neg (fun h => nomatch h), renewLocked,
          if_pos (by simp [read rfl])]
        rfl
      simp only [refused]
      exact follows_call.mpr ⟨trivial, fun _ _ => trivial⟩

theorem renew_called (actor clientIP : String) {w : World} (h : Holds id n .called w) :
    Holds id n .called (run (exec env thread) (renew s id false actor clientIP) w).2 := by
  have step : ∀ (_ : Unit) e w', Looks id e → Holds id n .called w' →
      Passes id e (exec env thread e w').1 ∧ Holds id n .called (exec env thread e w').2 := by
    intro _ e w' looks holds
    refine ⟨?_, looks_keeps looks holds⟩
    cases e with
    | store q =>
      cases q with
      | certificate i =>
        obtain rfl : i = id := looks
        obtain ⟨c, there, -, blocking⟩ := holds.record
        cases answer : (exec env thread (.store (.certificate i)) w').1 with
        | error err => trivial
        | ok v =>
          cases (certificate_ok answer).symm.trans there
          exact fun _ => (blocking (fun h => nomatch h)).refused
      | _ => exact looks.elim
    | _ => trivial
  obtain ⟨-, -, -, final⟩ := (renew_passes (s := s) actor clientIP).run_invariant step h
  exact final

theorem looks_spent (e : Eff) (looks : Looks id e) {w : World} (h : Spent id n w) :
    Spent id n (exec env thread e w).2 :=
  h.imp (looks_keeps looks) (looks_keeps looks)

variable (failed : ∃ failure, env.acme id n = .error failure)
include failed

theorem renew_spent (actor clientIP : String) {w : World} (h : Spent id n w) :
    Spent id n (run (exec env thread) (renew s id false actor clientIP) w).2 := by
  rcases h with before | called
  · exact attempt_spent failed (renew_keeps false actor clientIP) before
  · exact Or.inr (renew_called actor clientIP called)

/-- Whatever follows a failed attempt, if it keeps this, so does the attempt. -/
theorem renewalAttempt_spent {again : Error → Operation Attempts}
    (rest : ∀ err w, Spent id n w → Spent id n (run (exec env thread) (again err) w).2) {w : World}
    (h : Spent id n w) : Spent id n (run (exec env thread) (renewalAttempt s id again) w).2 := by
  have after : Spent id n (run (exec env thread) (renew s id false "scheduler" "") w).2 :=
    renew_spent failed "scheduler" "" h
  unfold renewalAttempt
  rw [run_bind]
  cases (run (exec env thread) (renew s id false "scheduler" "") w).1 with
  | ok value => exact after
  | panicked => exact after
  | error renewErr =>
    simp only
    split
    · exact after
    · exact rest renewErr _ after

theorem renewalAttempts_spent (policy : Policy) (left : Nat) {w : World} (h : Spent id n w) :
    Spent id n (run (exec env thread) (renewalAttempts s policy id left) w).2 := by
  induction left generalizing w with
  | zero =>
    refine renewalAttempt_spent failed ?_ h
    exact fun _ _ h => h
  | succ left ih =>
    refine renewalAttempt_spent failed (fun err w h => ?_) h
    rw [Prog.perform_bind, run_call]
    have paused : Spent id n (exec env thread (.pause policy.retryIntervalSeconds) w).2 :=
      looks_spent (.pause _) trivial h
    cases (exec env thread (.pause policy.retryIntervalSeconds) w).1 with
    | false => exact paused
    | true => exact ih paused

theorem renewalWorker_spent (policy : Policy) (scan : Nat) {w : World} (h : Spent id n w) :
    Spent id n (run (exec env thread) (renewalWorker s policy scan id) w).2 := by
  unfold renewalWorker
  rw [Prog.perform_bind, run_call]
  have started : Spent id n (exec env thread (.acquireSlot scan) w).2 :=
    looks_spent (.acquireSlot scan) trivial h
  cases (exec env thread (.acquireSlot scan) w).1 with
  | false =>
    have left : Spent id n (exec env thread (.workerDone scan id)
        (exec env thread (.acquireSlot scan) w).2).2 :=
      looks_spent (.workerDone scan id) trivial started
    exact left
  | true =>
    have done : ∀ {w' : World}, Spent id n w' → Spent id n (run (exec env thread) (do
        let _ ← Prog.perform (Eff.releaseSlot scan)
        Prog.perform (Eff.workerDone scan id) : Operation Unit) w').2 := by
      intro w' h'
      have released : Spent id n (exec env thread (.releaseSlot scan) w').2 :=
        looks_spent (.releaseSlot scan) trivial h'
      have left : Spent id n (exec env thread (.workerDone scan id)
          (exec env thread (.releaseSlot scan) w').2).2 :=
        looks_spent (.workerDone scan id) trivial released
      exact left
    have ended : Spent id n (run (exec env thread) (renewalAttempts s policy id policy.retryCount)
        (exec env thread (.acquireSlot scan) w).2).2 :=
      renewalAttempts_spent failed policy policy.retryCount started
    simp only [run_bind]
    cases (run (exec env thread) (renewalAttempts s policy id policy.retryCount)
        (exec env thread (.acquireSlot scan) w).2).1 with
    | panicked => exact ended
    | cancelled => exact done ended
    | ended renewErr =>
      cases renewErr with
      | none => exact done ended
      | some renewErr =>
        simp only
        split
        · exact done ended
        · exact done (looks_spent (.reportError scan renewErr) trivial ended)

end Retries

/-- The attempts on a certificate that do not force a renewal. -/
inductive Attempt where
  | renew (actor clientIP : String)
  | issue (actor clientIP : String)
  | scheduled (policy : Policy) (scan : Nat)

def Attempt.request (id : Id) : Attempt → Request
  | .renew actor clientIP => .renew id false actor clientIP
  | .issue actor clientIP => .issue id actor clientIP
  | .scheduled policy scan => .worker policy scan id

/-- Whenever an attempt on an ACME certificate reaches the engine and `acme.sh`
answers that it is not due, the certificate is not active afterwards, and no scan
renews it. -/
theorem not_due_blocks (s : Service) (env : Environment) (thread : Nat) (c : AcmeEngine.CLI)
    (p : AcmeEngine.Parsers) (w : World) (id : Id) (attempt : Attempt) {value : Certificate}
    (there : w.db.row id = some value) (acme : value.mode = .acme)
    (notDue : AcmeEngine.NotDue c p (env.acme id (w.engineCalls id)))
    (reached : (run (exec env thread) (programOf s (attempt.request id)) w).2.engineCalls id ≠
      w.engineCalls id) :
    ∃ after, (run (exec env thread) (programOf s (attempt.request id)) w).2.db.row id = some after ∧
      after.status ≠ .active ∧ renewAllowed after.status = false := by
  obtain ⟨failure, answer, -⟩ := notDue.failed
  have failed : ∃ failure, env.acme id (w.engineCalls id) = .error failure := ⟨failure, answer⟩
  have start : Holds id (w.engineCalls id) .before w :=
    ⟨⟨value, there, acme, fun h => absurd rfl h⟩, rfl⟩
  have spent : Spent id (w.engineCalls id)
      (run (exec env thread) (programOf s (attempt.request id)) w).2 := by
    cases attempt with
    | renew actor clientIP =>
      rw [Attempt.request, programOf, run_bind]
      exact attempt_spent failed (renew_keeps false actor clientIP) start
    | issue actor clientIP =>
      rw [Attempt.request, programOf, run_bind]
      exact attempt_spent failed (issue_keeps actor clientIP) start
    | scheduled policy scan =>
      rw [Attempt.request, programOf, run_bind]
      exact renewalWorker_spent failed policy scan (Or.inl start)
  rcases spent with before | called
  · exact absurd before.calls reached
  · obtain ⟨after, found, -, blocking⟩ := called.record
    have blocked := blocking (fun h => nomatch h)
    refine ⟨after, found, ?_, blocked.refused⟩
    intro active
    rw [active] at blocked
    rcases blocked with h | h | h <;> cases h

def skippingCLI : AcmeEngine.CLI := AcmeEngine.dataCLI

def skippingParsers : AcmeEngine.Parsers := AcmeEngine.noParsers

def skipping : AcmeEngine.Process :=
  ⟨.exited 2, "Skipping. Next renewal time is: 2026-12-01T00:00:00Z"⟩

def skippedRequest : RenewRequest := renewRequest ServicePool.sampleCertificate false noProcessValues

def uninstalled : AcmeEngine.Installation := ⟨none, skipping, .error ⟨"", none, false, false⟩⟩

def skippingEnvironment : Environment :=
  { ServicePool.sampleEnvironment with
    acme := fun _ _ =>
      AcmeEngine.renew skippingCLI skippingParsers skippedRequest skipping uninstalled }

theorem skipping_not_due : AcmeEngine.NotDue skippingCLI skippingParsers
    (AcmeEngine.renew skippingCLI skippingParsers skippedRequest skipping uninstalled) := by
  have built : AcmeEngine.renewArguments skippingCLI skippingParsers skippedRequest =
      .ok ["--config-home", "/data/acme", "--cert-home", "/data/acme/certs", "--renew", "-d",
        "example.com", "--ecc"] := by
    decide +kernel
  exact .renew built rfl rfl rfl

theorem not_due_blocks_renewal : ∃ after,
    (run (exec skippingEnvironment 0) (programOf ServicePool.sampleService
      (.renew 0 false "admin" "")) ServicePool.sampleWorld).2.db.row 0 = some after ∧
      after.status ≠ .active ∧ renewAllowed after.status = false := by
  exact not_due_blocks ServicePool.sampleService skippingEnvironment 0 skippingCLI skippingParsers
    ServicePool.sampleWorld 0 (.renew "admin" "") rfl rfl skipping_not_due (by decide +kernel)

/-- The certificate was active, and a renewal that changes nothing takes that away. -/
theorem not_due_not_active :
    ServicePool.sampleCertificate.status = .active ∧
      AcmeEngine.NotDue skippingCLI skippingParsers (skippingEnvironment.acme 0 0) ∧
      ¬ ∃ after, (run (exec skippingEnvironment 0) (programOf ServicePool.sampleService
        (.renew 0 false "admin" "")) ServicePool.sampleWorld).2.db.row 0 = some after ∧
          after.status = .active := by
  refine ⟨rfl, skipping_not_due, ?_⟩
  have failed : ((run (exec skippingEnvironment 0) (programOf ServicePool.sampleService
      (.renew 0 false "admin" "")) ServicePool.sampleWorld).2.db.row 0).map Certificate.status =
        some .failed := by
    decide +kernel
  rintro ⟨after, found, active⟩
  rw [found] at failed
  cases (Option.some.inj failed).symm.trans active

end NotDueRuns
