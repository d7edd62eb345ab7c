import CertMate.DeleteExclusion
import CertMate.GateSteps

/-!
# One operation at work on a certificate

A creation takes no lock. As long as it goes on its record says `issuing`, which no gate
lets pass, so nobody else gets to work on the certificate. A delete may take the record
away meanwhile; then the directory has no owner, unless it is given to a new record.
-/
namespace LoneCreations
open CertificateModel CallTrees ThreadPools ServiceWorld CertificateService ServiceProtocol
  ServiceSteps ServicePool DeleteExclusion
open SqliteStore hiding exec
open GateSteps (PastGate gate_before setter)

/-- No gate lets a certificate pass that is being issued. -/
theorem gate_issuing (request : Request) {value : Certificate} (issuing : value.status = .issuing) :
    request.gate value = false := by
  cases request <;>
    simp [Request.gate, manualIssueAllowed, renewAllowed, revokeAllowed, issuing]

/-- Whoever is past the gate has passed it with the certificate that was read. -/
def gated : Assertion Eff Ans World Local (Outcome Unit) where
  world _ := True
  thread _ th _ := ∀ v, th.seen.phase.value = some v → PastGate th.seen.request th.seen.phase →
    th.seen.request.gate v = true

theorem gated_own {request : Request} {phase phase' : Phase} {e : Eff} {r : Ans e}
    (move : Move request phase e r phase')
    (h : ∀ v, phase.value = some v → PastGate request phase → request.gate v = true)
    (v : Certificate) (value : phase'.value = some v) (past : PastGate request phase') :
    request.gate v = true := by
  rcases gate_before move past with ⟨before, same⟩ | ⟨v', lock, -, rfl, -⟩
  · exact h v (same.trans value) before
  · cases value
    exact past

theorem gated_stable {env : Environment} {s : Service}
    {D : Discipline Eff Ans World Local (Outcome Unit)} :
    gated.Stable (pool env s) D (Sound env s) where
  own _ t _ _ _ sound holds running _ _ :=
    ⟨trivial, gated_own (sound.move running) (holds.thread t _ running)⟩
  other _ _ _ _ _ u _ _ holds _ _ _ _ there := holds.thread u _ there
  start _ _ _ _ _ _ started _ := by
    obtain ⟨request, -, rfl⟩ := started
    exact fun _ h => by cases h
  spawn _ _ _ _ _ _ _ _ _ _ child _ _ := by
    obtain ⟨request, rfl⟩ := spawn_some child
    exact fun _ h => by cases h
  crash _ _ _ _ := trivial

/-- Nobody but thread `t` works on the certificate that it creates: whoever else has read
the certificate has found it being issued. -/
structure Lone (c : Configuration) (t : Nat) (v : Certificate) : Prop where
  row : ∀ row, c.world.db.row v.id = some row →
    row.status = .issuing ∧ row.fingerprintSHA256 = ""
  others : ∀ u th v', u ≠ t → c.threads u = some th → th.seen.phase.value = some v' →
    v'.id = v.id → v'.status = .issuing ∧ th.seen.phase.creating = none

/-- Every creation has its certificate for itself. -/
def Unshared (c : Configuration) : Prop :=
  ∀ t th v, c.threads t = some th → Creates th.seen.phase v → Lone c t v

theorem value_of_creates {phase : Phase} {v : Certificate} (h : Creates phase v) :
    phase.value = some v := by
  rcases h with rfl | ⟨got, progress, rfl⟩ <;> rfl

/-- A statement that sets no status leaves what it says of an issue, too. -/
theorem change_silent {now : Nat → Time} {q : Query} {id : Id} {u : Update}
    (change : q.change now = some (id, u)) (silent : q.setsStatus = none) (row : Certificate) :
    (u.apply row).status = row.status ∧
      (u.apply row).fingerprintSHA256 = row.fingerprintSHA256 := by
  cases q <;> cases silent <;> cases change
  exact ⟨rfl, rfl⟩

/-- A creation that goes on has set no status. -/
theorem silent_of_creates {request : Request} {phase : Phase} {q : Query} {r : Ans (.store q)}
    {v v' : Certificate} (allowed : allowsQuery request phase q) (creates : Creates phase v)
    (goes : Creates (note phase (.store q) r) v') : q.setsStatus = none := by
  rcases creates with rfl | ⟨got, progress, rfl⟩
  · cases q with
    | markCertificateFailed =>
      rcases goes with same | ⟨got, progress, same⟩ <;> cases same
    | markCertificateIssued | markCertificateRenewed | setCertificateStatus => exact allowed.elim
    | _ => rfl
  · cases q with
    | markCertificateFailed | markCertificateIssued | markCertificateRenewed =>
      rcases goes with same | ⟨got, progress, same⟩ <;> cases same
    | setCertificateStatus => exact allowed.elim
    | _ => rfl

/-- A creation comes from another phase of it or has just inserted its record. -/
theorem creates_before {request : Request} {phase phase' : Phase} {e : Eff} {r : Ans e}
    (move : Move request phase e r phase') {v : Certificate} (creates : Creates phase' v) :
    Creates phase v ∨ ∃ value, e = .store (.createCertificate value) ∧
      HEq r (Except.ok (ε := Error) v) ∧ value.status = .issuing := by
  cases move with
  | stay still => exact Or.inl creates
  | create requested issuing =>
    rcases creates with same | ⟨got, progress, same⟩ <;> cases same
    exact Or.inr ⟨_, rfl, HEq.rfl, issuing⟩
  | work about =>
    rcases creates with same | ⟨got, progress, same⟩ <;> cases same
    exact Or.inl (Or.inl rfl)
  | deliver got =>
    rcases creates with same | ⟨got, progress, same⟩ <;> cases same
    exact Or.inl (Or.inr ⟨_, _, rfl⟩)
  | publish safe matching allowed honest =>
    rcases creates with same | ⟨got, progress, same⟩ <;> cases same
    exact Or.inl (Or.inr ⟨_, _, rfl⟩)
  | release mine done next =>
    rcases next with rfl | ⟨v', -, rfl⟩ <;>
      rcases creates with same | ⟨got, progress, same⟩ <;> cases same
  | _ => rcases creates with same | ⟨got, progress, same⟩ <;> cases same

/-- A creation that sets a status has not done so before. -/
theorem creates_of_set {request : Request} {phase : Phase} {q : Query} {v : Certificate}
    {change : Id × Status} (allowed : allowsQuery request phase q)
    (set : q.setsStatus = some change) (creating : phase.creating = some v) : Creates phase v := by
  cases phase with
  | marked v' lock =>
    cases lock with
    | none =>
      cases creating
      exact Or.inl rfl
    | some lock => cases creating
  | working v' lock got progress =>
    cases lock with
    | none =>
      cases creating
      exact Or.inr ⟨got, progress, rfl⟩
    | some lock => cases creating
  | settled v' lock =>
    cases q with
    | setCertificateStatus | markCertificateIssued | markCertificateRenewed
    | markCertificateFailed => exact allowed.elim
    | _ => cases set
  | _ => cases creating

theorem sets_of_change {now : Nat → Time} {q : Query} {id : Id} {u : Update}
    (change : q.change now = some (id, u)) :
    q.setsStatus = none ∨ ∃ status, q.setsStatus = some (id, status) := by
  cases q <;> cases change <;> first | exact Or.inl rfl | exact Or.inr ⟨_, rfl⟩

/-- The record of a creation stays as it was inserted until somebody sets its status. -/
theorem unissued_kept {env : Environment} {t : Nat} {e : Eff} {w : World} {id : Id}
    (old : id < w.db.certificates.next)
    (silent : ∀ q status, e = .store q → q.setsStatus ≠ some (id, status))
    (h : ∀ row, w.db.row id = some row → row.status = .issuing ∧ row.fingerprintSHA256 = "")
    (row : Certificate) (there : (exec env t e w).2.db.row id = some row) :
    row.status = .issuing ∧ row.fingerprintSHA256 = "" := by
  by_cases isStore : ∃ q, e = .store q
  · obtain ⟨q, rfl⟩ := isStore
    change (SqliteStore.exec env.backend q w.db).2.row id = some row at there
    cases exec_row env.backend q w.db id with
    | same row => exact h _ (row ▸ there)
    | changed u change row =>
      rw [row] at there
      obtain ⟨before, found, rfl⟩ := Option.map_eq_some_iff.mp there
      rcases sets_of_change change with none | ⟨status, set⟩
      · obtain ⟨status, fingerprint⟩ := change_silent change none before
        exact ⟨status.trans (h before found).1, fingerprint.trans (h before found).2⟩
      · exact absurd set (silent q status rfl)
    | created value query new row => exact absurd new (Nat.ne_of_lt old)
    | deleted event query present row =>
      rw [row] at there
      cases there
  · rw [exec_db fun q he => isStore ⟨q, he⟩] at there
    exact h row there

section Call
variable {env : Environment} {s : Service} {c : Configuration} {t : Nat} {e : Eff}
  {k : Ans e → Operation (Outcome Unit)} {l : Local} (sound : Sound env s c)
  (running : c.threads t = some ⟨.call e k, l⟩)
include sound running

/-- What another thread reads of the certificate is the record of the creation. -/
theorem Lone.mover {u : Nat} {v : Certificate} (lone : Lone c u v) (other : t ≠ u)
    (old : v.id < c.world.db.certificates.next) (v' : Certificate)
    (value : (note l.phase e (exec env t e c.world).1).value = some v') (same : v'.id = v.id) :
    v'.status = .issuing ∧ (note l.phase e (exec env t e c.world).1).creating = none := by
  have before : l.phase.value = some v' → v'.status = .issuing ∧ l.phase.creating = none :=
    fun value => lone.others t _ v' other running value same
  have move := sound.move running
  generalize note l.phase e (exec env t e c.world).1 = phase' at move value
  generalize answer : (exec env t e c.world).1 = r at move
  obtain ⟨request, phase⟩ := l
  cases move with
  | stay still => exact before value
  | @read _ id found fresh numbered =>
    cases value
    have there := SqliteStore.certificate_ok answer
    rw [← numbered, same] at there
    exact ⟨(lone.row v' there).1, rfl⟩
  | create creates issuing =>
    cases value
    obtain ⟨rfl, -⟩ := SqliteStore.createCertificate_ok answer
    exact absurd same (Nat.ne_of_gt old)
  | refuse => cases value
  | release mine done next =>
    rcases next with rfl | ⟨v₀, rfl, rfl⟩
    · cases value
    · exact ⟨(before value).1, rfl⟩
  | @work v₀ lock | @giveUp v₀ lock | @deliver v₀ lock | @publish v₀ lock | @record v₀ lock
  | @fail v₀ lock =>
    cases lock with
    | none => exact absurd (before value).2 (by simp [Phase.creating])
    | some lock => exact ⟨(before value).1, rfl⟩
  | _ => exact ⟨(before value).1, rfl⟩

theorem Unshared.call (unshared : Unshared c) (gates : gated.Holds c) :
    Unshared ((pool env s).after c t e k l) := by
  intro u th v there creates
  have allowed := sound.allowed running
  by_cases mover : u = t
  · subst mover
    cases (after_self _ _ _ _ _ _).symm.trans there
    have others : ∀ u' th' v', u' ≠ u → ((pool env s).after c u e k l).threads u' = some th' →
        th'.seen.phase.value = some v' →
          c.threads u' = some th' ∧ v'.id < c.world.db.certificates.next := by
      intro u' th' v' away there value
      have before : c.threads u' = some th' := by simpa [System.after, away] using there
      exact ⟨before, (sound.standing before).old v' value⟩
    rcases creates_before (sound.move running) creates with before | ⟨value, rfl, answer, issuing⟩
    · have lone := unshared u _ v running before
      refine ⟨?_, fun u' th' v' away there value => ?_⟩
      · refine unissued_kept ((sound.standing running).old v (value_of_creates before)) ?_ lone.row
        rintro q status rfl set
        rw [silent_of_creates allowed before creates] at set
        cases set
      · exact lone.others u' th' v' away (others u' th' v' away there value).1 value
    · obtain ⟨rfl, stored, -⟩ := SqliteStore.createCertificate_ok (eq_of_heq answer)
      refine ⟨fun row found => ?_, fun u' th' v' away there value same => ?_⟩
      · cases stored.symm.trans found
        exact ⟨issuing, rfl⟩
      · exact absurd same (Nat.ne_of_lt (others u' th' v' away there value).2)
  · have before : c.threads u = some th := by simpa [System.after, mover] using there
    have lone := unshared u th v before creates
    have old := (sound.standing before).old v (value_of_creates creates)
    refine ⟨unissued_kept old ?_ lone.row, fun u' th' v' away there value same => ?_⟩
    · rintro q status rfl set
      obtain ⟨v', value, named, past | creating, -⟩ := setter allowed set
      · have issuing := (lone.others t _ v' (Ne.symm mover) running value named).1
        have passed := gates.thread t _ running v' value past
        rw [gate_issuing _ issuing] at passed
        cases passed
      · cases (lone.others t _ v' (Ne.symm mover) running value named).2.symm.trans creating
    · by_cases moved : u' = t
      · subst moved
        cases (after_self _ _ _ _ _ _).symm.trans there
        exact lone.mover sound running (Ne.symm mover) old v' value same
      · have before' : c.threads u' = some th' := by simpa [System.after, moved] using there
        exact lone.others u' th' v' away before' value same

end Call

/-- A thread that has read nothing yet, or none at all. -/
theorem Unshared.set {c : Configuration} (h : Unshared c) (t : Nat)
    {o : Option (Thread Eff Ans Local (Outcome Unit))}
    (idle : ∀ th, o = some th → th.seen.phase = .idle) : Unshared (c.set t o) := by
  have before : ∀ u th v, (c.set t o).threads u = some th → th.seen.phase.value = some v →
      c.threads u = some th := by
    intro u th v there value
    by_cases he : u = t
    · subst he
      rw [Config.set_self] at there
      rw [idle th there] at value
      cases value
    · exact (Config.set_other _ _ he).symm.trans there
  intro u th v there creates
  have lone := h u th v (before u th v there (value_of_creates creates)) creates
  refine ⟨lone.row, fun u' th' v' away there value => ?_⟩
  exact lone.others u' th' v' away (before u' th' v' there value) value

theorem Unshared.step {env : Environment} {s : Service}
    {D : Discipline Eff Ans World Local (Outcome Unit)} {c c' : Configuration}
    (sound : Sound env s c) (gates : gated.Holds c) (h : Unshared c)
    (hs : Step (pool env s) D c c') : Unshared c' := by
  cases hs with
  | start free starts ok =>
    obtain ⟨request, -, rfl⟩ := starts
    refine h.set _ ?_
    rintro _ ⟨⟩
    rfl
  | call running enabled alone ok => exact h.call sound running gates
  | spawn running enabled child free ok =>
    obtain ⟨request, rfl⟩ := spawn_some child
    refine (h.call sound running gates).set _ ?_
    rintro _ ⟨⟩
    rfl
  | finish running =>
    refine h.set _ ?_
    rintro _ ⟨⟩
  | crash ok =>
    intro t th v there
    cases there

/-- What is known of every reachable configuration. -/
structure Lawful (env : Environment) (s : Service) (c : Configuration) : Prop where
  sound : Sound env s c
  gates : gated.Holds c
  unshared : Unshared c

theorem Lawful.step {env : Environment} {s : Service}
    {D : Discipline Eff Ans World Local (Outcome Unit)} {c c' : Configuration}
    (h : Lawful env s c) (hs : Step (pool env s) D c c') : Lawful env s c' where
  sound := h.sound.step hs
  gates := gated_stable.step h.sound h.gates hs
  unshared := h.unshared.step h.sound h.gates hs

theorem Lawful.start {env : Environment} {s : Service} {c : Configuration} (started : Started c) :
    Lawful env s c where
  sound := started.sound
  gates := started.holds trivial
  unshared t th v there := by
    rw [started.threads t] at there
    cases there

/-- At work on a certificate, from the job record to the end of the publication. -/
def Works (phase : Phase) (v : Certificate) : Prop :=
  ∃ lock got progress, phase = .working v lock got progress

/-- No two operations work on one stored certificate. -/
theorem sole_worker {env : Environment} {s : Service} {c : Configuration} (sound : Sound env s c)
    (gates : gated.Holds c) (unshared : Unshared c) {t u : Nat}
    {th th' : Thread Eff Ans Local (Outcome Unit)} (there : c.threads t = some th)
    (there' : c.threads u = some th') {v v' : Certificate} (works : Works th.seen.phase v)
    (works' : Works th'.seen.phase v') (same : v.id = v'.id) {row : Certificate}
    (stored : c.world.db.row v.id = some row) : t = u := by
  by_contra away
  -- A creation leaves no room for anybody who is past the gate, nor for another creation.
  have alone : ∀ {t u : Nat} {th th' : Thread Eff Ans Local (Outcome Unit)} {v v' : Certificate},
      c.threads t = some th → c.threads u = some th' → (∃ got progress,
        th.seen.phase = .working v none got progress) → Works th'.seen.phase v' → v.id = v'.id →
          t ≠ u → False := by
    intro t u th th' v v' there there' creates works' same away
    obtain ⟨got, progress, phase⟩ := creates
    obtain ⟨lock', got', progress', phase'⟩ := works'
    have lone := unshared t th v there (Or.inr ⟨got, progress, phase⟩)
    have value : th'.seen.phase.value = some v' := by rw [phase']; rfl
    obtain ⟨issuing, creating⟩ := lone.others u th' v' (Ne.symm away) there' value same.symm
    cases lock' with
    | none =>
      rw [phase'] at creating
      cases creating
    | some lock' =>
      have past : PastGate th'.seen.request th'.seen.phase := by rw [phase']; trivial
      have passed := gates.thread u th' there' v' value past
      rw [gate_issuing _ issuing] at passed
      cases passed
  obtain ⟨lock, got, progress, phase⟩ := id works
  obtain ⟨lock', got', progress', phase'⟩ := id works'
  cases lock with
  | none => exact alone there there' ⟨got, progress, phase⟩ works' same away
  | some lock =>
    cases lock' with
    | none => exact alone there' there ⟨got', progress', phase'⟩ works same.symm (Ne.symm away)
    | some lock' =>
      have value : th.seen.phase.value = some v := by rw [phase]; rfl
      have value' : th'.seen.phase.value = some v' := by rw [phase']; rfl
      have holds : th.seen.phase.lock = some lock := by rw [phase]; rfl
      have holds' : th'.seen.phase.lock = some lock' := by rw [phase']; rfl
      exact away (exclusive (sound.standing there) (sound.standing there') value value' same holds
        holds' stored)

/-- No record is inserted for a directory to which a creation may still publish whose own
record has been deleted. -/
def SparesStrays (c : Configuration) (e : Eff) : Prop :=
  ∀ value, e = .store (.createCertificate value) → ∀ t th v, c.threads t = some th →
    Creates th.seen.phase v → c.world.db.row v.id = none →
      v.outputDirectory ≠ value.outputDirectory

/-- The directory of such a creation has no owner. -/
def deserted : Assertion Eff Ans World Local (Outcome Unit) where
  world _ := True
  thread _ th w := ∀ v, Creates th.seen.phase v → w.db.row v.id = none →
    Vacant v.outputDirectory w

/-- The record that goes away was the owner, and there is no second one. -/
theorem vacant_of_gone {env : Environment} {t : Nat} {e : Eff} {w : World} {v : Certificate}
    (directory : ∀ row, w.db.row v.id = some row → row.outputDirectory = v.outputDirectory)
    (h : w.db.row v.id = none → Vacant v.outputDirectory w)
    (spares : ∀ value, e = .store (.createCertificate value) → w.db.row v.id = none →
      v.outputDirectory ≠ value.outputDirectory)
    (gone : (exec env t e w).2.db.row v.id = none) :
    Vacant v.outputDirectory (exec env t e w).2 := by
  cases found : w.db.row v.id with
  | none => exact vacant_kept (h found) fun value he => spares value he found
  | some row =>
    intro id row' there same
    rcases row_directory there with ⟨c, before, kept⟩ | ⟨value, rfl, -⟩
    · have owner : id = v.id := Db.same_directory before found
        ((kept.symm.trans same).trans (directory row found).symm)
      subst owner
      cases gone.symm.trans there
    · have spared : ∀ event, Eff.store (.createCertificate value) ≠
          .store (.deleteCertificateWithAudit v.id event) := by
        intro event he
        cases he
      obtain ⟨row', stays, -⟩ := row_kept found spared
      cases gone.symm.trans stays

theorem deserted_stable {env : Environment} {s : Service}
    {D : Discipline Eff Ans World Local (Outcome Unit)}
    (spares : ∀ c t e, D.call c t e → SparesStrays c e) :
    deserted.Stable (pool env s) D (Sound env s) where
  own c t e k l sound holds running _ ok := by
    refine ⟨trivial, fun v creates gone => ?_⟩
    rcases creates_before (sound.move running) creates with before | ⟨value, rfl, answer, -⟩
    · refine vacant_of_gone (fun row => ?_) (holds.thread t _ running v before)
        (fun value he => spares c t e ok value he t _ v running before) gone
      exact (sound.standing running).directory v row (value_of_creates before)
    · obtain ⟨rfl, stored, -⟩ := SqliteStore.createCertificate_ok (eq_of_heq answer)
      cases gone.symm.trans stored
  other c t e _ _ u th sound holds _ _ ok _ there v creates gone := by
    refine vacant_of_gone (fun row => ?_) (holds.thread u th there v creates)
      (fun value he => spares c t e ok value he u th v there creates) gone
    exact (sound.standing there).directory v row (value_of_creates creates)
  start _ _ _ _ _ _ started _ := by
    obtain ⟨request, -, rfl⟩ := started
    rintro v (same | ⟨got, progress, same⟩) <;> cases same
  spawn _ _ _ _ _ _ _ _ _ _ child _ _ := by
    obtain ⟨request, rfl⟩ := spawn_some child
    rintro v (same | ⟨got, progress, same⟩) <;> cases same
  crash _ _ _ _ := trivial

end LoneCreations
