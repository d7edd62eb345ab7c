import CertMate.ServiceSteps

/-!
# Past the gate

An operation that works on a certificate has passed its gate, unless it creates the
certificate. Only such operations set a status.
-/
namespace GateSteps
open CertificateModel CallTrees ServiceWorld CertificateService ServiceProtocol ServiceSteps
open SqliteStore hiding exec

/-- The phases of an operation that has passed its gate. -/
def PastGate (request : Request) : Phase → Prop
  | .held value _ => request.gate value = true
  | .marked _ (some _) | .working _ (some _) _ _ | .revoking _ _ | .revoked _ _ => True
  | _ => False

theorem PastGate.lock {request : Request} {phase : Phase} (h : PastGate request phase) :
    ∃ v lock, phase.value = some v ∧ phase.lock = some lock := by
  cases phase with
  | marked v lock | working v lock =>
    cases lock with
    | none => exact h.elim
    | some lock => exact ⟨v, lock, rfl, rfl⟩
  | held v lock | revoking v lock | revoked v lock => exact ⟨v, lock, rfl, rfl⟩
  | _ => exact h.elim

/-- Whoever sets the status of a certificate is past the gate or creates it;
`revoked` is set after the CA has accepted. -/
theorem setter {request : Request} {phase : Phase} {q : Query} {id : Id} {status : Status}
    (allowed : allowsQuery request phase q) (set : q.setsStatus = some (id, status)) :
    ∃ v, phase.value = some v ∧ v.id = id ∧
      (PastGate request phase ∨ phase.creating = some v) ∧
      (status = .revoked → ∃ lock, phase = .revoked v lock ∧ q = .setCertificateStatus id .revoked) := by
  have either : ∀ {v lock},
      phase = .marked v lock ∨ (∃ got progress, phase = .working v lock got progress) →
      PastGate request phase ∨ phase.creating = some v := by
    rintro v lock (rfl | ⟨got, progress, rfl⟩) <;> cases lock
    · exact Or.inr rfl
    · exact Or.inl trivial
    · exact Or.inr rfl
    · exact Or.inl trivial
  cases q with
  | setCertificateStatus key written =>
    cases set
    cases phase with
    | held v lock =>
      obtain ⟨rfl, gate, target⟩ := allowed
      refine ⟨v, rfl, rfl, Or.inl gate, fun revoked => ?_⟩
      rcases target with rfl | rfl <;> cases revoked
    | revoked v lock =>
      obtain ⟨rfl, rfl⟩ := allowed
      exact ⟨v, rfl, rfl, Or.inl trivial, fun _ => ⟨lock, rfl, rfl⟩⟩
    | _ => exact allowed.elim
  | markCertificateFailed key message =>
    cases set
    cases phase with
    | marked v lock =>
      obtain rfl : id = v.id := allowed
      exact ⟨v, rfl, rfl, either (Or.inl rfl), nofun⟩
    | working v lock got progress =>
      obtain ⟨rfl, -⟩ := allowed
      exact ⟨v, rfl, rfl, either (Or.inr ⟨_, _, rfl⟩), nofun⟩
    | _ => exact allowed.elim
  | markCertificateIssued c | markCertificateRenewed c =>
    cases set
    cases phase with
    | working v lock got progress =>
      cases got with
      | none => exact allowed.elim
      | some material =>
        cases progress with
        | released =>
          obtain rfl : c = withMaterial v material := allowed
          exact ⟨v, rfl, rfl, either (Or.inr ⟨_, _, rfl⟩), nofun⟩
        | _ => exact allowed.elim
    | _ => exact allowed.elim
  | _ => cases set

/-- A phase past the gate follows such a phase, or the lock has just been taken. -/
theorem gate_before {request : Request} {phase phase' : Phase} {e : Eff} {r : Ans e}
    (move : Move request phase e r phase') (past : PastGate request phase') :
    PastGate request phase ∧ phase.value = phase'.value ∨
      ∃ v lock, phase = .found v lock ∧ phase' = .held v lock ∧ e = .tryLock lock ∧ HEq r true := by
  cases move with
  | stay still => exact Or.inl ⟨past, rfl⟩
  | take => exact Or.inr ⟨_, _, rfl, rfl, rfl, HEq.rfl⟩
  | mark gate target => exact Or.inl ⟨gate, rfl⟩
  | beginRevoke about gate revokes => exact Or.inl ⟨gate, rfl⟩
  | @work v lock run job about =>
    cases lock with
    | none => exact past.elim
    | some lock => exact Or.inl ⟨trivial, rfl⟩
  | @deliver v lock e r material got =>
    cases lock with
    | none => exact past.elim
    | some lock => exact Or.inl ⟨trivial, rfl⟩
  | @publish v lock material p progress e r safe matching allowed honest =>
    cases lock with
    | none => exact past.elim
    | some lock => exact Or.inl ⟨trivial, rfl⟩
  | revoke => exact Or.inl ⟨trivial, rfl⟩
  | release mine done next =>
    rcases next with rfl | ⟨v, -, rfl⟩ <;> exact past.elim
  | _ => exact past.elim

end GateSteps
