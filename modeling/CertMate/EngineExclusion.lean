import CertMate.ServicePool

/-!
# One engine call at a time

An operation on a stored certificate reaches an engine through its lock and
through a job record. A delete drops the lock from the table, so a later
operation may get another one; the foreign key of the job record then stops it.
-/
namespace EngineExclusion
open CertificateModel CallTrees ThreadPools ServiceWorld CertificateService ServiceProtocol
  ServiceSteps ServicePool
open SqliteStore hiding exec

/-- The certificate that an engine works for during the call. -/
def engineCall : Eff → Option Id
  | .issueSelfSigned certificate _ | .renewSelfSigned certificate _
  | .issueACME certificate _ | .renewACME certificate _
  | .revokeACME certificate _ => some certificate
  | _ => none

/-- A thread with an engine call for a stored certificate: the call has begun
and has not been answered. -/
def Engaged (c : Configuration) (id : Id) (t : Nat) : Prop :=
  ∃ e k l, c.threads t = some ⟨.call e k, l⟩ ∧ engineCall e = some id ∧ ¬ l.request.creates

/-- An engine is called by an operation that is attached to the certificate. -/
theorem attached_of_engineCall {l : Local} {e : Eff} {id : Id} (allowed : allowsLocal l e)
    (called : engineCall e = some id) (plain : l.phase.creating = none) :
    ∃ v, l.phase.attached = some v ∧ v.id = id := by
  have working : ∀ certificate, allowsEngine l.phase certificate → engineCall e = some certificate →
      ∃ v, l.phase.attached = some v ∧ v.id = id := by
    intro certificate allowed same
    obtain ⟨v, lock, phase, named⟩ := allowed
    have numbered : certificate = id := Option.some.inj (same.symm.trans called)
    cases lock with
    | none =>
      rw [phase] at plain
      cases plain
    | some lock =>
      refine ⟨v, by rw [phase]; rfl, ?_⟩
      rw [← named, numbered]
  cases e with
  | issueSelfSigned certificate order => exact working certificate allowed rfl
  | renewSelfSigned certificate order => exact working certificate allowed rfl
  | issueACME certificate order => exact working certificate allowed rfl
  | renewACME certificate order => exact working certificate allowed rfl
  | revokeACME certificate order =>
    obtain ⟨v, lock, phase, named⟩ := allowed
    have numbered : certificate = id := Option.some.inj called
    refine ⟨v, by rw [phase]; rfl, ?_⟩
    rw [← named, numbered]
  | _ => cases called

section Engagement
variable {env : Environment} {s : Service} {c : Configuration} (sound : Sound env s c) {id : Id}
include sound

/-- During an engine call the operation holds the lock of a stored certificate. -/
theorem Engaged.attached {t : Nat} (h : Engaged c id t) : ∃ th v lock,
    c.threads t = some th ∧ th.seen.phase.attached = some v ∧ v.id = id ∧
      th.seen.phase.lock = some lock ∧ ∃ row, c.world.db.row id = some row := by
  obtain ⟨e, k, l, running, called, stored⟩ := h
  have standing := sound.standing running
  have plain : l.phase.creating = none := by
    cases creating : l.phase.creating with
    | none => rfl
    | some v => exact absurd (standing.creating v creating) stored
  obtain ⟨v, attached, numbered⟩ :=
    attached_of_engineCall (sound.allowed running) called plain
  obtain ⟨lock, holds⟩ := lock_of_attached attached
  have row := standing.attached v attached
  rw [numbered] at row
  exact ⟨_, v, lock, running, attached, numbered, holds, row⟩

theorem engaged_unique {t u : Nat} (ht : Engaged c id t) (hu : Engaged c id u) : t = u := by
  obtain ⟨th, v, lock, thereT, attached, rfl, holds, row, found⟩ := ht.attached sound
  obtain ⟨th', v', lock', thereU, attached', same, holds', -⟩ := hu.attached sound
  exact exclusive (sound.standing thereT) (sound.standing thereU) (attached_value attached)
    (attached_value attached') same.symm holds holds' found

end Engagement

/-- The record of the certificate is gone for good. -/
def deleted (id : Id) : Assertion Eff Ans World Local (Outcome Unit) where
  world w := id < w.db.certificates.next ∧ w.db.row id = none
  thread _ _ _ := True

theorem deleted_stable (env : Environment) (s : Service) (id : Id) :
    (deleted id).Stable (pool env s) .any fun _ => True where
  own _ _ _ _ _ _ holds _ _ _ := by
    obtain ⟨old, gone⟩ := holds.world
    exact ⟨⟨Nat.lt_of_lt_of_le old exec_next_mono, row_gone old gone⟩, trivial⟩
  other _ _ _ _ _ _ _ _ _ _ _ _ _ _ := trivial
  start _ _ _ _ _ _ _ _ := trivial
  spawn _ _ _ _ _ _ _ _ _ _ _ _ _ := trivial
  crash _ _ holds _ := holds.world

/-- Whatever runs besides: at most one engine call is under way for a stored
certificate, and none once its record has been deleted. -/
theorem engine_calls_exclusive {env : Environment} {s : Service} {start c c' : Configuration}
    (started : Started start) (run : Reach (pool env s) .any start c) (id : Id) :
    (∀ t u, Engaged c id t → Engaged c id u → t = u) ∧
      (id < c.world.db.certificates.next → c.world.db.row id = none →
        Reach (pool env s) .any c c' → ∀ t, ¬ Engaged c' id t) := by
  have sound : Sound env s c := started.sound.reach run
  refine ⟨fun t u => engaged_unique sound, fun old gone later t engaged => ?_⟩
  have first : (deleted id).Holds c := ⟨⟨old, gone⟩, fun _ _ _ => trivial⟩
  have last := ((deleted_stable env s id).reach (fun _ _ _ _ => trivial) later trivial first).2
  obtain ⟨-, -, -, -, -, -, -, row, found⟩ := engaged.attached (sound.reach later)
  cases last.world.2.symm.trans found

/-- What an engine does for the thread, and which request the thread serves. -/
def engagement (c : Configuration) (t : Nat) : Option (Id × Request) :=
  match c.threads t with
  | some ⟨.call e _, l⟩ => (engineCall e).map fun id => (id, l.request)
  | _ => none

theorem engaged_of_engagement {c : Configuration} {t : Nat} {id : Id} {request : Request}
    (h : engagement c t = some (id, request)) (stored : ¬ request.creates) : Engaged c id t := by
  unfold engagement at h
  split at h
  · rename_i e k l running
    obtain ⟨id', called, same⟩ := Option.map_eq_some_iff.mp h
    cases same
    exact ⟨e, k, l, running, called, stored⟩
  · cases h

def contenders : Configuration :=
  requested sampleWorld [.renew 0 false "admin" "", .renew 0 true "admin" "",
    .delete 0 true "admin" ""]

theorem contenders_reach :
    Reach (pool sampleEnvironment sampleService) .any (requested sampleWorld []) contenders :=
  requested_reach _ (fun _ _ => trivial) _ _ (by decide)

/-- Both renewals read the certificate and one of them calls the engine; in
another run both have read it when the delete commits. -/
theorem engine_calls_exclusive_in_turn :
    (∃ c, Engaged c 0 2 ∧ ∀ u, Engaged c 0 u → u = 2) ∧
      ∃ c c' : Configuration, c.world.db.row 0 = none ∧
        Reach (pool sampleEnvironment sampleService) .any c c' ∧ ∀ t, ¬ Engaged c' 0 t := by
  have renewals : (playing (fun _ _ _ => true) [2, 1, 2, 2, 1, 2, 2] contenders).map
      (fun c => engagement c 2) = some (some (0, .renew 0 false "admin" "")) := by
    decide +kernel
  have removal : ((playing (fun _ _ _ => true) (2 :: 1 :: List.replicate 11 0) contenders).bind
      fun c => (playing (fun _ _ _ => true) [1, 1, 1, 1, 1, 2, 2, 2, 2] c).map fun _ =>
        (decide (0 < c.world.db.certificates.next), c.world.db.row 0)) = some (true, none) := by
    decide +kernel
  constructor
  · obtain ⟨c, run, seen⟩ := Option.map_eq_some_iff.mp renewals
    have engaged : Engaged c 0 2 := engaged_of_engagement seen (fun h => h)
    have reached := contenders_reach.trans (played_reach run)
    refine ⟨c, engaged, fun u other => ?_⟩
    exact (@engine_calls_exclusive _ _ _ c c (requested_started fun _ => rfl) reached 0).1 u 2
      other engaged
  · obtain ⟨c, deletes, rest⟩ := Option.bind_eq_some_iff.mp removal
    obtain ⟨c', renews, seen⟩ := Option.map_eq_some_iff.mp rest
    obtain ⟨old, gone⟩ := Prod.mk.inj seen
    have reached := contenders_reach.trans (played_reach deletes)
    exact ⟨c, c', gone, played_reach renews, (engine_calls_exclusive
      (requested_started fun _ => rfl) reached 0).2 (of_decide_eq_true old) gone
      (played_reach renews)⟩

end EngineExclusion
