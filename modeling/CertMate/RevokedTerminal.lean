import CertMate.LoneCreations

/-!
# After a revocation

Gates look at the status an operation has read before it took the lock. As long as no
operation passes its gate on a status that is out of date, a revoked certificate stays
revoked and no engine works on it again. Where the CA accepts besides and the result is
stored before the process is killed, the CA is asked once for what was published.
-/
namespace RevokedTerminal
open CertificateModel CallTrees ThreadPools ServiceWorld CertificateService ServiceProtocol
  ServiceSteps ServicePool GateSteps
open DeleteExclusion (Creates)
open LoneCreations (Lawful creates_before creates_of_set)
open SqliteStore hiding exec

def Revoked (w : World) (id : Id) : Prop := ∃ row, w.db.row id = some row ∧ row.status = .revoked

/-- Nobody gets the lock of `id` with a value that passes a gate the stored,
revoked one would not. -/
def upToDate (id : Id) : Discipline Eff Ans World Local (Outcome Unit) where
  start _ _ := True
  call c t e :=
    match e with
    | .tryLock lock => ∀ l k v, c.threads t = some ⟨.call (.tryLock lock) k, l⟩ →
        l.phase = .found v lock → v.id = id → c.world.holder lock = none → Revoked c.world id →
        l.request.gate v = false
    | _ => True
  crash _ := True

/-- The CA accepts what is to be recorded, and the store takes it. -/
def Accepts (env : Environment) (id : Id) (w : World) : Eff → Prop
  | .revokeACME certificate _ =>
    certificate = id → env.revoke id (w.revokeCalls id) = .ok ()
  | .store (.setCertificateStatus key .revoked) =>
    key = id → env.backend.fails w.db.calls = none
  | _ => True

/-- Besides, the process is not killed between the two. -/
def concluded (env : Environment) (id : Id) : Discipline Eff Ans World Local (Outcome Unit) where
  start _ _ := True
  call c t e := (upToDate id).call c t e ∧ Accepts env id c.world e
  crash c := ∀ t th v lock, c.threads t = some th → th.seen.phase = .revoked v lock → v.id ≠ id

/-- An operation past its gate has found the certificate not revoked. -/
def careful (id : Id) : Assertion Eff Ans World Local (Outcome Unit) where
  world _ := True
  thread _ th w := ∀ v, th.seen.phase.value = some v → v.id = id →
    PastGate th.seen.request th.seen.phase → ¬ Revoked w id

section Step
variable {env : Environment} {s : Service} {id : Id} {c : Configuration} {t : Nat} {e : Eff}
  {k : Ans e → Operation (Outcome Unit)} {l : Local} (lawful : Lawful env s c)
  (running : c.threads t = some ⟨.call e k, l⟩)
include lawful running

/-- A revoked certificate stays revoked. -/
theorem stays_revoked (holds : (careful id).Holds c) (revoked : Revoked c.world id)
    {row : Certificate} (there : (exec env t e c.world).2.db.row id = some row) :
    row.status = .revoked := by
  obtain ⟨row₀, there₀, status⟩ := revoked
  obtain ⟨before, found, same | ⟨q, rfl, set⟩⟩ := row_status (Db.lt_next_of_row there₀) there
  · cases found.symm.trans there₀
    exact same.trans status
  · have allowed := lawful.sound.allowed running
    obtain ⟨v, value, named, past | creating, -⟩ := setter allowed set
    · exact absurd ⟨row₀, there₀, status⟩ (holds.thread t _ running v value named past)
    · have lone := lawful.unshared t _ v running (creates_of_set allowed set creating)
      have issuing := (lone.row row₀ (named ▸ there₀)).1
      rw [status] at issuing
      cases issuing

/-- Only the operation that has revoked a certificate records it. -/
theorem newly_revoked (not : ¬ Revoked c.world id) (revoked : Revoked (exec env t e c.world).2 id) :
    ∃ v lock, l.phase = .revoked v lock ∧ v.id = id ∧
      e = .store (.setCertificateStatus id .revoked) ∧ ∃ row, c.world.db.row id = some row := by
  have allowed := lawful.sound.allowed running
  obtain ⟨row, there, status⟩ := revoked
  rcases row_directory there with ⟨before, found, -⟩ | ⟨value, rfl, -⟩
  · obtain ⟨row₀, there₀, same | ⟨q, rfl, set⟩⟩ := row_status (Db.lt_next_of_row found) there
    · exact absurd ⟨row₀, there₀, same.symm.trans status⟩ not
    · obtain ⟨v, value, named, -, last⟩ := setter allowed set
      obtain ⟨lock, phase, rfl⟩ := last status
      exact ⟨v, lock, phase, named, rfl, before, found⟩
  · change (SqliteStore.exec env.backend (.createCertificate value) c.world.db).2.row id = _ at there
    cases exec_row env.backend (.createCertificate value) c.world.db id with
    | same row' => exact absurd ⟨row, row' ▸ there, status⟩ not
    | changed u change row' => cases change
    | created value' query new row' =>
      cases query
      have issuing : value.status = .issuing := allowed.2.2
      cases row'.symm.trans there
      cases issuing.symm.trans status
    | deleted event query present row' => cases query

theorem careful_own (ok : (upToDate id).call c t e) (holds : (careful id).Holds c) (v : Certificate)
    (value : (note l.phase e (exec env t e c.world).1).value = some v) (named : v.id = id)
    (past : PastGate l.request (note l.phase e (exec env t e c.world).1)) :
    ¬ Revoked (exec env t e c.world).2 id := by
  rcases gate_before (lawful.sound.move running) past with
    ⟨before, same⟩ | ⟨v', lock, phase, held, rfl, taken⟩
  · intro revoked
    have not := holds.thread t _ running v (same.trans value) named before
    obtain ⟨v', lock, phase, -, rfl, -⟩ := newly_revoked lawful running not revoked
    rw [phase] at past
    exact past
  · rintro ⟨row, there, status⟩
    have free := free_of_taken (eq_of_heq taken)
    rw [held] at past value
    cases value
    rw [exec_db fun q he => by cases he] at there
    have refused := ok l k v running phase named free ⟨row, there, status⟩
    rw [show l.request.gate v = true from past] at refused
    cases refused

theorem careful_other (holds : (careful id).Holds c) {u : Nat}
    {th : Thread Eff Ans Local (Outcome Unit)} (there : c.threads u = some th) (away : u ≠ t)
    (v : Certificate) (value : th.seen.phase.value = some v) (named : v.id = id)
    (past : PastGate th.seen.request th.seen.phase) : ¬ Revoked (exec env t e c.world).2 id := by
  intro revoked
  obtain ⟨v', lock', phase, named', -, row, before⟩ :=
    newly_revoked lawful running (holds.thread u th there v value named past) revoked
  obtain ⟨v'', lock, value'', has⟩ := past.lock
  cases value.symm.trans value''
  exact away (exclusive (lawful.sound.standing there) (lawful.sound.standing running) value
    (by rw [phase]; rfl) (named.trans named'.symm) has (by rw [phase]; rfl) (named ▸ before))

end Step

theorem careful_stable {env : Environment} {s : Service} {id : Id}
    {D : Discipline Eff Ans World Local (Outcome Unit)}
    (gates : ∀ c t e, D.call c t e → (upToDate id).call c t e) :
    (careful id).Stable (pool env s) D (Lawful env s) where
  own c t e _ _ lawful holds running _ ok :=
    ⟨trivial, careful_own lawful running (gates c t e ok) holds⟩
  other _ _ _ _ _ _ _ lawful holds running _ _ away there :=
    careful_other lawful running holds there away
  start _ _ _ _ _ _ started _ := by
    obtain ⟨request, -, rfl⟩ := started
    exact fun _ h => by cases h
  spawn _ _ _ _ _ _ _ _ _ _ child _ _ := by
    obtain ⟨request, rfl⟩ := spawn_some child
    exact fun _ h => by cases h
  crash _ _ _ _ := trivial

/-- What is known as long as the gates are up to date. -/
structure Guarded (env : Environment) (s : Service) (id : Id) (c : Configuration) : Prop extends
    Lawful env s c where
  careful : (careful id).Holds c

theorem Guarded.step {env : Environment} {s : Service} {id : Id}
    {D : Discipline Eff Ans World Local (Outcome Unit)}
    (gates : ∀ c t e, D.call c t e → (upToDate id).call c t e) {c c' : Configuration}
    (h : Guarded env s id c) (hs : Step (pool env s) D c c') : Guarded env s id c' where
  toLawful := h.toLawful.step hs
  careful := (careful_stable gates).step h.toLawful h.careful hs

/-- An engine is called by an operation at work on the certificate. -/
theorem engine_phase {l : Local} {e : Eff} {id : Id} (allowed : allowsLocal l e)
    (about : issues e = some id) :
    ∃ v lock, l.phase = .working v lock none .checking ∧ v.id = id := by
  cases e with
  | issueSelfSigned | renewSelfSigned | issueACME | renewACME =>
    cases about
    obtain ⟨v, lock, phase, named⟩ := allowed
    exact ⟨v, lock, phase, named.symm⟩
  | _ => cases about

/-- Once the status is `revoked`, or the record gone, no engine is called. -/
def settled (id : Id) (calls : Nat) : Assertion Eff Ans World Local (Outcome Unit) where
  world w := id < w.db.certificates.next ∧
    (∀ row, w.db.row id = some row → row.status = .revoked) ∧ w.engineCalls id = calls
  thread _ th _ := ∀ v, Creates th.seen.phase v → v.id ≠ id

theorem settled_own {env : Environment} {s : Service} {id : Id} {calls : Nat} {c : Configuration}
    {t : Nat} {e : Eff} {k : Ans e → Operation (Outcome Unit)} {l : Local}
    (guarded : Guarded env s id c) (holds : (settled id calls).Holds c)
    (running : c.threads t = some ⟨.call e k, l⟩) :
    (settled id calls).world (exec env t e c.world).2 ∧
      ∀ v, Creates (note l.phase e (exec env t e c.world).1) v → v.id ≠ id := by
  obtain ⟨old, revoked, same⟩ := holds.world
  have mine : ∀ v, Creates l.phase v → v.id ≠ id := holds.thread t _ running
  have move := guarded.sound.move running
  refine ⟨⟨Nat.lt_of_lt_of_le old exec_next_mono, fun row there => ?_, ?_⟩, fun v creates => ?_⟩
  · obtain ⟨before, found, -⟩ := row_old old there
    exact stays_revoked guarded.toLawful running guarded.careful
      ⟨before, found, revoked before found⟩ there
  · refine (exec_engineCalls fun about => ?_).trans same
    obtain ⟨v, lock, phase, named⟩ := engine_phase (guarded.sound.allowed running) about
    have value : l.phase.value = some v := by rw [phase]; rfl
    cases lock with
    | none => exact mine v (Or.inr ⟨none, .checking, phase⟩) named
    | some lock =>
      obtain ⟨row, there⟩ := (guarded.sound.standing running).attached v (by rw [phase]; rfl)
      rw [named] at there
      exact guarded.careful.thread t _ running v value named (by rw [phase]; trivial)
        ⟨row, there, revoked row there⟩
  · rcases creates_before move creates with before | ⟨value, rfl, answer, -⟩
    · exact mine v before
    · obtain ⟨rfl, -⟩ := SqliteStore.createCertificate_ok (eq_of_heq answer)
      exact Nat.ne_of_gt old

theorem settled_stable (env : Environment) (s : Service) (id : Id) (calls : Nat) :
    (settled id calls).Stable (pool env s) (upToDate id) (Guarded env s id) where
  own _ _ _ _ _ guarded holds running _ _ := settled_own guarded holds running
  other _ _ _ _ _ u th _ holds _ _ _ _ there := holds.thread u th there
  start _ _ _ _ _ _ started _ := by
    obtain ⟨request, -, rfl⟩ := started
    rintro v (same | ⟨got, progress, same⟩) <;> cases same
  spawn _ _ _ _ _ _ _ _ _ _ child _ _ := by
    obtain ⟨request, rfl⟩ := spawn_some child
    rintro v (same | ⟨got, progress, same⟩) <;> cases same
  crash _ _ holds _ := holds.world

/-- How often the certificate has been published. -/
def published (id : Id) (w : World) : Nat := (w.publications.filter fun p => p.1 = id).length

/-- The calls of the CA's revoke since the last publication for the certificate, or since
`w₀` if there has been none. -/
def asked (id : Id) (w₀ w : World) : Nat :=
  if published id w = published id w₀ then w.revokes id - w₀.revokes id else w.revokes id

/-- The counts of `w` come after those of `w₀`. -/
structure Since (id : Id) (w₀ w : World) : Prop where
  publications : published id w₀ ≤ published id w
  revokes : published id w = published id w₀ → w₀.revokes id ≤ w.revokes id

/-- A publication ends the count, a call of the CA goes into it. -/
theorem exec_counts (env : Environment) (t : Nat) (e : Eff) (w : World) (id : Id) :
    (published id (exec env t e w).2 = published id w ∧
      ((exec env t e w).2.revokes id = w.revokes id ∨ ∃ order, e = .revokeACME id order ∧
        (exec env t e w).2.revokes id = w.revokes id + 1)) ∨
    (published id w < published id (exec env t e w).2 ∧ (exec env t e w).2.revokes id = 0) := by
  cases e with
  | file certificate e =>
    simp only [exec, execFile]
    split
    · split
      · rename_i source target _ node _
        by_cases own : id = certificate
        · subst own
          refine Or.inr ⟨?_, Function.update_self _ _ _⟩
          simp [published, World.published]
        · refine Or.inl ⟨?_, Or.inl (Function.update_of_ne own _ _)⟩
          simp [published, World.published, Ne.symm own]
      · exact Or.inl ⟨rfl, Or.inl rfl⟩
    · exact Or.inl ⟨rfl, Or.inl rfl⟩
  | revokeACME certificate order =>
    by_cases own : id = certificate
    · subst own
      exact Or.inl ⟨rfl, Or.inr ⟨order, rfl, bump_self _ _⟩⟩
    · exact Or.inl ⟨rfl, Or.inl (bump_other _ own)⟩
  | loadOrStore | tryLock | acquireSlot =>
    simp only [exec]
    split <;> exact Or.inl ⟨rfl, Or.inl rfl⟩
  | _ => exact Or.inl ⟨rfl, Or.inl rfl⟩

theorem Since.step {id : Id} {w₀ w : World} (h : Since id w₀ w) (env : Environment) (t : Nat)
    (e : Eff) : Since id w₀ (exec env t e w).2 := by
  have before := h.publications
  rcases exec_counts env t e w id with ⟨same, kept | ⟨-, -, more⟩⟩ | ⟨more, -⟩
  · exact ⟨same ▸ before, fun unpublished => kept ▸ h.revokes (same ▸ unpublished)⟩
  · refine ⟨same ▸ before, fun unpublished => ?_⟩
    have standing := h.revokes (same ▸ unpublished)
    omega
  · exact ⟨by omega, fun unpublished => by omega⟩

theorem asked_step {id : Id} {w₀ w : World} (h : Since id w₀ w) (env : Environment) (t : Nat)
    (e : Eff) : asked id w₀ (exec env t e w).2 = asked id w₀ w ∨
      asked id w₀ (exec env t e w).2 = 0 ∨
        ∃ order, e = .revokeACME id order ∧ asked id w₀ (exec env t e w).2 = asked id w₀ w + 1 := by
  have before := h.publications
  unfold asked
  rcases exec_counts env t e w id with ⟨same, kept | ⟨order, he, more⟩⟩ | ⟨more, zero⟩
  · rw [same, kept]
    exact Or.inl rfl
  · rw [same, more]
    refine Or.inr (Or.inr ⟨order, he, ?_⟩)
    split
    · rename_i unpublished
      have standing := h.revokes unpublished
      omega
    · rfl
  · rw [if_neg (by omega), zero]
    exact Or.inr (Or.inl rfl)

/-- A call of the CA is accounted for by the status, or by the operation that is about to
set it. -/
def accounts (id : Id) (w₀ : World) : Account World Local Unit where
  settled w _ := asked id w₀ w = 0 ∨ id < w.db.certificates.next ∧
    ∀ row, w.db.row id = some row → row.status = .revoked
  owes l _ := ∃ v lock, l.phase = .revoked v lock ∧ v.id = id

section Count
variable {env : Environment} {s : Service} {id : Id} {w₀ : World} {c : Configuration} {t : Nat}
  {e : Eff} {k : Ans e → Operation (Outcome Unit)} {l : Local}
  (guarded : Guarded env s id c) (since : Since id w₀ c.world)
  (running : c.threads t = some ⟨.call e k, l⟩)
include guarded running

/-- What the CA has accepted the operation records next. -/
theorem recorded_next {v : Certificate} {lock : Nat} (phase : l.phase = .revoked v lock)
    (named : v.id = id) (ok : Accepts env id c.world e) :
    (accounts id w₀).settled (exec env t e c.world).2 () ∨
      note l.phase e (exec env t e c.world).1 = .revoked v lock := by
  have move := guarded.sound.move running
  obtain ⟨row, there⟩ := (guarded.sound.standing running).attached v (by rw [phase]; rfl)
  rw [phase] at move
  rw [phase]
  generalize note (.revoked v lock) e (exec env t e c.world).1 = phase' at move ⊢
  generalize answer : (exec env t e c.world).1 = r at move
  cases move with
  | stay still => exact Or.inr rfl
  | read fresh numbered => rcases fresh with h | ⟨v, h⟩ <;> cases h
  | release mine done next => exact done.elim
  | recordRevoked =>
    have through : env.backend.fails c.world.db.calls = none := ok named
    have old : id < c.world.db.certificates.next := by
      rw [← named]
      exact Db.lt_next_of_row there
    refine Or.inl (Or.inr ⟨Nat.lt_of_lt_of_le old exec_next_mono, fun row' there' => ?_⟩)
    refine SqliteStore.setCertificateStatus_ok (v := ()) ?_ (named ▸ there')
    rw [SqliteStore.exec_through through]
    rfl

include since in
theorem accounted (ok : (concluded env id).call c t e)
    (before : (accounts id w₀).settled c.world () ∨ (accounts id w₀).owes l ()) :
    (accounts id w₀).settled (exec env t e c.world).2 () ∨
      (accounts id w₀).owes { l with phase := note l.phase e (exec env t e c.world).1 } () := by
  rcases before with (zero | ⟨old, revoked⟩) | ⟨v, lock, phase, named⟩
  · rcases asked_step since env t e with same | fresh | ⟨order, rfl, -⟩
    · exact Or.inl (Or.inl (same.trans zero))
    · exact Or.inl (Or.inl fresh)
    · obtain ⟨v, lock, phase, named⟩ := guarded.sound.allowed running
      have accepted : (exec env t (.revokeACME id order) c.world).1 = .ok () := ok.2 rfl
      refine Or.inr ⟨v, lock, ?_, named.symm⟩
      dsimp only
      rw [phase, accepted]
      rfl
  · refine Or.inl (Or.inr ⟨Nat.lt_of_lt_of_le old exec_next_mono, fun row there => ?_⟩)
    obtain ⟨row₀, found, -⟩ := row_old old there
    exact stays_revoked guarded.toLawful running guarded.careful
      ⟨row₀, found, revoked row₀ found⟩ there
  · have next : (accounts id w₀).settled (exec env t e c.world).2 () ∨ _ :=
      recorded_next guarded running phase named ok.2
    rcases next with recorded | waits
    · exact Or.inl recorded
    · exact Or.inr ⟨v, lock, waits, named⟩

/-- Who calls the CA is the first to do so. -/
theorem first_asks (balanced : (accounts id w₀).Balanced c) {order : RevokeRequest}
    (asks : e = .revokeACME id order) : asked id w₀ c.world = 0 := by
  subst asks
  obtain ⟨v, lock, phase, named⟩ := guarded.sound.allowed running
  have standing := guarded.sound.standing running
  have value : l.phase.value = some v := by rw [phase]; rfl
  obtain ⟨row, there⟩ := standing.attached v (by rw [phase]; rfl)
  rcases balanced () with (zero | ⟨-, revoked⟩) | ⟨u, th, busy, v', lock', phase', named'⟩
  · exact zero
  · have there' : c.world.db.row id = some row := named ▸ there
    exact absurd ⟨row, there', revoked row there'⟩
      (guarded.careful.thread t _ running v value named.symm (by rw [phase]; trivial))
  · have same := exclusive standing (guarded.sound.standing busy) value (by rw [phase']; rfl)
      (named.symm.trans named'.symm) (by rw [phase]; rfl) (by rw [phase']; rfl) there
    subst same
    cases running.symm.trans busy
    cases phase.symm.trans phase'

end Count

theorem accounts_kept {env : Environment} {s : Service} {id : Id} {w₀ : World} :
    (accounts id w₀).Kept (pool env s) (concluded env id)
      fun c => Guarded env s id c ∧ Since id w₀ c.world where
  call _ _ _ _ _ _ known running ok before :=
    (accounted known.1 known.2 running ok before).imp_right Or.inl
  finish c t r l _ known running owes := by
    obtain ⟨v, lock, phase, -⟩ := owes
    have ends : Ends l.request r l.phase := known.1.sound.protocol.thread t _ running
    have unlocked := ends.unlocked
    rw [phase] at unlocked
    cases unlocked
  crash c _ _ ok before := by
    rcases before with settled | ⟨t, th, there, v, lock, phase, named⟩
    · exact settled
    · exact absurd named (ok t th v lock there phase)

/-- What is known where the revocations are concluded. -/
structure Counted (env : Environment) (s : Service) (id : Id) (w₀ : World) (c : Configuration) :
    Prop where
  guarded : Guarded env s id c
  since : Since id w₀ c.world
  balanced : (accounts id w₀).Balanced c
  once : asked id w₀ c.world ≤ 1

theorem Counted.call {env : Environment} {s : Service} {id : Id} {w₀ : World} {c : Configuration}
    {t : Nat} {e : Eff} {k : Ans e → Operation (Outcome Unit)} {l : Local}
    (h : Counted env s id w₀ c) (running : c.threads t = some ⟨.call e k, l⟩) :
    Since id w₀ (exec env t e c.world).2 ∧ asked id w₀ (exec env t e c.world).2 ≤ 1 := by
  refine ⟨h.since.step env t e, ?_⟩
  rcases asked_step h.since env t e with same | fresh | ⟨order, asks, more⟩
  · exact same.trans_le h.once
  · omega
  · have zero := first_asks h.guarded running h.balanced asks
    omega

theorem Counted.step {env : Environment} {s : Service} {id : Id} {w₀ : World}
    {c c' : Configuration} (h : Counted env s id w₀ c)
    (hs : Step (pool env s) (concluded env id) c c') : Counted env s id w₀ c' := by
  have counts : Since id w₀ c'.world ∧ asked id w₀ c'.world ≤ 1 := by
    cases hs with
    | call running enabled alone ok => exact h.call running
    | spawn running enabled child free ok => exact h.call running
    | crash ok => exact ⟨⟨h.since.publications, h.since.revokes⟩, h.once⟩
    | _ => exact ⟨h.since, h.once⟩
  have gates : ∀ c t e, (concluded env id).call c t e → (upToDate id).call c t e :=
    fun _ _ _ ok => ok.1
  exact ⟨h.guarded.step gates hs, counts.1,
    accounts_kept.step ⟨h.guarded, h.since⟩ h.balanced hs, counts.2⟩

/-- From any moment at which no operation has the certificate in hand, in every run in which
no operation gets past a gate on a status that is out of date, a revoked certificate stays
revoked until it is deleted, and no engine is called for it again. Where the CA accepts
besides and the store records it before a kill, the CA is asked at most once for each
publication. -/
theorem revoked_is_terminal {env : Environment} {s : Service} {id : Id}
    {start c₀ c₁ c₂ : Configuration} (started : Started start)
    (before : Reach (pool env s) .any start c₀)
    (apart : ∀ t th v, c₀.threads t = some th → th.seen.phase.value = some v → v.id ≠ id)
    (run : Reach (pool env s) (upToDate id) c₀ c₁)
    (later : Reach (pool env s) (upToDate id) c₁ c₂) :
    (Revoked c₁.world id → (∀ row, c₂.world.db.row id = some row → row.status = .revoked) ∧
      c₂.world.engineCalls id = c₁.world.engineCalls id) ∧
    (Reach (pool env s) (concluded env id) c₀ c₁ → asked id c₀.world c₁.world ≤ 1) := by
  have lawful : Lawful env s c₀ :=
    Reach.invariant _ _ (fun _ _ => Lawful.step) before (.start started)
  have first : Guarded env s id c₀ :=
    ⟨lawful, trivial, fun t th there v value named => absurd named (apart t th v there value)⟩
  have guarded : Guarded env s id c₁ :=
    Reach.invariant _ _ (fun _ _ => Guarded.step fun _ _ _ ok => ok) run first
  constructor
  · rintro ⟨row, there, status⟩
    have dead : (settled id (c₁.world.engineCalls id)).Holds c₁ := by
      refine ⟨⟨Db.lt_next_of_row there, fun row' there' => ?_, rfl⟩, fun t th busy v creates => ?_⟩
      · cases there.symm.trans there'
        exact status
      · rintro rfl
        have issuing := ((guarded.unshared t th v busy creates).row row there).1
        rw [status] at issuing
        cases issuing
    exact ((settled_stable env s id _).reach (fun _ _ => Guarded.step fun _ _ _ ok => ok) later
      guarded dead).2.world.2
  · intro concludes
    have zero : asked id c₀.world c₀.world = 0 := by simp [asked]
    have counted : Counted env s id c₀.world c₀ :=
      ⟨first, ⟨Nat.le_refl _, fun _ => Nat.le_refl _⟩, fun _ => Or.inl (Or.inl zero), by omega⟩
    exact (Reach.invariant _ _ (fun _ _ => Counted.step) concludes counted).once

def revocation : Configuration :=
  requested sampleWorld [.renew 0 false "admin" "", .revoke 0 "admin" ""]

/-- What `upToDate` asks of a call, as far as the sample needs it. -/
def checked (id : Id) (c : Configuration) (t : Nat) (e : Eff) : Bool :=
  match e with
  | .tryLock _ =>
    match c.threads t with
    | some th =>
      match th.seen.phase with
      | .found v _ =>
        !((c.world.db.row id).any fun row => row.status = .revoked) || !th.seen.request.gate v
      | _ => true
    | none => true
  | _ => true

theorem checked_upToDate {c : Configuration} {t : Nat} {e : Eff} (h : checked 0 c t e = true) :
    (upToDate 0).call c t e := by
  cases e with
  | tryLock lock =>
    rintro l k v running phase - - ⟨row, there, status⟩
    simpa [checked, running, phase, there, status] using h
  | _ => trivial

theorem sample_accepts (w : World) (e : Eff) : Accepts sampleEnvironment 0 w e := by
  cases e with
  | store q =>
    cases q with
    | setCertificateStatus key status => cases status <;> first | trivial | exact fun _ => rfl
    | _ => trivial
  | revokeACME certificate order => exact fun _ => rfl
  | _ => trivial

/-- The status of the certificate and the engine calls made for it. -/
def observed (c : Configuration) : Option Status × Nat :=
  ((c.world.db.row 0).map (·.status), c.world.engineCalls 0)

theorem revoked_of_observed {c : Configuration} {status : Status} {calls : Nat}
    (h : observed c = (some status, calls)) :
    (∃ row, c.world.db.row 0 = some row ∧ row.status = status) ∧ c.world.engineCalls 0 = calls :=
  ⟨Option.map_eq_some_iff.mp (congrArg Prod.fst h), congrArg Prod.snd h⟩

/-- The process is killed after the revocation; after the next start the renewal is refused. -/
theorem revoked_is_terminal_in_turn : ∃ c₁ c₂ : Configuration,
    Revoked c₁.world 0 ∧ asked 0 sampleWorld c₁.world ≤ 1 ∧
      (∀ row, c₂.world.db.row 0 = some row → row.status = .revoked) ∧
      c₂.world.engineCalls 0 = c₁.world.engineCalls 0 := by
  have played : (((pool sampleEnvironment sampleService).play (checked 0)
      (List.replicate 10 0) revocation).bind fun c₁ =>
      ((pool sampleEnvironment sampleService).play (checked 0) (List.replicate 4 0)
        (requested (restart sampleEnvironment c₁.world) [.renew 0 false "admin" ""])).map
        fun _ => observed c₁) = some (some .revoked, 0) := by
    decide +kernel
  obtain ⟨c₁, revokes, rest⟩ := Option.bind_eq_some_iff.mp played
  obtain ⟨c₂, renews, seen⟩ := Option.map_eq_some_iff.mp rest
  have revoked : Revoked c₁.world 0 := (revoked_of_observed seen).1
  have run : ∀ {D : Discipline Eff Ans World Local (Outcome Unit)}, (∀ c th, D.start c th) →
      (∀ c t e, checked 0 c t e = true → D.call c t e) →
      Reach (pool sampleEnvironment sampleService) D (requested sampleWorld []) c₁ :=
    fun starts calls =>
      (requested_reach _ starts _ _ (by decide)).trans (play_reach calls revokes)
  have killed : Reach (pool sampleEnvironment sampleService) (upToDate 0) c₁
      (requested (restart sampleEnvironment c₁.world) []) := .single (.crash trivial)
  have later := (killed.trans (requested_reach _ (fun _ _ => trivial) _ _ (by decide))).trans
    (play_reach (fun _ _ _ => checked_upToDate) renews)
  obtain ⟨settled, once⟩ := revoked_is_terminal (requested_started fun _ => rfl) .refl
    (fun _ _ _ there => by cases there) (run (fun _ _ => trivial) fun _ _ _ => checked_upToDate)
    later
  exact ⟨c₁, c₂, revoked, once (run (fun _ _ => trivial) fun c _ e h =>
    ⟨checked_upToDate h, sample_accepts c.world e⟩), settled revoked⟩

/-- A renewal that has read the certificate before the revocation goes on after
it: the status is `renewing` again and the engine is called. -/
theorem renewed_after_revocation : ∃ c₁ c₂ : Configuration,
    Reach (pool sampleEnvironment sampleService) .any (requested sampleWorld []) c₁ ∧
      Reach (pool sampleEnvironment sampleService) .any c₁ c₂ ∧ Revoked c₁.world 0 ∧
      (∃ row, c₂.world.db.row 0 = some row ∧ row.status = .renewing) ∧
      c₁.world.engineCalls 0 < c₂.world.engineCalls 0 := by
  have played : (((pool sampleEnvironment sampleService).play (fun _ _ _ => true)
      (1 :: List.replicate 10 0) revocation).bind fun c₁ =>
      ((pool sampleEnvironment sampleService).play (fun _ _ _ => true) (List.replicate 5 1) c₁).map
        fun c₂ => (observed c₁, observed c₂)) = some ((some .revoked, 0), (some .renewing, 1)) := by
    decide +kernel
  obtain ⟨c₁, revokes, rest⟩ := Option.bind_eq_some_iff.mp played
  obtain ⟨c₂, renews, seen⟩ := Option.map_eq_some_iff.mp rest
  obtain ⟨revoked, none⟩ := revoked_of_observed (congrArg Prod.fst seen)
  obtain ⟨renewing, one⟩ := revoked_of_observed (congrArg Prod.snd seen)
  have begun : Reach (pool sampleEnvironment sampleService) .any (requested sampleWorld []) revocation :=
    requested_reach _ (fun _ _ => trivial) _ _ (by decide)
  refine ⟨c₁, c₂, begun.trans (play_reach (fun _ _ _ _ => trivial) revokes),
    play_reach (fun _ _ _ _ => trivial) renews, revoked, renewing, ?_⟩
  rw [none, one]
  exact Nat.zero_lt_one

end RevokedTerminal
