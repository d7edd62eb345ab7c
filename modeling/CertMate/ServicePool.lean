import CertMate.ServiceSteps
import CertMate.ThreadPools

/-!
# The service under concurrent requests

Requests and scan goroutines as threads over one world. Whatever the others
do, an operation keeps its lock, the directory of its certificate, and, from
the job record on, the record itself.
-/
namespace ServicePool
open CertificateModel CallTrees ThreadPools ServiceWorld CertificateFiles CertificateService
  ServiceProtocol ServiceSteps
open SqliteStore hiding exec

/-- What is remembered of an operation under way. -/
structure Local where
  request : Request
  phase : Phase

abbrev Configuration := Config Eff Ans World Local (Outcome Unit)

def thread (s : Service) (request : Request) : Thread Eff Ans Local (Outcome Unit) :=
  ⟨programOf s request, ⟨request, .idle⟩⟩

/-- Requests come from outside; workers are started by a scan. -/
def Request.external : Request → Bool
  | .worker _ _ _ => false
  | _ => true

/-- The next start of the process: `app.New` marks the jobs that were running,
and everything that was only in memory is new. -/
def restart (env : Environment) (w : World) : World :=
  { w.tick with
    db := markInterruptedJobs (env.clock w.ticks) w.db
    locks := fun _ => none
    holder := fun _ => none
    scans := fun _ => ⟨0, 0, [], []⟩ }

def pool (env : Environment) (s : Service) : System Eff Ans World Local (Outcome Unit) where
  exec := exec env
  enabled _ e w := enabled env e w
  note l e r := { l with phase := note l.phase e r }
  spawn _ e :=
    match e with
    | .startWorker scan certificate policy => some (thread s (.worker policy scan certificate))
    | _ => none
  starts th := ∃ request, Request.external request = true ∧ th = thread s request
  restart := restart env

theorem spawn_some {env : Environment} {s : Service} {t : Nat} {e : Eff}
    {child : Thread Eff Ans Local (Outcome Unit)} (h : (pool env s).spawn t e = some child) :
    ∃ request, child = thread s request := by
  cases e with
  | startWorker scan certificate policy => exact ⟨_, (Option.some.inj h).symm⟩
  | _ => cases h

abbrev Ending (r : Outcome Unit) (l : Local) : Prop := Ends l.request r l.phase

abbrev allowsLocal (l : Local) (e : Eff) : Prop := allows l.request l.phase e

theorem follows_local {env : Environment} {s : Service} {request : Request}
    {p : Operation (Outcome Unit)} {phase : Phase} (h : Keeps request p phase (Ends request)) :
    Follows Honest allowsLocal (pool env s).note p ⟨request, phase⟩ Ending := by
  induction p generalizing phase with
  | ret a => exact h
  | call e k ih => exact ⟨h.1, fun r hr => ih r (h.2 r hr)⟩

theorem thread_follows (env : Environment) (s : Service) (request : Request) :
    Follows Honest allowsLocal (pool env s).note (thread s request).prog (thread s request).seen
      Ending :=
  follows_local (programOf_follows s request)

section Core
variable {env : Environment} {s : Service}

variable (env s) in
abbrev Protocol : Assertion Eff Ans World Local (Outcome Unit) :=
  conforming (pool env s) Honest allowsLocal Ending

theorem protocol_stable {D : Discipline Eff Ans World Local (Outcome Unit)} :
    (Protocol env s).Stable (pool env s) D fun _ => True := by
  refine conforming_stable (fun t e w => exec_honest env t e w) ?_ ?_
  · rintro th ⟨request, -, rfl⟩
    exact thread_follows env s request
  · intro t e th h
    obtain ⟨request, rfl⟩ := spawn_some h
    exact thread_follows env s request

/-- Every lock in the table is the lock of one certificate. -/
structure LockTable (w : World) : Prop where
  numbered : ∀ id lock, w.locks id = some lock → lock < w.nextLock
  distinct : ∀ i j lock, w.locks i = some lock → w.locks j = some lock → i = j

theorem LockTable.step {w : World} (h : LockTable w) (t : Nat) (e : Eff) :
    LockTable (exec env t e w).2 where
  numbered id lock hl := by
    rcases exec_locks_back hl with before | ⟨rfl, next, -⟩
    · exact Nat.lt_of_lt_of_le (h.numbered id lock before) exec_nextLock
    · omega
  distinct i j lock hi hj := by
    rcases exec_locks_back hi with oldI | ⟨newI, -, he⟩
    · rcases exec_locks_back hj with oldJ | ⟨newJ, -, -⟩
      · exact h.distinct i j lock oldI oldJ
      · exact absurd (h.numbered i _ oldI) (newJ ▸ Nat.lt_irrefl _)
    · rcases exec_locks_back hj with oldJ | ⟨-, -, he'⟩
      · exact absurd (h.numbered j _ oldJ) (newI ▸ Nat.lt_irrefl _)
      · cases he.symm.trans he'
        rfl

/-- What an operation in flight can rely on. -/
structure Standing (t : Nat) (l : Local) (w : World) : Prop where
  holds : ∀ lock, l.phase.lock = some lock → w.holder lock = some t
  old : ∀ v, l.phase.value = some v → v.id < w.db.certificates.next
  directory : ∀ v row, l.phase.value = some v → w.db.row v.id = some row →
    row.outputDirectory = v.outputDirectory
  pointer : ∀ v lock row, l.phase.value = some v → l.phase.pointer = some lock →
    w.db.row v.id = some row → w.locks v.id = some lock
  issued : ∀ lock, l.phase.pointer = some lock → lock < w.nextLock
  sole : ∀ v lock id, l.phase.value = some v → l.phase.pointer = some lock →
    w.locks id = some lock → id = v.id
  attached : ∀ v, l.phase.attached = some v → ∃ row, w.db.row v.id = some row
  gone : ∀ v, l.phase.gone = some v → w.db.row v.id = none
  creating : ∀ v, l.phase.creating = some v → l.request.creates

theorem attached_value {phase : Phase} {v : Certificate} (h : phase.attached = some v) :
    phase.value = some v := by
  cases phase with
  | working value lock got progress => cases lock <;> first | exact h | cases h
  | revoking | revoked => exact h
  | _ => cases h

theorem gone_value {phase : Phase} {v : Certificate} (h : phase.gone = some v) :
    phase.value = some v := by
  cases phase with
  | removing | cleared => exact h
  | _ => cases h

theorem pointer_of_lock {phase : Phase} {lock : Nat} (h : phase.lock = some lock) :
    phase.pointer = some lock := by
  cases phase with
  | found => cases h
  | _ => exact h

theorem value_of_lock {phase : Phase} {lock : Nat} (h : phase.lock = some lock) :
    ∃ v, phase.value = some v := by
  cases phase with
  | idle | read | found | cleared => cases h
  | held v | marked v | working v | settled v | revoking v | revoked v | removing v =>
    exact ⟨v, rfl⟩

/-- A new operation relies on nothing. -/
theorem Standing.new (t : Nat) (request : Request) (w : World) :
    Standing t ⟨request, .idle⟩ w where
  holds _ h := by cases h
  old _ h := by cases h
  directory _ _ h := by cases h
  pointer _ _ _ h := by cases h
  issued _ h := by cases h
  sole _ _ _ h := by cases h
  attached _ h := by cases h
  gone _ h := by cases h
  creating _ h := by cases h

/-- Without a lock an operation relies on little. -/
theorem Standing.unlocked {t : Nat} {request : Request} {phase : Phase} {w : World}
    (pointer : phase.pointer = none) (attached : phase.attached = none) (gone : phase.gone = none)
    (creating : ∀ v, phase.creating = some v → request.creates)
    (old : ∀ v, phase.value = some v → v.id < w.db.certificates.next)
    (directory : ∀ v row, phase.value = some v → w.db.row v.id = some row →
      row.outputDirectory = v.outputDirectory) : Standing t ⟨request, phase⟩ w where
  holds lock h := by
    cases pointer.symm.trans (pointer_of_lock h)
  old := old
  directory := directory
  pointer _ _ _ _ h := by cases pointer.symm.trans h
  issued _ h := by cases pointer.symm.trans h
  sole _ _ _ _ h := by cases pointer.symm.trans h
  attached _ h := by cases attached.symm.trans h
  gone _ h := by cases gone.symm.trans h
  creating := creating

/-- A call that spares the lock, its entry and the record of an operation. -/
theorem Standing.frame {t : Nat} {l : Local} {w : World} (h : Standing t l w) {u : Nat} {e : Eff}
    (holder : ∀ lock, l.phase.lock = some lock → (exec env u e w).2.holder lock = w.holder lock)
    (dropped : ∀ v, l.phase.value = some v → e = .dropLock v.id → w.db.row v.id = none)
    (kept : ∀ v row, l.phase.attached = some v → w.db.row v.id = some row →
      ∃ row, (exec env u e w).2.db.row v.id = some row) : Standing t l (exec env u e w).2 where
  holds lock hl := (holder lock hl).trans (h.holds lock hl)
  old v hv := Nat.lt_of_lt_of_le (h.old v hv) exec_next_mono
  directory v row hv hr := by
    obtain ⟨c, there, same⟩ := row_old (h.old v hv) hr
    exact same.trans (h.directory v c hv there)
  pointer v lock row hv hl hr := by
    obtain ⟨c, there, -⟩ := row_old (h.old v hv) hr
    refine exec_locks ?_ (h.pointer v lock c hv hl there)
    intro drop
    rw [dropped v hv drop] at there
    cases there
  issued lock hl := Nat.lt_of_lt_of_le (h.issued lock hl) exec_nextLock
  sole v lock id hv hl hi := by
    rcases exec_locks_back hi with before | ⟨rfl, -⟩
    · exact h.sole v lock id hv hl before
    · exact absurd (h.issued _ hl) (Nat.lt_irrefl _)
  attached v hv := by
    obtain ⟨row, there⟩ := h.attached v hv
    exact kept v row hv there
  gone v hv := row_gone (h.old v (gone_value hv)) (h.gone v hv)
  creating v hv := h.creating v hv

/-- A phase that asks for no more than another. -/
theorem Standing.reshape {t : Nat} {request : Request} {phase phase' : Phase} {w : World}
    (h : Standing t ⟨request, phase⟩ w) (lock : phase'.lock = phase.lock)
    (value : phase'.value = phase.value) (pointer : phase'.pointer = phase.pointer)
    (attached : ∀ v, phase'.attached = some v → phase.attached = some v)
    (gone : ∀ v, phase'.gone = some v → phase.gone = some v)
    (creating : ∀ v, phase'.creating = some v → phase.creating = some v) :
    Standing t ⟨request, phase'⟩ w where
  holds l hl := h.holds l (lock ▸ hl)
  old v hv := h.old v (value ▸ hv)
  directory v row hv := h.directory v row (value ▸ hv)
  pointer v l row hv hl := h.pointer v l row (value ▸ hv) (pointer ▸ hl)
  issued l hl := h.issued l (pointer ▸ hl)
  sole v l id hv hl := h.sole v l id (value ▸ hv) (pointer ▸ hl)
  attached v hv := h.attached v (attached v hv)
  gone v hv := h.gone v (gone v hv)
  creating v hv := h.creating v (creating v hv)

/-- A call that neither locks nor unlocks, nor drops a lock, nor deletes a record. -/
def Tame : Eff → Prop
  | .tryLock _ | .unlock _ | .dropLock _ | .store (.deleteCertificateWithAudit _ _) => False
  | _ => True

theorem Standing.tame {t : Nat} {l : Local} {w : World} (h : Standing t l w) {u : Nat} {e : Eff}
    (he : Tame e) : Standing t l (exec env u e w).2 := by
  refine h.frame (fun lock _ => ?_) (fun v _ hd => ?_) fun v row _ hr => ?_
  · rw [exec_holder]
    intro lock
    constructor <;> rintro rfl <;> exact he
  · subst hd
    exact he.elim
  · have spared : ∀ event, e ≠ .store (.deleteCertificateWithAudit v.id event) := by
      rintro event rfl
      exact he
    obtain ⟨row', there, -⟩ := row_kept hr spared
    exact ⟨row', there⟩

theorem Standing.read {t : Nat} {request : Request} {w : World} {id : Id} {v : Certificate}
    (numbered : v.id = id) (answer : (exec env t (.store (.certificate id)) w).1 = .ok v) :
    Standing t ⟨request, .read v⟩ (exec env t (.store (.certificate id)) w).2 := by
  have found : w.db.row v.id = some v := by
    rw [numbered]
    exact SqliteStore.certificate_ok answer
  have old := SqliteStore.Db.lt_next_of_row found
  refine .unlocked rfl rfl rfl (fun _ h => nomatch h) ?_ ?_
  · rintro _ ⟨⟩
    exact Nat.lt_of_lt_of_le old (SqliteStore.exec_next _ _ _)
  · rintro _ row ⟨⟩ there
    obtain ⟨c, before, same⟩ := row_old old there
    rw [found] at before
    cases before
    exact same

theorem Standing.create {t : Nat} {request : Request} {w : World} {value v : Certificate}
    (creates : request.creates)
    (answer : (exec env t (.store (.createCertificate value)) w).1 = .ok v) :
    Standing t ⟨request, .marked v none⟩ (exec env t (.store (.createCertificate value)) w).2 := by
  obtain ⟨rfl, there, next, -⟩ := SqliteStore.createCertificate_ok answer
  refine .unlocked rfl rfl rfl (fun _ _ => creates) ?_ ?_
  · rintro _ ⟨⟩
    exact Nat.lt_of_lt_of_eq (Nat.lt_succ_self _) next.symm
  · rintro _ row ⟨⟩ found
    cases there.symm.trans found
    rfl

theorem Standing.locate {t : Nat} {request : Request} {w : World} {v : Certificate} {lock : Nat}
    (table : LockTable w) (h : Standing t ⟨request, .read v⟩ w)
    (answer : (exec env t (.loadOrStore v.id) w).1 = lock) :
    Standing t ⟨request, .found v lock⟩ (exec env t (.loadOrStore v.id) w).2 := by
  have there : (exec env t (.loadOrStore v.id) w).2.locks v.id = some lock := by
    rw [← answer]
    simp only [exec]
    split
    · assumption
    · exact Function.update_self _ _ _
  have kept : Standing t ⟨request, .read v⟩ (exec env t (.loadOrStore v.id) w).2 := h.tame trivial
  have table : LockTable (exec env t (.loadOrStore v.id) w).2 := table.step t _
  refine ⟨(fun _ h => by cases h), kept.old, kept.directory, ?_, ?_, ?_, (fun _ h => by cases h),
    (fun _ h => by cases h), (fun _ h => by cases h)⟩
  · rintro _ _ _ ⟨⟩ ⟨⟩ _
    exact there
  · rintro _ ⟨⟩
    exact table.numbered _ _ there
  · rintro _ _ _ ⟨⟩ ⟨⟩ same
    exact table.distinct _ _ _ same there

theorem Standing.take {t : Nat} {request : Request} {w : World} {v : Certificate} {lock : Nat}
    (h : Standing t ⟨request, .found v lock⟩ w) (answer : (exec env t (.tryLock lock) w).1 = true) :
    Standing t ⟨request, .held v lock⟩ (exec env t (.tryLock lock) w).2 := by
  have free := free_of_taken answer
  have state : (exec env t (.tryLock lock) w).2 =
      { w with holder := Function.update w.holder lock (some t) } := by
    simp only [exec, free]
  rw [state]
  refine ⟨?_, h.old, h.directory, h.pointer, h.issued, h.sole, (fun _ h => by cases h),
    (fun _ h => by cases h), (fun _ h => by cases h)⟩
  rintro _ ⟨⟩
  exact Function.update_self _ _ _

/-- A job record keeps the record of its certificate in place. -/
theorem createJob_row {t : Nat} {w : World} {id : Id} {run job : Run}
    (about : run.certificateID = some id)
    (answer : (exec env t (.store (.createJob run)) w).1 = .ok job) :
    ∃ row, (exec env t (.store (.createJob run)) w).2.db.row id = some row := by
  obtain ⟨row, there⟩ := SqliteStore.createJob_ok about answer
  have spared : ∀ event, Query.createJob run ≠ .deleteCertificateWithAudit id event := by
    intro event he
    cases he
  obtain ⟨row', there', -⟩ := SqliteStore.exec_row_kept (B := env.backend) there spared
  exact ⟨row', there'⟩

theorem Standing.remove {t : Nat} {request : Request} {w : World} {v : Certificate} {lock : Nat}
    {event : Event} (h : Standing t ⟨request, .held v lock⟩ w)
    (answer : (exec env t (.store (.deleteCertificateWithAudit v.id event)) w).1 = .ok ()) :
    Standing t ⟨request, .removing v lock false⟩
      (exec env t (.store (.deleteCertificateWithAudit v.id event)) w).2 := by
  have gone := (SqliteStore.delete_ok answer).2
  refine ⟨h.holds, ?_, ?_, ?_, h.issued, h.sole, (fun _ h => nomatch h), ?_, (fun _ h => nomatch h)⟩
  · exact fun v hv => Nat.lt_of_lt_of_le (h.old v hv) (SqliteStore.exec_next _ _ _)
  · rintro _ row ⟨⟩ there
    cases gone.symm.trans there
  · rintro _ _ row ⟨⟩ - there
    cases gone.symm.trans there
  · rintro _ ⟨⟩
    exact gone

theorem Standing.stay {t : Nat} {request : Request} {phase : Phase} {w : World} {e : Eff}
    {r : Ans e}
    (h : Standing t ⟨request, phase⟩ w) (answer : (exec env t e w).1 = r)
    (still : Still phase e r) :
    Standing t ⟨request, phase⟩ (exec env t e w).2 := by
  cases e with
  | tryLock | unlock => exact still.elim
  | dropLock certificate =>
    obtain ⟨v, lock, cleared, rfl, rfl⟩ := still
    exact h.frame (fun _ _ => rfl) (fun v' hv _ => h.gone v' hv) fun _ _ hv => by cases hv
  | store q =>
    cases q with
    | deleteCertificateWithAudit id event =>
      cases r with
      | ok _ => exact still.elim
      | error err =>
        refine h.frame (fun _ _ => rfl) (fun _ _ hd => nomatch hd) fun v row _ hr => ⟨row, ?_⟩
        have unchanged := SqliteStore.exec_error answer
        change (SqliteStore.exec env.backend _ w.db).2.row v.id = some row
        rw [unchanged]
        exact hr
    | _ => exact h.tame trivial
  | _ => exact h.tame trivial

/-- A move establishes what the next phase relies on. -/
theorem Standing.own {t : Nat} {request : Request} {phase phase' : Phase} {w : World} {e : Eff}
    {r : Ans e} (table : LockTable w) (h : Standing t ⟨request, phase⟩ w)
    (answer : (exec env t e w).1 = r) (move : Move request phase e r phase') : Standing t
    ⟨request, phase'⟩ (exec env t e w).2 := by
  have tame : Tame e → Standing t ⟨request, phase⟩ (exec env t e w).2 := h.tame
  cases move with
  | stay still => exact h.stay answer still
  | @read _ id v fresh numbered =>
    exact .read numbered answer
  | create creates issuing => exact .create creates answer
  | locate => exact h.locate table answer
  | take => exact h.take answer
  | refuse => exact .new _ _ _
  | mark gate target =>
    exact (tame trivial).reshape rfl rfl rfl (fun _ h => nomatch h) (fun _ h => nomatch h)
      (fun _ h => nomatch h)
  | @beginRevoke v lock run job about gate revokes =>
    have kept := tame trivial
    refine ⟨kept.holds, kept.old, kept.directory, kept.pointer, kept.issued, kept.sole, ?_,
      (fun _ h => nomatch h), (fun _ h => nomatch h)⟩
    rintro _ ⟨⟩
    exact createJob_row about answer
  | remove about => exact h.remove answer
  | release mine done next =>
    rcases next with rfl | ⟨v, rfl, rfl⟩
    · exact .new _ _ _
    · exact ⟨(fun _ h => nomatch h), h.old, h.directory, (fun _ _ _ _ h => nomatch h),
        (fun _ h => nomatch h), (fun _ _ _ _ h => nomatch h), (fun _ h => nomatch h), h.gone,
        (fun _ h => nomatch h)⟩
  | @work v lock run job about =>
    have kept := tame trivial
    refine ⟨kept.holds, kept.old, kept.directory, kept.pointer, kept.issued, kept.sole, ?_,
      (fun _ h => nomatch h), ?_⟩
    · intro v' hv
      obtain rfl : v = v' := Option.some.inj (attached_value hv)
      exact createJob_row about answer
    · cases lock with
      | none => exact kept.creating
      | some l => exact fun _ h => nomatch h
  | @giveUp v lock message r =>
    refine (tame trivial).reshape rfl rfl rfl (fun _ h => nomatch h) (fun _ h => nomatch h) ?_
    cases lock <;> exact fun _ h => h
  | @deliver v lock e r material got =>
    have isTame : Tame e := by
      cases e <;> trivial
    refine (tame isTame).reshape rfl rfl rfl ?_ (fun _ h => nomatch h) ?_
    · cases lock <;> exact fun _ h => h
    · cases lock <;> exact fun _ h => h
  | @publish v lock material p progress e r matching allowed honest =>
    refine (tame trivial).reshape rfl rfl rfl ?_ (fun _ h => nomatch h) ?_
    · cases lock <;> exact fun _ h => h
    · cases lock <;> exact fun _ h => h
  | @record v lock material q r mark =>
    have isTame : Tame (.store q) := by
      rcases mark with rfl | rfl <;> trivial
    refine (tame isTame).reshape rfl rfl rfl (fun _ h => nomatch h) (fun _ h => nomatch h) ?_
    cases lock <;> exact fun _ h => h
  | @fail v lock got progress message r abandoned =>
    refine (tame trivial).reshape rfl rfl rfl (fun _ h => nomatch h) (fun _ h => nomatch h) ?_
    cases lock <;> exact fun _ h => h
  | revoke => exact (tame trivial).reshape rfl rfl rfl (fun _ h => h) (fun _ h => h) fun _ h => h
  | refusedRevoke =>
    exact (tame trivial).reshape rfl rfl rfl (fun _ h => nomatch h) (fun _ h => h) fun _ h => h
  | recordRevoked =>
    exact (tame trivial).reshape rfl rfl rfl (fun _ h => nomatch h) (fun _ h => h) fun _ h => h
  | clear removes =>
    exact (tame trivial).reshape rfl rfl rfl (fun _ h => h) (fun _ h => h) fun _ h => h

/-- Two operations that hold the lock of one stored certificate are the same. -/
theorem exclusive {w : World} {t u : Nat} {l m : Local} (ht : Standing t l w)
    (hu : Standing u m w) {v v' : Certificate} {a b : Nat} (hv : l.phase.value = some v)
    (hv' : m.phase.value = some v') (same : v.id = v'.id) (ha : l.phase.lock = some a)
    (hb : m.phase.lock = some b) {row : Certificate}
    (there : w.db.row v.id = some row) : t = u := by
  have left := ht.pointer v a row hv (pointer_of_lock ha) there
  have right := hu.pointer v' b row hv' (pointer_of_lock hb) (same ▸ there)
  rw [same] at left
  cases left.symm.trans right
  exact Option.some.inj ((ht.holds a ha).symm.trans (hu.holds a hb))

theorem lock_of_attached {phase : Phase} {v : Certificate} (h : phase.attached = some v) :
    ∃ lock, phase.lock = some lock := by
  cases phase with
  | working value lock got progress =>
    cases lock with
    | none => cases h
    | some l => exact ⟨l, rfl⟩
  | revoking value lock => exact ⟨lock, rfl⟩
  | revoked value lock => exact ⟨lock, rfl⟩
  | _ => cases h

section Interference
variable {t u : Nat} {l m : Local} {w : World} {e : Eff} (mine : Standing u m w)
  (yours : Standing t l w) (away : u ≠ t) (allowed : allowsLocal l e)
include yours allowed

include mine away in
/-- Nobody takes or gives back a lock that another operation holds. -/
theorem spared_lock (lock : Nat) (hl : m.phase.lock = some lock) :
    (exec env t e w).2.holder lock = w.holder lock := by
  have held := mine.holds lock hl
  cases e with
  | tryLock other =>
    simp only [exec]
    split
    · rfl
    · rename_i free
      refine Function.update_of_ne ?_ _ _
      rintro rfl
      cases held.symm.trans free
  | unlock other =>
    refine Function.update_of_ne ?_ _ _
    rintro rfl
    have := yours.holds lock allowed.1
    exact away (Option.some.inj (held.symm.trans this))
  | _ =>
    rw [exec_holder]
    intro lock
    constructor <;> exact Eff.noConfusion

/-- A lock is dropped after the record is gone. -/
theorem spared_entry (v : Certificate) (_ : m.phase.value = some v) (drop : e = .dropLock v.id) :
    w.db.row v.id = none := by
  subst drop
  obtain ⟨v', lock, cleared, hp, same⟩ := allowed
  rw [same]
  exact yours.gone v' (by rw [hp]; rfl)

include mine away in
/-- A record stays as long as an operation is attached to it. -/
theorem spared_row (v row : Certificate) (hv : m.phase.attached = some v)
    (there : w.db.row v.id = some row) :
    ∃ row, (exec env t e w).2.db.row v.id = some row := by
  have kept : ∀ event, e ≠ .store (.deleteCertificateWithAudit v.id event) := by
    rintro event rfl
    cases hp : l.phase with
    | held v' lock =>
      have same : v.id = v'.id := by
        have := allowed
        simp only [allowsLocal, allows, allowsQuery, hp] at this
        exact this.1
      obtain ⟨lock', hl⟩ := lock_of_attached hv
      have value : l.phase.value = some v' := by rw [hp]; rfl
      have holds : l.phase.lock = some lock := by rw [hp]; rfl
      exact away (exclusive mine yours (attached_value hv) value same hl holds there)
    | _ => simp only [allowsLocal, allows, allowsQuery, hp] at allowed
  obtain ⟨row', there', -⟩ := row_kept there kept
  exact ⟨row', there'⟩

end Interference

variable (env s) in
/-- What all operations in flight can rely on. -/
def Core : Assertion Eff Ans World Local (Outcome Unit) where
  world := LockTable
  thread t th w := Standing t th.seen w

theorem core_stable {D : Discipline Eff Ans World Local (Outcome Unit)} :
    Core.Stable (pool env s) D (Protocol env s).Holds where
  own c t e k l known h running _ _ := by
    have allowed := allowed_of_conforming known running
    have honest := exec_honest env t e c.world
    exact ⟨h.world.step t e, (h.thread t _ running).own h.world rfl (note_move allowed honest)⟩
  other c t e k l u th known h running _ _ away there := by
    have allowed := allowed_of_conforming known running
    have mine := h.thread u th there
    have yours := h.thread t _ running
    exact mine.frame (spared_lock mine yours away allowed) (spared_entry yours allowed)
      (spared_row mine yours away allowed)
  start c t th _ _ _ hs _ := by
    obtain ⟨request, -, rfl⟩ := hs
    exact .new _ _ _
  spawn c t e k l u child _ _ _ hc _ _ := by
    obtain ⟨request, rfl⟩ := spawn_some hc
    exact .new _ _ _
  crash _ _ _ _ := ⟨(fun _ _ h => nomatch h), fun _ _ _ h => nomatch h⟩

variable (env s) in
/-- What holds of every configuration that can be reached. -/
structure Sound (c : Configuration) : Prop where
  protocol : (Protocol env s).Holds c
  core : Core.Holds c

theorem Sound.step {D : Discipline Eff Ans World Local (Outcome Unit)} {c c' : Configuration}
    (h : Sound env s c) (hs : Step (pool env s) D c c') : Sound env s c' :=
  ⟨protocol_stable.step trivial h.protocol hs, core_stable.step h.protocol h.core hs⟩

theorem Sound.reach {D : Discipline Eff Ans World Local (Outcome Unit)} {c c' : Configuration}
    (h : Sound env s c) (run : Reach (pool env s) D c c') : Sound env s c' :=
  Reach.invariant _ _ (fun _ _ => Sound.step) run h

theorem Sound.standing {c : Configuration} (h : Sound env s c) {t : Nat}
    {th : Thread Eff Ans Local (Outcome Unit)} (there : c.threads t = some th) :
    Standing t th.seen c.world := h.core.thread t th there

section Call
variable {c : Configuration} (h : Sound env s c) {t : Nat} {e : Eff}
  {k : Ans e → Operation (Outcome Unit)} {l : Local} (running : c.threads t = some ⟨.call e k, l⟩)
include h running

theorem Sound.allowed : allows l.request l.phase e := allowed_of_conforming h.protocol running

theorem Sound.move : Move l.request l.phase e (exec env t e c.world).1
    (note l.phase e (exec env t e c.world).1) :=
  note_move (h.allowed running) (exec_honest env t e c.world)

end Call

/-- A process that has just been started. -/
structure Started (c : Configuration) : Prop where
  threads : ∀ t, c.threads t = none
  locks : ∀ id, c.world.locks id = none

theorem Started.holds {c : Configuration} (h : Started c)
    {P : Assertion Eff Ans World Local (Outcome Unit)} (world : P.world c.world) : P.Holds c := by
  refine ⟨world, fun t th there => ?_⟩
  rw [h.threads t] at there
  cases there

theorem Started.sound {c : Configuration} (h : Started c) : Sound env s c := by
  refine ⟨h.holds trivial, h.holds ⟨fun id lock there => ?_, fun i j lock there _ => ?_⟩⟩
  · rw [h.locks id] at there
    cases there
  · rw [h.locks i] at there
    cases there

end Core

def sampleService : Service := ⟨true, true, true⟩

def sampleMaterial : ACMEResult where
  certificatePEM := [1]
  chainPEM := [2]
  fullchainPEM := [3]
  privateKeyPEM := [4]
  metadata := ⟨"issuer", "1", "fingerprint", "ECDSA", utc 0, utc (90 * day)⟩
  exitCode := 0
  outputSummary := []

def sampleEnvironment : Environment where
  host := FileSystem.calmHost
  backend := ⟨fun _ => none, fun _ _ => 0⟩
  selfSigned _ _ := .ok none
  acme _ _ := .ok (some sampleMaterial)
  revoke _ _ := .ok ()
  credentials _ _ := .ok noProcessValues
  clock _ := 0
  cancelled _ := false

def sampleCertificate : Certificate :=
  { blankCertificate with
    name := "example"
    mode := .acme
    primaryDomain := "example.com"
    domains := ["example.com"]
    keyType := "ec-256"
    status := .active
    outputDirectory := "example-com"
    renewBeforeDays := 30
    challengeType := "http-01" }

def sampleDb : Db where
  certificates := ⟨[sampleCertificate], 1, by decide, by decide⟩
  jobs := .empty
  audits := .empty
  credentials := []
  calls := 0
  unique := by decide

def sampleWorld : World where
  db := sampleDb
  fs := ⟨some .dir, true, fun _ => none, 0, 0, []⟩
  locks _ := none
  holder _ := none
  nextLock := 0
  engineCalls _ := 0
  revokeCalls _ := 0
  ticks := 0
  scans _ := ⟨0, 0, [], []⟩
  nextScan := 0
  publications := []
  revokes _ := 0

def monthMaterial : SelfSignedResult where
  certificatePEM := [1]
  privateKeyPEM := [2]
  metadata := ⟨"issuer", "1", "fingerprint", "ECDSA", utc 0, utc (30 * day)⟩
  exitCode := 0
  outputSummary := []

def monthEnvironment : Environment :=
  { sampleEnvironment with selfSigned := fun _ _ => .ok (some monthMaterial) }

def emptyDb : Db where
  certificates := .empty
  jobs := .empty
  audits := .empty
  credentials := []
  calls := 0
  unique := List.nodup_nil

def emptyWorld : World := { sampleWorld with db := emptyDb }

def monthRequest : CreateSelfSignedRequest where
  name := "month"
  primaryDomain := "example.org"
  sans := []
  keyType := "ec-256"
  validDays := 30
  outputDirectory := ""
  autoRenewEnabled := true
  renewBeforeDays := 10
  createRenewedMarker := false

/-- The last request of the list is thread 0. -/
def requested (w : World) : List Request → Configuration
  | [] => ⟨fun _ => none, w⟩
  | request :: rest => (requested w rest).set rest.length (some (thread sampleService request))

theorem requested_free (w : World) (requests : List Request) (t : Nat) (h : requests.length ≤ t) :
    (requested w requests).threads t = none := by
  induction requests with
  | nil => rfl
  | cons request rest ih =>
    rw [List.length_cons] at h
    exact (Config.set_other _ _ (by omega)).trans (ih (by omega))

theorem requested_started {w : World} (locks : ∀ id, w.locks id = none) :
    Started (requested w []) := ⟨fun _ => rfl, locks⟩

theorem requested_reach (env : Environment) {D : Discipline Eff Ans World Local (Outcome Unit)}
    (ok : ∀ c th, D.start c th) (w : World) (requests : List Request)
    (external : ∀ r ∈ requests, Request.external r = true) :
    Reach (pool env sampleService) D (requested w []) (requested w requests) := by
  induction requests with
  | nil => exact .refl
  | cons request rest ih =>
    refine .tail (ih fun r hr => external r (List.mem_cons_of_mem _ hr)) ?_
    exact .start (requested_free w rest _ (Nat.le_refl _))
      ⟨request, external request List.mem_cons_self, rfl⟩ (ok _ _)

/-- A schedule of the sample service. -/
def playing (ok : Configuration → Nat → Eff → Bool) (schedule : List Nat) (c : Configuration) :
    Option Configuration :=
  (pool sampleEnvironment sampleService).play ok schedule c

theorem played_reach {schedule : List Nat} {c c' : Configuration}
    (played : playing (fun _ _ _ => true) schedule c = some c') :
    Reach (pool sampleEnvironment sampleService) .any c c' :=
  play_reach (fun _ _ _ _ => trivial) played

end ServicePool
