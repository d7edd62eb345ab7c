import CertMate.GateSteps
import CertMate.OperationCalls

/-!
# What a record tells about its certificate

The columns of a certificate are written by different statements, at different times and
by operations that have read the record long before. Still they agree in every state that
can be reached: what is active, being renewed or revoked has been issued, dates and issuer
are there exactly from the first issue on, and some statuses are never stored at all.
-/
namespace RecordStates
open CertificateModel CallTrees ThreadPools ServiceWorld CertificateService ServiceProtocol
  ServiceSteps ServicePool OperationCalls
open GateSteps (PastGate gate_before)
open SqliteStore hiding exec

/-- The statuses that a certificate passes through. The others are declared and asked for,
but nothing stores them. -/
def Current (status : Status) : Prop :=
  status = .issuing ∨ status = .active ∨ status = .renewing ∨ status = .failed ∨ status = .revoked

structure Shaped (c : Certificate) : Prop where
  status : Current c.status
  issued : c.status = .active ∨ c.status = .renewing ∨ c.status = .revoked → c.lastIssuedAt.isSome
  dated : c.notBefore.isSome = c.lastIssuedAt.isSome ∧ c.notAfter.isSome = c.lastIssuedAt.isSome
  blank : c.lastIssuedAt = none → c.issuer = "" ∧ c.serialNumber = "" ∧ c.fingerprintSHA256 = "" ∧
    c.lastRenewedAt = none
  clean : c.status = .active → c.lastError = []
  acme : c.status = .revoked → c.mode = .acme

/-- An issue is not forgotten, and the mode is decided once. -/
def Onward (c c' : Certificate) : Prop :=
  c'.mode = c.mode ∧ (c.lastIssuedAt.isSome → c'.lastIssuedAt.isSome)

theorem Onward.refl (c : Certificate) : Onward c c := ⟨rfl, fun h => h⟩

theorem Onward.trans {a b c : Certificate} (h : Onward a b) (h' : Onward b c) : Onward a c :=
  ⟨h'.1.trans h.1, fun issued => h'.2 (h.2 issued)⟩

section Statements
variable {now : Nat → Time} {c : Certificate}

theorem shaped_newRow {value : Certificate} (issuing : value.status = .issuing) (id : Id) :
    Shaped (newRow now value id) where
  status := Or.inl issuing
  issued := by simp [newRow, issuing]
  dated := by simp [newRow]
  blank _ := by simp [newRow]
  clean := by simp [newRow]
  acme := by simp [newRow, issuing]

/-- Published material is recorded with its dates. -/
theorem shaped_issued (value : Certificate) (material : Material) :
    Shaped ((SqliteStore.markCertificateIssued now (withMaterial value material)).apply c) := by
  constructor <;> simp [SqliteStore.markCertificateIssued, withMaterial, Current]

theorem shaped_renewed (issued : c.lastIssuedAt.isSome) (value : Certificate)
    (material : Material) :
    Shaped ((SqliteStore.markCertificateRenewed now (withMaterial value material)).apply c) := by
  have known : c.lastIssuedAt ≠ none := by simpa [Option.isSome_iff_ne_none] using issued
  constructor <;> simp [SqliteStore.markCertificateRenewed, withMaterial, Current, issued, known]

theorem Shaped.failed (h : Shaped c) (message : Bytes) :
    Shaped ((SqliteStore.markCertificateFailed now message).apply c) where
  status := by simp [SqliteStore.markCertificateFailed, Current]
  issued := by simp [SqliteStore.markCertificateFailed]
  dated := h.dated
  blank := h.blank
  clean := by simp [SqliteStore.markCertificateFailed]
  acme := by simp [SqliteStore.markCertificateFailed]

/-- Setting a status leaves the other columns to what they have to say about it. -/
theorem Shaped.set (h : Shaped c) {status : Status}
    (target : status = .issuing ∨ status = .renewing ∨ status = .revoked)
    (issued : status ≠ .issuing → c.lastIssuedAt.isSome)
    (acme : status = .revoked → c.mode = .acme) :
    Shaped ((SqliteStore.setCertificateStatus now status).apply c) where
  status := by
    rcases target with rfl | rfl | rfl <;> simp [SqliteStore.setCertificateStatus, Current]
  issued later := by
    rcases target with rfl | rfl | rfl
    · simp [SqliteStore.setCertificateStatus] at later
    · exact issued (by simp)
    · exact issued (by simp)
  dated := h.dated
  blank := h.blank
  clean active := by
    rcases target with rfl | rfl | rfl <;> simp [SqliteStore.setCertificateStatus] at active
  acme := acme

theorem Shaped.settings (h : Shaped c) (name : String) (autoRenewEnabled : Bool)
    (renewBeforeDays : Int) (createRenewedMarker : Bool) :
    Shaped ((SqliteStore.updateCertificateSettings now name autoRenewEnabled renewBeforeDays
      createRenewedMarker).apply c) :=
  ⟨h.status, h.issued, h.dated, h.blank, h.clean, h.acme⟩

theorem change_onward {q : Query} {id : Id} {u : Update} (change : q.change now = some (id, u))
    (c : Certificate) : Onward c (u.apply c) := by
  cases q with
  | markCertificateIssued value =>
    cases change
    exact ⟨rfl, fun _ => rfl⟩
  | markCertificateRenewed value | markCertificateFailed id message
  | setCertificateStatus id status
  | updateCertificateSettings id name autoRenewEnabled renewBeforeDays createRenewedMarker =>
    cases change
    exact .refl c
  | _ => cases change

end Statements

/-- A record that is there after a call and is not new was there before it. -/
theorem row_onward {env : Environment} {t : Nat} {e : Eff} {w : World} {id : Id}
    (old : id < w.db.certificates.next) {c' : Certificate}
    (there : (exec env t e w).2.db.row id = some c') :
    ∃ c, w.db.row id = some c ∧ Onward c c' := by
  by_cases query : ∃ q, e = .store q
  · obtain ⟨q, rfl⟩ := query
    cases exec_row env.backend q w.db id with
    | same row => exact ⟨c', row ▸ there, .refl c'⟩
    | changed u change row =>
      have there := row ▸ there
      obtain ⟨c, before, rfl⟩ := Option.map_eq_some_iff.mp there
      exact ⟨c, before, change_onward change c⟩
    | created value query new row => exact absurd new (Nat.ne_of_lt old)
    | deleted event query present row => cases row ▸ there
  · rw [exec_db fun q he => query ⟨q, he⟩] at there
    exact ⟨c', there, .refl c'⟩

/-- What an operation has read is as a record is, and what it has read of the issue still
holds; one that is past its gate has been let through. -/
structure Trusted (l : Local) (w : World) : Prop where
  shaped : ∀ v, l.phase.value = some v → l.phase.creating = none → Shaped v
  onward : ∀ v row, l.phase.value = some v → l.phase.creating = none →
    w.db.row v.id = some row → Onward v row
  gated : ∀ v, l.phase.value = some v → PastGate l.request l.phase → l.request.gate v = true

theorem Trusted.new (request : Request) (w : World) : Trusted ⟨request, .idle⟩ w where
  shaped _ h := by cases h
  onward _ _ h := by cases h
  gated _ h := by cases h

/-- Renewals and revocations are for what is active. -/
theorem active_of_gate {request : Request} {v : Certificate} (shaped : Shaped v)
    (gate : request.gate v = true) (later : Request.renews request ∨ request.revokes) :
    v.status = .active := by
  have status := shaped.status
  cases request with
  | renew id force actor clientIP | worker policy scan id =>
    simp [Request.gate, renewAllowed] at gate
    rcases status with h | h | h | h | h <;> simp_all
  | revoke id actor clientIP =>
    simp [Request.gate, revokeAllowed] at gate
    rcases status with h | h | h | h | h <;> simp_all
  | _ => rcases later with h | h <;> exact h.elim

theorem acme_of_gate {request : Request} {v : Certificate} (gate : request.gate v = true)
    (revokes : request.revokes) : v.mode = .acme := by
  cases request with
  | revoke id actor clientIP =>
    simp [Request.gate] at gate
    exact gate.1
  | _ => exact revokes.elim

section Step
variable {env : Environment} {t : Nat} {l : Local} {e : Eff} {w : World}
  (rows : ∀ id row, w.db.row id = some row → Shaped row) (trusted : Trusted l w)

include trusted in
/-- What an operation that renews or revokes works on has been issued. -/
theorem Trusted.issued {v row : Certificate} (value : l.phase.value = some v)
    (own : l.phase.creating = none) (past : PastGate l.request l.phase)
    (later : Request.renews l.request ∨ l.request.revokes) (there : w.db.row v.id = some row) :
    row.lastIssuedAt.isSome := by
  have shaped := trusted.shaped v value own
  have active := active_of_gate shaped (trusted.gated v value past) later
  exact (trusted.onward v row value own there).2 (shaped.issued (Or.inl active))

include rows trusted in
/-- Every statement leaves a record that agrees with itself. -/
theorem change_shaped (creating : ∀ v, l.phase.creating = some v → l.request.creates)
    {q : Query} (allowed : allowsQuery l.request l.phase q) (decides : Decides l.request (.store q))
    {now : Nat → Time} {id : Id} {u : Update} (change : q.change now = some (id, u))
    {c : Certificate} (there : w.db.row id = some c) : Shaped (u.apply c) := by
  obtain ⟨request, phase⟩ := l
  have shaped := rows id c there
  cases q with
  | markCertificateIssued value =>
    cases change
    cases phase with
    | working v lock got progress =>
      cases got with
      | none => exact allowed.elim
      | some material =>
        cases progress with
        | released =>
          obtain rfl : value = withMaterial v material := allowed
          exact shaped_issued v material
        | _ => exact allowed.elim
    | _ => exact allowed.elim
  | markCertificateRenewed value =>
    cases change
    cases phase with
    | working v lock got progress =>
      cases got with
      | none => exact allowed.elim
      | some material =>
        cases progress with
        | released =>
          obtain rfl : value = withMaterial v material := allowed
          have renews : Request.renews request := decides
          cases lock with
          | none =>
            have creates : request.creates := creating v rfl
            cases request <;> first | exact creates.elim | exact renews.elim
          | some lock =>
            exact shaped_renewed (trusted.issued rfl rfl trivial (Or.inl renews) there) v material
        | _ => exact allowed.elim
    | _ => exact allowed.elim
  | markCertificateFailed key message =>
    cases change
    exact shaped.failed message
  | setCertificateStatus key status =>
    cases change
    cases phase with
    | held v lock =>
      obtain ⟨rfl, gate, target⟩ := allowed
      rcases decides with ⟨rfl, -⟩ | ⟨rfl, renews⟩ | ⟨rfl, -⟩
      · exact shaped.set (Or.inl rfl) (fun h => absurd rfl h) (fun h => by cases h)
      · have issued := trusted.issued rfl rfl gate (Or.inl renews) there
        exact shaped.set (Or.inr (Or.inl rfl)) (fun _ => issued) (fun h => by cases h)
      · rcases target with h | h <;> cases h
    | revoked v lock =>
      obtain ⟨rfl, rfl⟩ := allowed
      have revokes : request.revokes := by
        rcases decides with ⟨h, -⟩ | ⟨h, -⟩ | ⟨-, revokes⟩
        · cases h
        · cases h
        · exact revokes
      have issued := trusted.issued rfl rfl trivial (Or.inr revokes) there
      have acme : c.mode = .acme :=
        (trusted.onward v c rfl rfl there).1.trans
          (acme_of_gate (trusted.gated v rfl trivial) revokes)
      exact shaped.set (Or.inr (Or.inr rfl)) (fun _ => issued) fun _ => acme
    | _ => exact allowed.elim
  | updateCertificateSettings key name autoRenewEnabled renewBeforeDays createRenewedMarker =>
    cases change
    exact shaped.settings name autoRenewEnabled renewBeforeDays createRenewedMarker
  | _ => cases change

include rows trusted in
theorem rows_shaped (creating : ∀ v, l.phase.creating = some v → l.request.creates)
    (allowed : allowsLocal l e) (decides : Decides l.request e) (id : Id) (row : Certificate)
    (there : (exec env t e w).2.db.row id = some row) : Shaped row := by
  by_cases query : ∃ q, e = .store q
  · obtain ⟨q, rfl⟩ := query
    cases exec_row env.backend q w.db id with
    | same same => exact rows id row (same ▸ there)
    | changed u change changed =>
      have there := changed ▸ there
      obtain ⟨c, before, rfl⟩ := Option.map_eq_some_iff.mp there
      exact change_shaped rows trusted creating allowed decides change before
    | created value query new created =>
      subst query
      have issuing : value.status = .issuing := allowed.2.2
      cases created.symm.trans there
      exact shaped_newRow issuing id
    | deleted event query present gone => cases gone.symm.trans there
  · rw [exec_db fun q he => query ⟨q, he⟩] at there
    exact rows id row there

include trusted in
theorem Trusted.frame {u : Nat}
    (old : ∀ v, l.phase.value = some v → v.id < w.db.certificates.next) :
    Trusted l (exec env u e w).2 where
  shaped := trusted.shaped
  onward v row value own there := by
    obtain ⟨c, before, onward⟩ := row_onward (old v value) there
    exact (trusted.onward v c value own before).trans onward
  gated := trusted.gated

end Step

/-- A value that was not created has been read before, or is being read. -/
theorem value_before {request : Request} {phase phase' : Phase} {e : Eff} {r : Ans e}
    {v : Certificate} (move : Move request phase e r phase') (value : phase'.value = some v)
    (own : phase'.creating = none) :
    phase.value = some v ∧ phase.creating = none ∨
      ∃ id, e = .store (.certificate id) ∧ HEq r (Except.ok (ε := Error) v) := by
  cases move with
  | stay still => exact Or.inl ⟨value, own⟩
  | read fresh numbered =>
    cases value
    exact Or.inr ⟨_, rfl, HEq.rfl⟩
  | create => cases own
  | refuse => cases value
  | release mine done next =>
    rcases next with rfl | ⟨v', rfl, rfl⟩
    · cases value
    · exact Or.inl ⟨value, rfl⟩
  | @work _ lock | @giveUp _ lock | @deliver _ lock | @publish _ lock | @record _ lock
  | @fail _ lock =>
    cases lock with
    | none => cases own
    | some lock => exact Or.inl ⟨value, rfl⟩
  | _ => exact Or.inl ⟨value, rfl⟩

theorem Trusted.own {env : Environment} {t : Nat} {l : Local} {e : Eff} {w : World}
    {phase' : Phase} (trusted : Trusted l w)
    (rows : ∀ id row, w.db.row id = some row → Shaped row)
    (old : ∀ v, l.phase.value = some v → v.id < w.db.certificates.next)
    (move : Move l.request l.phase e (exec env t e w).1 phase') :
    Trusted ⟨l.request, phase'⟩ (exec env t e w).2 := by
  have kept : Trusted l (exec env t e w).2 := trusted.frame old
  refine ⟨fun v value own => ?_, fun v row value own there => ?_, fun v value past => ?_⟩
  · rcases value_before move value own with ⟨before, own⟩ | ⟨id, rfl, answer⟩
    · exact trusted.shaped v before own
    · exact rows id v (SqliteStore.certificate_ok (eq_of_heq answer))
  · rcases value_before move value own with ⟨before, own⟩ | ⟨id, rfl, answer⟩
    · exact kept.onward v row before own there
    · have found : w.db.row id = some v := SqliteStore.certificate_ok (eq_of_heq answer)
      have numbered : v.id = id := SqliteStore.Db.id_of_row found
      have known : v.id < w.db.certificates.next :=
        SqliteStore.Db.lt_next_of_row (numbered.symm ▸ found)
      obtain ⟨c, before, onward⟩ := row_onward known there
      rw [numbered, found] at before
      cases before
      exact onward
  · rcases gate_before move past with ⟨past, same⟩ | ⟨v', lock, -, rfl, -, -⟩
    · exact trusted.gated v (same.trans value) past
    · cases value
      exact past

section Runs
variable {env : Environment} {s : Service}

variable (env s) in
/-- Every thread sets the statuses of its request only. -/
abbrev Deciding : Assertion Eff Ans World Local (Outcome Unit) :=
  conforming (pool env s) (fun _ _ => True) (fun l e => Decides l.request e) fun _ _ => True

theorem follows_decides {request : Request} {p : Operation (Outcome Unit)} {phase : Phase}
    (h : Calls (Decides request) p fun _ => True) :
    Follows (fun _ _ => True) (fun l e => Decides l.request e) (pool env s).note p
      ⟨request, phase⟩ fun _ _ => True := by
  induction p generalizing phase with
  | ret a => exact trivial
  | call e k ih => exact ⟨h.1, fun r hr => ih r (h.2 r hr)⟩

theorem deciding_stable {D : Discipline Eff Ans World Local (Outcome Unit)} :
    (Deciding env s).Stable (pool env s) D fun _ => True := by
  refine conforming_stable (fun _ _ _ => trivial) ?_ ?_
  · rintro th ⟨request, -, rfl⟩
    exact follows_decides (programOf_decides s request)
  · intro t e th h
    obtain ⟨request, rfl⟩ := spawn_some h
    exact follows_decides (programOf_decides s request)

/-- All records agree with themselves, and every operation can rely on it. -/
def records : Assertion Eff Ans World Local (Outcome Unit) where
  world w := ∀ id row, w.db.row id = some row → Shaped row
  thread _ th w := Trusted th.seen w

theorem records_stable {D : Discipline Eff Ans World Local (Outcome Unit)} :
    records.Stable (pool env s) D fun c => Sound env s c ∧ (Deciding env s).Holds c where
  own c t e k l known h running enabled ok := by
    have standing : Standing t l c.world := known.1.standing running
    have trusted : Trusted l c.world := h.thread t _ running
    have decides : Decides l.request e := allowed_of_conforming known.2 running
    exact ⟨rows_shaped h.world trusted standing.creating (known.1.allowed running) decides,
      trusted.own h.world standing.old (known.1.move running)⟩
  other c t e k l u th known h running enabled ok away there :=
    (h.thread u th there).frame (known.1.standing there).old
  start c t th known h free starts ok := by
    obtain ⟨request, -, rfl⟩ := starts
    exact Trusted.new request c.world
  spawn c t e k l u child known h running made free ok := by
    obtain ⟨request, rfl⟩ := spawn_some made
    exact Trusted.new request _
  crash c known h ok := h.world

/-- However requests, scans, kills and restarts are interleaved, every stored certificate
agrees with itself: only five of the statuses are stored, what is active, being renewed or
revoked has been issued, the dates are there exactly from the first issue on, what is active
shows no error, and only certificates of a CA are revoked. -/
theorem records_shaped {D : Discipline Eff Ans World Local (Outcome Unit)} {start c : Configuration}
    (started : Started start) (stored : ∀ id row, start.world.db.row id = some row → Shaped row)
    (run : Reach (pool env s) D start c) {id : Id} {row : Certificate}
    (there : c.world.db.row id = some row) : Shaped row := by
  have begun : records.Holds start := started.holds stored
  have keeps : ∀ c c' : Configuration, Sound env s c ∧ (Deciding env s).Holds c →
      Step (pool env s) D c c' → Sound env s c' ∧ (Deciding env s).Holds c' :=
    fun _ _ known hs => ⟨known.1.step hs, deciding_stable.step trivial known.2 hs⟩
  have known : Sound env s start ∧ (Deciding env s).Holds start :=
    ⟨started.sound, started.holds trivial⟩
  exact (records_stable.reach keeps run known begun).2.world id row there

end Runs

/-- A creation, and a renewal of what it has made that has just begun. -/
def renewing : Option Configuration :=
  (pool monthEnvironment sampleService).play (fun _ _ _ => true)
    (List.replicate 26 0 ++ List.replicate 5 1)
    (requested emptyWorld [.renew 0 false "admin" "", .createSelfSigned monthRequest "admin" ""])

theorem records_shaped_renewing : ∃ (c : Configuration) (row : Certificate),
    c.world.db.row 0 = some row ∧ row.status = .renewing ∧ Shaped row := by
  have played : (renewing.bind fun c => (c.world.db.row 0).map Certificate.status) =
      some .renewing := by
    decide +kernel
  obtain ⟨c, made, seen⟩ := Option.bind_eq_some_iff.mp played
  obtain ⟨row, there, status⟩ := Option.map_eq_some_iff.mp seen
  have begun : Reach (pool monthEnvironment sampleService) .any (requested emptyWorld [])
      (requested emptyWorld [.renew 0 false "admin" "",
        .createSelfSigned monthRequest "admin" ""]) := by
    apply requested_reach _ fun _ _ => trivial
    simp [Request.external]
  have run := begun.trans (play_reach (D := .any) (fun _ _ _ _ => trivial) made)
  have nothing : ∀ id row, emptyWorld.db.row id = some row → Shaped row := by
    intro id row there
    cases there
  exact ⟨c, row, there, status,
    records_shaped (requested_started fun _ => rfl) nothing run there⟩

end RecordStates
