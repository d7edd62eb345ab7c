import CertMate.AgreedFiles
import CertMate.Bystanders

/-!
# Records and files over whole runs

Whatever a record says that its directory does not hold is owed by an operation at work.
What is left to go wrong is the end of that operation: a kill, a store that does not take
the record, a disk that does not take the old directory back.
-/
namespace AgreedRuns
open CertificateModel DomainValidation CallTrees ThreadPools ServiceWorld CertificateFiles
  CertificateService ServiceProtocol ServiceSteps ServicePool DeleteExclusion LoneCreations
  AgreedFiles
open SqliteStore hiding exec
open PublishProtocol (Progress Quiet Hidden Named)
open Bystanders (place_kept calls_mono)
open AtomicPublish (sampleFile)

/-- The directory belongs to a record that speaks of its files or is about to. -/
def Occupied (directory : String) (c : Configuration) : Prop :=
  ∃ id row, c.world.db.row id = some row ∧ row.outputDirectory = directory ∧
    (row.fingerprintSHA256 ≠ "" ∨ ∃ t th v lock got, c.threads t = some th ∧
      th.seen.phase = .working v lock got .released ∧ v.id = id)

/-- The store takes the record of new files where an older one stands, and the disk takes
the old directory of such a record back; a delete removes no directory that has passed to
another record with files, and no record is inserted for the directory of a creation that
has lost its own. -/
structure Steady (env : Environment) (c : Configuration) (e : Eff) : Prop where
  recorded : ∀ q value row, e = .store q → Marks q value →
    c.world.db.row value.id = some row → row.fingerprintSHA256 ≠ "" →
      env.backend.fails c.world.db.calls = none
  restored : ∀ id source target row, e = .file id (.op (.rename .restore source target)) →
    c.world.db.row id = some row → row.fingerprintSHA256 ≠ "" →
      env.host.fails c.world.fs.calls = false
  spared : ∀ id directory, e = .file id (.op (.removeAll (targetOf directory))) →
    ¬ Occupied directory c
  inserted : SparesStrays c e

/-- Under way between the old directory and the record of the new one. -/
def Owes (phase : Phase) (id : Id) : Prop :=
  ∃ v lock material progress, phase = .working v (some lock) (some material) progress ∧
    v.id = id ∧ Exposed progress

/-- A kill finds no operation between the files and the record of a certificate that had
some before. -/
def steady (env : Environment) : Discipline Eff Ans World Local (Outcome Unit) where
  start _ _ := True
  call c _ e := Steady env c e
  crash c := ∀ t th id row, c.threads t = some th → Owes th.seen.phase id →
    c.world.db.row id = some row → row.fingerprintSHA256 = ""

/-- What is known of every operation, whatever its certificate. -/
structure Ground (env : Environment) (s : Service) (c : Configuration) : Prop extends
    Lawful env s c where
  names : named.Holds c
  strays : deserted.Holds c

theorem Ground.step {env : Environment} {s : Service} {c c' : Configuration}
    (h : Ground env s c) (hs : Step (pool env s) (steady env) c c') : Ground env s c' where
  toLawful := h.toLawful.step hs
  names := named_stable.step h.sound h.names hs
  strays := (deserted_stable fun _ _ _ ok => Steady.inserted ok).step h.sound h.strays hs

theorem ground_of_started {env : Environment} {s : Service} {c : Configuration}
    (started : Started c) : Ground env s c where
  toLawful := .start started
  names := started.holds trivial
  strays := started.holds trivial

/-- A mark comes from the end of a publication. -/
theorem marker {request : Request} {phase : Phase} {q : Query} {value : Certificate}
    (marks : Marks q value) (allowed : allowsQuery request phase q) :
    ∃ v lock material, phase = .working v lock (some material) .released ∧
      value = withMaterial v material := by
  rcases marks with rfl | rfl <;>
  · cases phase with
    | working v lock got progress =>
      cases got with
      | none => exact allowed.elim
      | some material =>
        cases progress with
        | released => exact ⟨v, lock, material, rfl, allowed⟩
        | _ => exact allowed.elim
    | _ => exact allowed.elim

section Call
variable {env : Environment} {s : Service} {c : Configuration} {t : Nat} {e : Eff}
  {k : Ans e → Operation (Outcome Unit)} {l : Local} (ground : Ground env s c)
  (running : c.threads t = some ⟨.call e k, l⟩)
include ground running

/-- Whoever works on another certificate works in another directory. -/
theorem works_elsewhere {id : Id} {row : Certificate} (stored : c.world.db.row id = some row)
    {v : Certificate} {lock : Option Nat} {got : Option Material} {progress : Progress}
    (phase : l.phase = .working v lock got progress) (other : v.id ≠ id) :
    v.outputDirectory ≠ row.outputDirectory := by
  intro same
  have standing := ground.sound.standing running
  have value : l.phase.value = some v := by rw [phase]; rfl
  cases found : c.world.db.row v.id with
  | some own =>
    have owned := standing.directory v own value found
    exact other (Db.same_directory found stored (owned.trans same))
  | none =>
    cases lock with
    | none =>
      have creates : Creates l.phase v := Or.inr ⟨got, progress, phase⟩
      exact ground.strays.thread t _ running v creates found id row stored same.symm
    | some lock =>
      obtain ⟨own, there⟩ := standing.attached v (by rw [phase]; rfl)
      cases found.symm.trans there

/-- The files of a record that the operation does not work on. -/
theorem files_kept {id : Id} {row : Certificate} (stored : c.world.db.row id = some row)
    (apart : ∀ v lock got progress, l.phase = .working v lock got progress → v.id ≠ id)
    (unremoved : ∀ certificate,
      e ≠ .file certificate (.op (.removeAll (targetOf row.outputDirectory))))
    (safe : safeDirectory row.outputDirectory = true) {p : FileSystem.Path}
    (place : p = targetOf row.outputDirectory ∨ Hidden row.outputDirectory p) :
    (exec env t e c.world).2.fs.nodes p = c.world.fs.nodes p := by
  refine place_kept (ground.sound.allowed running) (ground.names.thread t _ running) ?_ ?_ safe
    place
  · intro v lock got progress phase
    exact works_elsewhere ground running stored phase (apart v lock got progress phase)
  · intro v lock cleared certificate phase he same
    rw [same] at he
    exact unremoved certificate he

end Call

/-- A call that changes nothing of the operation leaves the root alone. -/
theorem still_kept {env : Environment} {t : Nat} {w : World} {phase : Phase} {e : Eff} {r : Ans e}
    (still : Still phase e r) {p : FileSystem.Path} (inRoot : p.area = .root) :
    (exec env t e w).2.fs.nodes p = w.fs.nodes p := by
  cases e with
  | file certificate e =>
    refine file_frame fun o he touched => ?_
    subst he
    rw [PublishProtocol.touches_backup still touched] at inRoot
    cases inRoot
  | _ =>
    rw [exec_fs]
    exact fun _ _ => Eff.noConfusion

theorem still_unmarked {phase : Phase} {e : Eff} {r : Ans e} (still : Still phase e r) (q : Query)
    (value : Certificate) (he : e = .store q) : ¬ Marks q value := by
  subst he
  rintro (rfl | rfl) <;> exact still

section Hands
variable (parse : Bytes → Option Metadata) (env : Environment)

def inHand : Assertion Eff Ans World Local (Outcome Unit) where
  world _ := True
  thread _ th w := ∀ v lock material progress,
    th.seen.phase = .working v lock (some material) progress →
      InHand parse env v material progress w

/-- A record is in agreement with its files or has an operation that owes it. -/
def ledger : Account World Local Id where
  settled w id := Filed parse id w
  owes l id := Owes l.phase id

end Hands

section Stable
variable {parse : Bytes → Option Metadata} {env : Environment} {s : Service}

theorem inHand_own (truthful : Truthful parse env) {t : Nat} {w : World} {request : Request}
    {phase phase' : Phase} {e : Eff} {r : Ans e} (answer : (exec env t e w).1 = r)
    (move : Move request phase e r phase')
    (old : ∀ v, phase.value = some v → v.id < w.db.certificates.next)
    (begun : ∀ v lock row, phase = .working v lock none .checking → w.db.row v.id = some row →
      row.outputDirectory = v.outputDirectory ∧ Filed parse v.id w)
    (restores : ∀ id source target row, e = .file id (.op (.rename .restore source target)) →
      w.db.row id = some row → row.fingerprintSHA256 ≠ "" → env.host.fails w.fs.calls = false)
    (h : ∀ v lock material progress, phase = .working v lock (some material) progress →
      InHand parse env v material progress w)
    (v : Certificate) (lock : Option Nat) (material : Material) (progress : Progress)
    (at' : phase' = .working v lock (some material) progress) :
    InHand parse env v material progress (exec env t e w).2 := by
  cases move with
  | stay still =>
    refine (h v lock material progress at').frame ?_ ?_ calls_mono
    · refine rowKept_exec (old v (by rw [at']; rfl)) fun q value he marks => ?_
      exact absurd marks (still_unmarked still q value he)
    · rintro row - safe p (rfl | hidden)
      · exact still_kept still rfl
      · exact still_kept still hidden.1
  | deliver got =>
    cases at'
    subst answer
    have same : (exec env t e w).2.db = w.db ∧ (exec env t e w).2.fs = w.fs := by
      cases e <;> first | exact ⟨rfl, rfl⟩ | cases got
    refine ⟨truthful.delivered got, fun h => absurd rfl h, fun safe row there => ?_, fun h => ?_⟩
    · rw [same.1] at there
      rw [same.2]
      obtain ⟨owned, filed⟩ := begun v lock row rfl there
      obtain ⟨p⟩ : Nonempty Payload :=
        ⟨.bytes [], .bytes [], .bytes [], .bytes [], .bytes [], false⟩
      refine ⟨p, w.fs.nodes (targetOf v.outputDirectory), w.fs.calls, ?_, ⟨le_rfl, rfl⟩, ?_⟩
      · rintro ⟨⟩
      · intro issued
        rw [← owned]
        exact (filed row there issued).2
    · cases h
  | publish safe matching allowed honest =>
    cases at'
    subst answer
    exact (h _ _ _ _ rfl).publish safe matching allowed fun source target row he =>
      restores _ source target row (congrArg _ he)
  | release mine done next => rcases next with rfl | ⟨v', -, rfl⟩ <;> cases at'
  | _ => cases at'

theorem inHand_stable (truthful : Truthful parse env) :
    (inHand parse env).Stable (pool env s) (steady env)
      fun c => Ground env s c ∧ (ledger parse).Balanced c where
  own c t e k l known holds running _ ok := by
    obtain ⟨ground, balanced⟩ := known
    have standing := ground.sound.standing running
    refine ⟨trivial, inHand_own truthful rfl (ground.sound.move running) standing.old ?_ ok.restored
      (holds.thread t _ running)⟩
    intro v lock row phase stored
    refine ⟨standing.directory v row (by rw [phase]; rfl) stored, ?_⟩
    -- Nobody else owes anything for the certificate, so that its files are in order.
    rcases balanced v.id with filed | ⟨u, th, there, v', lock', material, progress, owes, same, gap⟩
    · exact filed
    · have alone := sole_worker ground.sound ground.gates ground.unshared running there
        ⟨lock, none, .checking, phase⟩ ⟨some lock', some material, progress, owes⟩ same.symm stored
      subst alone
      cases running.symm.trans there
      rw [phase] at owes
      cases owes
  other c t e k l u th known holds running _ ok away there v lock material progress phase := by
    obtain ⟨ground, -⟩ := known
    have h := holds.thread u th there v lock material progress phase
    have value : th.seen.phase.value = some v := by rw [phase]; rfl
    have standing := ground.sound.standing there
    have apart : ∀ row, c.world.db.row v.id = some row → ∀ v' lock' got progress',
        l.phase = .working v' lock' got progress' → v'.id ≠ v.id := by
      intro row stored v' lock' got progress' phase' same
      exact away (sole_worker ground.sound ground.gates ground.unshared there running
        ⟨lock, some material, progress, phase⟩ ⟨lock', got, progress', phase'⟩ same.symm stored)
    by_cases removal : ∃ certificate,
        e = .file certificate (.op (.removeAll (targetOf v.outputDirectory)))
    · obtain ⟨certificate, rfl⟩ := removal
      have free := ok.spared certificate v.outputDirectory rfl
      refine h.removed (t := t) fun row stored => ⟨?_, ?_⟩
      · by_contra issued
        exact free ⟨v.id, row, stored, standing.directory v row value stored, Or.inl issued⟩
      · rintro rfl
        exact free ⟨v.id, row, stored, standing.directory v row value stored,
          Or.inr ⟨u, th, v, lock, some material, there, phase, rfl⟩⟩
    · refine h.frame ?_ ?_ calls_mono
      · intro row' later
        obtain ⟨row, stored, -⟩ := row_old (standing.old v value) later
        refine rowKept_exec (standing.old v value) (fun q value' he marks same => ?_) row' later
        subst he
        obtain ⟨v', lock', material', phase', rfl⟩ := marker marks (ground.sound.allowed running)
        exact apart row stored v' lock' _ _ phase' same
      · intro row stored safe p place
        have owned := standing.directory v row value stored
        refine files_kept ground running stored (apart row stored) ?_ (owned ▸ safe) (owned ▸ place)
        intro certificate he
        rw [owned] at he
        exact removal ⟨certificate, he⟩
  start _ _ _ _ _ _ started _ := by
    obtain ⟨request, -, rfl⟩ := started
    exact fun _ _ _ _ h => by cases h
  spawn _ _ _ _ _ _ _ _ _ _ child _ _ := by
    obtain ⟨request, rfl⟩ := spawn_some child
    exact fun _ _ _ _ h => by cases h
  crash _ _ _ _ := trivial

end Stable

section Calls
variable {parse : Bytes → Option Metadata} {env : Environment} {s : Service} {c : Configuration}
  {t : Nat} {e : Eff} {k : Ans e → Operation (Outcome Unit)} {l : Local}
  (ground : Ground env s c) (running : c.threads t = some ⟨.call e k, l⟩)
  (ok : Steady env c e)
include ground running ok

/-- An operation leaves the records of other certificates and their files in agreement. -/
theorem filed_elsewhere {id : Id} (filed : Filed parse id c.world)
    (apart : ∀ v lock got progress, l.phase = .working v lock got progress → v.id ≠ id) :
    Filed parse id (exec env t e c.world).2 := by
  refine filed.frame (rows_unmarked fun q value he marks same => ?_)
    fun row stored issued safe => ?_
  · subst he
    obtain ⟨v, lock, material, phase, rfl⟩ := marker marks (ground.sound.allowed running)
    exact apart v lock _ _ phase same
  · refine files_kept ground running stored apart ?_ safe (Or.inl rfl)
    rintro certificate rfl
    exact ok.spared certificate row.outputDirectory rfl ⟨id, row, stored, rfl, Or.inl issued⟩

/-- What an operation does to the certificate it works on. -/
theorem filed_at_work (hands : (inHand parse env).Holds c) {v : Certificate} {lock : Option Nat}
    {got : Option Material} {progress : Progress} (phase : l.phase = .working v lock got progress)
    (before : Filed parse v.id c.world ∨ Owes l.phase v.id) :
    Filed parse v.id (exec env t e c.world).2 ∨
      Owes (note l.phase e (exec env t e c.world).1) v.id := by
  have hand := hands.thread t _ running
  have standing := ground.sound.standing running
  have lone := ground.unshared t _ v running
  have allowed := ground.sound.allowed running
  have move := ground.sound.move running
  obtain ⟨request, _⟩ := l
  cases phase
  have owned : ∀ row, c.world.db.row v.id = some row → row.outputDirectory = v.outputDirectory :=
    fun row => standing.directory v row rfl
  -- A call that neither marks a record nor touches the directory.
  have quiet : (∀ q value, e = .store q → ¬ Marks q value) →
      (∀ p : FileSystem.Path, p.area = .root →
        (exec env t e c.world).2.fs.nodes p = c.world.fs.nodes p) →
      Filed parse v.id c.world → Filed parse v.id (exec env t e c.world).2 := by
    intro unmarked files filed
    refine filed.frame (rows_unmarked fun q value he marks => ?_) fun row _ _ _ => files _ rfl
    exact absurd marks (unmarked q value he)
  have settled : ¬ Owes (.working v lock got progress) v.id → Filed parse v.id c.world :=
    fun closed => before.resolve_right closed
  generalize note _ e (exec env t e c.world).1 = phase' at move
  generalize answer : (exec env t e c.world).1 = r at move
  cases move with
  | stay still =>
    rcases before with filed | owes
    · refine Or.inl (quiet (still_unmarked still) (fun p inRoot => still_kept still inRoot) filed)
    · exact Or.inr owes
  | read fresh numbered => rcases fresh with fresh | ⟨value, fresh⟩ <;> cases fresh
  | release mine done next =>
    have rest : progress = .checking := allowed.2.2
    subst rest
    refine Or.inl (quiet (fun q value he => by cases he) (fun p _ => rfl) (settled ?_))
    rintro ⟨v', lock', material, progress, same, -, gap⟩
    cases same
    exact gap
  | deliver delivers =>
    have same : (exec env t e c.world).2.fs = c.world.fs := by
      cases e <;> first | rfl | cases delivers
    refine Or.inl (quiet (fun q value he => by subst he; cases delivers) ?_ (settled ?_))
    · intro p _
      rw [same]
    · rintro ⟨v', lock', material, progress, same, -, -⟩
      cases same
  | @publish _ _ material p _ e r safe matching allows honest =>
    subst answer
    have hand' := (hand v lock material progress rfl).publish (t := t) safe matching allows
      fun source target row he => ok.restored v.id source target row (congrArg _ he)
    have db : (exec env t (.file v.id e) c.world).2.db = c.world.db :=
      exec_db fun q he => by cases he
    cases lock with
    | none =>
      -- The record of a creation has no fingerprint yet.
      refine Or.inl fun row there issued => ?_
      rw [db] at there
      exact absurd ((lone (Or.inr ⟨_, _, rfl⟩)).row row there).2 issued
    | some lock =>
      by_cases gap : Exposed (PublishProtocol.note progress e (exec env t (.file v.id e) c.world).1)
      · exact Or.inr ⟨v, lock, material, _, rfl, rfl, gap⟩
      · exact Or.inl (filed_of_closed hand' safe gap fun row there => owned row (db ▸ there))
  | @record _ _ material q r mark =>
    refine Or.inl (filed_of_recorded (hand v lock material .released rfl) mark owned ?_)
    exact fun row => ok.recorded q (withMaterial v material) row rfl mark
  | fail abandoned =>
    refine Or.inl (quiet ?_ (fun p _ => rfl) (settled ?_))
    · rintro q value ⟨⟩ (marks | marks) <;> cases marks
    · rintro ⟨v', lock', material, progress', same, -, gap⟩
      cases same
      rcases abandoned with rfl | rfl | rfl | rfl <;> exact gap

end Calls

/-- A kill leaves the records and the files as they are. -/
theorem filed_restart {parse : Bytes → Option Metadata} {env : Environment} {id : Id} {w : World}
    (h : Filed parse id w) : Filed parse id (restart env w) := h

theorem ledger_kept {parse : Bytes → Option Metadata} {env : Environment} {s : Service} :
    (ledger parse).Kept (pool env s) (steady env)
      fun c => Ground env s c ∧ (inHand parse env).Holds c where
  call c t e k l id known running ok before := by
    obtain ⟨ground, hands⟩ := known
    by_cases works : ∃ v lock got progress, l.phase = .working v lock got progress ∧ v.id = id
    · obtain ⟨v, lock, got, progress, phase, rfl⟩ := works
      exact (filed_at_work ground running ok hands phase before).imp_right Or.inl
    · have idle : ∀ v lock got progress, l.phase = .working v lock got progress → v.id ≠ id :=
        fun v lock got progress phase same => works ⟨v, lock, got, progress, phase, same⟩
      rcases before with filed | ⟨v, lock, material, progress, phase, same, -⟩
      · exact Or.inl (filed_elsewhere ground running ok filed idle)
      · exact absurd same (idle v _ _ _ phase)
  finish c t r l id known running owes := by
    obtain ⟨v, lock, material, progress, phase, -⟩ := owes
    have ends : Ends l.request r l.phase := known.1.sound.protocol.thread t _ running
    have unlocked := ends.unlocked
    rw [phase] at unlocked
    cases unlocked
  crash c id _ ok before := by
    refine filed_restart ?_
    rcases before with filed | ⟨t, th, there, owes⟩
    · exact filed
    · exact fun row stored issued => absurd (ok t th id row there owes stored) issued

section Runs
variable {parse : Bytes → Option Metadata} {env : Environment} {s : Service}

variable (parse env s) in
structure Known (c : Configuration) : Prop where
  ground : Ground env s c
  hands : (inHand parse env).Holds c
  balanced : (ledger parse).Balanced c

theorem Known.step (truthful : Truthful parse env) {c c' : Configuration}
    (h : Known parse env s c) (hs : Step (pool env s) (steady env) c c') :
    Known parse env s c' where
  ground := h.ground.step hs
  hands := (inHand_stable truthful).step ⟨h.ground, h.balanced⟩ h.hands hs
  balanced := ledger_kept.step ⟨h.ground, h.hands⟩ h.balanced hs

theorem known_of_started {c : Configuration} (started : Started c)
    (agreed : InAgreement parse c.world) : Known parse env s c where
  ground := ground_of_started started
  hands := started.holds trivial
  balanced id := Or.inl (agreed id)

/-- From files and records that agree on, in a run without a mishap in the gap between
files and record: whenever no operation is under way they agree. -/
theorem quiet_in_agreement (truthful : Truthful parse env) {start c : Configuration}
    (started : Started start) (agreed : InAgreement parse start.world)
    (run : Reach (pool env s) (steady env) start c) (quiet : c.Quiet) :
    InAgreement parse c.world := by
  have known : Known parse env s c :=
    Reach.invariant _ _ (fun _ _ => Known.step truthful) run (known_of_started started agreed)
  exact fun id => ledger_kept.settled_of_quiet ⟨known.ground, known.hands⟩ known.balanced quiet id

end Runs

def olderMetadata : Metadata := ⟨"issuer", "0", "older", "ECDSA", utc 0, utc (60 * day)⟩

/-- Reads the two certificates there are. -/
def parsing (pem : Bytes) : Option Metadata :=
  if pem = [0] then some olderMetadata
  else if pem = [1] then some sampleMaterial.metadata
  else none

def issuedCertificate : Certificate :=
  { sampleCertificate with
    serialNumber := "0"
    fingerprintSHA256 := "older"
    notBefore := some 0
    notAfter := some (60 * day) }

def olderDirectory : FileSystem.Dir :=
  ⟨0o750, [("cert.pem", sampleFile [0] 0o644), ("chain.pem", sampleFile [0] 0o644),
    ("fullchain.pem", sampleFile [0] 0o644), ("privkey.pem", sampleFile [0] 0o600),
    ("metadata.json", sampleFile [0] 0o644)]⟩

def issuedWorld : World :=
  { sampleWorld with
    db := { sampleDb with
      certificates := ⟨[issuedCertificate], 1, by decide, by decide⟩
      unique := by decide }
    fs := ⟨some .dir, true, fun p =>
      if p = targetOf "example-com" then some (.dir olderDirectory) else none, 0, 1, []⟩ }

def renewal : Request := .renew 0 false "admin" ""

theorem issuedWorld_agreed : InAgreement parsing issuedWorld := by
  intro id row there issued
  obtain ⟨member, -⟩ := KeyedTables.Table.find?_eq_some_iff.mp there
  obtain rfl : row = issuedCertificate := List.mem_singleton.mp member
  exact ⟨by decide, olderDirectory, ⟨0, .bytes [0], 0o644⟩, [0], olderMetadata, rfl, rfl, rfl, rfl,
    rfl⟩

theorem sample_truthful : Truthful parsing sampleEnvironment where
  selfSigned id n result answered := by cases answered
  acme id n result answered := by
    obtain rfl : sampleMaterial = result := Option.some.inj (Except.ok.inj answered)
    rfl

/-- The content of `cert.pem`. -/
def certificateIn (node : Option FileSystem.Node) : Option FileSystem.Content :=
  match node with
  | some (.dir d) =>
    match d.get "cert.pem" with
    | some (.file f) => some f.content
    | _ => none
  | _ => none

theorem certificateIn_of_says {row : Certificate} {node : Option FileSystem.Node}
    (h : Says parsing row node) : ∃ pem m, certificateIn node = some (.bytes pem) ∧
      parsing pem = some m ∧ stated row = ofMetadata m := by
  obtain ⟨d, f, pem, m, rfl, file, content, read, told⟩ := h
  refine ⟨pem, m, ?_, read, told⟩
  simp only [certificateIn, file, content]

/-- Whether thread 0 has ended, the record's directory and fingerprint, and the file. -/
def shown (c : Configuration) : Bool × Option (String × String) × Option FileSystem.Content :=
  (c.resting 1, (c.world.db.row 0).map fun row => (row.outputDirectory, row.fingerprintSHA256),
    certificateIn (c.world.fs.nodes (targetOf "example-com")))

/-- The checks of `steady` that a run on the sample surroundings needs. -/
def steadily (c : Configuration) (_ : Nat) (e : Eff) : Bool :=
  match e with
  | .store (.createCertificate _) => false
  | .file _ (.op (.removeAll p)) =>
    c.world.db.certificates.rows.all fun row => row.outputDirectory ≠ p.name
  | _ => true

theorem steady_of_steadily {c : Configuration} {t : Nat} {e : Eff} (h : steadily c t e = true) :
    (steady sampleEnvironment).call c t e where
  recorded _ _ _ _ _ _ _ := rfl
  restored _ _ _ _ _ _ _ := rfl
  spared := by
    rintro id directory rfl ⟨owner, row, stored, owned, -⟩
    obtain ⟨member, -⟩ := KeyedTables.Table.find?_eq_some_iff.mp stored
    exact of_decide_eq_true (List.all_eq_true.mp h row member) owned
  inserted := by
    rintro value rfl
    cases h

/-- A renewal that goes well. -/
theorem quiet_in_agreement_renewal : ∃ c : Configuration,
    Reach (pool sampleEnvironment sampleService) (steady sampleEnvironment)
        (requested issuedWorld []) c ∧
      (∃ row, c.world.db.row 0 = some row ∧ row.fingerprintSHA256 = "fingerprint") ∧
      InAgreement parsing c.world := by
  have played : ((pool sampleEnvironment sampleService).play steadily (List.replicate 68 0)
      (requested issuedWorld [renewal])).map shown =
        some (true, some ("example-com", "fingerprint"), some (.bytes [1])) := by
    decide +kernel
  obtain ⟨c, run, seen⟩ := Option.map_eq_some_iff.mp played
  obtain ⟨ended, seen⟩ := Prod.mk.inj seen
  obtain ⟨record, -⟩ := Prod.mk.inj seen
  obtain ⟨row, stored, same⟩ := Option.map_eq_some_iff.mp record
  have bounded := requested_free issuedWorld [renewal]
  have begun : Reach (pool sampleEnvironment sampleService) (steady sampleEnvironment)
      (requested issuedWorld []) (requested issuedWorld [renewal]) :=
    requested_reach _ (fun _ _ => trivial) _ _ (by decide)
  have reached := begun.trans (play_reach (fun _ _ _ => steady_of_steadily) run)
  have quiet := quiet_of_resting (play_bounded bounded run) ended
  exact ⟨c, reached, ⟨row, stored, congrArg Prod.snd same⟩,
    quiet_in_agreement sample_truthful (requested_started fun _ => rfl) issuedWorld_agreed reached
      quiet⟩

/-- The fourth call of the store fails: it is the one that records the renewal. -/
def unrecorded : Environment :=
  { sampleEnvironment with backend := ⟨fun n => if n = 3 then some false else none, fun _ _ => 0⟩ }

/-- A renewal that is not recorded leaves new files with the old record. -/
theorem renewal_unrecorded : ¬ ∀ (parse : Bytes → Option Metadata) (env : Environment)
    (s : Service) (start c : Configuration), Truthful parse env → Started start →
      InAgreement parse start.world → Reach (pool env s) .any start c → c.Quiet →
        InAgreement parse c.world := by
  intro claim
  have played : ((pool unrecorded sampleService).play (fun _ _ _ => true) (List.replicate 65 0)
      (requested issuedWorld [renewal])).map shown =
        some (true, some ("example-com", "older"), some (.bytes [1])) := by
    decide +kernel
  obtain ⟨c, run, seen⟩ := Option.map_eq_some_iff.mp played
  obtain ⟨ended, seen⟩ := Prod.mk.inj seen
  obtain ⟨record, file⟩ := Prod.mk.inj seen
  obtain ⟨row, stored, same⟩ := Option.map_eq_some_iff.mp record
  have owned : row.outputDirectory = "example-com" := congrArg Prod.fst same
  have older : row.fingerprintSHA256 = "older" := congrArg Prod.snd same
  have begun : Reach (pool unrecorded sampleService) .any (requested issuedWorld [])
      (requested issuedWorld [renewal]) :=
    requested_reach _ (fun _ _ => trivial) _ _ (by decide)
  have reached := begun.trans (play_reach (fun _ _ _ _ => trivial) run)
  have quiet := quiet_of_resting (play_bounded (requested_free _ [renewal]) run) ended
  have agreed := claim parsing unrecorded sampleService _ c
    ⟨sample_truthful.selfSigned, sample_truthful.acme⟩ (requested_started fun _ => rfl)
    issuedWorld_agreed reached quiet
  have issued : row.fingerprintSHA256 ≠ "" := by
    rw [older]
    decide
  obtain ⟨-, told⟩ := agreed 0 row stored issued
  rw [owned] at told
  obtain ⟨pem, m, read, parsed, speaks⟩ := certificateIn_of_says told
  obtain rfl : [1] = pem := FileSystem.Content.bytes.inj (Option.some.inj (file.symm.trans read))
  obtain rfl : sampleMaterial.metadata = m := Option.some.inj parsed
  have newer : row.fingerprintSHA256 = "fingerprint" :=
    congrArg Stated.fingerprintSHA256 speaks
  rw [older] at newer
  exact absurd newer (by decide)

end AgreedRuns
