import CertMate.RetrySteps

/-!
# The retries of a renewal scan

A scan tries a renewal up to `RetryCount` times again, but a failed attempt
leaves the status `failed`, and from there no renewal is let in: after the first
attempt the engine is not called any more.
-/
namespace RenewalRetries
open CertificateModel DomainValidation CallTrees ThreadPools ServiceWorld CertificateFiles
  CertificateService ServiceProtocol ServiceSteps ServicePool DeleteExclusion Bystanders RetrySteps
open SqliteStore hiding exec
open RetryProtocol (Past Stage Equipped Publishes Answers)

section Runs
variable {s : Service} {env : Environment}

/-- A lock that has not been made yet is held by nobody. -/
def unissued : Assertion Eff Ans World Local (Outcome Unit) where
  world w := ∀ lock, w.nextLock ≤ lock → w.holder lock = none
  thread _ _ _ := True

theorem unissued_stable {D : Discipline Eff Ans World Local (Outcome Unit)} :
    unissued.Stable (pool env s) D (Sound env s) where
  own c t e k l sound holds running _ _ := by
    refine ⟨fun lock later => ?_, trivial⟩
    have before : c.world.holder lock = none :=
      holds.world lock (Nat.le_trans exec_nextLock later)
    change (exec env t e c.world).2.holder lock = none
    cases e with
    | tryLock taken =>
      obtain ⟨v, found⟩ := sound.allowed running
      have issued : taken < c.world.nextLock :=
        (sound.standing running).issued taken (by rw [found]; rfl)
      have later : c.world.nextLock ≤ lock := Nat.le_trans exec_nextLock later
      simp only [exec]
      split
      · exact before
      · exact (Function.update_of_ne (by omega) _ _).trans before
    | unlock given =>
      by_cases same : lock = given
      · rw [same]
        exact Function.update_self _ _ _
      · exact (Function.update_of_ne same _ _).trans before
    | _ =>
      rw [exec_holder]
      · exact before
      · intro lock
        constructor <;> exact Eff.noConfusion
  other _ _ _ _ _ _ _ _ _ _ _ _ _ _ := trivial
  start _ _ _ _ _ _ _ _ := trivial
  spawn _ _ _ _ _ _ _ _ _ _ _ _ _ := trivial
  crash _ _ _ _ := fun _ _ => rfl

/-- What is known of every configuration of a process. -/
structure Usual (env : Environment) (s : Service) (c : Configuration) : Prop where
  sound : Sound env s c
  names : named.Holds c
  locks : unissued.Holds c

theorem Usual.step {D : Discipline Eff Ans World Local (Outcome Unit)} {c c' : Configuration}
    (h : Usual env s c) (hs : Step (pool env s) D c c') : Usual env s c' where
  sound := h.sound.step hs
  names := named_stable.step h.sound h.names hs
  locks := unissued_stable.step h.sound h.locks hs

theorem Usual.reach {D : Discipline Eff Ans World Local (Outcome Unit)} {c c' : Configuration}
    (h : Usual env s c) (run : Reach (pool env s) D c c') : Usual env s c' :=
  Reach.invariant _ _ (fun _ _ => Usual.step) run h

theorem usual_of_started {c : Configuration} (started : Started c)
    (unheld : ∀ lock, c.world.holder lock = none) : Usual env s c :=
  ⟨started.sound, started.holds trivial, started.holds fun lock _ => unheld lock⟩

/-- The request is the goroutine of a scan for the certificate. -/
def WorksOn (id : Id) : Request → Prop
  | .worker _ _ i => i = id
  | _ => False

instance (id : Id) (request : Request) : Decidable (WorksOn id request) := by
  cases request <;> unfold WorksOn <;> infer_instance

/-- No operation on the certificate is in flight: its lock is free, no goroutine
is there for it, and what else there is has at most read it. -/
structure Idle (value : Certificate) (c : Configuration) : Prop where
  stored : c.world.db.row value.id = some value
  free : Free value c.world
  apart : ∀ u th, c.threads u = some th → ¬ WorksOn value.id th.seen.request ∧
    Bystander value.id value.outputDirectory th.seen.phase

/-- As long as thread `t` is there, no operation on the certificate begins. -/
def unattended (id : Id) (t : Nat) : Discipline Eff Ans World Local (Outcome Unit) where
  start c _ := (c.threads t).isSome = true
  call c _ e := (c.threads t).isSome = true ∧ ¬ Attends id e
  crash _ := False

/-- No operation on the certificate begins but the attempts of its goroutine. -/
def attended (id : Id) : Discipline Eff Ans World Local (Outcome Unit) where
  start _ _ := True
  call c u e := Attends id e → (∀ m policy, e ≠ .startWorker m id policy) ∧
    ∃ th, c.threads u = some th ∧ WorksOn id th.seen.request
  crash _ := False

/-- How far the loop over the certificates is. -/
inductive Listing where
  | opening
  | looping (scan : Nat)
  | counted (scan : Nat) (certificate : Id)

def Listing.allows (policy : Policy) (listing : Listing) : Eff → Prop
  | .store .certificates | .now | .reportedErrors _ => True
  | .newScan _ => listing = .opening
  | .addWorker scan _ | .waitWorkers scan => listing = .looping scan
  | .startWorker scan certificate p => listing = .counted scan certificate ∧ p = policy
  | _ => False

def Listing.note : Listing → (e : Eff) → Ans e → Listing
  | .opening, .newScan _, scan => .looping scan
  | .looping scan, .addWorker _ certificate, _ => .counted scan certificate
  | .counted scan _, .startWorker _ _ _, _ => .looping scan
  | listing, _, _ => listing

abbrev Lists (policy : Policy) {α : Type} (p : Operation α) (listing : Listing) : Prop :=
  Follows (fun _ _ => True) (Listing.allows policy) Listing.note p listing fun _ _ => True

theorem startWorkers_lists (policy : Policy) (scan : Nat) (items : List Certificate) :
    Follows (fun _ _ => True) (Listing.allows policy) Listing.note (startWorkers policy scan items)
      (.looping scan) fun _ listing => listing = .looping scan := by
  induction items with
  | nil => exact rfl
  | cons item rest ih =>
    refine follows_call.mpr ⟨trivial, fun now _ => ?_⟩
    split
    · refine follows_call.mpr ⟨rfl, fun _ _ => ?_⟩
      exact follows_call.mpr ⟨⟨rfl, rfl⟩, fun _ _ => ih⟩
    · exact ih

theorem runRenewalScan_lists (policy : Policy) : Lists policy (runRenewalScan policy) .opening := by
  refine follows_call.mpr ⟨trivial, fun listed _ => ?_⟩
  cases listed with
  | error err => exact trivial
  | ok values =>
    refine follows_call.mpr ⟨rfl, fun scan _ => ?_⟩
    refine (startWorkers_lists policy scan values).bind ?_
    rintro _ _ rfl
    refine follows_call.mpr ⟨rfl, fun _ _ => ?_⟩
    refine follows_call.mpr ⟨trivial, fun errors _ => ?_⟩
    cases Error.joinAll errors <;> exact trivial

theorem not_workerDone {id : Id} {e : Eff} (apart : ¬ Attends id e) (m : Nat) :
    e ≠ .workerDone m id := by
  rintro rfl
  exact apart rfl

/-- The wait group counts the certificate before its goroutine is started. -/
def Listing.Agrees (id : Id) (w : World) : Listing → Prop
  | .opening => True
  | .looping scan => scan < w.nextScan
  | .counted scan certificate => scan < w.nextScan ∧
      (certificate = id → id ∈ (w.scans scan).outstanding)

theorem Listing.Agrees.call {id : Id} {w : World} {listing : Listing} (h : listing.Agrees id w)
    {u : Nat} {e : Eff} (busy : ¬ Attends id e) : listing.Agrees id (exec env u e w).2 := by
  have spared : ∀ m, e ≠ .workerDone m id := by
    rintro m rfl
    exact busy rfl
  cases listing with
  | opening => trivial
  | looping scan => exact Nat.lt_of_lt_of_le h nextScan_mono
  | counted scan certificate =>
    refine ⟨Nat.lt_of_lt_of_le h.1 nextScan_mono, fun same => ?_⟩
    exact counted_kept h.1 (not_workerDone busy) (h.2 same)

theorem Listing.Agrees.own {id : Id} {w : World} {policy : Policy} {listing : Listing}
    (h : listing.Agrees id w) {u : Nat} {e : Eff} (allowed : listing.allows policy e)
    (busy : ¬ Attends id e) :
    (listing.note e (exec env u e w).1).Agrees id (exec env u e w).2 := by
  have kept : listing.Agrees id (exec env u e w).2 := h.call busy
  cases e with
  | newScan capacity =>
    obtain rfl : listing = .opening := allowed
    exact Nat.lt_succ_self _
  | addWorker scan certificate =>
    obtain rfl : listing = .looping scan := allowed
    refine ⟨h, ?_⟩
    rintro rfl
    change certificate ∈ (Function.update w.scans scan _ scan).outstanding
    rw [Function.update_self]
    exact List.mem_cons_self
  | startWorker scan certificate p =>
    obtain ⟨rfl, -⟩ := allowed
    exact h.1
  | _ => cases listing <;> exact kept

section Selecting
variable {value : Certificate} {n : Nat}

/-- What a bystander leaves alone, as a thread of the pool. -/
theorem kept_by {c : Configuration} (known : Usual env s c) {u : Nat} {e : Eff}
    {k : Ans e → Operation (Outcome Unit)} {l : Local}
    (running : c.threads u = some ⟨.call e k, l⟩) {directory : String}
    (outside : Bystander value.id directory l.phase) (apart : ¬ Attends value.id e)
    (stored : ∃ row, c.world.db.row value.id = some row) :
    Kept value.id directory c.world (exec env u e c.world).2 := by
  obtain ⟨row, stored⟩ := stored
  exact kept (known.sound.allowed running) outside apart (known.sound.standing running)
    (known.names.thread u _ running) stored

theorem bystander_after {c : Configuration} (known : Usual env s c) {u : Nat} {e : Eff}
    {k : Ans e → Operation (Outcome Unit)} {l : Local}
    (running : c.threads u = some ⟨.call e k, l⟩)
    (outside : Bystander value.id value.outputDirectory l.phase) (apart : ¬ Attends value.id e)
    (stored : Stored value c.world) :
    Bystander value.id value.outputDirectory
      (ServiceProtocol.note l.phase e (exec env u e c.world).1) := by
  obtain ⟨row, there, owned⟩ := stored
  exact outside.own there owned apart rfl (known.sound.move running)

variable (s env value n) in
/-- Before the scan selects the certificate, it is as it was. -/
def selecting (t : Nat) (policy : Policy) : Assertion Eff Ans World Local (Outcome Unit) where
  world w := Made s env value n .untouched w ∧ Free value w
  thread u th w := ¬ WorksOn value.id th.seen.request ∧
    Bystander value.id value.outputDirectory th.seen.phase ∧
    (u = t → ∃ listing : Listing, Lists policy th.prog listing ∧ listing.Agrees value.id w)

theorem selecting_stable (t : Nat) (policy : Policy) :
    (selecting s env value n t policy).Stable (pool env s) (unattended value.id t)
      (Usual env s) where
  own c u e k l known holds running _ ok := by
    obtain ⟨-, apart⟩ := ok
    obtain ⟨made, free⟩ := holds.world
    obtain ⟨elsewhere, outside, lists⟩ := holds.thread u _ running
    have kept := kept_by known running outside apart made.row
    refine ⟨⟨made.frame kept, free.frame kept⟩, elsewhere, ?_, fun same => ?_⟩
    · exact bystander_after known running outside apart ⟨value, made.1, rfl⟩
    · obtain ⟨listing, follows, agrees⟩ := lists same
      exact ⟨_, follows.2 _ trivial, agrees.own follows.1 apart⟩
  other c u e k l v th known holds running _ ok _ there := by
    obtain ⟨-, apart⟩ := ok
    obtain ⟨elsewhere, outside, lists⟩ := holds.thread v th there
    refine ⟨elsewhere, outside, fun same => ?_⟩
    obtain ⟨listing, follows, agrees⟩ := lists same
    exact ⟨listing, follows, agrees.call apart⟩
  start c u th _ _ free started ok := by
    obtain ⟨request, external, rfl⟩ := started
    refine ⟨?_, bystander_idle, ?_⟩
    · cases request <;> first | exact fun h => h | cases external
    · rintro rfl
      change (c.threads u).isSome = true at ok
      rw [free] at ok
      cases ok
  spawn c u e k l v child known holds running born free ok := by
    obtain ⟨there, apart⟩ := ok
    refine ⟨?_, ?_, ?_⟩
    · cases e with
      | startWorker m i p =>
        cases born
        exact apart
      | _ => cases born
    · obtain ⟨request, rfl⟩ := spawn_some born
      exact bystander_idle
    · rintro rfl
      rw [free] at there
      cases there
  crash _ _ _ ok := ok.elim

end Selecting

section Answers

/-- The answers that the file calls of a thread got, in the order of the calls. -/
def fileAnswers (env : Environment) (u : Nat) (log : List (Nat × Eff × World)) : Answers :=
  log.filterMap fun call =>
    match call with
    | (t, .file i e, w) => if t = u then some ⟨e, (exec env t (.file i e) w).1⟩ else none
    | _ => none

/-- What a thread has read from the clock. -/
def clockReadings (env : Environment) (u : Nat) (log : List (Nat × Eff × World)) : List Time :=
  log.filterMap fun call =>
    match call with
    | (t, .now, w) => if t = u then some (exec env t .now w).1 else none
    | _ => none

theorem fileAnswers_append (u : Nat) (log more : List (Nat × Eff × World)) :
    fileAnswers env u (log ++ more) = fileAnswers env u log ++ fileAnswers env u more :=
  List.filterMap_append

theorem clockReadings_append (u : Nat) (log more : List (Nat × Eff × World)) :
    clockReadings env u (log ++ more) = clockReadings env u log ++ clockReadings env u more :=
  List.filterMap_append

theorem answers_other {t u : Nat} (other : t ≠ u) (e : Eff) (w : World) :
    fileAnswers env u [(t, e, w)] = [] ∧ clockReadings env u [(t, e, w)] = [] := by
  cases e <;> simp [fileAnswers, clockReadings, other]

/-- The answers are those of the publication, if there was one. -/
def HeardPast (files : Answers) (readings : List Time) : Past → Prop
  | .unpublished _ time told | .renewed _ time told => files = told ∧ readings = [time]
  | _ => files = [] ∧ readings = []

/-- The stage of the goroutine has all its answers. -/
def Heard (files : Answers) (readings : List Time) : Stage → Prop
  | .idle past | .read past _ | .found past _ _ | .held past _ _ | .settled past _ =>
    HeardPast files readings past
  | .marked _ | .working _ | .called _ _ => files = [] ∧ readings = []
  | .timed _ _ time _ told => files = told ∧ readings = [time]
  | .panicked | .done | .ruledOut => True

theorem Heard.store {value : Certificate} {files : Answers} {readings : List Time} {stage : Stage}
    {q : Query} (permitted : RetryProtocol.permitsQuery s value stage q) (r : Reply q)
    (h : Heard files readings stage) :
    Heard files readings (RetryProtocol.noteQuery value stage q r) := by
  cases q with
  | certificate i =>
    obtain ⟨rfl, ⟨past, rfl, -⟩ | ⟨past, lock, rfl⟩⟩ := permitted
    · simp only [RetryProtocol.noteQuery]
      split
      · exact h
      · trivial
    · exact h
  | setCertificateStatus i status =>
    obtain ⟨-, -, -, lock, rfl⟩ := permitted
    exact h
  | createJob run =>
    obtain ⟨-, lock, rfl⟩ := permitted
    exact h
  | markCertificateFailed i message =>
    obtain ⟨-, lock, ⟨rfl, -⟩ | rfl | ⟨material, time, progress, told, rfl, -⟩⟩ := permitted
    all_goals exact h
  | markCertificateRenewed c =>
    obtain ⟨lock, material, time, told, rfl, -⟩ := permitted
    exact h
  | createAuditEvent event =>
    obtain ⟨-, past, lock, rfl⟩ := permitted
    exact h
  | finishJob i status code output message =>
    cases stage <;> exact h
  | _ => exact permitted.elim

theorem Heard.own {value : Certificate} {scan : Nat} {files : Answers} {readings : List Time}
    {stage : Stage} {e : Eff} (permitted : RetryProtocol.permits s value scan stage e) (u : Nat)
    (w : World) (h : Heard files readings stage) :
    Heard (files ++ fileAnswers env u [(u, e, w)]) (readings ++ clockReadings env u [(u, e, w)])
      (RetryProtocol.note value stage e (exec env u e w).1) := by
  have silent : ∀ {stage' : Stage}, fileAnswers env u [(u, e, w)] = [] →
      clockReadings env u [(u, e, w)] = [] → Heard files readings stage' →
      Heard (files ++ fileAnswers env u [(u, e, w)])
        (readings ++ clockReadings env u [(u, e, w)]) stage' := by
    intro stage' files none heard
    rw [files, none, List.append_nil, List.append_nil]
    exact heard
  cases e with
  | file i e =>
    obtain ⟨-, -, lock, material, time, progress, told, document, rfl, -⟩ := permitted
    obtain ⟨rfl, rfl⟩ := h
    simp [RetryProtocol.note, Heard, fileAnswers, clockReadings]
  | now =>
    obtain ⟨lock, material, rfl⟩ := permitted
    obtain ⟨rfl, rfl⟩ := h
    simp [RetryProtocol.note, Heard, fileAnswers, clockReadings]
  | store q =>
    refine silent rfl rfl ?_
    cases (exec env u (.store q) w).1 with
    | error err => trivial
    | ok r => exact h.store permitted r
  | loadOrStore i =>
    obtain ⟨-, past, v, rfl⟩ := permitted
    exact silent rfl rfl h
  | tryLock lock =>
    obtain ⟨past, v, rfl⟩ := permitted
    refine silent rfl rfl ?_
    cases (exec env u (.tryLock lock) w).1 with
    | false => trivial
    | true => exact h
  | unlock lock =>
    refine silent rfl rfl ?_
    rcases permitted with ⟨past, v, rfl, -⟩ | ⟨past, rfl⟩ | rfl
    · cases past <;> exact h
    · exact h
    · trivial
  | resolve credential =>
    refine silent rfl rfl ?_
    cases (exec env u (.resolve credential) w).1 with
    | error err => trivial
    | ok values => exact h
  | renewSelfSigned i request =>
    obtain ⟨-, -, -, lock, rfl⟩ := permitted
    exact silent rfl rfl h
  | renewACME i request =>
    obtain ⟨-, -, -, lock, rfl⟩ := permitted
    exact silent rfl rfl h
  | acquireSlot m =>
    refine silent rfl rfl ?_
    cases (exec env u (.acquireSlot m) w).1 with
    | false => trivial
    | true => exact h
  | pause seconds =>
    refine silent rfl rfl ?_
    cases (exec env u (.pause seconds) w).1 with
    | false => trivial
    | true => exact h
  | releaseSlot m => exact silent rfl rfl h
  | reportError m err => exact silent rfl rfl h
  | workerDone m i =>
    obtain ⟨-, -, past, rfl, -⟩ := permitted
    trivial
  | _ => exact permitted.elim

/-- A publication of the past was given the first of the answers. -/
def Within (files : Answers) (readings : List Time) : Past → Prop
  | .unpublished _ time told | .renewed _ time told => told <+: files ∧ readings.head? = some time
  | _ => True

theorem HeardPast.within {files : Answers} {readings : List Time} {past : Past}
    (h : HeardPast files readings past) : Within files readings past := by
  cases past with
  | unpublished material time told =>
    obtain ⟨rfl, rfl⟩ := h
    exact ⟨List.prefix_refl _, rfl⟩
  | renewed material time told =>
    obtain ⟨rfl, rfl⟩ := h
    exact ⟨List.prefix_refl _, rfl⟩
  | _ => trivial

theorem Within.append {files : Answers} {readings : List Time} {past : Past}
    (h : Within files readings past) (more : Answers) (later : List Time) :
    Within (files ++ more) (readings ++ later) past := by
  cases past with
  | unpublished material time told =>
    obtain ⟨first, head⟩ := h
    exact ⟨first.trans (List.prefix_append _ _), by rw [List.head?_append, head]; rfl⟩
  | renewed material time told =>
    obtain ⟨first, head⟩ := h
    exact ⟨first.trans (List.prefix_append _ _), by rw [List.head?_append, head]; rfl⟩
  | _ => trivial

end Answers

section Attempting
variable {value : Certificate} {n : Nat}

variable (s env value n) in
/-- The attempts of thread `u` are over. -/
def Finished (u : Nat) (w : World × List (Nat × Eff × World)) : Prop :=
  ∃ past, past ≠ .untouched ∧ Made s env value n past w.1 ∧
    Within (fileAnswers env u w.2) (clockReadings env u w.2) past

theorem Finished.frame {u : Nat} {w w' : World} {log more : List (Nat × Eff × World)}
    (h : Finished s env value n u (w, log)) (kept : Kept value.id value.outputDirectory w w') :
    Finished s env value n u (w', log ++ more) := by
  obtain ⟨past, left, made, heard⟩ := h
  refine ⟨past, left, made.frame kept, ?_⟩
  rw [fileAnswers_append, clockReadings_append]
  exact heard.append _ _

variable (s env value n) in
/-- While the goroutine, thread `u`, is not done, the wait group counts the certificate, and
the world is where its stage says. -/
def attempting (u scan : Nat) :
    Assertion Eff Ans (World × List (Nat × Eff × World)) Local (Outcome Unit) where
  world w := Stored value w.1 ∧ scan < w.1.nextScan ∧
    (value.id ∈ (w.1.scans scan).outstanding ∨ Finished s env value n u w)
  thread t th w := (WorksOn value.id th.seen.request → t = u ∧ ∃ stage,
      RetryProtocol.Keeps s value scan th.prog stage (fun _ _ => True) ∧
        Agrees s env value n t stage w.1 ∧
        Heard (fileAnswers env u w.2) (clockReadings env u w.2) stage ∧
        (stage ≠ .done → value.id ∈ (w.1.scans scan).outstanding)) ∧
    (¬ WorksOn value.id th.seen.request →
      Bystander value.id value.outputDirectory th.seen.phase)

theorem permits_spares {scan : Nat} {stage : Stage} {e : Eff}
    (permitted : RetryProtocol.permits s value scan stage e) (event : Event) :
    e ≠ .store (.deleteCertificateWithAudit value.id event) := by
  rintro rfl
  exact permitted

/-- Nothing comes after the notice to the scan. -/
theorem permits_open {scan : Nat} {stage : Stage} {e : Eff}
    (permitted : RetryProtocol.permits s value scan stage e) : stage ≠ .done := by
  rintro rfl
  cases e with
  | store q =>
    cases q <;> simp [RetryProtocol.permits, RetryProtocol.permitsQuery] at permitted
  | _ => simp [RetryProtocol.permits] at permitted

/-- Who does not work on the certificate makes no call that attends to it. -/
theorem apart_of_attended {id : Id} {c : Configuration} {t : Nat} {e : Eff}
    {k : Ans e → Operation (Outcome Unit)} {l : Local} (ok : (attended id).call c t e)
    (running : c.threads t = some ⟨.call e k, l⟩) (stranger : ¬ WorksOn id l.request) :
    ¬ Attends id e := by
  intro attends
  obtain ⟨-, th, there, works⟩ := ok attends
  cases running.symm.trans there
  exact stranger works

/-- A call of the goroutine itself. -/
theorem attempting_works (healthy : Healthy env value) {u scan t : Nat} {c : Configuration}
    {log : List (Nat × Eff × World)} {e : Eff} {k : Ans e → Operation (Outcome Unit)} {l : Local}
    (known : Usual env s c)
    (world : (attempting s env value n u scan).world (c.world, log))
    (thread : (attempting s env value n u scan).thread t ⟨.call e k, l⟩ (c.world, log))
    (works : WorksOn value.id l.request) :
    (attempting s env value n u scan).world
        ((exec env t e c.world).2, log ++ [(t, e, c.world)]) ∧
      (attempting s env value n u scan).thread t
        ⟨k (exec env t e c.world).1, (pool env s).note l e (exec env t e c.world).1⟩
        ((exec env t e c.world).2, log ++ [(t, e, c.world)]) := by
  obtain ⟨threads, w⟩ := c
  obtain ⟨stored, old, -⟩ := world
  obtain ⟨mine, -⟩ := thread
  obtain ⟨rfl, stage, keeps, agrees, heard, counted⟩ := mine works
  have permitted : RetryProtocol.permits s value scan stage e := by
    rcases keeps.1 with rfl | permitted
    · exact agrees.elim
    · exact permitted
  obtain ⟨row, there, owned⟩ := stored
  have after : Stored value (exec env t e w).2 := by
    obtain ⟨row', there', same⟩ : ∃ c', (exec env t e w).2.db.row value.id = some c' ∧
        c'.outputDirectory = row.outputDirectory := row_kept there (permits_spares permitted)
    exact ⟨row', there', same.trans owned⟩
  have next := own_step healthy ⟨row, there, owned⟩ known.locks.world permitted agrees
  have told : Heard (fileAnswers env t (log ++ [(t, e, w)]))
      (clockReadings env t (log ++ [(t, e, w)]))
      (RetryProtocol.note value stage e (exec env t e w).1) := by
    rw [fileAnswers_append, clockReadings_append]
    exact heard.own permitted t w
  have rest := keeps.2 _ (ServiceProtocol.exec_honest env t e w)
  have older : scan < (exec env t e w).2.nextScan := Nat.lt_of_lt_of_le old nextScan_mono
  have tracked := counted (permits_open permitted)
  by_cases leaves : e = .workerDone scan value.id
  · subst leaves
    obtain ⟨-, -, past, rfl, left⟩ := permitted
    have heard : HeardPast (fileAnswers env t log) (clockReadings env t log) past := heard
    have finished : Finished s env value n t
        ((exec env t (.workerDone scan value.id) w).2,
          log ++ [(t, .workerDone scan value.id, w)]) := by
      refine ⟨past, left, agrees.1.congr rfl rfl rfl, ?_⟩
      rw [fileAnswers_append, clockReadings_append]
      exact heard.within.append _ _
    exact ⟨⟨after, older, .inr finished⟩,
      fun _ => ⟨rfl, _, rest, next, told, fun open_ => absurd rfl open_⟩,
      fun stranger => absurd works stranger⟩
  · have spared : ∀ m, e ≠ .workerDone m value.id := by
      rintro m rfl
      exact leaves (by rw [permitted.1])
    have tracked : value.id ∈ ((exec env t e w).2.scans scan).outstanding :=
      counted_kept old spared tracked
    exact ⟨⟨after, older, .inl tracked⟩,
      fun _ => ⟨rfl, _, rest, next, told, fun _ => tracked⟩,
      fun stranger => absurd works stranger⟩

/-- A call of anybody else, for whom the certificate stays out of hand. -/
theorem attempting_stranger {u scan t : Nat} {c : Configuration} {log : List (Nat × Eff × World)}
    {e : Eff} {k : Ans e → Operation (Outcome Unit)} {l : Local} (known : Usual env s c)
    (running : c.threads t = some ⟨.call e k, l⟩) (apart : ¬ Attends value.id e)
    (world : (attempting s env value n u scan).world (c.world, log))
    (outside : Bystander value.id value.outputDirectory l.phase) :
    (attempting s env value n u scan).world
        ((exec env t e c.world).2, log ++ [(t, e, c.world)]) ∧
      Bystander value.id value.outputDirectory
        (ServiceProtocol.note l.phase e (exec env t e c.world).1) := by
  obtain ⟨⟨row, there, owned⟩, old, progress⟩ := world
  have kept := kept_by known running outside apart ⟨row, there⟩
  refine ⟨⟨⟨row, kept.row.trans there, owned⟩, Nat.lt_of_lt_of_le old nextScan_mono, ?_⟩, ?_⟩
  · exact progress.imp (counted_kept old (not_workerDone apart)) fun finished =>
      finished.frame kept
  · exact bystander_after known running outside apart ⟨row, there, owned⟩

theorem attempting_stable (healthy : Healthy env value) (u scan : Nat) :
    (attempting s env value n u scan).Stable (pool env s).recording (attended value.id).recording
      fun c => Usual env s ⟨c.threads, c.world.1⟩ where
  own c t e k l known holds running _ ok := by
    obtain ⟨threads, w, log⟩ := c
    by_cases works : WorksOn value.id l.request
    · exact attempting_works healthy known holds.world (holds.thread t _ running) works
    · have outside := (holds.thread t _ running).2 works
      obtain ⟨world, still⟩ := attempting_stranger known running
        (apart_of_attended ok running works) holds.world outside
      exact ⟨world, fun works' => absurd works' works, fun _ => still⟩
  other c t e k l v th known holds running _ ok away there := by
    obtain ⟨threads, w, log⟩ := c
    obtain ⟨mine, others⟩ := holds.thread v th there
    refine ⟨fun works => ?_, others⟩
    obtain ⟨rfl, stage, keeps, agrees, heard, counted⟩ := mine works
    obtain ⟨theirs, outsiders⟩ := holds.thread t _ running
    have stranger : ¬ WorksOn value.id l.request := fun works' => away (theirs works').1.symm
    have apart : ¬ Attends value.id e := apart_of_attended ok running stranger
    obtain ⟨⟨row, stored, -⟩, old, -⟩ := holds.world
    have kept := kept_by known running (outsiders stranger) apart ⟨row, stored⟩
    have told : Heard (fileAnswers env v (log ++ [(t, e, w)]))
        (clockReadings env v (log ++ [(t, e, w)])) stage := by
      have other : t ≠ v := Ne.symm away
      obtain ⟨files, readings⟩ :
          fileAnswers env v [(t, e, w)] = [] ∧ clockReadings env v [(t, e, w)] = [] :=
        answers_other other e w
      rw [fileAnswers_append, clockReadings_append, files, readings, List.append_nil,
        List.append_nil]
      exact heard
    exact ⟨rfl, stage, keeps, agrees.frame kept, told,
      fun busy => counted_kept old (not_workerDone apart) (counted busy)⟩
  start c t th _ _ _ started _ := by
    obtain ⟨request, external, rfl⟩ := started
    refine ⟨fun works => ?_, fun _ => bystander_idle⟩
    cases request <;> first | exact works.elim | cases external
  spawn c t e k l v child _ _ _ born _ ok := by
    refine ⟨fun works => ?_, fun _ => ?_⟩
    · cases e with
      | startWorker m i p =>
        cases born
        exact absurd (congrArg (fun j => Eff.startWorker m j p) works) ((ok works).1 m p)
      | _ => cases born
    · have born : (pool env s).spawn t e = some child := born
      obtain ⟨request, rfl⟩ := spawn_some born
      exact bystander_idle
  crash _ _ _ ok := ok.elim

end Attempting

section Scans
variable {value : Certificate} {n : Nat}

variable (env s) in
/-- A scan that selects the certificate, up to the end of its waiting. Until the
selection no operation on the certificate is in flight, and afterwards none but
the goroutine of the scan, which is thread `u`. The list has the calls since the
selection. -/
inductive ScanRun (policy : Policy) (value : Certificate) (u : Nat) :
    Configuration → List (Nat × Eff × World) → Configuration → Prop where
  | waited {c₀ c c₁ : Configuration} {log : List (Nat × Eff × World)} {t scan : Nat}
      {k k' : Unit → Operation (Outcome Unit)} {l l' : Local}
      (fresh : c₀.threads t = some (thread s (.scan policy))) (idle : Idle value c₀)
      (reads : Reach (pool env s) (unattended value.id t) c₀ c)
      (selects : c.threads t = some ⟨.call (.startWorker scan value.id policy) k, l⟩)
      (free : c.threads u = none)
      (attempts : Records (pool env s) (attended value.id)
        (((pool env s).after c t (.startWorker scan value.id policy) k l).set u
          (some (thread s (.worker policy scan value.id)))) log c₁)
      (waits : c₁.threads t = some ⟨.call (.waitWorkers scan) k', l'⟩)
      (ended : enabled env (.waitWorkers scan) c₁.world = true) :
      ScanRun policy value u c₀ log c₁

/-- The goroutine is at its first call. -/
theorem worker_begins (policy : Policy) (scan : Nat) :
    RetryProtocol.Keeps s value scan (thread s (.worker policy scan value.id)).prog
      (.idle .untouched) fun _ _ => True :=
  (RetryProtocol.renewalWorker_keeps policy).bind fun _ _ _ => Or.inr trivial

/-- The scan selects the certificate, and the attempts of its goroutine begin. -/
theorem attempting_begins {c : Configuration} {t u scan : Nat} {policy : Policy}
    {k : Unit → Operation (Outcome Unit)} {l : Local}
    (ready : (selecting s env value n t policy).Holds c)
    (selects : c.threads t = some ⟨.call (.startWorker scan value.id policy) k, l⟩)
    (free : c.threads u = none) :
    (attempting s env value n u scan).Holds
      ((((pool env s).after c t (.startWorker scan value.id policy) k l).set u
        (some (thread s (.worker policy scan value.id)))).recorded []) := by
  obtain ⟨made, unheld⟩ := ready.world
  obtain ⟨elsewhere, outside, lists⟩ := ready.thread t _ selects
  obtain ⟨listing, follows, counted⟩ := lists rfl
  obtain ⟨rfl, -⟩ := follows.1
  refine ⟨⟨⟨value, made.1, rfl⟩, counted.1, .inl (counted.2 rfl)⟩, fun v th there => ?_⟩
  replace there : (((pool env s).after c t (.startWorker scan value.id policy) k l).set u
    (some (thread s (.worker policy scan value.id)))).threads v = some th := there
  by_cases worker : v = u
  · subst worker
    rw [Config.set_self] at there
    cases there
    exact ⟨fun _ => ⟨rfl, _, worker_begins policy scan, ⟨made, unheld⟩, ⟨rfl, rfl⟩,
      fun _ => counted.2 rfl⟩, fun stranger => absurd rfl stranger⟩
  -- The selection itself changes nothing but who is there.
  rw [Config.set_other _ _ worker] at there
  by_cases lister : v = t
  · subst lister
    rw [after_self] at there
    cases there
    refine ⟨fun works => absurd works elsewhere, fun _ => ?_⟩
    have still :
        ServiceProtocol.note l.phase (.startWorker scan value.id policy) () = l.phase := by
      cases l.phase <;> rfl
    change Bystander value.id value.outputDirectory
      (ServiceProtocol.note l.phase (.startWorker scan value.id policy) ())
    rw [still]
    exact outside
  · have there : c.threads v = some th := (Function.update_of_ne lister _ _).symm.trans there
    obtain ⟨elsewhere, outside, -⟩ := ready.thread v th there
    exact ⟨fun works => absurd works elsewhere, fun _ => outside⟩

/-- When the waiting is over, the attempts are. -/
theorem ScanRun.finished {policy : Policy} {u : Nat} {c₀ c₁ : Configuration}
    {log : List (Nat × Eff × World)} (healthy : Healthy env value) (known : Usual env s c₀)
    (run : ScanRun s env policy value u c₀ log c₁) :
    Finished s env value (c₀.world.engineCalls value.id) u (c₁.world, log) := by
  obtain ⟨fresh, idle, reads, selects, free, attempts, waits, ended⟩ := run
  rename_i c t scan k k' l l'
  have first : (selecting s env value (c₀.world.engineCalls value.id) t policy).Holds c₀ := by
    refine ⟨⟨⟨idle.stored, rfl⟩, idle.free⟩, fun v th there => ?_⟩
    obtain ⟨elsewhere, outside⟩ := idle.apart v th there
    refine ⟨elsewhere, outside, ?_⟩
    rintro rfl
    cases fresh.symm.trans there
    exact ⟨.opening, runRenewalScan_lists policy, trivial⟩
  obtain ⟨known, ready⟩ := (selecting_stable t policy).reach
    (fun _ _ => Usual.step) reads known first
  have usual : Usual env s (((pool env s).after c t (.startWorker scan value.id policy) k l).set u
      (some (thread s (.worker policy scan value.id)))) :=
    known.step (.spawn (D := .any) selects rfl rfl free trivial)
  obtain ⟨-, done⟩ := (attempting_stable healthy u scan).reach
    (fun _ _ known hs => known.step hs.forget) attempts usual
    (attempting_begins ready selects free)
  obtain ⟨-, -, counted | finished⟩ := done.world
  · have counted : value.id ∈ (c₁.world.scans scan).outstanding := counted
    rw [List.isEmpty_iff.mp ended] at counted
    cases counted
  · exact finished

variable (env) in
/-- What the retries are to come to, for which the engine had been called `n`
times: the first result among the outcomes is the last call and is what the
certificate is left with, and without one there are as many calls as attempts. -/
structure Retried (policy : Policy) (value : Certificate) (n : Nat) (w : World) : Prop where
  success : ∀ k material, k ≤ policy.retryCount →
    (∀ i < k, engineResult env value (n + i) = none) →
    engineResult env value (n + k) = some material →
    w.engineCalls value.id = n + (k + 1) ∧
      (∃ row, w.db.row value.id = some row ∧ row.outputDirectory = value.outputDirectory ∧
        Carries material row) ∧
      Filed value material w
  failure : (∀ i ≤ policy.retryCount, engineResult env value (n + i) = none) →
    w.engineCalls value.id = n + (policy.retryCount + 1)

variable (env) in
/-- With the answers that thread `u` got to its file calls, and the time it read,
`Publish` puts the material in place. -/
def LetsThrough (value : Certificate) (material : Material) (u : Nat)
    (log : List (Nat × Eff × World)) : Prop :=
  ∃ time, (clockReadings env u log).head? = some time ∧
    Publishes value material time (fileAnswers env u log)

/-- There is a first result among the outcomes, or there is none. -/
theorem first_result (outcome : Nat → Option Material) (r : Nat) :
    (∀ i ≤ r, outcome i = none) ∨
      ∃ k ≤ r, (∀ i < k, outcome i = none) ∧ ∃ material, outcome k = some material := by
  induction r with
  | zero =>
    cases found : outcome 0 with
    | none =>
      left
      intro i low
      rw [Nat.le_zero.mp low, found]
    | some material => exact .inr ⟨0, Nat.le_refl 0, (fun i low => nomatch low), material, found⟩
  | succ r ih =>
    rcases ih with never | ⟨k, low, before, result⟩
    · cases found : outcome (r + 1) with
      | none =>
        left
        intro i low
        rcases Nat.le_succ_iff.mp low with low | rfl
        · exact never i low
        · exact found
      | some material =>
        have before : ∀ i < r + 1, outcome i = none :=
          fun i low => never i (Nat.le_of_lt_succ low)
        exact .inr ⟨r + 1, Nat.le_refl _, before, material, found⟩
    · exact .inr ⟨k, Nat.le_succ_of_le low, before, result⟩

/-- How often the engine is to be called. -/
theorem Retried.calls {policy : Policy} {w : World} (h : Retried env policy value n w) :
    ∃ k ≤ policy.retryCount, w.engineCalls value.id = n + (k + 1) ∧
      (k < policy.retryCount → ∃ material, engineResult env value (n + k) = some material) := by
  rcases first_result (fun i => engineResult env value (n + i)) policy.retryCount with
    never | ⟨k, low, before, material, result⟩
  · exact ⟨policy.retryCount, Nat.le_refl _, h.failure never,
      fun more => absurd more (Nat.lt_irrefl _)⟩
  · exact ⟨k, low, (h.success k material low before result).1, fun _ => ⟨material, result⟩⟩

/-- A renewal that was published is all that is asked for. -/
theorem retried_of_renewed {policy : Policy} {w : World} {material : Material} {time : Time}
    {told : Answers} (made : Made s env value n (.renewed material time told) w) :
    Retried env policy value n w := by
  obtain ⟨row, calls, -, -, result, -, -, filed⟩ := made
  constructor
  · intro k material' low none result'
    cases k with
    | zero =>
      cases result.symm.trans result'
      exact ⟨calls, row, filed⟩
    | succ k => cases (none 0 (Nat.zero_lt_succ k)).symm.trans result
  · intro none
    cases (none 0 (Nat.zero_le _)).symm.trans result

/-- A result of the first call is not to leave the certificate failed. -/
theorem not_retried_of_failed {policy : Policy} {w : World} {material : Material}
    {row : Certificate} (there : w.db.row value.id = some row) (failed : row.status = .failed)
    (result : engineResult env value n = some material) : ¬ Retried env policy value n w := by
  intro retried
  obtain ⟨-, ⟨row', there', -, carries⟩, -⟩ :=
    retried.success 0 material (Nat.zero_le _) (fun _ low => nomatch low) result
  cases there.symm.trans there'
  cases failed.symm.trans carries.status

/-- The attempt that came to nothing was the last call of the engine, if it made one. -/
theorem retried_failed {policy : Policy} {w : World} {called : Bool}
    (made : Made s env value n (.failed called) w) :
    Retried env policy value n w ↔ called = true ∧ policy.retryCount = 0 := by
  obtain ⟨-, calls, -, -, none⟩ := made
  constructor
  · intro retried
    obtain ⟨k, low, counted, more⟩ := retried.calls
    have called : called = true := by
      by_contra absent
      rw [calls, if_neg absent] at counted
      omega
    rw [calls, if_pos called] at counted
    obtain rfl : k = 0 := by omega
    refine ⟨called, ?_⟩
    by_contra retries
    obtain ⟨material, found⟩ := more (Nat.pos_of_ne_zero retries)
    cases (none called).symm.trans found
  · rintro ⟨rfl, once⟩
    constructor
    · intro k material low _ found
      obtain rfl : k = 0 := by omega
      cases (none rfl).symm.trans found
    · intro _
      rw [calls, once]
      rfl

/-- A scan retries as it is to when the certificate is in a status that lets a
renewal in, the service can call the engine, and either the first result comes at
once and the operating system lets its publication through, or the first call
brings none and there are no retries. -/
theorem scan_retries_iff {policy : Policy} {u : Nat} {start c₀ c₁ : Configuration}
    {log : List (Nat × Eff × World)} (healthy : Healthy env value) (started : Started start)
    (unheld : ∀ lock, start.world.holder lock = none)
    (before : Reach (pool env s) .any start c₀) (run : ScanRun s env policy value u c₀ log c₁) :
    Retried env policy value (c₀.world.engineCalls value.id) c₁.world ↔
      renewAllowed value.status = true ∧ Equipped s value ∧
        ((∃ material, engineResult env value (c₀.world.engineCalls value.id) = some material ∧
            LetsThrough env value material u log) ∨
          engineResult env value (c₀.world.engineCalls value.id) = none ∧
            policy.retryCount = 0) := by
  obtain ⟨past, left, made, heard⟩ :=
    run.finished healthy ((usual_of_started started unheld).reach before)
  cases past with
  | untouched => exact absurd rfl left
  | refused =>
    obtain ⟨-, calls, gate⟩ := made
    have calls : c₁.world.engineCalls value.id = c₀.world.engineCalls value.id := calls
    constructor
    · intro retried
      obtain ⟨k, -, counted, -⟩ := retried.calls
      omega
    · rintro ⟨allowed, -⟩
      cases gate.symm.trans allowed
  | failed called =>
    rw [retried_failed made]
    obtain ⟨-, -, gate, equipped, none⟩ := made
    constructor
    · rintro ⟨called, once⟩
      exact ⟨gate, equipped.mp called, .inr ⟨none called, once⟩⟩
    · rintro ⟨-, able, ⟨material, result, -⟩ | ⟨-, once⟩⟩
      · cases (none (equipped.mpr able)).symm.trans result
      · exact ⟨equipped.mpr able, once⟩
  | unpublished material time told =>
    obtain ⟨⟨row, there, failed⟩, -, result, refuses⟩ := made
    obtain ⟨⟨more, answers⟩, reading⟩ := heard
    constructor
    · exact fun retried => absurd retried (not_retried_of_failed there failed result)
    · rintro ⟨-, -, ⟨material', result', time', reading', published⟩ | ⟨none, -⟩⟩
      · cases result.symm.trans result'
        cases reading.symm.trans reading'
        rw [← answers] at published
        exact absurd published (refuses.unpublished more)
      · cases result.symm.trans none
  | renewed material time told =>
    have retried : Retried env policy value (c₀.world.engineCalls value.id) c₁.world :=
      retried_of_renewed made
    obtain ⟨-, -, gate, equipped, result, published, -⟩ := made
    obtain ⟨⟨more, answers⟩, reading⟩ := heard
    have through : LetsThrough env value material u log :=
      ⟨time, reading, answers ▸ published.append more⟩
    exact ⟨fun _ => ⟨gate, equipped, .inl ⟨material, result, through⟩⟩, fun _ => retried⟩

def dueCertificate : Certificate :=
  { sampleCertificate with autoRenewEnabled := true, notAfter := some (10 * day) }

def dueWorld : World :=
  { sampleWorld with db := { sampleDb with
      certificates := ⟨[dueCertificate], 1, by decide, by decide⟩
      unique := by decide } }

def retryPolicy : Policy := ⟨true, "0 3 * * *", "UTC", 1, 1, 60⟩

def scanning : Configuration := requested dueWorld [.scan retryPolicy]

/-- An engine whose first call brings nothing. -/
def laterEnvironment : Environment :=
  { sampleEnvironment with acme := fun _ n => .ok (if n = 0 then none else some sampleMaterial) }

def reading (c : Configuration) (_ : Nat) (e : Eff) : Bool :=
  (c.threads 0).isSome && !decide (Attends 0 e)

def working (c : Configuration) (t : Nat) : Eff → Bool
  | .startWorker _ _ _ => false
  | e => !decide (Attends 0 e) || (c.threads t).any fun th => decide (WorksOn 0 th.seen.request)

theorem reading_unattended {c : Configuration} {t : Nat} {e : Eff} (h : reading c t e = true) :
    (unattended 0 0).call c t e := by
  simpa [reading, unattended] using h

theorem working_attended {c : Configuration} {t : Nat} {e : Eff} (h : working c t e = true) :
    (attended 0).call c t e := by
  intro attends
  have other : ∀ m policy, e ≠ .startWorker m 0 policy := by
    rintro m policy rfl
    cases h
  refine ⟨other, ?_⟩
  have own : (c.threads t).any (fun th => decide (WorksOn 0 th.seen.request)) = true := by
    cases e with
    | startWorker => cases h
    | _ => simpa only [working, attends, decide_true, Bool.not_true, Bool.false_or] using h
  cases there : c.threads t with
  | none =>
    rw [there] at own
    cases own
  | some th =>
    rw [there] at own
    exact ⟨th, rfl, of_decide_eq_true own⟩

/-- The selection of the certificate, whose goroutine is thread 1. -/
def selected (env : Environment) (c : Configuration) : Option Configuration :=
  match c.threads 0 with
  | some ⟨.call (.startWorker 0 0 policy) k, l⟩ =>
    if policy = retryPolicy then
      some (((pool env sampleService).after c 0 (.startWorker 0 0 policy) k l).set 1
        (some (thread sampleService (.worker policy 0 0))))
    else none
  | _ => none

def waiting (c : Configuration) : Bool :=
  match c.threads 0 with
  | some ⟨.call (.waitWorkers 0) _, _⟩ => (c.world.scans 0).outstanding.isEmpty
  | _ => false

/-- The scan up to its waiting, where the goroutine makes `m` calls. -/
def scanned (env : Environment) (m : Nat) :
    Option (Config Eff Ans (World × List (Nat × Eff × World)) Local (Outcome Unit)) :=
  ((((pool env sampleService).play reading (List.replicate 4 0) scanning).bind (selected env)).bind
    fun c => (pool env sampleService).recording.play (fun c => working ⟨c.threads, c.world.1⟩)
      (List.replicate m 1) (c.recorded [])).filter fun c => waiting ⟨c.threads, c.world.1⟩

theorem scanned_run {env : Environment} {m : Nat}
    {c₁ : Config Eff Ans (World × List (Nat × Eff × World)) Local (Outcome Unit)}
    (h : scanned env m = some c₁) :
    ScanRun sampleService env retryPolicy dueCertificate 1 scanning c₁.world.2
      ⟨c₁.threads, c₁.world.1⟩ := by
  obtain ⟨played, waits⟩ := Option.filter_eq_some_iff.mp h
  obtain ⟨c', selects, attempts⟩ := Option.bind_eq_some_iff.mp played
  obtain ⟨c, reads, selects⟩ := Option.bind_eq_some_iff.mp selects
  have idle : Idle dueCertificate scanning := by
    refine ⟨rfl, (fun _ known => nomatch known), fun u th there => ?_⟩
    cases u with
    | zero =>
      cases there
      exact ⟨id, bystander_idle⟩
    | succ u => cases (requested_free dueWorld [.scan retryPolicy] _ (by simp)).symm.trans there
  have free := play_bounded (requested_free dueWorld [.scan retryPolicy]) reads 1 (Nat.le_refl 1)
  have admitted : ∀ c t e, working ⟨c.threads, c.world.1⟩ t e = true →
      (attended 0).recording.call c t e := fun _ _ _ => working_attended
  have attended : Records (pool env sampleService) (attended 0) c' c₁.world.2
      ⟨c₁.threads, c₁.world.1⟩ := play_reach admitted attempts
  unfold selected at selects
  split at selects
  · rename_i policy k l there
    split at selects
    · rename_i same
      subst same
      cases selects
      unfold waiting at waits
      split at waits
      · rename_i k' l' there'
        exact .waited rfl idle (play_reach (fun _ _ _ => reading_unattended) reads) there free
          attended there' waits
      · cases waits
    · cases selects
  · cases selects

/-- What the publication of thread 1 comes to with its answers. -/
def publishedBy (env : Environment) (log : List (Nat × Eff × World)) : Option FileSystem.Path := do
  let material ← engineResult env dueCertificate 0
  let time ← (clockReadings env 1 log).head?
  let document ← (metadataDocument dueCertificate material.metadata time).toOption
  let result ← ProgramTraces.replay (publish dueCertificate.outputDirectory
    (payload material document dueCertificate.createRenewedMarker)) (fileAnswers env 1 log)
  result.toOption

theorem letsThrough_of_published {env : Environment} {log : List (Nat × Eff × World)}
    (h : (publishedBy env log).isSome = true) : ∃ material,
      engineResult env dueCertificate 0 = some material ∧
        LetsThrough env dueCertificate material 1 log := by
  have of_toOption : ∀ {β : Type} {x : Except Error β} {b : β}, x.toOption = some b →
      x = .ok b := by
    intro β x b present
    cases x <;> cases present
    rfl
  obtain ⟨target, published⟩ := Option.isSome_iff_exists.mp h
  obtain ⟨material, delivers, published⟩ := Option.bind_eq_some_iff.mp published
  obtain ⟨time, reading, published⟩ := Option.bind_eq_some_iff.mp published
  obtain ⟨document, made, published⟩ := Option.bind_eq_some_iff.mp published
  obtain ⟨result, replayed, present⟩ := Option.bind_eq_some_iff.mp published
  exact ⟨material, delivers, time, reading, document, target, of_toOption made,
    of_toOption present ▸ replayed⟩

theorem healthy_dueCertificate {env : Environment} (store : ∀ n, env.backend.fails n = none)
    (context : ∀ n, env.cancelled n = false) : Healthy env dueCertificate :=
  ⟨store, (fun dns => absurd dns (by decide)), context⟩

theorem scanning_begun (env : Environment) :
    Reach (pool env sampleService) .any (requested dueWorld []) scanning :=
  requested_reach env (fun _ _ => trivial) dueWorld [.scan retryPolicy] (by decide)

/-- The engine delivers at once. -/
theorem scan_retries_at_once : ∃ log c₁, ScanRun sampleService sampleEnvironment retryPolicy
      dueCertificate 1 scanning log c₁ ∧
    Retried sampleEnvironment retryPolicy dueCertificate 0 c₁.world := by
  have played : (scanned sampleEnvironment 33).map (fun c =>
      (publishedBy sampleEnvironment c.world.2).isSome) = some true := by
    decide +kernel
  obtain ⟨c₁, scanned, published⟩ := Option.map_eq_some_iff.mp played
  have run := scanned_run scanned
  refine ⟨_, _, run, (scan_retries_iff (healthy_dueCertificate (fun _ => rfl) fun _ => rfl)
    (requested_started fun _ => rfl) (fun _ => rfl) (scanning_begun sampleEnvironment) run).mpr ?_⟩
  exact ⟨rfl, ⟨rfl, fun _ => rfl⟩, .inl (letsThrough_of_published published)⟩

/-- The engine would deliver to the first retry, which does not come to it. -/
theorem scan_not_retried : ∃ log c₁, dueForRenewal dueCertificate 0 = true ∧
    Healthy laterEnvironment dueCertificate ∧
    ScanRun sampleService laterEnvironment retryPolicy dueCertificate 1 scanning log c₁ ∧
    c₁.world.engineCalls 0 = 1 ∧
    ¬ Retried laterEnvironment retryPolicy dueCertificate 0 c₁.world := by
  have played : (scanned laterEnvironment 19).map (fun c => c.world.1.engineCalls 0) = some 1 := by
    decide +kernel
  obtain ⟨c₁, scanned, one⟩ := Option.map_eq_some_iff.mp played
  refine ⟨_, _, by decide, healthy_dueCertificate (fun _ => rfl) fun _ => rfl, scanned_run scanned,
    one, fun retried => ?_⟩
  have two := (retried.success 1 _ (Nat.le_refl 1) (fun i low => ?_) rfl).1
  · have two : c₁.world.1.engineCalls 0 = 2 := two
    omega
  · obtain rfl : i = 0 := by omega
    rfl

end Scans

end Runs

end RenewalRetries
