import CertMate.ProgramTraces
import CertMate.ServiceProtocol
import CertMate.ServiceSteps

/-!
# The attempts of a scan on one certificate

What the goroutine of a scan does with its certificate when the store and the
credential lookups work and nobody else has the lock: which attempts come to the
engine, and what each of them leaves.
-/
namespace RetryProtocol
open CertificateModel DomainValidation CallTrees SqliteStore ServiceWorld CertificateFiles
  CertificateService
open ServiceProtocol (Honest)
open ServiceSteps (delivered)
open PublishProtocol (Progress)
open ProgramTraces

/-- The file calls of an attempt with the answers to them. -/
abbrev Answers := List (Σ e : FileSystem.Call, FileSystem.Answer e)

/-- What the attempts have come to so far. A publication is remembered by the
material, the time in its metadata and the answers it was given. -/
inductive Past where
  | untouched
  | refused
  | failed (called : Bool)
  | unpublished (material : Material) (time : Time) (told : Answers)
  | renewed (material : Material) (time : Time) (told : Answers)

/-- Nothing has been published. -/
abbrev Past.Open (past : Past) : Prop := ∀ material time told, past ≠ .renewed material time told

/-- An attempt that was let in or not has left its mark. -/
def Past.left : Past → Past
  | .untouched => .refused
  | past => past

/-- How far the current attempt is. What contradicts the assumptions is ruled
out: the store fails, the lock is taken, the certificate is not the one it was. -/
inductive Stage where
  | idle (past : Past)
  | read (past : Past) (v : Certificate)
  | found (past : Past) (v : Certificate) (lock : Nat)
  | held (past : Past) (v : Certificate) (lock : Nat)
  | marked (lock : Nat)
  | working (lock : Nat)
  | called (lock : Nat) (got : Option Material)
  | timed (lock : Nat) (material : Material) (time : Time) (progress : Progress) (told : Answers)
  | settled (past : Past) (lock : Nat)
  | panicked
  | done
  | ruledOut

/-- The service has what it needs to call the engine for the certificate. -/
def Equipped (s : Service) (value : Certificate) : Prop :=
  match value.mode with
  | .selfSigned => s.engine = true
  | .acme => s.acme = true ∧ (value.challengeType = "dns-01" → s.credentials = true)
  | .other _ => False

/-- `Publish` on these answers puts the material in place. -/
def Publishes (value : Certificate) (material : Material) (time : Time) (told : Answers) : Prop :=
  ∃ document target, metadataDocument value material.metadata time = .ok document ∧
    replay (publish value.outputDirectory
      (payload material document value.createRenewedMarker)) told = some (.ok target)

/-- There is no metadata document, or `Publish` on these answers returns an error. -/
def Refuses (value : Certificate) (material : Material) (time : Time) (told : Answers) : Prop :=
  (∃ err, metadataDocument value material.metadata time = .error err) ∨
    ∃ document err, metadataDocument value material.metadata time = .ok document ∧
      replay (publish value.outputDirectory
        (payload material document value.createRenewedMarker)) told = some (.error err)

theorem Publishes.append {value : Certificate} {material : Material} {time : Time}
    {told : Answers} (h : Publishes value material time told) (more : Answers) :
    Publishes value material time (told ++ more) := by
  obtain ⟨document, target, made, published⟩ := h
  exact ⟨document, target, made, replay_append published more⟩

theorem Refuses.unpublished {value : Certificate} {material : Material} {time : Time}
    {told : Answers} (h : Refuses value material time told) (more : Answers) :
    ¬ Publishes value material time (told ++ more) := by
  rintro ⟨document, target, made, published⟩
  rcases h with ⟨err, absent⟩ | ⟨document', err, made', refused⟩
  · cases absent.symm.trans made
  · cases made'.symm.trans made
    cases (replay_append refused more).symm.trans published

section Protocol
variable (s : Service) (value : Certificate) (scan : Nat)

/-- Whether a certificate that was read is the one to be expected. -/
def Expected : Past → Certificate → Prop
  | .untouched, v => v = value
  | .renewed _ _ _, _ => False
  | _, v => renewAllowed v.status = false

instance (past : Past) (v : Certificate) : Decidable (Expected value past v) := by
  cases past <;> unfold Expected <;> infer_instance

def noteQuery : Stage → (q : Query) → Reply q → Stage
  | .idle past, .certificate _, v => if Expected value past v then .read past v else .ruledOut
  | .held _ _ lock, .setCertificateStatus _ _, _ => .marked lock
  | .marked lock, .createJob _, _ => .working lock
  | .working lock, .markCertificateFailed _ _, _ => .settled (.failed false) lock
  | .called lock _, .markCertificateFailed _ _, _ => .settled (.failed true) lock
  | .timed lock material time _ told, .markCertificateFailed _ _, _ =>
    .settled (.unpublished material time told) lock
  | .timed lock material time _ told, .markCertificateRenewed _, _ =>
    .settled (.renewed material time told) lock
  | stage, _, _ => stage

def noteLock : Stage → Bool → Stage
  | .found past v lock, true => .held past v lock
  | .found _ _ _, false => .ruledOut
  | stage, _ => stage

def noteUnlock : Stage → Stage
  | .held past _ _ => .idle past.left
  | .settled past _ => .idle past
  | .working _ => .panicked
  | stage => stage

def noteEngine (got : Option Material) : Stage → Stage
  | .working lock => .called lock got
  | stage => stage

def note (stage : Stage) : (e : Eff) → Ans e → Stage
  | .store q, .ok r => noteQuery value stage q r
  | .store _, .error _ => .ruledOut
  | .loadOrStore _, lock =>
    match stage with
    | .read past v => .found past v lock
    | stage => stage
  | .tryLock _, taken => noteLock stage taken
  | .unlock _, _ => noteUnlock stage
  | .renewSelfSigned certificate request, r =>
    noteEngine (delivered (.renewSelfSigned certificate request) r) stage
  | .renewACME certificate request, r =>
    noteEngine (delivered (.renewACME certificate request) r) stage
  | .resolve _, .error _ => .ruledOut
  | .acquireSlot _, false | .pause _, false => .ruledOut
  | .now, time =>
    match stage with
    | .called lock (some material) => .timed lock material time .checking []
    | stage => stage
  | .file _ e, r =>
    match stage with
    | .timed lock material time progress told =>
      .timed lock material time (PublishProtocol.note progress e r) (told ++ [⟨e, r⟩])
    | stage => stage
  | .workerDone _ _, _ =>
    match stage with
    | .idle _ => .done
    | stage => stage
  | _, _ => stage

def permitsQuery (stage : Stage) : Query → Prop
  | .certificate i => i = value.id ∧
      ((∃ past, stage = .idle past ∧ past.Open) ∨
        ∃ past lock, stage = .settled past lock)
  | .setCertificateStatus i status => i = value.id ∧ status = .renewing ∧
      renewAllowed value.status = true ∧ ∃ lock, stage = .held .untouched value lock
  | .createJob run => run.certificateID = some value.id ∧ ∃ lock, stage = .marked lock
  | .markCertificateFailed i _ => i = value.id ∧ ∃ lock,
      (stage = .working lock ∧ ¬ Equipped s value) ∨ stage = .called lock none ∨
      ∃ material time progress told, stage = .timed lock material time progress told ∧
        Refuses value material time told
  | .markCertificateRenewed c =>
    ∃ lock material time told, stage = .timed lock material time .released told ∧
      Publishes value material time told ∧ c = withMaterial value material
  | .createAuditEvent event =>
    event.certificateID = some value.id ∧ ∃ past lock, stage = .settled past lock
  | .finishJob _ _ _ _ _ => stage ≠ .done
  | _ => False

def permits (stage : Stage) : Eff → Prop
  | .store q => permitsQuery s value stage q
  | .file i e => i = value.id ∧ safeDirectory value.outputDirectory = true ∧
      ∃ lock material time progress told document,
        stage = .timed lock material time progress told ∧
        metadataDocument value material.metadata time = .ok document ∧
        PublishProtocol.allows value.outputDirectory
          (payload material document value.createRenewedMarker) progress e
  | .loadOrStore i => i = value.id ∧ ∃ past v, stage = .read past v
  | .tryLock lock => ∃ past v, stage = .found past v lock
  | .unlock lock => (∃ past v, stage = .held past v lock ∧ renewAllowed v.status = false) ∨
      (∃ past, stage = .settled past lock) ∨ stage = .working lock
  | .now => ∃ lock material, stage = .called lock (some material)
  | .resolve credential => credential = value.dnsCredentialID ∧ value.challengeType = "dns-01" ∧
      ∃ lock, stage = .working lock
  | .renewSelfSigned i _ => i = value.id ∧ value.mode = .selfSigned ∧ Equipped s value ∧
      ∃ lock, stage = .working lock
  | .renewACME i _ => i = value.id ∧ value.mode = .acme ∧ Equipped s value ∧
      ∃ lock, stage = .working lock
  | .acquireSlot _ | .pause _ | .releaseSlot _ | .reportError _ _ => ∃ past, stage = .idle past
  | .workerDone n i => n = scan ∧ i = value.id ∧ ∃ past, stage = .idle past ∧ past ≠ .untouched
  | _ => False

def allows (stage : Stage) (e : Eff) : Prop := stage = .ruledOut ∨ permits s value scan stage e

theorem note_ruledOut (e : Eff) (r : Ans e) : note value .ruledOut e r = .ruledOut := by
  cases e with
  | store q => cases r <;> rfl
  | tryLock lock => cases r <;> rfl
  | resolve credential => cases r <;> rfl
  | acquireSlot n => cases r <;> rfl
  | pause seconds => cases r <;> rfl
  | _ => rfl

end Protocol

section Conformance
variable {s : Service} {value : Certificate} {scan : Nat}

/-- The program keeps to the protocol and returns with `Q`, if nothing has been
ruled out. -/
abbrev Keeps (s : Service) (value : Certificate) (scan : Nat) {α : Type} (p : Operation α)
    (stage : Stage) (Q : α → Stage → Prop) : Prop :=
  Follows Honest (allows s value scan) (note value) p stage
    fun a stage' => stage' = .ruledOut ∨ Q a stage'

theorem ruledOut_keeps {α : Type} (p : Operation α) (Q : α → Stage → Prop) :
    Keeps s value scan p .ruledOut Q := by
  induction p with
  | ret a => exact Or.inl rfl
  | call e k ih =>
    refine ⟨Or.inl rfl, fun r _ => ?_⟩
    rw [note_ruledOut]
    exact ih r

theorem Keeps.bind {α β : Type} {p : Operation α} {f : α → Operation β} {stage : Stage}
    {Q : α → Stage → Prop} {Q' : β → Stage → Prop} (h : Keeps s value scan p stage Q)
    (hf : ∀ a stage', Q a stage' → Keeps s value scan (f a) stage' Q') :
    Keeps s value scan (p >>= f) stage Q' := by
  refine Follows.bind h fun a stage' ended => ?_
  rcases ended with rfl | ended
  · exact ruledOut_keeps (f a) Q'
  · exact hf a stage' ended

theorem Keeps.mono {α : Type} {p : Operation α} {stage : Stage} {Q Q' : α → Stage → Prop}
    (h : Keeps s value scan p stage Q) (weaker : ∀ a stage', Q a stage' → Q' a stage') :
    Keeps s value scan p stage Q' :=
  Follows.mono (fun a stage' ended => ended.imp_right (weaker a stage')) h

theorem call_keeps {α : Type} {e : Eff} {k : Ans e → Operation α} {stage : Stage}
    {Q : α → Stage → Prop} (permitted : permits s value scan stage e)
    (rest : ∀ r, Honest e r → Keeps s value scan (k r) (note value stage e r) Q) :
    Keeps s value scan (Prog.perform e >>= k) stage Q :=
  follows_call.mpr ⟨Or.inr permitted, rest⟩

/-- The store does not fail. -/
theorem store_keeps {α : Type} {q : Query} {k : Except Error (Reply q) → Operation α}
    {stage : Stage} {Q : α → Stage → Prop} (permitted : permitsQuery s value stage q)
    (rest : ∀ r, Honest (.store q) (.ok r) →
      Keeps s value scan (k (.ok r)) (noteQuery value stage q r) Q) :
    Keeps s value scan (store q >>= k) stage Q := by
  refine call_keeps permitted fun r honest => ?_
  cases r with
  | error err => exact ruledOut_keeps _ Q
  | ok r => exact rest r honest

theorem failRenewal_keeps (lock : Nat) (past : Past) {stage : Stage} (job : Id) (exit : Int)
    (output : Bytes) (renewErr : Error) (eventType actor clientIP : String)
    (permitted : ∀ message, permitsQuery s value stage (.markCertificateFailed value.id message))
    (finished : ∀ id status code output message,
      noteQuery value stage (.finishJob id status code output message) () = stage)
    (leads : ∀ message, noteQuery value stage (.markCertificateFailed value.id message) () =
      .settled past lock) :
    Keeps s value scan (failRenewal value job exit output renewErr eventType actor clientIP) stage
      fun r stage' => r = .error renewErr ∧ stage' = .settled past lock := by
  have underway : stage ≠ .done := by
    obtain ⟨-, lock, ⟨rfl, -⟩ | rfl | ⟨material, time, progress, told, rfl, -⟩⟩ := permitted []
    all_goals exact fun h => nomatch h
  refine store_keeps underway fun _ _ => ?_
  rw [finished]
  refine store_keeps (permitted _) fun _ _ => ?_
  rw [leads]
  exact store_keeps ⟨rfl, past, lock, rfl⟩ fun _ _ => Or.inr ⟨rfl, rfl⟩

/-- How the engine's part ends. -/
def Obtains (s : Service) (value : Certificate) (lock : Nat) : Obtained → Stage → Prop
  | .panicked, stage => stage = .working lock
  | .failed _ _, stage => (stage = .working lock ∧ ¬ Equipped s value) ∨ stage = .called lock none
  | .material material, stage => stage = .called lock (some material)

theorem renewSelfSigned_keeps {lock : Nat} (mode : value.mode = .selfSigned)
    (equipped : Equipped s value) :
    Keeps s value scan (do
        let result ← renewSelfSigned value.id (selfSignedRequest value)
        return selfSignedObtained result) (.working lock) (Obtains s value lock) := by
  refine call_keeps ⟨rfl, mode, equipped, lock, rfl⟩ fun r _ => ?_
  rcases r with err | _ | result
  · exact Or.inr (Or.inr rfl)
  · exact Or.inr (Or.inr rfl)
  · exact Or.inr rfl

theorem renewACME_keeps {lock : Nat} (mode : value.mode = .acme) (equipped : Equipped s value)
    (values : ProcessValues) :
    Keeps s value scan (do
        let result ← renewACME value.id (renewRequest value false values)
        return acmeObtained value.primaryDomain result) (.working lock) (Obtains s value lock) := by
  refine call_keeps ⟨rfl, mode, equipped, lock, rfl⟩ fun r _ => ?_
  rcases r with err | _ | result
  · exact Or.inr (Or.inr rfl)
  · exact Or.inr (Or.inr rfl)
  · exact Or.inr rfl

theorem renewMaterial_keeps (lock : Nat) :
    Keeps s value scan (renewMaterial s value false) (.working lock) (Obtains s value lock) := by
  have refuse : ∀ exit err, ¬ Equipped s value →
      Keeps s value scan (.ret (.failed exit err)) (.working lock) (Obtains s value lock) :=
    fun exit err lacking => Or.inr (Or.inl ⟨rfl, lacking⟩)
  unfold renewMaterial
  cases mode : value.mode with
  | selfSigned =>
    simp only
    split
    · rename_i engine
      exact renewSelfSigned_keeps mode (by rw [Equipped, mode]; exact engine)
    · exact Or.inr rfl
  | acme =>
    simp only
    split
    · rename_i acme
      split
      · rename_i dns
        split
        · rename_i credentials
          refine call_keeps ⟨rfl, dns, lock, rfl⟩ fun r _ => ?_
          cases r with
          | error err => exact ruledOut_keeps _ _
          | ok values =>
            exact renewACME_keeps mode
              (by rw [Equipped, mode]; exact ⟨acme, fun _ => credentials⟩) values
        · rename_i credentials
          exact refuse _ _ fun equipped => by
            rw [Equipped, mode] at equipped
            exact credentials (equipped.2 dns)
      · rename_i dns
        exact renewACME_keeps mode
          (by rw [Equipped, mode]; exact ⟨acme, fun h => absurd h dns⟩) noProcessValues
    · rename_i acme
      exact refuse _ _ fun equipped => by
        rw [Equipped, mode] at equipped
        exact acme equipped.1
  | other name =>
    exact refuse _ _ fun equipped => by
      rw [Equipped, mode] at equipped
      exact equipped

theorem publication_keeps {lock : Nat} {material : Material} {time : Time}
    {document : FileSystem.Document}
    (made : metadataDocument value material.metadata time = .ok document) :
    Keeps s value scan (publisher value.id (publish value.outputDirectory
        (payload material document value.createRenewedMarker)))
      (.timed lock material time .checking []) fun r stage =>
        ∃ progress told, stage = .timed lock material time progress told ∧
          @PublishProtocol.Over value.outputDirectory r progress ∧
          Fed (publish value.outputDirectory
            (payload material document value.createRenewedMarker)) told (.ret r) := by
  by_cases safe : safeDirectory value.outputDirectory = true
  · have lifted : ∀ {p : Files (Except Error FileSystem.Path)} {progress : Progress}
        {told : Answers} {Q : Except Error FileSystem.Path → Progress → Prop},
        Follows PublishProtocol.Honest (PublishProtocol.allows value.outputDirectory
          (payload material document value.createRenewedMarker)) PublishProtocol.note p progress Q →
        Fed (publish value.outputDirectory
          (payload material document value.createRenewedMarker)) told p →
        Keeps s value scan (publisher value.id p) (.timed lock material time progress told)
          fun r stage => ∃ progress told, stage = .timed lock material time progress told ∧
            Q r progress ∧ Fed (publish value.outputDirectory
              (payload material document value.createRenewedMarker)) told (.ret r) := by
      intro p progress told Q h fed
      induction p generalizing progress told with
      | ret r => exact Or.inr ⟨progress, told, rfl, h, fed⟩
      | call e k ih =>
        refine ⟨Or.inr ⟨rfl, safe, lock, material, time, progress, told, document, rfl, made, h.1⟩,
          ?_⟩
        exact fun r honest => ih r (h.2 r honest) (fed.answer r)
    exact lifted PublishProtocol.publish_follows (.start _)
  · obtain ⟨err, stopped⟩ := PublishProtocol.publish_unsafe value.outputDirectory
      (payload material document value.createRenewedMarker) safe
    rw [stopped]
    exact Or.inr ⟨.checking, [], rfl, Or.inl rfl, .start _⟩

/-- What an attempt that has set the status comes to. -/
def Settles (lock : Nat) : Outcome Certificate → Stage → Prop
  | .ok _, stage => ∃ material time told, stage = .settled (.renewed material time told) lock
  | .error _, stage => ∃ past : Past, stage = .settled past lock ∧ past ≠ .untouched ∧ past.Open
  | .panicked, stage => stage = .working lock

theorem failTimed_keeps {lock : Nat} {material : Material} {time : Time} {progress : Progress}
    {told : Answers} (refuses : Refuses value material time told) (job : Id) (exit : Int)
    (output : Bytes) (renewErr : Error) (eventType actor clientIP : String) :
    Keeps s value scan (failRenewal value job exit output renewErr eventType actor clientIP)
      (.timed lock material time progress told) (Settles lock) := by
  refine (failRenewal_keeps lock (.unpublished material time told) job exit output renewErr
    eventType actor clientIP ?_ (fun _ _ _ _ _ => rfl) fun _ => rfl).mono ?_
  · exact fun _ => ⟨rfl, lock,
      Or.inr (Or.inr ⟨material, time, progress, told, rfl, refuses⟩)⟩
  · rintro _ _ ⟨rfl, rfl⟩
    exact ⟨_, rfl, (fun h => nomatch h), fun _ _ _ h => nomatch h⟩

theorem publishAndRecord_keeps (lock : Nat) (material : Material) (job : Id)
    (eventType actor clientIP : String) :
    Keeps s value scan (publishAndRecord value material job
        (fun c => store (.markCertificateRenewed c)) eventType actor clientIP)
      (.called lock (some material)) (Settles lock) := by
  refine call_keeps ⟨lock, material, rfl⟩ fun time _ => ?_
  cases made : metadataDocument value material.metadata time with
  | error err =>
    exact failTimed_keeps (Or.inl ⟨err, made⟩) job _ _ err eventType actor clientIP
  | ok document =>
    refine (publication_keeps made).bind ?_
    rintro r _ ⟨progress, told, rfl, ending, fed⟩
    cases r with
    | error err =>
      exact failTimed_keeps (Or.inr ⟨document, err, made, fed.result⟩) job _ _ err eventType
        actor clientIP
    | ok target =>
      obtain ⟨-, rfl⟩ := ending
      have published : Publishes value material time told := ⟨document, target, made, fed.result⟩
      refine store_keeps ⟨lock, material, time, told, rfl, published, rfl⟩ fun _ _ => ?_
      refine store_keeps (fun h => Stage.noConfusion h) fun _ _ => ?_
      refine store_keeps ⟨rfl, .renewed material time told, lock, rfl⟩ fun _ _ => ?_
      refine store_keeps ⟨rfl, Or.inr ⟨.renewed material time told, lock, rfl⟩⟩ fun _ _ => ?_
      exact Or.inr ⟨material, time, told, rfl⟩

theorem finishIssue_keeps {lock : Nat} {obtained : Obtained} {stage : Stage}
    (obtains : Obtains s value lock obtained stage) (job : Id) (eventType actor clientIP : String) :
    Keeps s value scan (finishIssue value job obtained
        (fun c => store (.markCertificateRenewed c)) eventType actor clientIP) stage
      (Settles lock) := by
  cases obtained with
  | panicked => exact Or.inr obtains
  | material material =>
    cases obtains
    exact publishAndRecord_keeps lock material job eventType actor clientIP
  | failed exit err =>
    rcases obtains with ⟨rfl, lacking⟩ | rfl
    · refine (failRenewal_keeps lock (.failed false) job exit [] err eventType
        actor clientIP ?_ (fun _ _ _ _ _ => rfl) fun _ => rfl).mono ?_
      · exact fun _ => ⟨rfl, lock, Or.inl ⟨rfl, lacking⟩⟩
      · rintro _ _ ⟨rfl, rfl⟩
        exact ⟨.failed false, rfl, (fun h => nomatch h), fun _ _ _ h => nomatch h⟩
    · refine (failRenewal_keeps lock (.failed true) job exit [] err eventType
        actor clientIP ?_ (fun _ _ _ _ _ => rfl) fun _ => rfl).mono ?_
      · exact fun _ => ⟨rfl, lock, Or.inr (Or.inl rfl)⟩
      · rintro _ _ ⟨rfl, rfl⟩
        exact ⟨.failed true, rfl, (fun h => nomatch h), fun _ _ _ h => nomatch h⟩

/-- What an attempt comes to, before it gives the lock back. -/
def Works (past : Past) (v : Certificate) (lock : Nat) (r : Outcome Certificate) (stage : Stage) :
    Prop :=
  Settles lock r stage ∨
    (∃ err, r = .error err) ∧ stage = .held past v lock ∧ renewAllowed v.status = false

theorem renewLocked_keeps {past : Past} {v : Certificate} (expected : Expected value past v)
    (lock : Nat) (eventType actor clientIP : String) :
    Keeps s value scan (renewLocked s v false .renew eventType actor clientIP) (.held past v lock)
      (Works past v lock) := by
  unfold renewLocked
  cases gate : renewAllowed v.status with
  | false => exact Or.inr (Or.inr ⟨⟨_, rfl⟩, rfl, gate⟩)
  | true =>
    -- Only the first attempt is let in.
    obtain ⟨rfl, rfl⟩ : past = .untouched ∧ v = value := by
      cases past with
      | untouched => exact ⟨rfl, expected⟩
      | renewed => exact expected.elim
      | refused | failed | unpublished =>
        exact absurd (gate.symm.trans expected) (fun h => nomatch h)
    refine store_keeps ⟨rfl, rfl, gate, lock, rfl⟩ fun _ _ => ?_
    refine store_keeps ⟨rfl, lock, rfl⟩ fun job _ => ?_
    refine (renewMaterial_keeps lock).bind fun obtained stage obtains => ?_
    exact (finishIssue_keeps obtains job.id eventType actor clientIP).mono fun _ _ h => Or.inl h

/-- What an attempt leaves. -/
def Leaves : Outcome Certificate → Stage → Prop
  | .ok _, stage => ∃ material time told, stage = .idle (.renewed material time told)
  | .error _, stage => ∃ past : Past, stage = .idle past ∧ past ≠ .untouched ∧ past.Open
  | .panicked, stage => stage = .panicked

theorem renew_keeps {past : Past} (open_ : past.Open)
    (actor clientIP : String) :
    Keeps s value scan (renew s value.id false actor clientIP) (.idle past) Leaves := by
  refine store_keeps ⟨rfl, Or.inl ⟨past, rfl, open_⟩⟩ fun v numbered => ?_
  have numbered : v.id = value.id := numbered
  simp only [noteQuery]
  split
  · rename_i expected
    refine call_keeps ⟨rfl, past, v, rfl⟩ fun lock _ => ?_
    refine call_keeps ⟨past, v, rfl⟩ fun taken _ => ?_
    cases taken with
    | false => exact ruledOut_keeps _ _
    | true =>
      refine (renewLocked_keeps expected lock "certificate.renew" actor clientIP).bind ?_
      intro r stage works
      rcases works with settles | ⟨⟨err, rfl⟩, rfl, gate⟩
      · cases r with
        | ok c =>
          obtain ⟨material, time, told, rfl⟩ := settles
          exact call_keeps (Or.inr (Or.inl ⟨_, rfl⟩)) fun _ _ => Or.inr ⟨material, time, told, rfl⟩
        | error err =>
          obtain ⟨past', rfl, left, open_⟩ := settles
          refine call_keeps (Or.inr (Or.inl ⟨_, rfl⟩)) fun _ _ => ?_
          exact Or.inr ⟨past', rfl, left, open_⟩
        | panicked =>
          cases settles
          exact call_keeps (Or.inr (Or.inr rfl)) fun _ _ => Or.inr rfl
      · refine call_keeps (Or.inl ⟨past, v, rfl, gate⟩) fun _ _ => ?_
        refine Or.inr ⟨past.left, rfl, ?_, ?_⟩
        · cases past <;> exact fun h => nomatch h
        · cases past with
          | renewed material time told => exact absurd rfl (open_ material time told)
          | _ => exact fun _ _ _ h => nomatch h
  · exact ruledOut_keeps _ _

/-- How the retry loop ends: nothing is left as it was. -/
def Ended : Attempts → Stage → Prop
  | .ended _, stage => ∃ past, stage = .idle past ∧ past ≠ .untouched
  | .cancelled, _ => False
  | .panicked, stage => stage = .panicked

theorem renewalAttempt_keeps {again : Error → Operation Attempts} {past : Past}
    (open_ : past.Open)
    (rest : ∀ err (past : Past), past ≠ .untouched → past.Open →
      Keeps s value scan (again err) (.idle past) Ended) :
    Keeps s value scan (renewalAttempt s value.id again) (.idle past) Ended := by
  refine (renew_keeps open_ "scheduler" "").bind fun r stage leaves => ?_
  cases r with
  | ok c =>
    obtain ⟨material, time, told, rfl⟩ := leaves
    exact Or.inr ⟨_, rfl, fun h => nomatch h⟩
  | panicked => exact Or.inr leaves
  | error renewErr =>
    obtain ⟨past, rfl, left, open_⟩ := leaves
    simp only
    split
    · exact Or.inr ⟨past, rfl, left⟩
    · exact rest renewErr past left open_

theorem renewalAttempts_keeps (policy : Policy) (left : Nat) {past : Past} (open_ : past.Open) :
    Keeps s value scan (renewalAttempts s policy value.id left) (.idle past) Ended := by
  induction left generalizing past with
  | zero => exact renewalAttempt_keeps open_ fun _ past left _ => Or.inr ⟨past, rfl, left⟩
  | succ left ih =>
    refine renewalAttempt_keeps open_ fun _ past _ open_ => ?_
    refine call_keeps ⟨past, rfl⟩ fun waited _ => ?_
    cases waited with
    | false => exact ruledOut_keeps _ _
    | true => exact ih open_

/-- The worker gives the scan notice when nothing is left as it was, unless the
process has ended in a panic. -/
theorem renewalWorker_keeps (policy : Policy) :
    Keeps s value scan (renewalWorker s policy scan value.id) (.idle .untouched)
      fun _ stage => stage = .done ∨ stage = .panicked := by
  have leave : ∀ {past : Past}, past ≠ .untouched → Keeps s value scan (do
      let _ ← Prog.perform (Eff.releaseSlot scan)
      Prog.perform (Eff.workerDone scan value.id)) (.idle past)
      fun _ stage => stage = .done ∨ stage = .panicked := by
    intro past left
    refine call_keeps ⟨past, rfl⟩ fun _ _ => ?_
    exact call_keeps (k := .ret) ⟨rfl, rfl, past, rfl, left⟩ fun _ _ => Or.inr (Or.inl rfl)
  refine call_keeps ⟨_, rfl⟩ fun acquired _ => ?_
  cases acquired with
  | false => exact ruledOut_keeps _ _
  | true =>
    have open_ : Past.untouched.Open := fun _ _ _ h => nomatch h
    refine (renewalAttempts_keeps policy policy.retryCount open_).bind ?_
    intro ended stage left
    cases ended with
    | panicked => exact Or.inr (Or.inr left)
    | cancelled => exact left.elim
    | ended result =>
      obtain ⟨past, rfl, left⟩ := left
      cases result with
      | none => exact leave left
      | some renewErr =>
        simp only
        split
        · exact leave left
        · exact call_keeps ⟨past, rfl⟩ fun _ _ => leave left

end Conformance

end RetryProtocol
