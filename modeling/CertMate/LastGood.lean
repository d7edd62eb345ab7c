import CertMate.AtomicPublish
import CertMate.Bookkeeping
import CertMate.ServicePool

/-!
# The last good certificate

A renewal or a new issue that fails before its material is published. The
record keeps what it says of the last good certificate, and the directory is
left as it was.
-/
namespace LastGood
open CertificateModel CallTrees ServiceWorld CertificateFiles CertificateService
open SqliteStore hiding exec
open FileSystem (Fs Host Node)
open DomainValidation (safeDirectory trimSpace)
open ServiceProtocol (Request programOf)

/-- What a record says of the last good certificate. -/
structure Good where
  outputDirectory : String
  issuer : String
  serialNumber : String
  fingerprintSHA256 : String
  notBefore : Option Time
  notAfter : Option Time
  lastIssuedAt : Option Time
  lastRenewedAt : Option Time

def good (c : Certificate) : Good :=
  ⟨c.outputDirectory, c.issuer, c.serialNumber, c.fingerprintSHA256, c.notBefore, c.notAfter,
    c.lastIssuedAt, c.lastRenewedAt⟩

/-- A call that touches neither the disk nor what a record says of the last
good certificate. -/
def Harmless : Eff → Prop
  | .store (.certificate _) | .store (.setCertificateStatus _ _)
  | .store (.markCertificateFailed _ _) | .store (.createJob _)
  | .store (.finishJob _ _ _ _ _) | .store (.createAuditEvent _) => True
  | .store _ | .file _ _ => False
  | _ => True

/-- What is to be kept of the certificate `id`. -/
def observe (id : Id) (w : World) : Option Good × Fs × List (Id × String × Node) :=
  ((w.db.row id).map good, w.fs, w.publications)

structure Kept (id : Id) (w₀ w : World) : Prop where
  record : (w.db.row id).map good = (w₀.db.row id).map good
  directory : ∀ c, w₀.db.row id = some c →
    w.fs.nodes (targetOf c.outputDirectory) = w₀.fs.nodes (targetOf c.outputDirectory)
  unpublished : w.publications = w₀.publications

theorem Kept.congr {id : Id} {w₀ w w' : World} (h : Kept id w₀ w)
    (same : observe id w' = observe id w) : Kept id w₀ w' := by
  simp only [observe, Prod.mk.injEq] at same
  obtain ⟨record, disk, publications⟩ := same
  exact ⟨record.trans h.record, fun c there => disk ▸ h.directory c there,
    publications.trans h.unpublished⟩

theorem kept_of_same {id : Id} {w₀ w : World} (same : observe id w = observe id w₀) :
    Kept id w₀ w :=
  Kept.congr ⟨rfl, fun _ _ => rfl, rfl⟩ same

section Calls
variable (env : Environment) (thread : Nat)

theorem exec_publications {e : Eff} (h : ∀ certificate e', e ≠ .file certificate e') (w : World) :
    (exec env thread e w).2.publications = w.publications := by
  cases e with
  | file certificate e' => exact absurd rfl (h certificate e')
  | loadOrStore certificate => simp only [exec]; split <;> rfl
  | tryLock lock => simp only [exec]; split <;> rfl
  | acquireSlot scan => simp only [exec]; split <;> rfl
  | _ => rfl

theorem exec_observe {e : Eff} (harmless : Harmless e) (id : Id) (w : World) :
    observe id (exec env thread e w).2 = observe id w := by
  have apart : ∀ certificate e', e ≠ .file certificate e' := by
    rintro certificate e' rfl
    exact harmless
  have record : ((exec env thread e w).2.db.row id).map good = (w.db.row id).map good := by
    by_cases stored : ∃ q, e = .store q
    · obtain ⟨q, rfl⟩ := stored
      change ((SqliteStore.exec env.backend q w.db).2.row id).map good = _
      cases SqliteStore.exec_row env.backend q w.db id with
      | same row => rw [row]
      | changed u change row =>
        rw [row, Option.map_map]
        refine Option.map_congr fun c _ => ?_
        cases q <;> first | exact harmless.elim | cases change <;> rfl
      | created value query new row =>
        subst query
        exact harmless.elim
      | deleted event query present row =>
        subst query
        exact harmless.elim
    · rw [ServiceSteps.exec_db fun q same => stored ⟨q, same⟩]
  rw [observe, record, ServiceSteps.exec_fs apart, exec_publications env thread apart]
  rfl

/-- A program of harmless calls. -/
abbrev Gentle {α : Type} (p : Operation α) (Q : α → Prop) : Prop :=
  Silent (fun _ _ => True) Harmless p Q

theorem gentle_run {α : Type} {p : Operation α} {Q : α → Prop} (h : Gentle p Q) (id : Id)
    (w : World) : Q (run (exec env thread) p w).1 ∧
      observe id (run (exec env thread) p w).2 = observe id w := by
  have step : ∀ (_ : Unit) e w', Harmless e → observe id w' = observe id w →
      (fun (e : Eff) (_ : Ans e) => True) e (exec env thread e w').1 ∧
        observe id (exec env thread e w').2 = observe id w :=
    fun _ e w' harmless same => ⟨trivial, (exec_observe env thread harmless id w').trans same⟩
  have ends := Follows.run_invariant (I := fun _ w' => observe id w' = observe id w) step h rfl
  obtain ⟨-, -, result, same⟩ := ends
  exact ⟨result, same⟩

/-- No file call is made. -/
abbrev Apart {α : Type} (p : Operation α) : Prop :=
  Only (fun (e : Eff) (_ : Ans e) => True) (fun e => ∀ certificate e', e ≠ .file certificate e') p

/-- Nothing but a file call publishes. -/
theorem apart_publications {α : Type} {p : Operation α} (h : Apart p) (w : World) :
    (run (exec env thread) p w).2.publications = w.publications :=
  h.run_frame (exec env thread) World.publications (fun _ _ => trivial)
    (fun _ w' apart => exec_publications env thread apart w') w

end Calls

/-- No two calls of the file system fail from the `since`-th on. -/
def OneFailure (H : Host) (since : Nat) : Prop :=
  ∀ i j, since ≤ i → i < j → ¬ (H.fails i = true ∧ H.fails j = true)

/-- A publication from `w` on that fails leaves the target as it was; one that
does not fail is remembered. -/
def Published (safeName : String) (w : World) : Except Error FileSystem.Path × World → Prop
  | (.ok _, w') => w.publications.length < w'.publications.length
  | (.error _, w') => w'.db = w.db ∧
      w'.fs.nodes (targetOf safeName) = w.fs.nodes (targetOf safeName) ∧
      w'.publications = w.publications

section Publishing
open PublishProtocol (Progress note advance)
open FileSystem (Call Answer)
variable (env : Environment) (thread : Nat) (certificate : Id)

theorem run_publisher {α : Type} (p : Files α) (w : World) :
    run (exec env thread) (publisher certificate p) w =
      run (execFile env.host certificate) p w := by
  induction p generalizing w with
  | ret a => rfl
  | call e k ih => exact ih _ _

@[simp] theorem execFile_fs (H : Host) (e : Call) (w : World) :
    (execFile H certificate e w).2.fs = (FileSystem.exec H e w.fs).2 := by
  unfold execFile
  dsimp only
  split
  · split <;> rfl
  · rfl

@[simp] theorem execFile_db (H : Host) (e : Call) (w : World) :
    (execFile H certificate e w).2.db = w.db := by
  unfold execFile
  dsimp only
  split
  · split <;> rfl
  · rfl

/-- A publication is remembered once the new directory is in place. -/
def Counted (before : List (Id × String × Node)) : Progress → List (Id × String × Node) → Prop
  | .released, now => before.length < now.length
  | _, now => now = before

/-- Nothing but the rename that puts the new directory in place publishes. -/
theorem execFile_publications {H : Host} {e : Call} {w : World}
    (h : ∀ source target, e = .op (.rename .release source target) →
      ∃ err, (FileSystem.exec H (.op (.rename .release source target)) w.fs).1 = .error err) :
    (execFile H certificate e w).2.publications = w.publications := by
  unfold execFile
  dsimp only
  split
  · rename_i source target answered
    obtain ⟨err, failed⟩ := h source target rfl
    rw [failed] at answered
    cases answered
  · rfl

theorem release_publications {H : Host} {source target : FileSystem.Path} {w : World}
    (h : (FileSystem.exec H (.op (.rename .release source target)) w.fs).1 = .ok ()) :
    w.publications.length <
      (execFile H certificate (.op (.rename .release source target)) w).2.publications.length := by
  obtain ⟨node, there, -⟩ := FileSystem.rename_ok h
  unfold execFile
  dsimp only
  rw [h]
  simp [there, World.published]

theorem counted_call {H : Host} {safeName : String} {payload : Payload} {s : Progress} {e : Call}
    {w : World} {before : List (Id × String × Node)}
    (ok : PublishProtocol.allows safeName payload s e) (h : Counted before s w.publications) :
    Counted before (note s e (execFile H certificate e w).1)
      (execFile H certificate e w).2.publications := by
  change Counted before (note s e (FileSystem.exec H e w.fs).1) _
  by_cases releases : ∃ source target, e = .op (.rename .release source target)
  · obtain ⟨source, target, rfl⟩ := releases
    have ok := ok rfl
    simp only [note, PublishProtocol.Op.actsOnRoot, if_true]
    cases answered : (FileSystem.exec H (.op (.rename .release source target)) w.fs).1 with
    | ok _ =>
      have grown := release_publications certificate answered
      cases s with
      | staging stage files =>
        cases h
        exact grown
      | retired stage files previous =>
        cases h
        exact grown
      | _ => first | exact ok.elim | cases ok.1
    | error err =>
      have failed : ∀ source' target', FileSystem.Call.op (.rename .release source target) =
          .op (.rename .release source' target') → ∃ err,
            (FileSystem.exec H (.op (.rename .release source' target')) w.fs).1 = .error err := by
        intro source' target' same
        cases same
        exact ⟨err, answered⟩
      rw [execFile_publications certificate failed]
      cases s with
      | staging stage files => exact h
      | retired stage files previous => exact h
      | _ => first | exact ok.elim | cases ok.1
  · rw [execFile_publications certificate fun source target same =>
      absurd ⟨source, target, same⟩ releases]
    cases e with
    | now => exact h
    | range values => exact h
    | op o =>
      cases acts : PublishProtocol.Op.actsOnRoot o with
      | false => simpa only [note, acts, Bool.false_eq_true, if_false] using h
      | true =>
        have ok := ok acts
        simp only [note, acts, if_true]
        generalize (FileSystem.exec H (.op o) w.fs).1 = r
        cases o with
        | rename why source target =>
          cases r <;> cases s <;>
            first
            | exact h
            | exact ok.elim
            | exact absurd ⟨source, target, by rw [ok.1]⟩ releases
        | _ => cases r <;> cases s <;> exact h

theorem publisher_publish (safeName : String) (payload : Payload) (w : World)
    (one : OneFailure env.host w.fs.calls) :
    Published safeName w
      (run (exec env thread) (publisher certificate (publish safeName payload)) w) := by
  rw [run_publisher]
  by_cases safe : safeDirectory safeName = true
  · have step : ∀ s e u, PublishProtocol.allows safeName payload s e →
        (PublishProtocol.Agrees env.host safeName payload (w.fs.nodes (targetOf safeName))
            w.fs.calls s u.fs ∧ u.db = w.db ∧ Counted w.publications s u.publications) →
        PublishProtocol.Honest e (execFile env.host certificate e u).1 ∧
          PublishProtocol.Agrees env.host safeName payload (w.fs.nodes (targetOf safeName))
            w.fs.calls (note s e (execFile env.host certificate e u).1)
            (execFile env.host certificate e u).2.fs ∧
          (execFile env.host certificate e u).2.db = w.db ∧
          Counted w.publications (note s e (execFile env.host certificate e u).1)
            (execFile env.host certificate e u).2.publications := by
      rintro s e u ok ⟨agrees, same, counted⟩
      refine ⟨PublishProtocol.exec_honest env.host e u.fs, ?_, ?_, ?_⟩
      · rw [execFile_fs]
        exact PublishProtocol.agrees_call safe ok agrees
      · rw [execFile_db]
        exact same
      · exact counted_call certificate ok counted
    obtain ⟨-, s, ending, agrees, same, counted⟩ :=
      PublishProtocol.publish_follows.run_invariant step ⟨⟨le_rfl, rfl⟩, rfl, rfl⟩
    generalize run (execFile env.host certificate) (publish safeName payload) w = r at *
    obtain ⟨answer, w'⟩ := r
    cases answer with
    | ok target =>
      obtain ⟨-, rfl⟩ := ending
      exact counted
    | error err =>
      have agrees := agrees.2
      rcases ending with rfl | rfl | rfl | rfl
      · exact ⟨same, agrees, counted⟩
      · exact ⟨same, agrees, counted⟩
      · exact ⟨same, agrees, counted⟩
      · obtain ⟨-, i, j, later, less, -, failed⟩ := agrees
        exact absurd failed (one i j later less)
  · obtain ⟨err, stopped⟩ := PublishProtocol.publish_unsafe safeName payload safe
    rw [stopped]
    exact ⟨rfl, rfl, rfl⟩

end Publishing

section Operations
variable (env : Environment) (thread : Nat) (s : Service)

-- A goal about a program is otherwise reduced as far as the texts in it go.
attribute [local irreducible] trimSpace

/-- The call has not succeeded; it panics only where the service was built
without its self-signed engine. -/
def Refused {α : Type} : Outcome α → Prop
  | .error _ => True
  | .panicked => s.engine = false
  | .ok _ => False

/-- Either new material was published or everything is as it was. -/
def Ends {α : Type} (id : Id) (w₀ : World) (outcome : Outcome α) (w : World) : Prop :=
  w₀.publications.length < w.publications.length ∨ Refused s outcome ∧ Kept id w₀ w

variable {s}

theorem failRenewal_gentle (value : Certificate) (job : Id) (exit : Int) (output : Bytes)
    (renewErr : Error) (eventType actor clientIP : String) :
    Gentle (failRenewal value job exit output renewErr eventType actor clientIP) (Refused s) := by
  refine follows_call.mpr ⟨trivial, fun _ _ => ?_⟩
  refine follows_call.mpr ⟨trivial, fun _ _ => ?_⟩
  exact follows_call.mpr ⟨trivial, fun _ _ => trivial⟩

variable {env thread}

theorem Gentle.ends {p : Operation (Outcome Certificate)} (h : Gentle p (Refused s)) {id : Id}
    {w₀ w : World} (kept : Kept id w₀ w) :
    Ends s id w₀ (run (exec env thread) p w).1 (run (exec env thread) p w).2 := by
  obtain ⟨refused, same⟩ := gentle_run env thread h id w
  exact Or.inr ⟨refused, kept.congr same⟩

/-- The call ends like this from every world in which nothing has happened to
the certificate `id` since `w₀`. -/
def Settles {α : Type} (s : Service) (env : Environment) (thread : Nat) (id : Id) (w₀ : World)
    (p : Operation (Outcome α)) : Prop :=
  ∀ w, observe id w = observe id w₀ →
    Ends s id w₀ (run (exec env thread) p w).1 (run (exec env thread) p w).2

theorem Gentle.settles {p : Operation (Outcome Certificate)} (h : Gentle p (Refused s)) {id : Id}
    {w₀ : World} : Settles s env thread id w₀ p :=
  fun _ same => h.ends (kept_of_same same)

/-- Gentle calls may come first. -/
theorem Gentle.settles_after {α β : Type} {p : Operation α} {Q : α → Prop} (h : Gentle p Q)
    {f : α → Operation (Outcome β)} {id : Id} {w₀ : World}
    (rest : ∀ a, Q a → Settles s env thread id w₀ (f a)) :
    Settles s env thread id w₀ (p >>= f) := by
  intro w same
  obtain ⟨result, kept⟩ := gentle_run env thread h id w
  rw [run_bind]
  exact rest _ result _ (kept.trans same)

theorem Settles.call {β : Type} {e : Eff} (harmless : Harmless e)
    {f : Ans e → Operation (Outcome β)} {id : Id} {w₀ : World}
    (rest : ∀ r, Settles s env thread id w₀ (f r)) :
    Settles s env thread id w₀ (Prog.perform e >>= f) :=
  have first : Gentle (Prog.perform e) fun _ => True := ⟨harmless, fun _ _ => trivial⟩
  first.settles_after fun r _ => rest r

section Publication
variable {id : Id} {w₀ : World}

theorem publishAndRecord_settles {value : Certificate}
    (located : ∀ c, w₀.db.row id = some c → c.outputDirectory = value.outputDirectory)
    (one : OneFailure env.host w₀.fs.calls)
    {mark : Certificate → Operation (Except Error Unit)} (marks : ∀ c, Apart (mark c))
    (material : Material) (job : Id) (eventType actor clientIP : String) :
    Settles s env thread id w₀
      (publishAndRecord value material job mark eventType actor clientIP) := by
  refine .call (e := .now) trivial fun now => ?_
  split
  · exact (failRenewal_gentle _ _ _ _ _ _ _ _).settles
  · rename_i document made
    intro w same
    have disk : w.fs = w₀.fs := congrArg (fun o => o.2.1) same
    have remembered : w.publications = w₀.publications := congrArg (fun o => o.2.2) same
    have outcome := publisher_publish env thread value.id value.outputDirectory
      (payload material document value.createRenewedMarker) w (disk ▸ one)
    rw [run_bind]
    generalize run (exec env thread) (publisher value.id (publish value.outputDirectory
      (payload material document value.createRenewedMarker))) w = r at outcome ⊢
    obtain ⟨published, w'⟩ := r
    cases published with
    | error err =>
      obtain ⟨database, directory, unpublished⟩ := outcome
      refine (failRenewal_gentle _ _ _ _ _ _ _ _).ends ⟨?_, fun c there => ?_, ?_⟩
      · rw [database]
        exact congrArg Prod.fst same
      · rw [located c there]
        rw [directory, disk]
      · exact unpublished.trans remembered
    | ok target =>
      refine Or.inl ?_
      rw [apart_publications, ← remembered]
      · exact outcome
      · refine only_bind (marks _) fun marked => ?_
        cases marked with
        | error err => trivial
        | ok _ =>
          refine only_call.mpr ⟨(fun _ _ h => nomatch h), fun _ _ => ?_⟩
          refine only_call.mpr ⟨(fun _ _ h => nomatch h), fun _ _ => ?_⟩
          exact only_call.mpr ⟨(fun _ _ h => nomatch h), fun _ _ => trivial⟩

/-- An engine that is there does not panic. -/
def Equipped (s : Service) (obtained : Obtained) : Prop := obtained = .panicked → s.engine = false

theorem finishIssue_settles {value : Certificate}
    (located : ∀ c, w₀.db.row id = some c → c.outputDirectory = value.outputDirectory)
    (one : OneFailure env.host w₀.fs.calls)
    {mark : Certificate → Operation (Except Error Unit)} (marks : ∀ c, Apart (mark c))
    (job : Id) {obtained : Obtained} (sound : Equipped s obtained)
    (eventType actor clientIP : String) :
    Settles s env thread id w₀
      (finishIssue value job obtained mark eventType actor clientIP) := by
  cases obtained with
  | panicked => exact fun w same => Or.inr ⟨sound rfl, kept_of_same same⟩
  | failed exit err => exact (failRenewal_gentle _ _ _ _ _ _ _ _).settles
  | material material => exact publishAndRecord_settles located one marks _ _ _ _ _

theorem equipped_selfSigned (r : Except CommandFailure (Option SelfSignedResult)) :
    Equipped s (selfSignedObtained r) :=
  fun panicked => absurd panicked (Bookkeeping.selfSignedObtained_sound r)

theorem equipped_acme (primaryDomain : String) (r : Except CommandFailure (Option ACMEResult)) :
    Equipped s (acmeObtained primaryDomain r) :=
  fun panicked => absurd panicked (Bookkeeping.acmeObtained_sound primaryDomain r)

theorem renewMaterial_gentle (value : Certificate) (force : Bool) :
    Gentle (renewMaterial s value force) (Equipped s) := by
  unfold renewMaterial
  split
  · split
    · exact follows_call.mpr ⟨trivial, fun r _ => equipped_selfSigned r⟩
    · rename_i missing
      exact fun _ => by simpa using missing
  · split
    · split
      · split
        · refine follows_call.mpr ⟨trivial, fun resolved _ => ?_⟩
          cases resolved with
          | error err => exact (fun h => nomatch h)
          | ok values =>
            exact follows_call.mpr ⟨trivial, fun r _ => equipped_acme _ r⟩
        · exact (fun h => nomatch h)
      · exact follows_call.mpr ⟨trivial, fun r _ => equipped_acme _ r⟩
    · exact (fun h => nomatch h)
  · exact (fun h => nomatch h)

theorem issueMaterial_gentle (value : Certificate) :
    Gentle (issueMaterial s value) (Equipped s) := by
  unfold issueMaterial
  split
  · split
    · exact follows_call.mpr ⟨trivial, fun r _ => equipped_selfSigned r⟩
    · exact (fun h => nomatch h)
  · split
    · split
      · split
        · refine follows_call.mpr ⟨trivial, fun resolved _ => ?_⟩
          cases resolved with
          | error err => exact (fun h => nomatch h)
          | ok values =>
            exact follows_call.mpr ⟨trivial, fun r _ => equipped_acme _ r⟩
        · exact (fun h => nomatch h)
      · split
        · exact follows_call.mpr ⟨trivial, fun r _ => equipped_acme _ r⟩
        · exact (fun h => nomatch h)
    · exact (fun h => nomatch h)
  · exact (fun h => nomatch h)

theorem settles_error {α : Type} (err : Error) :
    Settles s env thread id w₀ (.ret (.error err) : Operation (Outcome α)) :=
  fun _ same => Or.inr ⟨trivial, kept_of_same same⟩

/-- What is read of the certificate is what its record says. -/
theorem settles_get {β : Type} {f : Except Error Certificate → Operation (Outcome β)}
    (failed : ∀ err, Settles s env thread id w₀ (f (.error err)))
    (found : ∀ value,
      (∀ c, w₀.db.row id = some c → c.outputDirectory = value.outputDirectory) →
      Settles s env thread id w₀ (f (.ok value))) :
    Settles s env thread id w₀ (get id >>= f) := by
  intro w same
  have kept := (exec_observe env thread (e := .store (.certificate id)) trivial id w).trans same
  rw [run_bind]
  change Ends s id w₀ (run (exec env thread) (f (exec env thread (.store (.certificate id)) w).1)
    (exec env thread (.store (.certificate id)) w).2).1 (run (exec env thread)
      (f (exec env thread (.store (.certificate id)) w).1)
      (exec env thread (.store (.certificate id)) w).2).2
  cases answered : (exec env thread (.store (.certificate id)) w).1 with
  | error err => exact failed err _ kept
  | ok value =>
    have there := certificate_ok answered
    refine found value (fun c before => ?_) _ kept
    have record : (w.db.row id).map good = (w₀.db.row id).map good := congrArg Prod.fst same
    rw [there, before] at record
    exact congrArg Good.outputDirectory (Option.some.inj record).symm

section Locked
variable {value : Certificate}
  (located : ∀ c, w₀.db.row id = some c → c.outputDirectory = value.outputDirectory)
  (one : OneFailure env.host w₀.fs.calls)
include located one

theorem issueExistingCertificate_settles (actor clientIP : String) :
    Settles s env thread id w₀ (issueExistingCertificate s value actor clientIP) := by
  unfold issueExistingCertificate
  split
  · exact settles_error _
  · refine .call (e := .store (.setCertificateStatus value.id .issuing)) trivial fun marked => ?_
    cases marked with
    | error err => exact settles_error _
    | ok _ =>
      refine .call (e := .store (.createJob (runningJob value.id .issue))) trivial fun created => ?_
      cases created with
      | error err =>
        refine .call (e := .store (.markCertificateFailed _ _)) trivial fun _ => ?_
        exact settles_error _
      | ok job =>
        refine (issueMaterial_gentle value).settles_after fun obtained sound => ?_
        refine finishIssue_settles located one (fun c => ?_) job.id sound _ _ _
        exact only_call.mpr ⟨(fun _ _ h => nomatch h), fun _ _ => trivial⟩

theorem renewLocked_settles (force : Bool) (jobType : JobType) (eventType actor clientIP : String) :
    Settles s env thread id w₀ (renewLocked s value force jobType eventType actor clientIP) := by
  unfold renewLocked
  split
  · exact settles_error _
  · refine .call (e := .store (.setCertificateStatus value.id .renewing)) trivial fun marked => ?_
    cases marked with
    | error err => exact settles_error _
    | ok _ =>
      refine .call (e := .store (.createJob (runningJob value.id jobType))) trivial fun job => ?_
      cases job with
      | error err => exact settles_error _
      | ok job =>
        refine (renewMaterial_gentle value force).settles_after fun obtained sound => ?_
        refine finishIssue_settles located one (fun c => ?_) job.id sound _ _ _
        exact only_call.mpr ⟨(fun _ _ h => nomatch h), fun _ _ => trivial⟩

theorem issueLocked_settles (force : Bool) (jobType : JobType) (eventType actor clientIP : String) :
    Settles s env thread id w₀ (issueLocked s value force jobType eventType actor clientIP) := by
  unfold issueLocked
  split
  · split
    · exact settles_error _
    · exact issueExistingCertificate_settles located one actor clientIP
  · exact renewLocked_settles located one force jobType eventType actor clientIP

end Locked

/-- Gentle calls may come last. -/
theorem Settles.before {α β : Type} {p : Operation (Outcome α)}
    (h : Settles s env thread id w₀ p) {f : Outcome α → Operation (Outcome β)}
    (rest : ∀ outcome, Gentle (f outcome) fun result => Refused s outcome → Refused s result) :
    Settles s env thread id w₀ (p >>= f) := by
  intro w same
  rw [run_bind]
  obtain ⟨refused, kept⟩ := gentle_run env thread (rest (run (exec env thread) p w).1) id
    (run (exec env thread) p w).2
  rcases h w same with grown | ⟨failed, last⟩
  · have remembered := congrArg (fun o => o.2.2.length) kept
    exact Or.inl (lt_of_lt_of_eq grown remembered.symm)
  · exact Or.inr ⟨refused failed, last.congr kept⟩

theorem issueExisting_settles
    (one : OneFailure env.host w₀.fs.calls)
    (force : Bool) (jobType : JobType) (eventType actor clientIP : String) :
    Settles s env thread id w₀ (issueExisting s id force jobType eventType actor clientIP) := by
  refine settles_get (fun err => settles_error err) fun value located => ?_
  refine .call (e := .loadOrStore id) trivial fun lock => ?_
  refine .call (e := .tryLock lock) trivial fun taken => ?_
  cases taken with
  | false => exact settles_error _
  | true =>
    refine (issueLocked_settles located one force jobType eventType actor clientIP).before ?_
    intro outcome
    exact follows_call.mpr ⟨trivial, fun _ _ refused => refused⟩

theorem issue_settles
    (one : OneFailure env.host w₀.fs.calls)
    (actor clientIP : String) : Settles s env thread id w₀ (issue s id actor clientIP) := by
  refine settles_get (fun err => settles_error err) fun value _ => ?_
  dsimp only
  split
  · exact settles_error _
  · exact issueExisting_settles one true .issue "certificate.issue" actor clientIP

theorem renew_settles
    (one : OneFailure env.host w₀.fs.calls)
    (force : Bool) (actor clientIP : String) :
    Settles s env thread id w₀ (renew s id force actor clientIP) := by
  unfold renew
  split
  · exact issueExisting_settles one _ _ _ actor clientIP
  · exact issueExisting_settles one _ _ _ actor clientIP

end Publication

end Operations

inductive Reissue where
  | issue
  | renew (force : Bool)
  deriving DecidableEq, Repr

def Reissue.request (id : Id) (actor clientIP : String) : Reissue → Request
  | .issue => .issue id actor clientIP
  | .renew force => .renew id force actor clientIP

/-- A renewal or a new issue that has published nothing returns an error and
keeps the last good certificate, on disk and in its record, as long as no two
calls of the file system fail. -/
theorem failed_reissue_keeps (s : Service) (env : Environment) (thread : Nat) (w : World)
    (again : Reissue) (id : Id) (actor clientIP : String)
    (one : OneFailure env.host w.fs.calls)
    (unpublished : w.publications =
      (run (exec env thread) (programOf s (again.request id actor clientIP)) w).2.publications) :
    (s.engine = true → ∃ err,
        (run (exec env thread) (programOf s (again.request id actor clientIP)) w).1 = .error err) ∧
      Kept id w (run (exec env thread) (programOf s (again.request id actor clientIP)) w).2 := by
  have ends : Ends s id w
      (run (exec env thread) (programOf s (again.request id actor clientIP)) w).1
      (run (exec env thread) (programOf s (again.request id actor clientIP)) w).2 := by
    have void : ∀ outcome : Outcome Certificate,
        Gentle (.ret outcome.void) fun result => Refused s outcome → Refused s result := by
      intro outcome refused
      cases outcome <;> exact refused
    cases again with
    | issue => exact (issue_settles one actor clientIP).before void w rfl
    | renew force => exact (renew_settles one force actor clientIP).before void w rfl
  rcases ends with grown | ⟨refused, kept⟩
  · rw [← unpublished] at grown
    exact absurd grown (Nat.lt_irrefl _)
  · refine ⟨fun equipped => ?_, kept⟩
    revert refused
    cases (run (exec env thread) (programOf s (again.request id actor clientIP)) w).1 with
    | ok _ => exact fun refused => refused.elim
    | error err => exact fun _ => ⟨err, rfl⟩
    | panicked =>
      intro missing
      have missing : s.engine = false := missing
      rw [equipped] at missing
      cases missing

/-- The engine fails. -/
def refusingEnvironment : Environment :=
  { ServicePool.sampleEnvironment with
    acme := fun _ _ => .error ⟨"exit status 1", some 1, false, false⟩ }

theorem failed_reissue_keeps_renewal :
    ((∃ err, (run (exec refusingEnvironment 0) (programOf ServicePool.sampleService
        (.renew 0 true "admin" "127.0.0.1")) ServicePool.sampleWorld).1 = .error err) ∧
      Kept 0 ServicePool.sampleWorld (run (exec refusingEnvironment 0)
        (programOf ServicePool.sampleService (.renew 0 true "admin" "127.0.0.1"))
        ServicePool.sampleWorld).2) := by
  have kept := failed_reissue_keeps ServicePool.sampleService refusingEnvironment 0
    ServicePool.sampleWorld (.renew true) 0 "admin" "127.0.0.1"
    (fun _ _ _ _ failed => nomatch failed.1) (by decide)
  exact ⟨kept.1 rfl, kept.2⟩

end LastGood
