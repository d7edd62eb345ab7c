import CertMate.CompleteBackups
import CertMate.DeleteExclusion
import CertMate.LastGood
import CertMate.PublisherRoot

/-!
# Whose files a record serves

One operation after the other. A delete may leave the files of a certificate where the next
one finds them. What lies in a directory was published by the certificate that owns it, if
there was nothing in the directory when its record was inserted or if the certificate has
been published since.
-/
namespace OwnFiles
open CertificateModel CallTrees RunTriples ServiceWorld CertificateFiles CertificateService
  ServiceProtocol ServiceSteps ServicePool DeleteExclusion
open SqliteStore hiding exec
open FileSystem (Host Fs Node Dir File Content)
open PublishProtocol (Progress Named Hidden)
open DomainValidation (safeDirectory validateSafeDirectory)
open PublisherRoot (goes_ret goes_op goes_range validateTarget_goes ensureRoot_goes)

/-- One operation after the other. -/
def session (s : Service) : List Request → Operation Unit
  | [] => .ret ()
  | request :: rest => programOf s request >>= fun _ => session s rest

/-- Before the first operation. -/
structure Fresh (w : World) : Prop where
  records : ∀ id, w.db.row id = none
  publications : w.publications = []

/-- The call does not insert the record where its directory is already there. -/
def beginsEmpty (env : Environment) (id : Id) (e : Eff) (w : World) : Bool :=
  match w.db.row id, (exec env 0 e w).2.db.row id with
  | none, some row => (w.fs.nodes (targetOf row.outputDirectory)).isNone
  | _, _ => true

/-- An operation on the certificate has put a directory with this file in place. -/
def PublishedFor (id : Id) (w : World) (fileName : String) (content : Content) : Prop :=
  ∃ directory node d file, (id, directory, node) ∈ w.publications ∧ Node.reach node = some d ∧
    d.get fileName = some (.file file) ∧ file.content = content

def Earned (id : Id) (w : World) : Prop := ∃ entry ∈ w.publications, entry.1 = id

/-- The record has been inserted over nothing, or its certificate published since. -/
def Cleared (clean : Prop) (id : Id) (w : World) : Prop := clean ∨ Earned id w

/-- What lies at the path was published for the certificate. -/
def Drawn (id : Id) (directory : String) (w : World) (p : FileSystem.Path) : Prop :=
  ∀ node, w.fs.nodes p = some node → (id, directory, node) ∈ w.publications

theorem Drawn.mono {id : Id} {directory : String} {w w' : World} {p : FileSystem.Path}
    (h : Drawn id directory w p) (same : w'.fs.nodes p = w.fs.nodes p)
    (more : ∀ entry ∈ w.publications, entry ∈ w'.publications) : Drawn id directory w' p :=
  fun node there => more _ (h node (same ▸ there))

/-- Where a publication keeps the old directory. -/
def aside : Progress → Option FileSystem.Path
  | .retired _ _ previous | .stranded previous => some previous
  | _ => none

structure Held (id : Id) (directory : String) (progress : Progress) (w : World) : Prop where
  target : Drawn id directory w (targetOf directory)
  retired : ∀ previous, aside progress = some previous → Drawn id directory w previous

section Publishing
variable {H : Host} {id : Id} {directory : String} {p : Payload} {progress : Progress} {w : World}

theorem file_publications (certificate : Id) (e : FileSystem.Call) :
    ∀ entry ∈ w.publications, entry ∈ (execFile H certificate e w).2.publications := by
  intro entry among
  unfold execFile
  dsimp only
  split
  · split
    · exact List.mem_cons_of_mem _ among
    · exact among
  · exact among

theorem aside_note {e : FileSystem.Call} {r : FileSystem.Answer e} {previous : FileSystem.Path}
    (still : ∀ why source target, e ≠ .op (.rename why source target))
    (h : aside (PublishProtocol.note progress e r) = some previous) :
    aside progress = some previous := by
  cases e with
  | now => exact h
  | range values => exact h
  | op o =>
    simp only [PublishProtocol.note] at h
    split at h
    · cases o with
      | rename why source target => exact absurd rfl (still why source target)
      | _ => cases progress <;> cases r <;> exact h
    · exact h

theorem aside_hidden {previous : FileSystem.Path} (named : Named directory progress)
    (h : aside progress = some previous) : Hidden directory previous := by
  cases progress with
  | retired stage files old =>
    cases h
    exact named.2
  | stranded old =>
    cases h
    exact named
  | _ => cases h

/-- A call that is no rename moves neither directory. -/
theorem held_still {e : FileSystem.Call} (safe : safeDirectory directory = true)
    (allowed : PublishProtocol.allows directory p progress e) (named : Named directory progress)
    (still : ∀ why source target, e ≠ .op (.rename why source target))
    (h : Held id directory progress w) :
    Held id directory (PublishProtocol.note progress e (execFile H id e w).1)
      (execFile H id e w).2 := by
  have kept : ∀ q, (∀ o, e = .op o → ¬ FileSystem.Touches o q) →
      (execFile H id e w).2.fs.nodes q = w.fs.nodes q := by
    intro q away
    rw [LastGood.execFile_fs]
    cases e with
    | now => rfl
    | range values => rfl
    | op o => exact FileSystem.exec_frame H o w.fs (away o rfl)
  constructor
  · refine h.target.mono (kept _ ?_) (file_publications id e)
    rintro o rfl touched
    have apart : ∀ why source target, o ≠ .rename why source target :=
      fun why source target same => still why source target (congrArg _ same)
    rcases PublishProtocol.touches_hidden allowed named apart touched with hidden | backup
    · exact PublishProtocol.hidden_ne_target hidden safe rfl
    · cases backup
  · intro previous there
    have before := aside_note still there
    refine (h.retired previous before).mono (kept _ ?_) (file_publications id e)
    rintro o rfl touched
    have inRoot := (aside_hidden named before).1
    have quiet : PublishProtocol.Op.actsOnRoot o = false := by
      by_contra acts
      have ok := allowed (by simpa using acts)
      cases progress with
      | retired | stranded =>
        cases o with
        | rename why source target => exact still why source target rfl
        | _ => exact ok
      | _ => cases before
    rw [PublishProtocol.touches_backup quiet touched] at inRoot
    cases inRoot

/-- A rename that fails moves nothing. -/
theorem Held.unmoved {why : FileSystem.Switch} {source target : FileSystem.Path} {err : Error}
    (h : Held id directory progress w)
    (failed : (execFile H id (.op (.rename why source target)) w).1 = .error err)
    {progress' : Progress} (fewer : ∀ q, aside progress' = some q → aside progress = some q) :
    Held id directory progress' (execFile H id (.op (.rename why source target)) w).2 := by
  have nodes := (FileSystem.rename_error_nodes failed).1
  have kept : ∀ q, (execFile H id (.op (.rename why source target)) w).2.fs.nodes q =
      w.fs.nodes q := by
    intro q
    rw [LastGood.execFile_fs, nodes]
  constructor
  · exact h.target.mono (kept _) (file_publications id _)
  · intro previous there
    exact (h.retired previous (fewer previous there)).mono (kept _) (file_publications id _)

/-- A directory that is put in place for a certificate is remembered as its own. -/
theorem drawn_released {source : FileSystem.Path}
    (done : (execFile H id (.op (.rename .release source (targetOf directory))) w).1 = .ok ()) :
    Drawn id directory (execFile H id (.op (.rename .release source (targetOf directory))) w).2
      (targetOf directory) := by
  obtain ⟨node, there, -, nodes, -⟩ := FileSystem.rename_ok done
  intro node' placed
  rw [LastGood.execFile_fs, nodes, Function.update_self] at placed
  cases placed
  have answered : (FileSystem.exec H (.op (.rename .release source (targetOf directory))) w.fs).1 =
      .ok () := done
  unfold execFile
  dsimp only
  rw [answered]
  simp [there, World.published, targetOf]

/-- The three renames: the old directory goes aside, the new one comes in, or the old one back. -/
theorem held_rename {why : FileSystem.Switch} {source target : FileSystem.Path}
    (allowed : PublishProtocol.permitted directory p progress (.rename why source target))
    (h : Held id directory progress w) :
    Held id directory (PublishProtocol.note progress (.op (.rename why source target))
        (execFile H id (.op (.rename why source target)) w).1)
      (execFile H id (.op (.rename why source target)) w).2 := by
  cases answered : (execFile H id (.op (.rename why source target)) w).1 with
  | error err =>
    refine h.unmoved answered fun q same => ?_
    cases progress <;> first | exact same | cases same
  | ok _ =>
    obtain ⟨node, there, free, nodes, -⟩ := FileSystem.rename_ok answered
    cases progress with
    | staging stage files =>
      obtain ⟨rfl, rfl, rfl, -⟩ := allowed
      exact ⟨drawn_released answered, fun _ none => nomatch none⟩
    | ready stage files previous =>
      obtain ⟨rfl, rfl, rfl, -⟩ := allowed
      have drawn := h.target node there
      constructor
      · have away : targetOf directory ≠ target := by
          rintro rfl
          cases there.symm.trans free
        intro node' placed
        rw [LastGood.execFile_fs, nodes, Function.update_of_ne away, Function.update_self] at placed
        cases placed
      · intro previous' same
        cases same
        intro node' placed
        rw [LastGood.execFile_fs, nodes, Function.update_self] at placed
        cases placed
        exact file_publications id _ _ drawn
    | retired stage files previous =>
      obtain ⟨rfl, rfl, rfl, -⟩ := allowed
      exact ⟨drawn_released answered, fun _ none => nomatch none⟩
    | stranded previous =>
      obtain ⟨rfl, rfl, rfl⟩ := allowed
      have drawn := h.retired source rfl node there
      refine ⟨fun node' placed => ?_, fun _ none => nomatch none⟩
      rw [LastGood.execFile_fs, nodes, Function.update_self] at placed
      cases placed
      exact file_publications id _ _ drawn
    | _ => exact allowed.elim

/-- Who is published for the first time has just put its new directory in place. -/
theorem newly_earned {certificate : Id} {e : FileSystem.Call}
    (after : Earned id (execFile H certificate e w).2) : Earned id w ∨
      certificate = id ∧ ∃ source target, e = .op (.rename .release source target) ∧
        (execFile H certificate (.op (.rename .release source target)) w).1 = .ok () := by
  obtain ⟨entry, among, owner⟩ := after
  unfold execFile at among
  dsimp only at among
  split at among
  · rename_i source target done
    split at among
    · rcases List.mem_cons.mp among with rfl | before
      · exact Or.inr ⟨owner, source, target, rfl, done⟩
      · exact Or.inl ⟨entry, before, owner⟩
    · exact Or.inl ⟨entry, among, owner⟩
  · exact Or.inl ⟨entry, among, owner⟩

theorem held_first {source target : FileSystem.Path}
    (allowed : PublishProtocol.permitted directory p progress (.rename .release source target))
    (done : (execFile H id (.op (.rename .release source target)) w).1 = .ok ()) :
    Held id directory (PublishProtocol.note progress (.op (.rename .release source target))
        (execFile H id (.op (.rename .release source target)) w).1)
      (execFile H id (.op (.rename .release source target)) w).2 := by
  rw [done]
  cases progress with
  | staging stage files | retired stage files previous =>
    obtain ⟨-, rfl, rfl, -⟩ := allowed
    exact ⟨drawn_released done, fun _ absent => nomatch absent⟩
  | ready stage files previous => cases allowed.1
  | stranded previous => cases allowed.1
  | _ => exact allowed.elim

theorem held_call {e : FileSystem.Call} (safe : safeDirectory directory = true)
    (allowed : PublishProtocol.allows directory p progress e) (named : Named directory progress)
    (h : Held id directory progress w) :
    Held id directory (PublishProtocol.note progress e (execFile H id e w).1)
      (execFile H id e w).2 := by
  by_cases still : ∀ why source target, e ≠ .op (.rename why source target)
  · exact held_still safe allowed named still h
  · push Not at still
    obtain ⟨why, source, target, rfl⟩ := still
    exact held_rename (allowed rfl) h

/-- From the first publication on the two directories are those of the certificate. -/
theorem held_cleared {clean : Prop} {e : FileSystem.Call} (safe : safeDirectory directory = true)
    (allowed : PublishProtocol.allows directory p progress e) (named : Named directory progress)
    (h : Cleared clean id w → Held id directory progress w)
    (cleared : Cleared clean id (execFile H id e w).2) :
    Held id directory (PublishProtocol.note progress e (execFile H id e w).1)
      (execFile H id e w).2 := by
  rcases cleared with inserted | earned
  · exact held_call safe allowed named (h (Or.inl inserted))
  · rcases newly_earned earned with before | ⟨-, source, target, rfl, done⟩
    · exact held_call safe allowed named (h (Or.inr before))
    · exact held_first (allowed rfl) done

end Publishing

/-- Between two calls of an operation; `clean` is whether the record is only inserted over
nothing. -/
structure Serves (clean : Prop) (id : Id) (phase : Phase) (w : World) : Prop where
  named : ∀ v lock got progress, phase = .working v lock got progress →
    Named v.outputDirectory progress
  gone : ∀ v, phase.gone = some v → w.db.row v.id = none
  apart : ∀ v row, phase.value = some v → w.db.row id = some row →
    (v.id = id ↔ v.outputDirectory = row.outputDirectory)
  known : ∀ v, phase.value = some v → v.id < w.db.certificates.next
  old : Earned id w → id < w.db.certificates.next
  drawn : Cleared clean id w → ∀ row, w.db.row id = some row →
    safeDirectory row.outputDirectory = true →
      Drawn id row.outputDirectory w (targetOf row.outputDirectory)
  working : Cleared clean id w → ∀ v lock got progress row,
    phase = .working v lock got progress → v.id = id → w.db.row id = some row →
      safeDirectory row.outputDirectory = true → Held id row.outputDirectory progress w

section Steps
variable {env : Environment} {request : Request} {phase phase' : Phase} {e : Eff} {w : World}
  {clean : Prop} {id : Id}

theorem exec_more (env : Environment) (e : Eff) (w : World) :
    ∀ entry ∈ w.publications, entry ∈ (exec env 0 e w).2.publications := by
  by_cases file : ∃ certificate e', e = .file certificate e'
  · obtain ⟨certificate, e', rfl⟩ := file
    exact file_publications certificate e'
  · rw [LastGood.exec_publications env 0 fun certificate e' same => file ⟨certificate, e', same⟩]
    exact fun _ => id

theorem rename_loud {source target : FileSystem.Path} :
    ¬ PublishProtocol.Quiet (.op (.rename .release source target)) := fun quiet => by cases quiet

theorem earned_before (after : Earned id (exec env 0 e w).2) : Earned id w ∨
    ∃ source target, e = .file id (.op (.rename .release source target)) ∧
      (exec env 0 (.file id (.op (.rename .release source target))) w).1 = .ok () := by
  by_cases file : ∃ certificate e', e = .file certificate e'
  · obtain ⟨certificate, e', rfl⟩ := file
    rcases newly_earned after with before | ⟨rfl, source, target, rfl, done⟩
    · exact Or.inl before
    · exact Or.inr ⟨source, target, rfl, done⟩
  · obtain ⟨entry, among, owner⟩ := after
    rw [LastGood.exec_publications env 0 fun certificate e' same => file ⟨certificate, e', same⟩]
      at among
    exact Or.inl ⟨entry, among, owner⟩

/-- Where the row of the certificate comes from. -/
theorem row_origin {row : Certificate} (there : (exec env 0 e w).2.db.row id = some row) :
    (∃ before, w.db.row id = some before ∧ row.outputDirectory = before.outputDirectory) ∨
      w.db.row id = none ∧ w.db.certificates.next ≤ id ∧
        ∃ value, e = .store (.createCertificate value) := by
  rcases row_directory there with before | ⟨value, rfl, -⟩
  · exact Or.inl before
  · by_cases old : id < w.db.certificates.next
    · obtain ⟨c, before, same⟩ := row_old old there
      exact Or.inl ⟨c, before, same⟩
    · refine Or.inr ⟨?_, Nat.le_of_not_lt old, value, rfl⟩
      cases found : w.db.row id with
      | none => rfl
      | some before => exact absurd (Db.lt_next_of_row found) old

/-- An operation past its beginning inserts nothing. -/
theorem row_before (allowed : allows request phase e) (begun : phase ≠ .idle) {row : Certificate}
    (there : (exec env 0 e w).2.db.row id = some row) :
    ∃ before, w.db.row id = some before ∧ row.outputDirectory = before.outputDirectory := by
  rcases row_origin there with before | ⟨-, -, value, rfl⟩
  · exact before
  · exact absurd allowed.1 begun

theorem begun_of_value {v : Certificate} (h : phase.value = some v) : phase ≠ .idle := by
  rintro rfl
  cases h

theorem apart_kept (allowed : allows request phase e)
    (h : Serves clean id phase w) {v row : Certificate} (value : phase.value = some v)
    (there : (exec env 0 e w).2.db.row id = some row) :
    v.id = id ↔ v.outputDirectory = row.outputDirectory := by
  obtain ⟨before, there', same⟩ := row_before allowed (begun_of_value value) there
  rw [same]
  exact h.apart v before value there'

theorem apart_of_row {db : Db} {v row stored : Certificate} (mine : db.row v.id = some stored)
    (same : stored.outputDirectory = v.outputDirectory) (there : db.row id = some row) :
    v.id = id ↔ v.outputDirectory = row.outputDirectory := by
  constructor
  · rintro rfl
    cases mine.symm.trans there
    exact same.symm
  · intro owned
    exact Db.same_directory mine there (same.trans owned)

theorem gone_kept (allowed : allows request phase e) (h : Serves clean id phase w) {v : Certificate}
    (gone : phase.gone = some v) : (exec env 0 e w).2.db.row v.id = none := by
  cases found : (exec env 0 e w).2.db.row v.id with
  | none => rfl
  | some row =>
    rcases row_directory found with ⟨c, before, -⟩ | ⟨value, rfl, -⟩
    · cases (h.gone v gone).symm.trans before
    · exact absurd allowed.1 (begun_of_value (gone_value gone))

theorem gone_note (allowed : allows request phase e)
    (move : Move request phase e (exec env 0 e w).1 phase') (h : Serves clean id phase w)
    (v : Certificate) (gone : phase'.gone = some v) :
    (exec env 0 e w).2.db.row v.id = none := by
  generalize answer : (exec env 0 e w).1 = r at move
  cases move with
  | stay still => exact gone_kept allowed h gone
  | remove about =>
    cases gone
    exact (SqliteStore.delete_ok answer).2
  | clear clears removes => exact gone_kept allowed h gone
  | release mine done next =>
    rcases next with rfl | ⟨v', rfl, rfl⟩
    · cases gone
    · exact gone_kept allowed h gone
  | _ => cases gone

theorem apart_note (allowed : allows request phase e)
    (move : Move request phase e (exec env 0 e w).1 phase') (h : Serves clean id phase w)
    (v row : Certificate) (value : phase'.value = some v)
    (there : (exec env 0 e w).2.db.row id = some row) :
    v.id = id ↔ v.outputDirectory = row.outputDirectory := by
  generalize answer : (exec env 0 e w).1 = r at move
  cases move with
  | stay still => exact apart_kept allowed h value there
  | read fresh numbered =>
    cases value
    subst numbered
    have stored := SqliteStore.certificate_ok answer
    have kept : ∃ row', (exec env 0 (.store (.certificate v.id)) w).2.db.row v.id = some row' ∧
        row'.outputDirectory = v.outputDirectory := row_kept stored fun _ same => nomatch same
    obtain ⟨row', there', same⟩ := kept
    exact apart_of_row there' same there
  | create creates issuing =>
    cases value
    obtain ⟨rfl, there', -⟩ := SqliteStore.createCertificate_ok answer
    exact apart_of_row there' rfl there
  | release mine done next =>
    rcases next with rfl | ⟨v', rfl, rfl⟩
    · cases value
    · exact apart_kept allowed h value there
  | refuse => cases value
  | _ => exact apart_kept allowed h value there

theorem known_note (move : Move request phase e (exec env 0 e w).1 phase')
    (h : Serves clean id phase w) (v : Certificate) (value : phase'.value = some v) :
    v.id < (exec env 0 e w).2.db.certificates.next := by
  have kept : phase.value = some v → v.id < (exec env 0 e w).2.db.certificates.next :=
    fun value => Nat.lt_of_lt_of_le (h.known v value) exec_next_mono
  generalize answer : (exec env 0 e w).1 = r at move
  cases move with
  | read fresh numbered =>
    cases value
    subst numbered
    exact Nat.lt_of_lt_of_le (Db.lt_next_of_row (SqliteStore.certificate_ok answer)) exec_next_mono
  | create creates issuing =>
    cases value
    obtain ⟨rfl, there, -⟩ := SqliteStore.createCertificate_ok answer
    exact Db.lt_next_of_row there
  | release mine done next =>
    rcases next with rfl | ⟨v', rfl, rfl⟩
    · cases value
    · exact kept value
  | refuse => cases value
  | _ => exact kept value

/-- The directory of the first publication is that of the certificate. -/
theorem publisher_of_rename {source target : FileSystem.Path}
    (allowed : allows request phase (.file id (.op (.rename .release source target)))) :
    ∃ v lock material progress p, phase = .working v lock (some material) progress ∧ v.id = id ∧
      PublishProtocol.permitted v.outputDirectory p progress (.rename .release source target) := by
  cases phase with
  | working v lock got progress =>
    cases got with
    | none => exact absurd allowed rename_loud
    | some material =>
      obtain ⟨rfl, -, p, -, ok⟩ := allowed
      exact ⟨v, lock, material, progress, p, rfl, rfl, ok rfl⟩
  | removing v lock cleared =>
    obtain ⟨-, -, same | same⟩ := allowed <;> cases same
  | _ => exact absurd allowed rename_loud

theorem old_note (allowed : allows request phase e) (h : Serves clean id phase w)
    (earned : Earned id (exec env 0 e w).2) : id < (exec env 0 e w).2.db.certificates.next := by
  refine Nat.lt_of_lt_of_le ?_ exec_next_mono
  rcases earned_before earned with before | ⟨source, target, rfl, -⟩
  · exact h.old before
  · obtain ⟨v, lock, material, progress, p, rfl, rfl, -⟩ := publisher_of_rename allowed
    exact h.known v rfl

/-- A call that puts nothing in place for the certificate does not help it. -/
theorem cleared_before (cleared : Cleared clean id (exec env 0 e w).2)
    (other : ∀ source target, e ≠ .file id (.op (.rename .release source target))) :
    Cleared clean id w := by
  rcases cleared with inserted | earned
  · exact Or.inl inserted
  · rcases earned_before earned with before | ⟨source, target, same, -⟩
    · exact Or.inr before
    · exact absurd same (other source target)

/-- A file call leaves in the directory what is published for the certificate. -/
theorem drawn_file {certificate : Id} {e' : FileSystem.Call}
    (allowed : allows request phase (.file certificate e')) (h : Serves clean id phase w)
    (cleared : Cleared clean id (exec env 0 (.file certificate e') w).2) (row : Certificate)
    (there : w.db.row id = some row) (safe : safeDirectory row.outputDirectory = true) :
    Drawn id row.outputDirectory (exec env 0 (.file certificate e') w).2
      (targetOf row.outputDirectory) := by
  have spared : (∀ source target,
      Eff.file certificate e' ≠ .file id (.op (.rename .release source target))) →
      (exec env 0 (.file certificate e') w).2.fs.nodes (targetOf row.outputDirectory) =
        w.fs.nodes (targetOf row.outputDirectory) →
      Drawn id row.outputDirectory (exec env 0 (.file certificate e') w).2
        (targetOf row.outputDirectory) :=
    fun other frame => (h.drawn (cleared_before cleared other) row there safe).mono frame
      (exec_more env _ w)
  have quiet : PublishProtocol.Quiet e' → Drawn id row.outputDirectory
      (exec env 0 (.file certificate e') w).2 (targetOf row.outputDirectory) := by
    refine fun quiet => spared ?_ (quiet_frame quiet _)
    rintro source target ⟨⟩
    exact rename_loud quiet
  cases phase with
  | working v lock got progress =>
    cases got with
    | none => exact quiet allowed
    | some material =>
      obtain ⟨rfl, safe', p, matching, ok⟩ := allowed
      have named := h.named v lock _ progress rfl
      by_cases mine : v.id = id
      · have owned := (h.apart v row rfl there).mp mine
        subst mine
        rw [← owned]
        refine (held_cleared safe' ok named (fun cleared => ?_) cleared).target
        have held := h.working cleared v lock _ progress row rfl rfl there safe
        rwa [← owned] at held
      · have other := fun owned => mine ((h.apart v row rfl there).mpr owned)
        refine spared ?_ (publish_frame ok named safe other)
        rintro source target ⟨⟩
        exact mine rfl
  | removing v lock cleared =>
    have absent := h.gone v rfl
    have other : v.outputDirectory ≠ row.outputDirectory := by
      intro owned
      rw [(h.apart v row rfl there).mpr owned, there] at absent
      cases absent
    refine spared ?_ (removal_frame allowed.2 (Or.inl other))
    rintro source target ⟨⟩
    obtain ⟨-, -, same | same⟩ := allowed <;> cases same
  | _ => exact quiet allowed

/-- What is published for the certificate is what is in its directory. -/
theorem drawn_note (begins : clean → beginsEmpty env id e w = true)
    (allowed : allows request phase e) (h : Serves clean id phase w)
    (cleared : Cleared clean id (exec env 0 e w).2) (row : Certificate)
    (there : (exec env 0 e w).2.db.row id = some row)
    (safe : safeDirectory row.outputDirectory = true) :
    Drawn id row.outputDirectory (exec env 0 e w).2 (targetOf row.outputDirectory) := by
  rcases row_origin there with ⟨before, there', same⟩ | ⟨absent, new, value, rfl⟩
  · rw [same] at safe ⊢
    by_cases file : ∃ certificate e', e = .file certificate e'
    · obtain ⟨certificate, e', rfl⟩ := file
      exact drawn_file allowed h cleared before there' safe
    · have disk : (exec env 0 e w).2.fs = w.fs :=
        exec_fs fun certificate e' same => file ⟨certificate, e', same⟩
      have before' := cleared_before cleared fun source target same => file ⟨_, _, same⟩
      exact (h.drawn before' before there' safe).mono (by rw [disk]) (exec_more env _ w)
  · -- A new record: nobody can have been published under its number.
    rcases cleared_before cleared fun source target same => nomatch same with inserted | earned
    · have empty := begins inserted
      simp only [beginsEmpty, absent, there] at empty
      intro node placed
      have nothing : w.fs.nodes (targetOf row.outputDirectory) = none :=
        Option.isNone_iff_eq_none.mp empty
      cases nothing.symm.trans placed
    · exact absurd (h.old earned) (Nat.not_lt.mpr new)

/-- Calls outside the root leave both directories of a publication alone. -/
theorem Held.still {progress : Progress} {directory : String} (h : Held id directory progress w)
    (named : Named directory progress) {r : Ans e} (still : Still phase e r) :
    Held id directory progress (exec env 0 e w).2 := by
  have kept : ∀ p : FileSystem.Path, p.area = .root →
      (exec env 0 e w).2.fs.nodes p = w.fs.nodes p := by
    intro p inRoot
    by_cases file : ∃ certificate e', e = .file certificate e'
    · obtain ⟨certificate, e', rfl⟩ := file
      refine file_frame fun o same touched => ?_
      subst same
      rw [PublishProtocol.touches_backup still touched] at inRoot
      cases inRoot
    · rw [exec_fs fun certificate e' same => file ⟨certificate, e', same⟩]
  constructor
  · exact h.target.mono (kept _ rfl) (exec_more env e w)
  · intro previous there
    exact (h.retired previous there).mono (kept _ (aside_hidden named there).1) (exec_more env e w)

theorem working_note (begins : clean → beginsEmpty env id e w = true)
    (allowed : allows request phase e) (move : Move request phase e (exec env 0 e w).1 phase')
    (h : Serves clean id phase w) (cleared : Cleared clean id (exec env 0 e w).2)
    (v : Certificate) (lock : Option Nat) (got : Option Material) (progress : Progress)
    (row : Certificate) (at' : phase' = .working v lock got progress) (mine : v.id = id)
    (there : (exec env 0 e w).2.db.row id = some row)
    (safe : safeDirectory row.outputDirectory = true) :
    Held id row.outputDirectory progress (exec env 0 e w).2 := by
  have first : Held id row.outputDirectory .checking (exec env 0 e w).2 :=
    ⟨drawn_note begins allowed h cleared row there safe, fun _ absent => nomatch absent⟩
  generalize answer : (exec env 0 e w).1 = r at move
  cases move with
  | stay still =>
    subst at'
    obtain ⟨before, there', same⟩ := row_before allowed (by simp) there
    rw [same] at safe ⊢
    have owned := (h.apart v before rfl there').mp mine
    have earlier := cleared_before cleared fun source target same => by
      subst same
      exact rename_loud still
    have held := h.working earlier v lock got progress before rfl mine there' safe
    exact held.still (owned ▸ h.named v lock got progress rfl) still
  | work about =>
    cases at'
    exact first
  | deliver got =>
    cases at'
    exact first
  | publish safe' matching ok honest =>
    cases at'
    obtain ⟨before, there', same⟩ := row_before allowed (by simp) there
    rw [same] at safe ⊢
    have owned := (h.apart v before rfl there').mp mine
    subst mine
    rw [← owned, ← answer]
    refine held_cleared safe' ok (h.named v lock _ _ rfl) (fun earlier => ?_) cleared
    have held := h.working earlier v lock _ _ before rfl rfl there' safe
    rwa [← owned] at held
  | release mine done next => rcases next with rfl | ⟨v', -, rfl⟩ <;> cases at'
  | _ => cases at'

theorem serves_call (allowed : allows request phase e)
    (begins : clean → beginsEmpty env id e w = true) (h : Serves clean id phase w) :
    Honest e (exec env 0 e w).1 ∧
      Serves clean id (note phase e (exec env 0 e w).1) (exec env 0 e w).2 := by
  have honest := exec_honest env 0 e w
  have move := note_move allowed honest
  exact ⟨honest, named_move move h.named, gone_note allowed move h, apart_note allowed move h,
    known_note move h, old_note allowed h, drawn_note begins allowed h,
    working_note begins allowed move h⟩

end Steps

/-- Between two operations. -/
structure Owned (clean : Prop) (id : Id) (w : World) : Prop where
  old : Earned id w → id < w.db.certificates.next
  drawn : Cleared clean id w → ∀ row, w.db.row id = some row →
    safeDirectory row.outputDirectory = true →
      Drawn id row.outputDirectory w (targetOf row.outputDirectory)

section Runs
variable {env : Environment} {s : Service} {clean : Prop} {id : Id}

theorem owned_operation (request : Request) {w : World}
    (begins : clean → Along (exec env 0) (fun e w => beginsEmpty env id e w = true)
      (programOf s request) w) (h : Owned clean id w) :
    Owned clean id (run (exec env 0) (programOf s request) w).2 := by
  have start : Serves clean id .idle w :=
    { named := fun _ _ _ _ absent => nomatch absent
      gone := fun _ absent => nomatch absent
      apart := fun _ _ absent => nomatch absent
      known := fun _ absent => nomatch absent
      old := h.old
      drawn := h.drawn
      working := fun _ _ _ _ _ _ absent => nomatch absent }
  obtain ⟨phase, -, ends⟩ := (along_under begins).run_invariant (fun _ _ _ => serves_call)
    (programOf_follows s request) start
  exact ⟨ends.old, ends.drawn⟩

theorem owned_session (requests : List Request) {w : World}
    (begins : clean → Along (exec env 0) (fun e w => beginsEmpty env id e w = true)
      (session s requests) w) (h : Owned clean id w) :
    Owned clean id (run (exec env 0) (session s requests) w).2 := by
  induction requests generalizing w with
  | nil => exact h
  | cons request rest ih =>
    rw [session, run_bind]
    refine ih (fun held => (along_bind.mp (begins held)).2) (owned_operation request ?_ h)
    exact fun held => (along_bind.mp (begins held)).1

end Runs

/-- The target holds this file. -/
def Shows (s : Fs) (safeName fileName : String) (content : Content) : Prop :=
  ∃ node d file, s.nodes (targetOf safeName) = some node ∧ Node.reach node = some d ∧
    d.get fileName = some (.file file) ∧ file.content = content

section Reading
variable {H : Host} {safeName fileName : String} {s s' : Fs}

theorem Shows.congr {content : Content} (h : Shows s' safeName fileName content)
    (nodes : s'.nodes = s.nodes) : Shows s safeName fileName content := by
  obtain ⟨node, d, file, there, rest⟩ := h
  exact ⟨node, d, file, nodes ▸ there, rest⟩

/-- A regular file that `Lstat` has seen. -/
theorem file_seen {info : FileSystem.Info}
    (seen : FileSystem.exec H (.op (.lstatIn (targetOf safeName) fileName)) s = (.ok info, s'))
    (regular : info.kind = .regular) :
    ∃ node d file, s.nodes (targetOf safeName) = some node ∧ Node.reach node = some d ∧
      d.get fileName = some (.file file) := by
  obtain ⟨entry, found, rfl⟩ := PublisherRoot.lstatIn_made seen
  obtain ⟨file, rfl⟩ := CompleteBackups.regular_file regular
  obtain ⟨d, reached, held⟩ := Option.bind_eq_some_iff.mp found
  obtain ⟨node, there, through⟩ := Option.bind_eq_some_iff.mp reached
  exact ⟨node, d, file, there, through, held⟩

theorem free {α : Type} {p : Files α} {C : FileSystem.Call → Fs → Prop} {Q : α → Fs → Prop}
    (h : Goes (FileSystem.exec H) C p s Q) : Goes (FileSystem.exec H) (fun _ _ => True) p s Q :=
  ⟨h.1.mono fun _ _ _ => trivial, h.2⟩

theorem read_shows :
    Goes (FileSystem.exec H) (fun _ _ => True) (CertificateFiles.read safeName fileName) s
      fun r _ => ∀ found, r = .ok found → safeDirectory safeName = true ∧
        Shows s safeName fileName found.1 := by
  unfold CertificateFiles.read
  by_cases safe : safeDirectory safeName = true
  case neg =>
    rw [validateSafeDirectory, if_neg safe]
    exact goes_ret fun _ ok => by cases ok
  rw [validateSafeDirectory, if_pos safe]
  dsimp only
  split
  · exact goes_ret fun _ ok => by cases ok
  · have checked := free (@validateTarget_goes H safeName s (targetOf safeName))
    refine checked.bind fun r s₁ _ valid => ?_
    cases r with
    | error err => exact goes_ret fun _ ok => by cases ok
    | ok _ =>
      refine goes_op trivial (fun info s₂ seen => ?_) fun err s₂ seen =>
        goes_ret fun _ ok => by cases ok
      dsimp only
      split
      · exact goes_ret fun _ ok => by cases ok
      · rename_i regular
        obtain ⟨node, d, file, there, reached, held⟩ := file_seen seen (not_not.mp regular)
        have nodes₂ := CompleteBackups.reads_nodes (fun _ => id) seen
        refine goes_op trivial (fun content s₃ opened => ?_) fun err s₃ opened =>
          goes_ret fun _ ok => by cases ok
        refine goes_ret ?_
        rintro _ ⟨⟩
        have shown : Shows s₁ safeName fileName content := by
          refine ⟨node, d, file, there, reached, held, ?_⟩
          have answer := (CompleteBackups.made_ok opened).1
          simp only [FileSystem.act, Fs.entryAt, Fs.dirAt, nodes₂, there, Option.bind_some, reached,
            held, FileSystem.Entry.reach] at answer
          cases answer
          rfl
        exact ⟨safe, shown.congr valid.1⟩

theorem collectAvailable_shows {order : List (String × FileSystem.FileMode)} {found : List String}
    (seen : ∀ name ∈ found, ∃ content, Shows s safeName name content) :
    Goes (FileSystem.exec H) (fun _ _ => True) (collectAvailable (targetOf safeName) order found) s
      fun r _ => ∀ names, r = .ok names →
        ∀ name ∈ names, ∃ content, Shows s safeName name content := by
  induction order generalizing s found with
  | nil =>
    refine goes_ret ?_
    rintro _ ⟨⟩
    exact seen
  | cons file rest ih =>
    have later : ∀ {s₁ : Fs} {found' : List String}, s₁.nodes = s.nodes →
        (∀ name ∈ found', ∃ content, Shows s safeName name content) →
        Goes (FileSystem.exec H) (fun _ _ => True)
          (collectAvailable (targetOf safeName) rest found') s₁ fun r _ => ∀ names,
            r = .ok names → ∀ name ∈ names, ∃ content, Shows s safeName name content := by
      intro s₁ found' nodes₁ seen'
      refine (ih fun name among => ?_).mono fun r s' ends names ok name among => ?_
      · obtain ⟨content, shown⟩ := seen' name among
        exact ⟨content, shown.congr nodes₁.symm⟩
      · obtain ⟨content, shown⟩ := ends names ok name among
        exact ⟨content, shown.congr nodes₁⟩
    refine goes_op trivial (fun info s₁ answered => ?_) fun err s₁ answered => ?_
    · have nodes₁ := CompleteBackups.reads_nodes (fun _ => id) answered
      dsimp only
      split
      · exact goes_ret fun _ ok => nomatch ok
      · rename_i regular
        obtain ⟨node, d, f, there, reached, held⟩ := file_seen answered (not_not.mp regular)
        refine later nodes₁ fun name among => ?_
        rcases List.mem_append.mp among with before | new
        · exact seen name before
        · cases List.mem_singleton.mp new
          exact ⟨f.content, node, d, f, there, reached, held, rfl⟩
    · have nodes₁ := CompleteBackups.reads_nodes (fun _ => id) answered
      dsimp only
      split
      · exact later nodes₁ seen
      · exact goes_ret fun _ ok => nomatch ok

theorem available_shows :
    Goes (FileSystem.exec H) (fun _ _ => True) (available safeName) s fun r _ =>
      ∀ names, r = .ok names → ∀ name ∈ names, safeDirectory safeName = true ∧
        ∃ content, Shows s safeName name content := by
  unfold available
  by_cases safe : safeDirectory safeName = true
  case neg =>
    rw [validateSafeDirectory, if_neg safe]
    exact goes_ret fun _ ok => by cases ok
  rw [validateSafeDirectory, if_pos safe]
  refine (free (@ensureRoot_goes H safeName _)).bind fun r s₁ _ rooted => ?_
  cases r with
  | error err => exact goes_ret fun _ ok => by cases ok
  | ok _ =>
    have checked := free (@validateTarget_goes H safeName s₁ (targetOf safeName))
    refine checked.bind fun r s₂ _ valid => ?_
    cases r with
    | error err => exact goes_ret fun _ ok => by cases ok
    | ok _ =>
      refine goes_op trivial (fun info s₃ answered => ?_) fun err s₃ answered => ?_
      · have nodes₃ := CompleteBackups.reads_nodes (fun _ => id) answered
        dsimp only
        split
        · exact goes_ret fun _ ok => by cases ok
        · refine goes_range trivial fun order s₄ nodes₄ _ => ?_
          have first : ∀ name ∈ [], ∃ content, Shows s₄ safeName name content := by simp
          refine (collectAvailable_shows first).mono fun r s' ends names ok name among => ?_
          obtain ⟨content, shown⟩ := ends names ok name among
          have nodes := nodes₄.trans (nodes₃.trans (valid.1.trans rooted.1))
          exact ⟨safe, content, shown.congr nodes⟩
      · dsimp only
        split
        · refine goes_ret ?_
          rintro _ ⟨⟩ name none
          cases none
        · exact goes_ret fun _ ok => by cases ok

end Reading

section Serving
variable {env : Environment} {s : Service} {clean : Prop} {id : Id}

theorem run_execFile {α : Type} (H : Host) (certificate : Id) (p : Files α) (w : World) :
    (run (execFile H certificate) p w).1 = (run (FileSystem.exec H) p w.fs).1 := by
  induction p generalizing w with
  | ret a => rfl
  | call e k ih =>
    have same := LastGood.execFile_fs certificate H e w
    simp only [run_call, ih, same]
    rfl

/-- Whatever a record shows was published for it. -/
theorem published_of_shows {w : World} (h : Owned clean id w) (cleared : Cleared clean id w)
    {row : Certificate}
    (there : w.db.row id = some row) (safe : safeDirectory row.outputDirectory = true)
    {fileName : String} {content : Content}
    (shown : Shows w.fs row.outputDirectory fileName content) :
    PublishedFor id w fileName content := by
  obtain ⟨node, d, file, placed, rest⟩ := shown
  exact ⟨row.outputDirectory, node, d, file, h.drawn cleared row there safe node placed, rest⟩

theorem run_work {α : Type} (p : Files α) (w : World) :
    (run (exec env 0) (publisher id p) w).1 = (run (FileSystem.exec env.host) p w.fs).1 := by
  rw [LastGood.run_publisher, run_execFile]

/-- Reading a record leaves the disk as it is. -/
theorem get_ok {w : World} {row : Certificate} (h : (run (exec env 0) (get id) w).1 = .ok row) :
    w.db.row id = some row ∧ (run (exec env 0) (get id) w).2.fs = w.fs :=
  ⟨SqliteStore.certificate_ok h, rfl⟩

theorem readFile_published {w : World} (h : Owned clean id w) (cleared : Cleared clean id w)
    {fileName : String} {content : Content}
    (answered : (run (exec env 0) (readFile id fileName) w).1 = .ok content) :
    PublishedFor id w fileName content := by
  rw [readFile, run_bind] at answered
  cases got : (run (exec env 0) (get id) w).1 with
  | error err =>
    rw [got] at answered
    cases answered
  | ok row =>
    obtain ⟨there, disk⟩ := get_ok got
    rw [got] at answered
    dsimp only at answered
    rw [run_bind, run_work, disk] at answered
    cases read : (run (FileSystem.exec env.host)
        (CertificateFiles.read row.outputDirectory fileName) w.fs).1 with
    | error err =>
      rw [read] at answered
      cases answered
    | ok found =>
      rw [read] at answered
      cases answered
      obtain ⟨safe, shown⟩ := read_shows.2 found read
      exact published_of_shows h cleared there safe shown

theorem availableFiles_published {w : World} (h : Owned clean id w) (cleared : Cleared clean id w)
    {names : List String}
    (answered : (run (exec env 0) (availableFiles id) w).1 = .ok names) :
    ∀ name ∈ names, ∃ content, PublishedFor id w name content := by
  rw [availableFiles, run_bind] at answered
  cases got : (run (exec env 0) (get id) w).1 with
  | error err =>
    rw [got] at answered
    cases answered
  | ok row =>
    obtain ⟨there, disk⟩ := get_ok got
    rw [got] at answered
    dsimp only at answered
    rw [run_work, disk] at answered
    intro name among
    obtain ⟨safe, content, shown⟩ := available_shows.2 names answered name among
    exact ⟨content, published_of_shows h cleared there safe shown⟩

/-- After any operations, one at a time, what a certificate record serves was published by an
operation on that certificate, if the directory was not there when the record was inserted or
if there has been a publication for the certificate. -/
theorem serves_own (s : Service) (env : Environment) (w₀ : World) (requests : List Request)
    (id : Id) (fresh : Fresh w₀)
    (cleared : Along (exec env 0) (fun e w => beginsEmpty env id e w = true)
        (session s requests) w₀ ∨ Earned id (run (exec env 0) (session s requests) w₀).2) :
    (∀ fileName content,
        (run (exec env 0) (readFile id fileName)
          (run (exec env 0) (session s requests) w₀).2).1 = .ok content →
        PublishedFor id (run (exec env 0) (session s requests) w₀).2 fileName content) ∧
      ∀ names,
        (run (exec env 0) (availableFiles id)
          (run (exec env 0) (session s requests) w₀).2).1 = .ok names →
        ∀ name ∈ names, ∃ content,
          PublishedFor id (run (exec env 0) (session s requests) w₀).2 name content := by
  have first : Owned (Along (exec env 0) (fun e w => beginsEmpty env id e w = true)
      (session s requests) w₀) id w₀ := by
    constructor
    · rintro ⟨entry, among, -⟩
      rw [fresh.publications] at among
      cases among
    · intro _ row there
      rw [fresh.records id] at there
      cases there
  have owned := owned_session requests (fun begins => begins) first
  generalize (run (exec env 0) (session s requests) w₀).2 = w at owned cleared ⊢
  exact ⟨fun _ _ => readFile_published owned cleared,
    fun _ => availableFiles_published owned cleared⟩

end Serving

theorem fresh_empty : Fresh emptyWorld := ⟨fun _ => rfl, rfl⟩

/-- A certificate is deleted without its files, and the next one takes its directory. -/
def reused : List Request :=
  [.createSelfSigned monthRequest "admin" "", .delete 0 false "admin" "",
    .createSelfSigned monthRequest "admin" ""]

/-- Every certificate has a private key of its own. -/
def keyedEnvironment : Environment :=
  { monthEnvironment with
    selfSigned := fun id _ =>
      .ok (some { monthMaterial with privateKeyPEM := [if id = 0 then 2 else 5] }) }

theorem earned_of_some {w : World} {id : Id}
    (h : w.publications.any (fun entry => entry.1 = id) = true) : Earned id w := by
  obtain ⟨entry, among, owner⟩ := List.any_eq_true.mp h
  exact ⟨entry, among, of_decide_eq_true owner⟩

/-- The first record finds nothing in its directory, the second is published over what the
first has left. -/
theorem serves_own_month :
    PublishedFor 0 (run (exec monthEnvironment 0)
      (session sampleService [.createSelfSigned monthRequest "admin" ""]) emptyWorld).2
      "privkey.pem" (.bytes [2]) ∧
    PublishedFor 1 (run (exec keyedEnvironment 0) (session sampleService reused) emptyWorld).2
      "privkey.pem" (.bytes [5]) :=
  ⟨(serves_own sampleService monthEnvironment emptyWorld
      [.createSelfSigned monthRequest "admin" ""] 0 fresh_empty
      (Or.inl (along_of_checks (by decide +kernel)))).1 "privkey.pem" (.bytes [2])
      (by decide +kernel),
    (serves_own sampleService keyedEnvironment emptyWorld reused 1 fresh_empty
      (Or.inr (earned_of_some (by decide +kernel)))).1 "privkey.pem" (.bytes [5])
      (by decide +kernel)⟩

/-- The engine issues the first certificate only. -/
def onceEnvironment : Environment :=
  { monthEnvironment with
    selfSigned := fun id _ =>
      if id = 0 then .ok (some monthMaterial) else .error ⟨"exit status 1", some 1, false, false⟩ }

/-- The second record has nothing published and serves the private key of the first. -/
theorem leftover_served :
    ¬ ∀ (s : Service) (env : Environment) (w₀ : World) (requests : List Request) (id : Id)
      (fileName : String) (content : Content), Fresh w₀ →
        (run (exec env 0) (readFile id fileName)
          (run (exec env 0) (session s requests) w₀).2).1 = .ok content →
        PublishedFor id (run (exec env 0) (session s requests) w₀).2 fileName content := by
  intro own
  obtain ⟨directory, node, d, file, among, -⟩ :=
    own sampleService onceEnvironment emptyWorld reused 1 "privkey.pem" (.bytes [2]) fresh_empty
      (by decide +kernel)
  have nothing : (run (exec onceEnvironment 0) (session sampleService reused)
      emptyWorld).2.publications.all (fun entry => entry.1 ≠ 1) = true := by
    decide +kernel
  simpa using List.all_eq_true.mp nothing _ among

end OwnFiles
