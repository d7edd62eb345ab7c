import CertMate.DeleteExclusion

/-!
# Operations on other certificates

What the rest of the service leaves alone of one certificate and its directory,
as long as nobody else takes up an operation on it.
-/
namespace Bystanders
open CertificateModel DomainValidation CallTrees ThreadPools ServiceWorld CertificateFiles
  CertificateService ServiceProtocol ServiceSteps ServicePool DeleteExclusion
open SqliteStore hiding exec
open PublishProtocol (Hidden Named Quiet)

/-- The calls with which an operation on the certificate begins: it looks up the
lock, writes the settings, or is started by a scan. The last ends what a scan
does. -/
def Attends (id : Id) : Eff → Prop
  | .loadOrStore i | .startWorker _ i _ | .workerDone _ i => i = id
  | .store (.updateCertificateSettings i _ _ _ _) => i = id
  | _ => False

instance (id : Id) (e : Eff) : Decidable (Attends id e) := by
  cases e with
  | store q => cases q <;> unfold Attends <;> infer_instance
  | _ => unfold Attends; infer_instance

/-- The operation may have read the certificate, and is about another one or
none otherwise. -/
structure Bystander (id : Id) (directory : String) (phase : Phase) : Prop where
  reads : ∀ v, phase.value = some v → v.id = id → phase = .read v
  elsewhere : ∀ v, phase.value = some v → v.id ≠ id → v.outputDirectory ≠ directory

section Phases
variable {id : Id} {directory : String} {request : Request} {phase : Phase}

theorem bystander_idle : Bystander id directory .idle :=
  ⟨(fun _ h => nomatch h), fun _ h => nomatch h⟩

/-- Past the reading, an operation of a bystander is about another certificate. -/
theorem Bystander.other (h : Bystander id directory phase) {v : Certificate}
    (value : phase.value = some v) (late : ∀ c, phase ≠ .read c) : v.id ≠ id :=
  fun same => late v (h.reads v value same)

theorem Bystander.keep (h : Bystander id directory phase) {phase' : Phase}
    (late : ∀ v, phase ≠ .read v) (value : phase'.value = phase.value) :
    Bystander id directory phase' where
  reads _ hv same := absurd same (h.other (value ▸ hv) late)
  elsewhere v hv := h.elsewhere v (value ▸ hv)

/-- A bystander that takes up no operation on the certificate stays one. -/
theorem Bystander.own {env : Environment} {t : Nat} {w : World} {phase' : Phase} {e : Eff}
    {r : Ans e} (h : Bystander id directory phase) {row : Certificate}
    (stored : w.db.row id = some row) (owned : row.outputDirectory = directory)
    (apart : ¬ Attends id e) (answer : (exec env t e w).1 = r)
    (move : Move request phase e r phase') : Bystander id directory phase' := by
  cases move with
  | stay still => exact h
  | @read _ i v fresh numbered =>
    refine ⟨?_, ?_⟩
    · rintro _ ⟨⟩ -
      rfl
    · rintro _ ⟨⟩ other same
      have there := SqliteStore.certificate_ok answer
      rw [← numbered] at there
      exact other (Db.same_directory there stored (same.trans owned.symm))
  | @create value v creates issuing =>
    obtain ⟨rfl, -, -, free⟩ := SqliteStore.createCertificate_ok answer
    refine ⟨?_, ?_⟩
    · rintro _ ⟨⟩ same
      exact absurd same (Nat.ne_of_gt (Db.lt_next_of_row stored))
    · rintro _ ⟨⟩ - same
      obtain ⟨member, -⟩ := KeyedTables.Table.find?_eq_some_iff.mp stored
      exact free row member (owned.trans same.symm)
  | @locate v lock =>
    refine ⟨?_, fun c value => h.elsewhere c value⟩
    rintro _ ⟨⟩ same
    exact absurd same apart
  | take => exact h.keep (fun _ h => nomatch h) rfl
  | refuse => exact bystander_idle
  | mark => exact h.keep (fun _ h => nomatch h) rfl
  | beginRevoke => exact h.keep (fun _ h => nomatch h) rfl
  | remove => exact h.keep (fun _ h => nomatch h) rfl
  | release mine done next =>
    rcases next with rfl | ⟨v, rfl, rfl⟩
    · exact bystander_idle
    · exact h.keep (fun _ h => nomatch h) rfl
  | _ => exact h.keep (fun _ h => nomatch h) rfl

end Phases

/-- What a bystander leaves as it is. -/
structure Kept (id : Id) (directory : String) (w w' : World) : Prop where
  row : w'.db.row id = w.db.row id
  lock : w'.locks id = w.locks id
  holder : ∀ lock, w.locks id = some lock → w'.holder lock = w.holder lock
  engineCalls : w'.engineCalls id = w.engineCalls id
  published : publicationsOf id w' = publicationsOf id w
  target : safeDirectory directory = true →
    w'.fs.nodes (targetOf directory) = w.fs.nodes (targetOf directory)
  hidden : safeDirectory directory = true → ∀ p, Hidden directory p → w'.fs.nodes p = w.fs.nodes p
  calls : w.fs.calls ≤ w'.fs.calls

theorem dotless_of_safe {name : String} (safe : safeDirectory name = true) :
    ∀ c ∈ name.toList, (c != '.') = true := by
  have plain : ∀ c, directoryRune c = true → (c != '.') = true := by
    intro c rune
    rw [bne_iff_ne]
    rintro rfl
    exact absurd rune (by decide)
  unfold safeDirectory at safe
  split at safe
  · cases safe
  · rename_i first rest chars
    rw [Bool.and_eq_true, Bool.and_eq_true] at safe
    obtain ⟨⟨first_ok, -⟩, rest_ok⟩ := safe
    intro c member
    rw [chars] at member
    rcases List.mem_cons.mp member with rfl | later
    · exact plain _ first_ok
    · rcases (Bool.or_eq_true _ _).mp (List.all_eq_true.mp rest_ok c later) with rune | dash
      · exact plain c rune
      · rw [eq_of_beq dash]
        decide

/-- The directories of a publisher show for which one they are made. -/
theorem hidden_disjoint {a b : String} (safeA : safeDirectory a = true)
    (safeB : safeDirectory b = true) {p : FileSystem.Path} (hiddenA : Hidden a p)
    (hiddenB : Hidden b p) : a = b := by
  have upTo : ∀ {name rest : String}, safeDirectory name = true →
      p.name = hiddenPrefix name ++ rest →
      (p.name.toList.drop 1).takeWhile (· != '.') = name.toList := by
    intro name rest safe named
    have split : p.name.toList.drop 1 = name.toList ++ '.' :: rest.toList := by
      rw [named, hiddenPrefix, String.toList_append, String.toList_append, String.toList_append]
      simp
    rw [split, List.takeWhile_append_of_pos (dotless_of_safe safe)]
    simp
  obtain ⟨-, restA, namedA⟩ := hiddenA
  obtain ⟨-, restB, namedB⟩ := hiddenB
  exact String.toList_inj.mp ((upTo safeA namedA).symm.trans (upTo safeB namedB))

theorem calls_mono {env : Environment} {t : Nat} {w : World} {e : Eff} :
    w.fs.calls ≤ (exec env t e w).2.fs.calls := by
  by_cases isFile : ∃ certificate e', e = .file certificate e'
  · obtain ⟨certificate, e', rfl⟩ := isFile
    rw [exec_file_fs, FileSystem.exec_calls]
    exact Nat.le_succ _
  · rw [exec_fs fun certificate e' he => isFile ⟨certificate, e', he⟩]

/-- An operation that neither works on the directory nor removes it leaves its paths alone. -/
theorem place_kept {env : Environment} {t : Nat} {w : World} {e : Eff} {directory : String}
    {request : Request} {phase : Phase} (allowed : allows request phase e)
    (names : ∀ v lock got progress, phase = .working v lock got progress →
      Named v.outputDirectory progress)
    (working : ∀ v lock got progress, phase = .working v lock got progress →
      v.outputDirectory ≠ directory)
    (removing : ∀ v lock cleared certificate, phase = .removing v lock cleared →
      e = .file certificate (.op (.removeAll (targetOf v.outputDirectory))) →
        v.outputDirectory ≠ directory)
    (safe : safeDirectory directory = true) {p : FileSystem.Path}
    (place : p = targetOf directory ∨ Hidden directory p) :
    (exec env t e w).2.fs.nodes p = w.fs.nodes p := by
  have inRoot : p.area ≠ .backup := by
    rcases place with rfl | hidden
    · exact fun h => by cases h
    · rw [hidden.1]
      exact fun h => by cases h
  have offTarget : ∀ own, safeDirectory own = true → own ≠ directory → p ≠ targetOf own := by
    rintro own safeOwn other rfl
    rcases place with same | hidden
    · exact other (congrArg FileSystem.Path.name same)
    · exact PublishProtocol.hidden_ne_target hidden safeOwn rfl
  have offHidden : ∀ own, safeDirectory own = true → own ≠ directory → ¬ Hidden own p := by
    intro own safeOwn other hidden
    rcases place with rfl | hidden'
    · exact PublishProtocol.hidden_ne_target hidden safe rfl
    · exact other (hidden_disjoint safeOwn safe hidden hidden')
  cases e with
  | file certificate e =>
    refine file_frame fun o he touched => ?_
    subst he
    have quiet : Quiet (.op o) → False := fun quiet =>
      inRoot (PublishProtocol.touches_backup quiet touched)
    cases phase with
    | working v lock got progress =>
      cases got with
      | none => exact quiet allowed
      | some material =>
        obtain ⟨-, safeOwn, payload, -, ok⟩ := allowed
        have other := working v lock _ progress rfl
        rcases PublishProtocol.touches_own ok (names v lock _ progress rfl) touched with
          same | hidden | backup
        · exact offTarget _ safeOwn other same
        · exact offHidden _ safeOwn other hidden
        · exact inRoot backup
    | removing v lock cleared =>
      obtain ⟨-, safeOwn, same | same⟩ := allowed
      · cases same
        exact touched
      · cases same
        exact offTarget _ safeOwn (removing v lock cleared certificate rfl rfl) touched
    | _ => exact quiet allowed
  | _ =>
    rw [exec_fs]
    exact fun _ _ => Eff.noConfusion

section Frames
variable {env : Environment} {t : Nat} {w : World} {e : Eff} {id : Id} {directory : String}
  {request : Request} {phase : Phase} (allowed : allows request phase e)
  (outside : Bystander id directory phase) (apart : ¬ Attends id e)
include allowed outside apart

/-- A bystander neither rewrites nor deletes the record. -/
theorem row_spared {row : Certificate} (stored : w.db.row id = some row) :
    (exec env t e w).2.db.row id = w.db.row id := by
  have others : ∀ q, e = .store q → (∀ now u, q.change now ≠ some (id, u)) ∧
      ∀ event, q ≠ .deleteCertificateWithAudit id event := by
    rintro q rfl
    have elsewhere : ∀ v, phase.value = some v → (∀ c, phase ≠ .read c) → v.id ≠ id :=
      fun v value late => outside.other value late
    refine ⟨fun now u change => ?_, ?_⟩
    · cases q with
      | markCertificateIssued c | markCertificateRenewed c =>
        cases change
        cases phase with
        | working v lock got progress =>
          cases got with
          | none => exact allowed
          | some material =>
            cases progress with
            | released =>
              exact elsewhere v rfl (fun _ h => nomatch h) (congrArg Certificate.id allowed).symm
            | _ => exact allowed
        | _ => exact allowed
      | markCertificateFailed i message =>
        cases change
        cases phase with
        | marked v lock => exact elsewhere v rfl (fun _ h => nomatch h) (Eq.symm allowed)
        | working v lock got progress =>
          exact elsewhere v rfl (fun _ h => nomatch h) allowed.1.symm
        | _ => exact allowed
      | setCertificateStatus i status =>
        cases change
        cases phase with
        | held v lock => exact elsewhere v rfl (fun _ h => nomatch h) allowed.1.symm
        | revoked v lock => exact elsewhere v rfl (fun _ h => nomatch h) allowed.1.symm
        | _ => exact allowed
      | updateCertificateSettings i name autoRenewEnabled renewBeforeDays createRenewedMarker =>
        cases change
        exact apart rfl
      | _ => cases change
    · rintro event rfl
      cases phase with
      | held v lock => exact elsewhere v rfl (fun _ h => nomatch h) allowed.1.symm
      | _ => exact allowed
  by_cases isStore : ∃ q, e = .store q
  · obtain ⟨q, rfl⟩ := isStore
    obtain ⟨changes, deletes⟩ := others q rfl
    cases exec_row env.backend q w.db id with
    | same row => exact row
    | changed u change row => exact absurd change (changes _ u)
    | created value query new row => exact absurd new (Nat.ne_of_lt (Db.lt_next_of_row stored))
    | deleted event query present row => exact absurd query (deletes event)
  · rw [exec_db fun q he => isStore ⟨q, he⟩]

/-- Nor does it look up or drop the lock. -/
theorem lock_spared : (exec env t e w).2.locks id = w.locks id := by
  cases e with
  | loadOrStore i =>
    simp only [exec]
    split
    · rfl
    · exact Function.update_of_ne (fun same => apart same.symm) _ _
  | dropLock i =>
    obtain ⟨v, lock, cleared, rfl, rfl⟩ := allowed
    refine Function.update_of_ne ?_ _ _
    exact (outside.other rfl fun _ h => by cases h).symm
  | file certificate e =>
    simp only [exec, execFile]
    split
    · split <;> rfl
    · rfl
  | tryLock | acquireSlot => simp only [exec]; split <;> rfl
  | _ => rfl

/-- Nor does it take the lock or give it back. -/
theorem holder_spared (standing : Standing t ⟨request, phase⟩ w) {lock : Nat}
    (known : w.locks id = some lock) : (exec env t e w).2.holder lock = w.holder lock := by
  have away : ∀ v other, phase.value = some v → phase.pointer = some other →
      (∀ c, phase ≠ .read c) → lock ≠ other := by
    rintro v other value points late rfl
    exact outside.other value late (standing.sole v lock id value points known).symm
  cases e with
  | tryLock other =>
    obtain ⟨v, rfl⟩ := allowed
    simp only [exec]
    split
    · rfl
    · exact Function.update_of_ne (away v other rfl rfl fun _ h => by cases h) _ _
  | unlock other =>
    obtain ⟨v, value⟩ := value_of_lock allowed.1
    refine Function.update_of_ne (away v other value (pointer_of_lock allowed.1) ?_) _ _
    rintro c rfl
    cases allowed.1
  | _ =>
    rw [exec_holder]
    intro lock
    constructor <;> exact Eff.noConfusion

theorem engineCalls_spared : (exec env t e w).2.engineCalls id = w.engineCalls id := by
  refine exec_engineCalls fun asked => ?_
  have about : allowsEngine phase id := by
    cases e <;> first | (cases asked; exact allowed) | cases asked
  obtain ⟨v, lock, rfl, same⟩ := about
  exact outside.other rfl (fun _ h => nomatch h) same.symm

omit apart in
theorem published_spared :
    publicationsOf id (exec env t e w).2 = publicationsOf id w := by
  refine publications_kept allowed id ?_
  rintro v lock material progress rfl
  exact outside.other rfl fun _ h => nomatch h

omit apart in
/-- Nor does it touch what belongs to the directory. -/
theorem files_spared (names : ∀ v lock got progress, phase = .working v lock got progress →
      Named v.outputDirectory progress) (safe : safeDirectory directory = true)
    {p : FileSystem.Path} (place : p = targetOf directory ∨ Hidden directory p) :
    (exec env t e w).2.fs.nodes p = w.fs.nodes p := by
  refine place_kept allowed names ?_ ?_ safe place
  · rintro v lock got progress rfl
    exact outside.elsewhere v rfl (outside.other rfl fun _ h => by cases h)
  · rintro v lock cleared certificate rfl -
    exact outside.elsewhere v rfl (outside.other rfl fun _ h => by cases h)

theorem kept (standing : Standing t ⟨request, phase⟩ w)
    (names : ∀ v lock got progress, phase = .working v lock got progress →
      Named v.outputDirectory progress) {row : Certificate} (stored : w.db.row id = some row) :
    Kept id directory w (exec env t e w).2 where
  row := row_spared allowed outside apart stored
  lock := lock_spared allowed outside apart
  holder _ known := holder_spared allowed outside apart standing known
  engineCalls := engineCalls_spared allowed outside apart
  published := published_spared allowed outside
  target safe := files_spared allowed outside names safe (Or.inl rfl)
  hidden safe _ hidden := files_spared allowed outside names safe (Or.inr hidden)
  calls := calls_mono

end Frames

section Scans
variable {env : Environment} {t : Nat} {w : World} {e : Eff} {id : Id} {scan : Nat}

theorem nextScan_mono : w.nextScan ≤ (exec env t e w).2.nextScan := by
  cases e with
  | file certificate e =>
    simp only [exec, execFile]
    split
    · split <;> exact Nat.le_refl _
    · exact Nat.le_refl _
  | loadOrStore | tryLock | acquireSlot => simp only [exec]; split <;> exact Nat.le_refl _
  | newScan => exact Nat.le_succ _
  | _ => exact Nat.le_refl _

/-- A certificate is counted until its worker is done. -/
theorem counted_kept (old : scan < w.nextScan) (busy : ∀ n, e ≠ .workerDone n id)
    (counted : id ∈ (w.scans scan).outstanding) :
    id ∈ ((exec env t e w).2.scans scan).outstanding := by
  have set : ∀ (n : Nat) (s : Scan), (n = scan → id ∈ s.outstanding) →
      id ∈ ((Function.update w.scans n s) scan).outstanding := by
    intro n s kept
    by_cases same : scan = n
    · rw [same, Function.update_self]
      exact kept same.symm
    · rw [Function.update_of_ne same]
      exact counted
  cases e with
  | newScan capacity => exact set _ _ fun same => absurd same (Nat.ne_of_gt old)
  | addWorker n certificate =>
    refine set _ _ ?_
    rintro rfl
    exact List.mem_cons_of_mem _ counted
  | workerDone n certificate =>
    refine set _ _ ?_
    rintro rfl
    refine (List.mem_erase_of_ne ?_).mpr counted
    rintro rfl
    exact busy _ rfl
  | acquireSlot n =>
    simp only [exec]
    split
    · exact counted
    · refine set _ _ ?_
      rintro rfl
      exact counted
  | releaseSlot n =>
    refine set _ _ ?_
    rintro rfl
    exact counted
  | reportError n err =>
    refine set _ _ ?_
    rintro rfl
    exact counted
  | file certificate e =>
    simp only [exec, execFile]
    split
    · split <;> exact counted
    · exact counted
  | loadOrStore | tryLock => simp only [exec]; split <;> exact counted
  | _ => exact counted

end Scans

end Bystanders
