import CertMate.LoneCreations

/-!
# What a record says and what its directory holds

A publication and the record of it are two steps. Between them the directory is missing or
ahead of its record, and the operation that is at work owes the rest. Whatever the other
operations do meanwhile leaves the record and the files of the certificate alone, unless a
delete clears the directory of a record that is gone.
-/
namespace AgreedFiles
open CertificateModel DomainValidation CallTrees ThreadPools ServiceWorld CertificateFiles
  CertificateService ServiceProtocol ServiceSteps ServicePool DeleteExclusion LoneCreations
open SqliteStore hiding exec
open FileSystem (Host Fs Node)
open PublishProtocol (Progress Quiet Hidden Agrees Named)

/-- What a record says of the certificate in its directory. -/
structure Stated where
  fingerprintSHA256 : String
  serialNumber : String
  notBefore : Option Time
  notAfter : Option Time

def stated (c : Certificate) : Stated :=
  ⟨c.fingerprintSHA256, c.serialNumber, c.notBefore, c.notAfter⟩

def ofMetadata (m : Metadata) : Stated :=
  ⟨m.fingerprintSHA256, m.serialNumber, some m.notBefore.instant, some m.notAfter.instant⟩

section
variable (parse : Bytes → Option Metadata)

/-- The directory has a `cert.pem` that is what the record says. -/
def Says (row : Certificate) (node : Option Node) : Prop :=
  ∃ d f pem m, node = some (.dir d) ∧ d.get "cert.pem" = some (.file f) ∧
    f.content = .bytes pem ∧ parse pem = some m ∧ stated row = ofMetadata m

/-- A record with a fingerprint has a published directory that it agrees with. -/
def Filed (id : Id) (w : World) : Prop :=
  ∀ row, w.db.row id = some row → row.fingerprintSHA256 ≠ "" →
    safeDirectory row.outputDirectory = true ∧
      Says parse row (w.fs.nodes (targetOf row.outputDirectory))

/-- Published files and the database do not disagree. -/
def InAgreement (w : World) : Prop := ∀ id, Filed parse id w

/-- Every engine result carries the metadata of its own certificate. -/
structure Truthful (env : Environment) : Prop where
  selfSigned : ∀ id n result, env.selfSigned id n = .ok (some result) →
    parse result.certificatePEM = some result.metadata
  acme : ∀ id n result, env.acme id n = .ok (some result) →
    parse result.certificatePEM = some result.metadata

end

variable {parse : Bytes → Option Metadata}

theorem fingerprint_of_stated {c d : Certificate} (same : stated c = stated d) :
    c.fingerprintSHA256 = d.fingerprintSHA256 := congrArg Stated.fingerprintSHA256 same

theorem Says.congr {row row' : Certificate} {node : Option Node} (h : Says parse row node)
    (same : stated row' = stated row) : Says parse row' node := by
  obtain ⟨d, f, pem, m, there, file, content, read, told⟩ := h
  exact ⟨d, f, pem, m, there, file, content, read, same.trans told⟩

theorem Truthful.delivered {env : Environment} (truthful : Truthful parse env) {t : Nat} {e : Eff}
    {w : World} {material : Material}
    (got : delivered e (exec env t e w).1 = some material) :
    parse material.certPEM = some material.metadata := by
  cases e with
  | issueSelfSigned certificate request | renewSelfSigned certificate request =>
    simp only [exec] at got
    cases answered : env.selfSigned certificate (w.engineCalls certificate) with
    | error err => simp [answered, ServiceSteps.delivered] at got
    | ok result =>
      cases result with
      | none => simp [answered, ServiceSteps.delivered] at got
      | some result =>
        simp only [answered, ServiceSteps.delivered, Option.some.injEq] at got
        subst got
        exact truthful.selfSigned _ _ result answered
  | issueACME certificate request | renewACME certificate request =>
    simp only [exec] at got
    cases answered : env.acme certificate (w.engineCalls certificate) with
    | error err => simp [answered, ServiceSteps.delivered] at got
    | ok result =>
      cases result with
      | none => simp [answered, ServiceSteps.delivered] at got
      | some result =>
        simp only [answered, ServiceSteps.delivered, Option.some.injEq] at got
        subst got
        exact truthful.acme _ _ result answered
  | _ => cases got

/-- The record of a publication. -/
def Marks (q : Query) (value : Certificate) : Prop :=
  q = .markCertificateIssued value ∨ q = .markCertificateRenewed value

section Rows
variable {env : Environment} {t : Nat} {e : Eff} {w : World} {id : Id} {row' : Certificate}

theorem change_stated {now : Nat → Time} {q : Query} {u : Update}
    (change : q.change now = some (id, u)) (row : Certificate) :
    stated (u.apply row) = stated row ∨
      ∃ value, Marks q value ∧ value.id = id ∧ stated (u.apply row) = stated value := by
  cases q with
  | markCertificateIssued value =>
    cases change
    exact Or.inr ⟨value, Or.inl rfl, rfl, rfl⟩
  | markCertificateRenewed value =>
    cases change
    exact Or.inr ⟨value, Or.inr rfl, rfl, rfl⟩
  | _ => cases change <;> exact Or.inl rfl

/-- A record that has a fingerprint says what it said before, but for a mark. -/
theorem row_stated (there : (exec env t e w).2.db.row id = some row')
    (issued : row'.fingerprintSHA256 ≠ "") :
    ∃ row, w.db.row id = some row ∧ row'.outputDirectory = row.outputDirectory ∧
      (stated row' = stated row ∨ ∃ q value, e = .store q ∧ Marks q value ∧ value.id = id) := by
  by_cases isStore : ∃ q, e = .store q
  · obtain ⟨q, rfl⟩ := isStore
    change (SqliteStore.exec env.backend q w.db).2.row id = some row' at there
    cases exec_row env.backend q w.db id with
    | same row => exact ⟨row', row ▸ there, rfl, Or.inl rfl⟩
    | changed u change row =>
      rw [row] at there
      obtain ⟨before, found, rfl⟩ := Option.map_eq_some_iff.mp there
      refine ⟨before, found, u.keepsDirectory before, ?_⟩
      rcases change_stated change before with same | ⟨value, marks, named, -⟩
      · exact Or.inl same
      · exact Or.inr ⟨q, value, rfl, marks, named⟩
    | created value query new row =>
      rw [row] at there
      cases there
      exact absurd rfl issued
    | deleted event query present row =>
      rw [row] at there
      cases there
  · rw [exec_db fun q he => isStore ⟨q, he⟩] at there
    exact ⟨row', there, rfl, Or.inl rfl⟩

/-- What a mark leaves in the record, unless the store has failed. -/
theorem row_marked {q : Query} {value : Certificate} (marks : Marks q value)
    (there : (exec env t (.store q) w).2.db.row value.id = some row') :
    ∃ row, w.db.row value.id = some row ∧ row'.outputDirectory = row.outputDirectory ∧
      (stated row' = stated value ∨ env.backend.fails w.db.calls ≠ none ∧ row' = row) := by
  change (SqliteStore.exec env.backend q w.db).2.row value.id = some row' at there
  cases fails : env.backend.fails w.db.calls with
  | some canceled =>
    refine ⟨row', ?_, rfl, Or.inr ⟨Option.some_ne_none _, rfl⟩⟩
    simpa [SqliteStore.exec, fails] using there
  | none =>
    rw [exec_through fails] at there
    rcases marks with rfl | rfl <;>
    · simp only [act, Db.row_tick, Db.row_update, if_true] at there
      obtain ⟨before, found, rfl⟩ := Option.map_eq_some_iff.mp there
      exact ⟨before, found, rfl, Or.inl rfl⟩

end Rows

section Files
variable {H : Host} {safeName : String} {p q : Payload} {old : Option Node} {since : Nat}
  {s : Progress} {w : Fs}

/-- The directory is not there, or is ahead of the record. -/
def Exposed : Progress → Prop
  | .retired _ _ _ | .stranded _ | .released => True
  | _ => False

/-- What is published matters once it is in place. -/
theorem agrees_reload (h : Agrees H safeName p old since s w) (unreleased : s ≠ .released) :
    Agrees H safeName q old since s w := by
  refine ⟨h.1, ?_⟩
  have placed := h.2
  cases s with
  | released => exact absurd rfl unreleased
  | _ => exact placed

/-- Outside the gap the directory is what it was, or lost. -/
theorem agrees_unexposed (h : Agrees H safeName p old since s w) (closed : ¬ Exposed s)
    (kept : s ≠ .lost) : w.nodes (targetOf safeName) = old := by
  have placed := h.2
  cases s with
  | lost => exact absurd rfl kept
  | retired | stranded | released => exact absurd trivial closed
  | staging => exact placed.1
  | swapping => exact placed.1
  | ready => exact placed.1
  | checking | restored | spoiled => exact placed

/-- A removal of the directory by another is the new start of a publication that has not
put anything in place. -/
theorem agrees_removed (safe : safeDirectory safeName = true)
    (h : Agrees H safeName p old since s w) (unreleased : s ≠ .released) :
    ∃ old', Agrees H safeName p old' since s
      (FileSystem.exec H (.op (.removeAll (targetOf safeName))) w).2 := by
  have kept : ∀ path, Hidden safeName path →
      (FileSystem.exec H (.op (.removeAll (targetOf safeName))) w).2.nodes path =
        w.nodes path := by
    intro path hidden
    refine FileSystem.exec_frame H _ w fun touched => ?_
    exact PublishProtocol.hidden_ne_target hidden safe touched
  have calls : w.calls ≤ (FileSystem.exec H (.op (.removeAll (targetOf safeName))) w).2.calls := by
    rw [FileSystem.exec_calls]
    exact Nat.le_succ _
  obtain ⟨begun, placed⟩ := h
  cases s with
  | checking | restored | spoiled => exact ⟨_, begun.trans calls, rfl⟩
  | staging stage files => exact ⟨_, begun.trans calls, rfl, placed.2.frame (kept _ placed.2.1)⟩
  | swapping stage files previous | ready stage files previous =>
    exact ⟨_, begun.trans calls, rfl, placed.2.1.frame (kept _ placed.2.1.1), placed.2.2⟩
  | retired stage files previous =>
    obtain ⟨gone, staged, named, there, some⟩ := placed
    exact ⟨old, begun.trans calls, FileSystem.removeAll_none gone, staged.frame (kept _ staged.1),
      named, (kept _ named).trans there, some⟩
  | stranded previous =>
    obtain ⟨gone, named, there, some, i, hi, before, failed⟩ := placed
    exact ⟨old, begun.trans calls, FileSystem.removeAll_none gone, named,
      (kept _ named).trans there, some, i, hi, before.trans_le calls, failed⟩
  | released => exact absurd rfl unreleased
  | lost =>
    obtain ⟨gone, i, j, hi, hij, before, failed⟩ := placed
    exact ⟨old, begun.trans calls, FileSystem.removeAll_none gone, i, j, hi, hij,
      before.trans_le calls, failed⟩

end Files

section Hands
variable (parse : Bytes → Option Metadata) (env : Environment)

/-- The publication of an operation and the record of its certificate; `old` is what the
record speaks of. -/
structure InHand (v : Certificate) (material : Material) (progress : Progress) (w : World) :
    Prop where
  own : parse material.certPEM = some material.metadata
  safe : progress ≠ .checking → safeDirectory v.outputDirectory = true
  filed : safeDirectory v.outputDirectory = true → ∀ row, w.db.row v.id = some row →
    ∃ p old since, (progress = .released → Matches v material p) ∧
      Agrees env.host v.outputDirectory p old since progress w.fs ∧
      (row.fingerprintSHA256 ≠ "" → Says parse row old)
  lost : progress = .lost → ∀ row, w.db.row v.id = some row → row.fingerprintSHA256 = ""

end Hands

section Steps
variable {env : Environment} {v : Certificate} {material : Material} {progress : Progress}
  {w w' : World}

/-- The record is there before, and says the same once it has a fingerprint. -/
def RowKept (id : Id) (w w' : World) : Prop :=
  ∀ row', w'.db.row id = some row' → ∃ row, w.db.row id = some row ∧
    (row'.fingerprintSHA256 ≠ "" → stated row' = stated row)

/-- A record from earlier that is not marked. -/
theorem rowKept_exec {t : Nat} {e : Eff} {id : Id} (old : id < w.db.certificates.next)
    (unmarked : ∀ q value, e = .store q → Marks q value → value.id ≠ id) :
    RowKept id w (exec env t e w).2 := by
  intro row' there
  obtain ⟨row, before, -⟩ := row_old old there
  refine ⟨row, before, fun issued => ?_⟩
  obtain ⟨row₁, before₁, -, same | ⟨q, value, he, marks, named⟩⟩ := row_stated there issued
  · cases before.symm.trans before₁
    exact same
  · exact absurd named (unmarked q value he marks)

/-- Others do not disturb it as long as they keep off the record and the files. -/
theorem InHand.frame (h : InHand parse env v material progress w) (rows : RowKept v.id w w')
    (files : ∀ row, w.db.row v.id = some row → safeDirectory v.outputDirectory = true → ∀ p,
      p = targetOf v.outputDirectory ∨ Hidden v.outputDirectory p → w'.fs.nodes p = w.fs.nodes p)
    (calls : w.fs.calls ≤ w'.fs.calls) : InHand parse env v material progress w' where
  own := h.own
  safe := h.safe
  filed safe row' there := by
    obtain ⟨row, before, same⟩ := rows row' there
    obtain ⟨p, old, since, matching, agrees, told⟩ := h.filed safe row before
    refine ⟨p, old, since, matching, ?_, fun issued => ?_⟩
    · have files := files row before safe
      exact agrees.frame (files _ (Or.inl rfl)) (fun p hidden => files p (Or.inr hidden)) calls
    · have same := same issued
      exact (told (fingerprint_of_stated same ▸ issued)).congr same
  lost gone row' there := by
    by_contra issued
    obtain ⟨row, before, same⟩ := rows row' there
    exact issued ((fingerprint_of_stated (same issued)).trans (h.lost gone row before))

/-- A delete that removes the directory of a record without a fingerprint. -/
theorem InHand.removed (h : InHand parse env v material progress w) {t : Nat} {certificate : Id}
    (spared : ∀ row, w.db.row v.id = some row →
      row.fingerprintSHA256 = "" ∧ progress ≠ .released) :
    InHand parse env v material progress
      (exec env t (.file certificate (.op (.removeAll (targetOf v.outputDirectory)))) w).2 where
  own := h.own
  safe := h.safe
  filed safe row there := by
    rw [exec_db fun q he => by cases he] at there
    rw [exec_file_fs]
    obtain ⟨p, old, since, matching, agrees, -⟩ := h.filed safe row there
    obtain ⟨new, unreleased⟩ := spared row there
    obtain ⟨old', agrees'⟩ := agrees_removed safe agrees unreleased
    exact ⟨p, old', since, matching, agrees', fun issued => absurd new issued⟩
  lost gone row there := by
    rw [exec_db fun q he => by cases he] at there
    exact h.lost gone row there

/-- Where a lost directory comes from. -/
theorem lost_note {directory : String} {p : Payload} {e : FileSystem.Call}
    {r : FileSystem.Answer e} (allowed : PublishProtocol.allows directory p progress e)
    (lost : PublishProtocol.note progress e r = .lost) :
    progress = .lost ∨ ∃ previous err, progress = .stranded previous ∧
      e = .op (.rename .restore previous (targetOf directory)) ∧
      HEq r (Except.error (α := Unit) (ε := Error) err) := by
  cases e with
  | now => exact Or.inl lost
  | range values => exact Or.inl lost
  | op o =>
    cases acts : PublishProtocol.Op.actsOnRoot o with
    | false =>
      simp only [PublishProtocol.note, acts, Bool.false_eq_true, if_false] at lost
      exact Or.inl lost
    | true =>
      have ok := allowed acts
      simp only [PublishProtocol.note, acts, if_true] at lost
      cases progress with
      | lost => exact Or.inl rfl
      | stranded previous =>
        cases o with
        | rename why source target =>
          obtain ⟨rfl, rfl, rfl⟩ := ok
          cases r with
          | ok _ => cases lost
          | error err => exact Or.inr ⟨_, err, rfl, rfl, HEq.rfl⟩
        | _ => exact ok.elim
      | _ => cases o <;> cases r <;> first | exact ok.elim | cases lost

/-- A call of the publication itself. -/
theorem InHand.publish (h : InHand parse env v material progress w) {t : Nat} {p : Payload}
    {e : FileSystem.Call} (safe : safeDirectory v.outputDirectory = true)
    (matching : Matches v material p)
    (allowed : PublishProtocol.allows v.outputDirectory p progress e)
    (restores : ∀ source target row, e = .op (.rename .restore source target) →
      w.db.row v.id = some row → row.fingerprintSHA256 ≠ "" → env.host.fails w.fs.calls = false) :
    InHand parse env v material
      (PublishProtocol.note progress e (exec env t (.file v.id e) w).1)
      (exec env t (.file v.id e) w).2 where
  own := h.own
  safe _ := safe
  filed _ row there := by
    rw [exec_db fun q he => by cases he] at there
    obtain ⟨p', old, since, matching', agrees, told⟩ := h.filed safe row there
    rw [exec_file_fs]
    by_cases released : progress = .released
    · -- What is in place stays in place, whatever is removed next to it.
      subst released
      have allowed' : PublishProtocol.allows v.outputDirectory p' .released e := by
        cases e with
        | op o =>
          intro acts
          have ok := allowed acts
          cases o <;> exact ok
        | _ => trivial
      exact ⟨p', old, since, fun _ => matching' rfl,
        PublishProtocol.agrees_call safe allowed' agrees, told⟩
    · exact ⟨p, old, since, fun _ => matching,
        PublishProtocol.agrees_call safe allowed (agrees_reload agrees released), told⟩
  lost gone row there := by
    rw [exec_db fun q he => by cases he] at there
    rcases lost_note allowed gone with lost | ⟨previous, err, rfl, rfl, answer⟩
    · exact h.lost lost row there
    · by_contra issued
      obtain ⟨p', old, since, -, agrees, -⟩ := h.filed safe row there
      obtain ⟨absent, -, kept, existed, -⟩ := agrees.2
      obtain ⟨node, some⟩ := Option.ne_none_iff_exists'.mp existed
      have failed := (FileSystem.rename_error (kept.trans some) absent (eq_of_heq answer)).1
      rw [restores _ _ row rfl there issued] at failed
      cases failed

end Steps

section Settling
variable {env : Environment} {id : Id} {w w' : World}

theorem Filed.frame (h : Filed parse id w)
    (rows : ∀ row', w'.db.row id = some row' → row'.fingerprintSHA256 ≠ "" →
      ∃ row, w.db.row id = some row ∧ row'.outputDirectory = row.outputDirectory ∧
        stated row' = stated row)
    (files : ∀ row, w.db.row id = some row → row.fingerprintSHA256 ≠ "" →
      safeDirectory row.outputDirectory = true →
        w'.fs.nodes (targetOf row.outputDirectory) = w.fs.nodes (targetOf row.outputDirectory)) :
    Filed parse id w' := by
  intro row' there issued
  obtain ⟨row, before, owned, same⟩ := rows row' there issued
  have issued : row.fingerprintSHA256 ≠ "" := fingerprint_of_stated same ▸ issued
  obtain ⟨safe, told⟩ := h row before issued
  rw [owned, files row before issued safe]
  exact ⟨safe, told.congr same⟩

/-- A record that is not marked. -/
theorem rows_unmarked {t : Nat} {e : Eff}
    (unmarked : ∀ q value, e = .store q → Marks q value → value.id ≠ id) (row' : Certificate)
    (there : (exec env t e w).2.db.row id = some row') (issued : row'.fingerprintSHA256 ≠ "") :
    ∃ row, w.db.row id = some row ∧ row'.outputDirectory = row.outputDirectory ∧
      stated row' = stated row := by
  obtain ⟨row, before, owned, same | ⟨q, value, he, marks, named⟩⟩ := row_stated there issued
  · exact ⟨row, before, owned, same⟩
  · exact absurd named (unmarked q value he marks)

variable {v : Certificate} {material : Material} {progress : Progress}

/-- Outside the gap the files are those that the record speaks of. -/
theorem filed_of_closed (hand : InHand parse env v material progress w)
    (safe : safeDirectory v.outputDirectory = true) (closed : ¬ Exposed progress)
    (owned : ∀ row, w.db.row v.id = some row → row.outputDirectory = v.outputDirectory) :
    Filed parse v.id w := by
  intro row there issued
  obtain ⟨p, old, since, -, agrees, told⟩ := hand.filed safe row there
  rw [owned row there, agrees_unexposed agrees closed fun lost => issued (hand.lost lost row there)]
  exact ⟨safe, told issued⟩

/-- The record of what has been put in place. -/
theorem filed_of_recorded (hand : InHand parse env v material .released w) {t : Nat} {q : Query}
    (marks : Marks q (withMaterial v material))
    (owned : ∀ row, w.db.row v.id = some row → row.outputDirectory = v.outputDirectory)
    (taken : ∀ row, w.db.row v.id = some row → row.fingerprintSHA256 ≠ "" →
      env.backend.fails w.db.calls = none) : Filed parse v.id (exec env t (.store q) w).2 := by
  intro row' there issued
  obtain ⟨row, stored, kept, same | ⟨failed, rfl⟩⟩ := row_marked marks there
  · have safe : safeDirectory v.outputDirectory = true := hand.safe fun h => by cases h
    obtain ⟨p, old, since, matching, agrees, -⟩ := hand.filed safe row stored
    obtain ⟨d, files, node, holds, complete⟩ := agrees.2
    obtain ⟨document, rfl⟩ := matching rfl
    obtain ⟨f, found, content, -⟩ := holds.present "cert.pem" _ _
      (complete.allowed "cert.pem" 0o644 (by decide))
    rw [kept, owned row stored]
    exact ⟨safe, d, f, material.certPEM, material.metadata, node, found, content, hand.own, same⟩
  · exact absurd (taken row' stored issued) failed

end Settling

end AgreedFiles
