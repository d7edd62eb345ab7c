import CertMate.CertificateColumns
import CertMate.CreatedValues
import CertMate.UniqueTables

/-!
# The store of certificates

The calls of the store that concern certificates, on rows of columns, and the map
from identifiers to certificates that they are for. After any calls that return
`nil` the rows hold the records of the map.
-/
namespace CertificateStore
open CertificateModel SqliteStore Timestamps TimestampOrder TimestampParse CertificateColumns
  CreatedValues

/-- `id` is the primary key and `output_directory` is unique. -/
abbrev Rows :=
  UniqueTables.Table CertificateRow Id String CertificateRow.id CertificateRow.outputDirectory

/-- The identifier of a new certificate is what `newID` returns. -/
inductive Op where
  | createCertificate (value : Certificate) (id : Id)
  | markCertificateIssued (value : Certificate)
  | markCertificateRenewed (value : Certificate)
  | markCertificateFailed (id : Id) (message : Bytes)
  | setCertificateStatus (id : Id) (status : Status)
  | updateCertificateSettings (id : Id) (name : String) (autoRenewEnabled : Bool)
      (renewBeforeDays : Int) (createRenewedMarker : Bool)
  | deleteCertificateWithAudit (id : Id) (event : Event)
  deriving DecidableEq, Repr

/-- A call, with what it reads of the clock and the DNS credentials there are. -/
structure Call where
  op : Op
  now : Nat → Time
  credentials : List String

namespace Op

/-- The certificate that a call is about. -/
def id : Op → Id
  | createCertificate _ id => id
  | markCertificateIssued value => value.id
  | markCertificateRenewed value => value.id
  | markCertificateFailed id _ => id
  | setCertificateStatus id _ => id
  | updateCertificateSettings id _ _ _ _ => id
  | deleteCertificateWithAudit id _ => id

end Op

def update (rows : Rows) (id : Id) (u : RowUpdate) : Rows :=
  rows.modify id u.apply u.keepsId u.keepsDirectory

/-- The foreign key on DNS credentials. -/
def credentialKnown (credentials : List String) (row : CertificateRow) : Bool :=
  row.dnsCredentialID.all fun id => id ∈ credentials

/-- The foreign key of an audit event on certificates. -/
def certificateKnown (rows : Rows) (event : Event) : Bool :=
  event.certificateID.all fun id => (rows.find? id).isSome

/-- The rows after a call that returns `nil`; nothing if it returns an error. -/
def step (call : Call) (rows : Rows) : Option Rows :=
  match call.op with
  | .createCertificate value id =>
    let row := insertedRow call.now value id
    if checks row && credentialKnown call.credentials row then rows.insert row else none
  | .markCertificateIssued value => some (update rows value.id (issuedRow call.now value))
  | .markCertificateRenewed value => some (update rows value.id (renewedRow call.now value))
  | .markCertificateFailed id message => some (update rows id (failedRow call.now message))
  | .setCertificateStatus id status => some (update rows id (statusRow call.now status))
  | .updateCertificateSettings id name autoRenewEnabled renewBeforeDays createRenewedMarker =>
    let u := settingsRow call.now name autoRenewEnabled renewBeforeDays createRenewedMarker
    match rows.find? id with
    | none => none
    | some row => if checks (u.apply row) then some (update rows id u) else none
  | .deleteCertificateWithAudit id event =>
    if certificateKnown rows event then
      match rows.find? id with
      | none => none
      | some _ => some (rows.erase id)
    else none

def run : List Call → Rows → Option Rows
  | [], rows => some rows
  | call :: calls, rows => (step call rows).bind (run calls)

inductive ReadError where
  | notFound
  | unreadable
  deriving DecidableEq, Repr

/-- `Certificate`. -/
def certificate (rows : Rows) (id : Id) : Except ReadError Stored :=
  match rows.find? id with
  | none => .error .notFound
  | some row =>
    match scanCertificate row with
    | none => .error .unreadable
    | some value => .ok value

/-- `ORDER BY not_after IS NULL, not_after ASC, created_at DESC`. -/
def listedBefore (a b : CertificateRow) : Bool :=
  match a.notAfter, b.notAfter with
  | some _, none => true
  | none, some _ => false
  | none, none => b.createdAt ≤ a.createdAt
  | some s, some t => if s = t then b.createdAt ≤ a.createdAt else s < t

/-- What `Certificates` may return; nothing if a row cannot be read. -/
def Certificates (rows : Rows) (out : Option (List Stored)) : Prop :=
  ∃ found : List CertificateRow, found.Perm rows.rows ∧
    found.Pairwise (listedBefore · ·) ∧ out = found.mapM scanCertificate

abbrev CertificateMap := Id → Option Certificate

def change (m : CertificateMap) (id : Id) (f : Certificate → Certificate) : CertificateMap :=
  fun j => if j = id then (m j).map f else m j

/-- What a call does to the record of its certificate. -/
def record (call : Call) (m : CertificateMap) : CertificateMap :=
  match call.op with
  | .createCertificate value id =>
    fun j => if j = id then some (createdValue call.now value id) else m j
  | .markCertificateIssued value =>
    change m value.id (SqliteStore.markCertificateIssued call.now value).apply
  | .markCertificateRenewed value =>
    change m value.id (SqliteStore.markCertificateRenewed call.now value).apply
  | .markCertificateFailed id message =>
    change m id (SqliteStore.markCertificateFailed call.now message).apply
  | .setCertificateStatus id status =>
    change m id (SqliteStore.setCertificateStatus call.now status).apply
  | .updateCertificateSettings id name autoRenewEnabled renewBeforeDays createRenewedMarker =>
    change m id (SqliteStore.updateCertificateSettings call.now name autoRenewEnabled
      renewBeforeDays createRenewedMarker).apply
  | .deleteCertificateWithAudit id _ => fun j => if j = id then none else m j

def records : List Call → CertificateMap → CertificateMap
  | [], m => m
  | call :: calls, m => records calls (record call m)

def noRecords : CertificateMap := fun _ => none

/-- New certificates are as the creating methods build them. -/
def Built (call : Call) : Prop := ∀ value id, call.op = .createCertificate value id → AsBuilt value

def Holds (rows : Rows) (m : CertificateMap) : Prop := ∀ j, rows.find? j = (m j).map rowOf

/-- A record is under its own identifier, and its days fit into an integer. -/
structure Sound (m : CertificateMap) : Prop where
  named : ∀ j c, m j = some c → c.id = j
  days : ∀ j c, m j = some c → -2 ^ 63 ≤ c.selfSignedValidDays ∧ c.selfSignedValidDays < 2 ^ 63

section Step
variable {rows rows' : Rows} {m : CertificateMap} {call : Call}

theorem insertedRow_eq {now : Nat → Time} {value : Certificate} (built : AsBuilt value) (id : Id) :
    insertedRow now value id = rowOf (createdValue now value id) := by
  rw [built.blank]
  rfl

theorem holds_change (h : Holds rows m) (id : Id) {u : RowUpdate} {f : Certificate → Certificate}
    (same : ∀ c, u.apply (rowOf c) = rowOf (f c)) : Holds (update rows id u) (change m id f) := by
  intro j
  rw [update, UniqueTables.Table.find?_modify, h j, change]
  by_cases mine : j = id
  · rw [if_pos mine, if_pos mine, Option.map_map, Option.map_map]
    congr 1
    funext c
    exact same c
  · rw [if_neg mine, if_neg mine]

/-- A call that returns `nil` does to the rows what it does to the records. -/
theorem step_holds (h : Holds rows m) (built : Built call) (done : step call rows = some rows') :
    Holds rows' (record call m) := by
  obtain ⟨op, now, credentials⟩ := call
  cases op with
  | createCertificate value id =>
    simp only [step] at done
    split at done
    · intro j
      rw [UniqueTables.Table.find?_insert done j]
      change (if j = id then _ else _) = (if j = id then _ else _ : Option Certificate).map rowOf
      by_cases mine : j = id
      · rw [if_pos mine, if_pos mine, insertedRow_eq (built value id rfl)]
        rfl
      · rw [if_neg mine, if_neg mine, h j]
    · cases done
  | markCertificateIssued value =>
    cases done
    exact holds_change h value.id fun _ => rfl
  | markCertificateRenewed value =>
    cases done
    exact holds_change h value.id fun _ => rfl
  | markCertificateFailed id message =>
    cases done
    exact holds_change h id fun _ => rfl
  | setCertificateStatus id status =>
    cases done
    exact holds_change h id fun _ => rfl
  | updateCertificateSettings id name autoRenewEnabled renewBeforeDays createRenewedMarker =>
    simp only [step] at done
    split at done
    · cases done
    split at done
    · cases done
      exact holds_change h id fun _ => rfl
    · cases done
  | deleteCertificateWithAudit id event =>
    simp only [step] at done
    split at done
    · split at done
      · cases done
      · cases done
        intro j
        rw [UniqueTables.Table.find?_erase, h j]
        change _ = (if j = id then none else m j).map rowOf
        split <;> rfl
    · cases done

theorem sound_change (h : Sound m) (id : Id) {f : Certificate → Certificate}
    (named : ∀ c, (f c).id = c.id)
    (days : ∀ c, (f c).selfSignedValidDays = c.selfSignedValidDays) : Sound (change m id f) := by
  constructor
  · intro j c there
    rw [change] at there
    split at there
    · obtain ⟨c, before, rfl⟩ := Option.map_eq_some_iff.mp there
      rw [named]
      exact h.named j c before
    · exact h.named j c there
  · intro j c there
    rw [change] at there
    split at there
    · obtain ⟨c, before, rfl⟩ := Option.map_eq_some_iff.mp there
      rw [days]
      exact h.days j c before
    · exact h.days j c there

theorem days_of_built {value : Certificate} (built : AsBuilt value) :
    0 ≤ value.selfSignedValidDays ∧ value.selfSignedValidDays ≤ 3650 := by
  have days := built.days
  unfold DaysChecked at days
  split at days
  · omega
  · omega
  · exact days.elim

theorem record_sound (h : Sound m) (built : Built call) : Sound (record call m) := by
  obtain ⟨op, now, credentials⟩ := call
  cases op with
  | createCertificate value id =>
    have bounds := days_of_built (built value id rfl)
    constructor
    · intro j c there
      simp only [record] at there
      split at there
      · rename_i mine
        cases there
        exact mine.symm
      · exact h.named j c there
    · intro j c there
      simp only [record] at there
      split at there
      · cases there
        change -2 ^ 63 ≤ value.selfSignedValidDays ∧ value.selfSignedValidDays < 2 ^ 63
        omega
      · exact h.days j c there
  | deleteCertificateWithAudit id event =>
    constructor
    · intro j c there
      simp only [record] at there
      split at there
      · cases there
      · exact h.named j c there
    · intro j c there
      simp only [record] at there
      split at there
      · cases there
      · exact h.days j c there
  | _ => exact sound_change h _ (fun _ => rfl) fun _ => rfl

/-- A call leaves the rows of the other certificates alone. -/
theorem step_other (done : step call rows = some rows') {j : Id} (other : j ≠ call.op.id) :
    rows'.find? j = rows.find? j := by
  obtain ⟨op, now, credentials⟩ := call
  have updated : ∀ (id : Id) (u : RowUpdate), j ≠ id → (update rows id u).find? j = rows.find? j := by
    intro id u other
    rw [update, UniqueTables.Table.find?_modify, if_neg other]
  cases op with
  | createCertificate value id =>
    simp only [step] at done
    split at done
    · rw [UniqueTables.Table.find?_insert done j]
      exact if_neg other
    · cases done
  | markCertificateIssued value =>
    cases done
    exact updated _ _ other
  | markCertificateRenewed value =>
    cases done
    exact updated _ _ other
  | markCertificateFailed id message =>
    cases done
    exact updated _ _ other
  | setCertificateStatus id status =>
    cases done
    exact updated _ _ other
  | updateCertificateSettings id name autoRenewEnabled renewBeforeDays createRenewedMarker =>
    simp only [step] at done
    split at done
    · cases done
    split at done
    · cases done
      exact updated _ _ other
    · cases done
  | deleteCertificateWithAudit id event =>
    simp only [step] at done
    split at done
    · split at done
      · cases done
      · cases done
        rw [UniqueTables.Table.find?_erase]
        exact if_neg other
    · cases done

end Step

theorem run_holds {calls : List Call} (built : ∀ call ∈ calls, Built call) {rows rows' : Rows}
    {m : CertificateMap} (h : Holds rows m) (sound : Sound m)
    (done : run calls rows = some rows') : Holds rows' (records calls m) ∧ Sound
    (records calls m) := by
  induction calls generalizing rows m with
  | nil =>
    cases done
    exact ⟨h, sound⟩
  | cons call calls ih =>
    obtain ⟨middle, first, rest⟩ := Option.bind_eq_some_iff.mp done
    have mine := built call List.mem_cons_self
    exact ih (fun c there => built c (List.mem_cons_of_mem call there)) (step_holds h mine first)
      (record_sound sound mine) rest

section Read
variable {rows : Rows} {m : CertificateMap}

/-- A record is read as it is, unless one of its times has no text. -/
theorem certificate_holds (h : Holds rows m) (sound : Sound m) (id : Id) :
    (m id = none → certificate rows id = .error .notFound) ∧
      ∀ c, m id = some c → (Dated c → certificate rows id = .ok ⟨c, none⟩) ∧
        (¬ Dated c → certificate rows id = .error .unreadable) := by
  have found := h id
  constructor
  · intro missing
    rw [missing] at found
    rw [certificate, found]
    rfl
  · intro c there
    rw [there, Option.map_some] at found
    obtain ⟨low, high⟩ := sound.days id c there
    constructor
    · intro dated
      simp only [certificate, found, scan_rowOf low high dated]
    · intro undated
      have unreadable : scanCertificate (rowOf c) = none := by
        by_contra some_
        obtain ⟨value, read⟩ := Option.ne_none_iff_exists'.mp some_
        exact undated (dated_of_scan read)
      simp only [certificate, found, unreadable]

theorem mem_rows_iff (h : Holds rows m) {row : CertificateRow} :
    row ∈ rows.rows ↔ ∃ id c, m id = some c ∧ row = rowOf c := by
  constructor
  · intro there
    have found := UniqueTables.Table.find?_eq_some_iff.mpr ⟨there, rfl⟩
    rw [h row.id] at found
    obtain ⟨c, recorded, rfl⟩ := Option.map_eq_some_iff.mp found
    exact ⟨_, c, recorded, rfl⟩
  · rintro ⟨id, c, recorded, rfl⟩
    have found := h id
    rw [recorded] at found
    exact (UniqueTables.Table.find?_eq_some_iff.mp found).1

theorem mapM_some {f : CertificateRow → Option Stored} {g : CertificateRow → Stored}
    {l : List CertificateRow} (read : ∀ row ∈ l, f row = some (g row)) :
    l.mapM f = some (l.map g) := by
  induction l with
  | nil => rfl
  | cons row l ih =>
    rw [List.mapM_cons, read row List.mem_cons_self,
      ih fun other there => read other (List.mem_cons_of_mem row there)]
    rfl

theorem mapM_none {f : CertificateRow → Option Stored} {l : List CertificateRow}
    {row : CertificateRow} (there : row ∈ l) (unreadable : f row = none) : l.mapM f = none := by
  induction l with
  | nil => cases there
  | cons first l ih =>
    rw [List.mapM_cons]
    rcases List.mem_cons.mp there with rfl | there
    · rw [unreadable]
      rfl
    · rw [ih there]
      cases f first with
      | none => rfl
      | some _ => rfl

/-- What a row that can be read gives. -/
def valueOf (row : CertificateRow) : Stored :=
  (scanCertificate row).getD ⟨CertificateService.blankCertificate, none⟩

theorem certificates_dated (h : Holds rows m) (sound : Sound m)
    (dated : ∀ id c, m id = some c → Dated c) {out : Option (List Stored)}
    (listed : Certificates rows out) : ∃ l, out = some l ∧ (l.map fun v => v.id).Nodup ∧
      ∀ v, v ∈ l ↔ ∃ id c, m id = some c ∧ v = ⟨c, none⟩ := by
  obtain ⟨found, perm, -, rfl⟩ := listed
  have read : ∀ row ∈ found, ∃ id c, m id = some c ∧ row = rowOf c ∧
      scanCertificate row = some ⟨c, none⟩ := by
    intro row there
    obtain ⟨id, c, recorded, rfl⟩ := (mem_rows_iff h).mp (perm.mem_iff.mp there)
    obtain ⟨low, high⟩ := sound.days id c recorded
    exact ⟨id, c, recorded, rfl, scan_rowOf low high (dated id c recorded)⟩
  have value : ∀ row ∈ found, scanCertificate row = some (valueOf row) := by
    intro row there
    obtain ⟨id, c, -, -, scanned⟩ := read row there
    rw [valueOf, scanned]
    rfl
  refine ⟨found.map valueOf, mapM_some value, ?_, ?_⟩
  · have same : (found.map valueOf).map (fun v => v.id) = found.map CertificateRow.id := by
      rw [List.map_map]
      apply List.map_congr_left
      intro row there
      obtain ⟨id, c, -, rfl, scanned⟩ := read row there
      rw [Function.comp_apply, valueOf, scanned]
      rfl
    rw [same]
    exact (perm.map CertificateRow.id).nodup_iff.mpr rows.keys
  · intro v
    rw [List.mem_map]
    constructor
    · rintro ⟨row, there, rfl⟩
      obtain ⟨id, c, recorded, -, scanned⟩ := read row there
      exact ⟨id, c, recorded, by rw [valueOf, scanned]; rfl⟩
    · rintro ⟨id, c, recorded, rfl⟩
      have there : rowOf c ∈ found := perm.mem_iff.mpr ((mem_rows_iff h).mpr ⟨id, c, recorded, rfl⟩)
      obtain ⟨low, high⟩ := sound.days id c recorded
      refine ⟨rowOf c, there, ?_⟩
      rw [valueOf, scan_rowOf low high (dated id c recorded)]
      rfl

theorem certificates_undated (h : Holds rows m) {id : Id} {c : Certificate}
    (recorded : m id = some c) (undated : ¬ Dated c) {out : Option (List Stored)}
    (listed : Certificates rows out) : out = none := by
  obtain ⟨found, perm, -, rfl⟩ := listed
  have there : rowOf c ∈ found := perm.mem_iff.mpr ((mem_rows_iff h).mpr ⟨id, c, recorded, rfl⟩)
  refine mapM_none there ?_
  by_contra some_
  obtain ⟨value, read⟩ := Option.ne_none_iff_exists'.mp some_
  exact undated (dated_of_scan read)

end Read

theorem empty_holds : Holds (UniqueTables.Table.empty : Rows) noRecords ∧ Sound noRecords := by
  refine ⟨fun _ => rfl, ?_, ?_⟩
  · intro j c there
    cases there
  · intro j c there
    cases there

/-- After any calls that return `nil`, a certificate is read as the record of the map
as long as the texts of its times have the four digits of a year, and is not readable
otherwise; the list has each record once, or cannot be read; and a further call
leaves what is read for other certificates as it is. -/
theorem store_refines_map {calls : List Call} (built : ∀ call ∈ calls, Built call) {rows : Rows}
    (done : run calls .empty = some rows) :
    (∀ id, (records calls noRecords id = none → certificate rows id = .error .notFound) ∧
      ∀ c, records calls noRecords id = some c →
        (Dated c → certificate rows id = .ok ⟨c, none⟩) ∧
          (¬ Dated c → certificate rows id = .error .unreadable)) ∧
    (∀ out, Certificates rows out →
      ((∀ id c, records calls noRecords id = some c → Dated c) →
        ∃ l, out = some l ∧ (l.map fun v => v.id).Nodup ∧
          ∀ v, v ∈ l ↔ ∃ id c, records calls noRecords id = some c ∧ v = ⟨c, none⟩) ∧
        ∀ id c, records calls noRecords id = some c → ¬ Dated c → out = none) ∧
    ∀ call rows', step call rows = some rows' → ∀ j, j ≠ call.op.id →
      certificate rows' j = certificate rows j := by
  obtain ⟨h, sound⟩ := run_holds built empty_holds.1 empty_holds.2 done
  refine ⟨?_, ?_, ?_⟩
  · intro id
    exact certificate_holds h sound id
  · intro out listed
    refine ⟨fun dated => certificates_dated h sound dated listed, ?_⟩
    intro id c recorded undated
    exact certificates_undated h recorded undated listed
  · intro call rows' stepped j other
    rw [certificate, certificate, step_other stepped other]

def sampleValue : Certificate := { CertificateService.blankCertificate with
  name := "example"
  primaryDomain := "a.example"
  domains := ["a.example"]
  outputDirectory := "a-example"
  renewBeforeDays := 30
  selfSignedValidDays := 365 }

theorem sampleValue_built : AsBuilt sampleValue := by
  refine ⟨rfl, ?_⟩
  change (1 : Int) ≤ 30 ∧ (30 : Int) < 365 ∧ (365 : Int) ≤ 3650
  omega

def issuing (notAfter : Time) : List Call :=
  [⟨.createCertificate sampleValue 0, fun _ => 0, []⟩,
    ⟨.markCertificateIssued { sampleValue with notAfter := some notAfter }, fun _ => 0, []⟩]

theorem issuing_built (notAfter : Time) : ∀ call ∈ issuing notAfter, Built call := by
  intro call there value id created
  rcases List.mem_cons.mp there with rfl | there
  · cases created
    exact sampleValue_built
  · rw [List.mem_singleton.mp there] at created
    cases created

/-- The first of July 2026. -/
def validEnd : Time := 1782864000 * 1000000000

/-- The first of January of the year 10000. -/
def farEnd : Time := 253402300800 * 1000000000

/-- The record of the certificate after both calls. -/
def issuedValue (notAfter : Time) : Certificate :=
  (SqliteStore.markCertificateIssued (fun _ => 0)
    { sampleValue with notAfter := some notAfter }).apply (createdValue (fun _ => 0) sampleValue 0)

theorem issuing_records (notAfter : Time) :
    records (issuing notAfter) noRecords 0 = some (issuedValue notAfter) := rfl

theorem ordinary_some {t : Time} (h : Ordinary t) : ∀ u, some t = some u → Ordinary u := by
  intro u same
  rwa [← Option.some.inj same]

theorem store_refines_map_issued : ∃ rows, run (issuing validEnd) .empty = some rows ∧
    certificate rows 0 = .ok ⟨issuedValue validEnd, none⟩ := by
  have stored : (run (issuing validEnd) .empty).isSome = true := by decide +kernel
  obtain ⟨rows, done⟩ := Option.isSome_iff_exists.mp stored
  have ordinary : Ordinary 0 := by decide +kernel
  have ends : Ordinary validEnd := by decide +kernel
  have dated : Dated (issuedValue validEnd) := {
    createdAt := ordinary
    updatedAt := ordinary
    notBefore := fun _ none => nomatch none
    notAfter := ordinary_some ends
    lastIssuedAt := ordinary_some ordinary
    lastRenewedAt := fun _ none => nomatch none }
  refine ⟨rows, done, ?_⟩
  exact ((store_refines_map (issuing_built validEnd) done).1 0).2 _ (issuing_records validEnd)
    |>.1 dated

/-- A certificate whose validity ends in the year 10000 is stored but cannot be read. -/
theorem far_end_unreadable : ¬ ∀ calls : List Call, (∀ call ∈ calls, Built call) →
    ∀ rows, run calls .empty = some rows → ∀ id c, records calls noRecords id = some c →
      certificate rows id = .ok ⟨c, none⟩ := by
  intro claim
  have stored : (run (issuing farEnd) .empty).isSome = true := by decide +kernel
  obtain ⟨rows, done⟩ := Option.isSome_iff_exists.mp stored
  have read := claim _ (issuing_built farEnd) rows done 0 _ (issuing_records farEnd)
  obtain ⟨h, sound⟩ := run_holds (issuing_built farEnd) empty_holds.1 empty_holds.2 done
  have undated : ¬ Dated (issuedValue farEnd) := by
    intro dated
    have ends : ¬ Ordinary farEnd := by decide +kernel
    exact ends (dated.notAfter farEnd rfl)
  rw [((certificate_holds h sound 0).2 _ (issuing_records farEnd)).2 undated] at read
  cases read

end CertificateStore
