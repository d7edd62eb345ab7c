import CertMate.IntegerTexts
import CertMate.SqliteStore
import CertMate.TimestampParse

/-!
# The columns of a certificate

A row of `certificates` with what its columns hold, what the statements of
`internal/store/sqlite/store.go` put there, and `scanCertificate`. The conversions
between strings and the types `Mode` and `Status` change nothing.
-/
namespace CertificateColumns
open CertificateModel SqliteStore Timestamps TimestampOrder TimestampParse JsonTexts IntegerTexts

structure CertificateRow where
  id : Id
  name : String
  mode : Mode
  primaryDomain : String
  domainsJSON : String
  keyType : String
  status : Status
  outputDirectory : String
  issuer : String
  serialNumber : String
  notBefore : Option String
  notAfter : Option String
  fingerprintSHA256 : String
  autoRenewEnabled : Int
  renewBeforeDays : Int
  challengeType : Option String
  dnsProvider : Option String
  dnsCredentialID : Option String
  caDirectoryURL : Option String
  acmeEmail : Option String
  selfSignedValidDays : Option Int
  createRenewedMarker : Int
  createdAt : String
  updatedAt : String
  lastIssuedAt : Option String
  lastRenewedAt : Option String
  nextCheckAt : Option String
  lastError : Bytes
  deriving DecidableEq, Repr

/-- What is read of a certificate; no statement writes `next_check_at`. -/
structure Stored extends Certificate where
  nextCheckAt : Option Time
  deriving DecidableEq, Repr

/-- `NULLIF(?, '')`. -/
def nullIf (text : String) : Option String := if text = "" then none else some text

/-- `NULLIF(?, 0)`. -/
def nullIfZero (n : Int) : Option Int := if n = 0 then none else some n

def nullTime (value : Option Time) : Option String := value.map rfc3339Nano

def boolInt (value : Bool) : Int := if value then 1 else 0

/-- What an `UPDATE` may do to a row. -/
structure RowUpdate where
  apply : CertificateRow → CertificateRow
  keepsId : ∀ row, (apply row).id = row.id
  keepsDirectory : ∀ row, (apply row).outputDirectory = row.outputDirectory

section Statements
variable (now : Nat → Time)

/-- The row of `INSERT INTO certificates`; columns that are not named have their defaults. -/
def insertedRow (value : Certificate) (id : Id) : CertificateRow :=
  let createdAt := if value.createdAt = zeroTime then now 0 else value.createdAt
  { id := id
    name := value.name
    mode := value.mode
    primaryDomain := value.primaryDomain
    domainsJSON := marshal value.domains
    keyType := value.keyType
    status := value.status
    outputDirectory := value.outputDirectory
    issuer := ""
    serialNumber := ""
    notBefore := none
    notAfter := none
    fingerprintSHA256 := ""
    autoRenewEnabled := boolInt value.autoRenewEnabled
    renewBeforeDays := value.renewBeforeDays
    challengeType := nullIf value.challengeType
    dnsProvider := nullIf value.dnsProvider
    dnsCredentialID := nullIf value.dnsCredentialID
    caDirectoryURL := nullIf value.caDirectoryURL
    acmeEmail := nullIf value.acmeEmail
    selfSignedValidDays := nullIfZero value.selfSignedValidDays
    createRenewedMarker := boolInt value.createRenewedMarker
    createdAt := rfc3339Nano createdAt
    updatedAt := rfc3339Nano createdAt
    lastIssuedAt := none
    lastRenewedAt := none
    nextCheckAt := none
    lastError := [] }

def issuedRow (value : Certificate) : RowUpdate where
  apply row := { row with
    status := .active
    issuer := value.issuer
    serialNumber := value.serialNumber
    notBefore := nullTime value.notBefore
    notAfter := nullTime value.notAfter
    fingerprintSHA256 := value.fingerprintSHA256
    updatedAt := rfc3339Nano (now 0)
    lastIssuedAt := some (rfc3339Nano (now 1))
    lastError := [] }
  keepsId _ := rfl
  keepsDirectory _ := rfl

def renewedRow (value : Certificate) : RowUpdate where
  apply row := { row with
    status := .active
    issuer := value.issuer
    serialNumber := value.serialNumber
    notBefore := nullTime value.notBefore
    notAfter := nullTime value.notAfter
    fingerprintSHA256 := value.fingerprintSHA256
    updatedAt := rfc3339Nano (now 0)
    lastRenewedAt := some (rfc3339Nano (now 0))
    lastError := [] }
  keepsId _ := rfl
  keepsDirectory _ := rfl

def failedRow (message : Bytes) : RowUpdate where
  apply row := { row with
    status := .failed
    lastError := message
    updatedAt := rfc3339Nano (now 0) }
  keepsId _ := rfl
  keepsDirectory _ := rfl

def statusRow (status : Status) : RowUpdate where
  apply row := { row with status := status, updatedAt := rfc3339Nano (now 0) }
  keepsId _ := rfl
  keepsDirectory _ := rfl

/-- The driver writes a `bool` as 0 or 1. -/
def settingsRow (name : String) (autoRenewEnabled : Bool) (renewBeforeDays : Int)
    (createRenewedMarker : Bool) : RowUpdate where
  apply row := { row with
    name := name
    autoRenewEnabled := boolInt autoRenewEnabled
    renewBeforeDays := renewBeforeDays
    createRenewedMarker := boolInt createRenewedMarker
    updatedAt := rfc3339Nano (now 0) }
  keepsId _ := rfl
  keepsDirectory _ := rfl

end Statements

/-- The `CHECK` constraints of the table. -/
def checks (row : CertificateRow) : Bool :=
  (row.mode = .acme || row.mode = .selfSigned) &&
    (row.autoRenewEnabled = 0 || row.autoRenewEnabled = 1) &&
    (1 ≤ row.renewBeforeDays && row.renewBeforeDays ≤ 365) &&
    (row.createRenewedMarker = 0 || row.createRenewedMarker = 1)

/-- The days, as they are read back; the variable was zero. -/
def scanDays : Option Int → Int
  | none => 0
  | some n => sscan (formatInt n)

/-- The times are read in no particular order; one that cannot be read is an error. -/
def scanCertificate (row : CertificateRow) : Option Stored := do
  let domains ← unmarshal row.domainsJSON
  let createdAt ← parse row.createdAt
  let updatedAt ← parse row.updatedAt
  let notBefore ← parseNull row.notBefore
  let notAfter ← parseNull row.notAfter
  let lastIssuedAt ← parseNull row.lastIssuedAt
  let lastRenewedAt ← parseNull row.lastRenewedAt
  let nextCheckAt ← parseNull row.nextCheckAt
  some {
    id := row.id
    name := row.name
    mode := row.mode
    primaryDomain := row.primaryDomain
    domains := domains
    keyType := row.keyType
    status := row.status
    outputDirectory := row.outputDirectory
    issuer := row.issuer
    serialNumber := row.serialNumber
    notBefore := notBefore
    notAfter := notAfter
    fingerprintSHA256 := row.fingerprintSHA256
    autoRenewEnabled := row.autoRenewEnabled = 1
    renewBeforeDays := row.renewBeforeDays
    challengeType := row.challengeType.getD ""
    dnsProvider := row.dnsProvider.getD ""
    dnsCredentialID := row.dnsCredentialID.getD ""
    caDirectoryURL := row.caDirectoryURL.getD ""
    acmeEmail := row.acmeEmail.getD ""
    selfSignedValidDays := scanDays row.selfSignedValidDays
    createRenewedMarker := row.createRenewedMarker = 1
    createdAt := createdAt
    updatedAt := updatedAt
    lastIssuedAt := lastIssuedAt
    lastRenewedAt := lastRenewedAt
    lastError := row.lastError
    nextCheckAt := nextCheckAt }

/-- The columns that hold a record. -/
def rowOf (c : Certificate) : CertificateRow where
  id := c.id
  name := c.name
  mode := c.mode
  primaryDomain := c.primaryDomain
  domainsJSON := marshal c.domains
  keyType := c.keyType
  status := c.status
  outputDirectory := c.outputDirectory
  issuer := c.issuer
  serialNumber := c.serialNumber
  notBefore := nullTime c.notBefore
  notAfter := nullTime c.notAfter
  fingerprintSHA256 := c.fingerprintSHA256
  autoRenewEnabled := boolInt c.autoRenewEnabled
  renewBeforeDays := c.renewBeforeDays
  challengeType := nullIf c.challengeType
  dnsProvider := nullIf c.dnsProvider
  dnsCredentialID := nullIf c.dnsCredentialID
  caDirectoryURL := nullIf c.caDirectoryURL
  acmeEmail := nullIf c.acmeEmail
  selfSignedValidDays := nullIfZero c.selfSignedValidDays
  createRenewedMarker := boolInt c.createRenewedMarker
  createdAt := rfc3339Nano c.createdAt
  updatedAt := rfc3339Nano c.updatedAt
  lastIssuedAt := nullTime c.lastIssuedAt
  lastRenewedAt := nullTime c.lastRenewedAt
  nextCheckAt := none
  lastError := c.lastError

@[simp] theorem nullIf_getD (text : String) : (nullIf text).getD "" = text := by
  rw [nullIf]
  split
  · rename_i empty
    exact empty.symm
  · rfl

@[simp] theorem boolInt_eq_one (value : Bool) : decide (boolInt value = 1) = value := by
  cases value <;> rfl

theorem scanDays_nullIfZero {n : Int} (low : -2 ^ 63 ≤ n) (high : n < 2 ^ 63) :
    scanDays (nullIfZero n) = n := by
  rw [nullIfZero]
  split
  · rename_i zero
    exact zero.symm
  · rename_i nonzero
    exact sscan_formatInt nonzero low high

/-- The times of a record have years that the columns can hold. -/
structure Dated (c : Certificate) : Prop where
  createdAt : Ordinary c.createdAt
  updatedAt : Ordinary c.updatedAt
  notBefore : ∀ t, c.notBefore = some t → Ordinary t
  notAfter : ∀ t, c.notAfter = some t → Ordinary t
  lastIssuedAt : ∀ t, c.lastIssuedAt = some t → Ordinary t
  lastRenewedAt : ∀ t, c.lastRenewedAt = some t → Ordinary t

section Read
variable {c : Certificate} (low : -2 ^ 63 ≤ c.selfSignedValidDays)
  (high : c.selfSignedValidDays < 2 ^ 63)
include low high

/-- A record is read back from its row. -/
theorem scan_rowOf (dated : Dated c) : scanCertificate (rowOf c) = some ⟨c, none⟩ := by
  have missing : parseNull none = some none := rfl
  rw [scanCertificate, rowOf]
  simp only [nullTime, unmarshal_marshal, parse_rfc3339Nano dated.createdAt,
    parse_rfc3339Nano dated.updatedAt, parseNull_map dated.notBefore, parseNull_map dated.notAfter,
    parseNull_map dated.lastIssuedAt, parseNull_map dated.lastRenewedAt, missing,
    Option.bind_eq_bind, Option.bind_some, nullIf_getD, boolInt_eq_one,
    scanDays_nullIfZero low high]

end Read

/-- The names come back as they are, whatever the times are. -/
theorem names_of_scan {c : Certificate} {v : Stored} (h : scanCertificate (rowOf c) = some v) :
    v.primaryDomain = c.primaryDomain ∧ v.domains = c.domains ∧ v.keyType = c.keyType := by
  rw [scanCertificate, rowOf] at h
  simp only [Option.bind_eq_bind, Option.bind_eq_some_iff] at h
  obtain ⟨domains, read, _, -, _, -, _, -, _, -, _, -, _, -, _, -, same⟩ := h
  cases same
  rw [unmarshal_marshal] at read
  exact ⟨rfl, (Option.some.inj read).symm, rfl⟩

theorem dated_of_scan {c : Certificate} {v : Stored} (h : scanCertificate (rowOf c) = some v) :
    Dated c := by
  rw [scanCertificate, rowOf] at h
  simp only [Option.bind_eq_bind, Option.bind_eq_some_iff] at h
  obtain ⟨_, -, _, createdAt, _, updatedAt, _, notBefore, _, notAfter, _, lastIssuedAt, _,
    lastRenewedAt, -⟩ := h
  exact {
    createdAt := ordinary_of_parse createdAt
    updatedAt := ordinary_of_parse updatedAt
    notBefore := ordinary_of_parseNull notBefore
    notAfter := ordinary_of_parseNull notAfter
    lastIssuedAt := ordinary_of_parseNull lastIssuedAt
    lastRenewedAt := ordinary_of_parseNull lastRenewedAt }

end CertificateColumns
