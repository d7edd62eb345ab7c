import CertMate.CertificateModel
import CertMate.Tallies

/-!
# What OpenSSL has generated

`internal/certificate/parser/parser.go`: a certificate and a key are read, and accepted
when they fit together and name the domains of the request. PEM, X.509 and the digest are
parameters.
-/
namespace CertificateParser
open CertificateModel Tallies

/-- `pem.Block`. -/
structure Block where
  type : String
  bytes : Bytes
  deriving DecidableEq, Repr

/-- What the code reads of an `x509.Certificate`. -/
structure X509 (Name PublicKey : Type) where
  raw : Bytes
  rawTBSCertificate : Bytes
  signature : Bytes
  signatureAlgorithm : Nat
  publicKey : PublicKey
  serialNumber : Int
  issuer : Name
  subject : Name
  notBefore : ZonedTime
  notAfter : ZonedTime
  dnsNames : List String

/-- The types that `publicKeyAlgorithm` knows. -/
inductive KeyKind where
  | ecdsa (curve : String)
  | rsa (bits : Nat)
  | other
  deriving DecidableEq, Repr

/-- `encoding/pem`, `crypto/x509` and `crypto/sha256`. `signer` answers the public key of a
private key that is a `crypto.Signer`. -/
structure Crypto (Name PublicKey PrivateKey : Type) where
  decode : Bytes → Option Block
  parseCertificate : Bytes → Except Error (X509 Name PublicKey)
  sum256 : Bytes → Bytes
  checkSignature : X509 Name PublicKey → (algorithm : Nat) → (signed signature : Bytes) →
    Except Error Unit
  parsePKCS8PrivateKey : Bytes → Except Error PrivateKey
  parsePKCS1PrivateKey : Bytes → Except Error PrivateKey
  parseECPrivateKey : Bytes → Except Error PrivateKey
  signer : PrivateKey → Option PublicKey
  marshalPKIXPublicKey : PublicKey → Except Error Bytes
  kind : PublicKey → KeyKind

/-- `parser.Metadata`. -/
structure Metadata (Name : Type) where
  subject : Name
  issuer : Name
  serialNumber : String
  dnsNames : List String
  notBefore : ZonedTime
  notAfter : ZonedTime
  fingerprintSHA256 : String
  keyAlgorithm : String
  deriving DecidableEq, Repr

/-- Capital hexadecimal digits of a number, as many as it has. -/
def hexNat (n : Nat) : String := String.ofList ((Nat.toDigits 16 n).map Char.toUpper)

/-- `strings.ToUpper(n.Text(16))`. -/
def hexInt (n : Int) : String := if n < 0 then "-" ++ hexNat n.natAbs else hexNat n.natAbs

/-- `strings.ToUpper(hex.EncodeToString(value))`. -/
def hexBytes (value : Bytes) : String :=
  String.join (value.map fun b => hexNat (b.toNat / 16) ++ hexNat (b.toNat % 16))

/-- How `%v` writes a slice of strings. -/
def listText (values : List String) : String := "[" ++ " ".intercalate values ++ "]"

/-- `value[key]++` over the one list and `value[key]--` over the other. -/
def sameStrings {α : Type} [DecidableEq α] (left right : List α) : Bool :=
  if left.length ≠ right.length then false
  else
    let seen := left.foldl (add 1) ∅
    let seen := right.foldl (add (-1)) seen
    balanced seen

section Parsing
variable {Name PublicKey PrivateKey : Type} (lib : Crypto Name PublicKey PrivateKey)

def publicKeyAlgorithm (key : PublicKey) : String :=
  match lib.kind key with
  | .ecdsa curve => "ECDSA-" ++ curve
  | .rsa bits => "RSA-" ++ toString bits
  | .other => "UNKNOWN"

def metadataOf (certificate : X509 Name PublicKey) : Metadata Name where
  subject := certificate.subject
  issuer := certificate.issuer
  serialNumber := hexInt certificate.serialNumber
  dnsNames := certificate.dnsNames
  notBefore := certificate.notBefore
  notAfter := certificate.notAfter
  fingerprintSHA256 := hexBytes (lib.sum256 certificate.raw)
  keyAlgorithm := publicKeyAlgorithm lib certificate.publicKey

def parseCertificate (certificatePEM : Bytes) :
    Except Error (X509 Name PublicKey × Metadata Name) :=
  match (lib.decode certificatePEM).filter fun block => block.type = "CERTIFICATE" with
  | none => .error (.new "未找到有效的 CERTIFICATE PEM")
  | some block =>
    match lib.parseCertificate block.bytes with
    | .error err => .error (.wrap "解析证书" err)
    | .ok certificate => .ok (certificate, metadataOf lib certificate)

def parsePrivateKey (value : Bytes) : Except Error PrivateKey :=
  match lib.decode value with
  | none => .error (.new "未找到有效的私钥 PEM")
  | some block =>
    match lib.parsePKCS8PrivateKey block.bytes with
    | .ok key => .ok key
    | .error _ =>
      match lib.parsePKCS1PrivateKey block.bytes with
      | .ok key => .ok key
      | .error _ =>
        match lib.parseECPrivateKey block.bytes with
        | .ok key => .ok key
        | .error _ => .error (.new "不支持的私钥格式")

def validateKeyMatches (certificate : X509 Name PublicKey) (privateKeyPEM : Bytes) :
    Except Error Unit := do
  let privateKey ← parsePrivateKey lib privateKeyPEM
  match lib.signer privateKey with
  | none => .error (.new "私钥不支持签名")
  | some publicKey =>
    let want ← lib.marshalPKIXPublicKey certificate.publicKey
    let got ← lib.marshalPKIXPublicKey publicKey
    if got = want then .ok () else .error (.new "证书与私钥不匹配")

/-- The clocks of two machines may be five minutes apart. -/
def tolerance : Int := 5 * 60 * 1000000000

def validateCertificateAndKey (certificatePEM privateKeyPEM : Bytes)
    (expectedDomains : List String) (now : Time) : Except Error (Metadata Name) := do
  let (certificate, metadata) ← parseCertificate lib certificatePEM
  if now < certificate.notBefore.instant - tolerance ∨ ¬ now < certificate.notAfter.instant then
    .error (.new "证书当前不在有效期内")
  else
    match lib.checkSignature certificate certificate.signatureAlgorithm
        certificate.rawTBSCertificate certificate.signature with
    | .error err => .error (.wrap "自签名证书签名校验失败" err)
    | .ok () =>
      if ¬ sameStrings certificate.dnsNames expectedDomains then
        .error (.new ("证书 SAN 与请求不一致: got=" ++ listText certificate.dnsNames ++ " want=" ++
          listText expectedDomains))
      else do
        validateKeyMatches lib certificate privateKeyPEM
        .ok metadata

end Parsing

/-- The lists have the same strings, each as often. -/
theorem sameStrings_iff {α : Type} [DecidableEq α] (left right : List α) :
    sameStrings left right = true ↔ right.Perm left := by
  unfold sameStrings
  split
  · rename_i differ
    refine iff_of_false Bool.false_ne_true fun same => ?_
    exact differ same.length_eq.symm
  · exact balanced_foldl_iff

/-- What the checks of `validateCertificateAndKey` ask of a certificate and its key. -/
structure Valid {Name PublicKey PrivateKey : Type} (lib : Crypto Name PublicKey PrivateKey)
    (certificate : X509 Name PublicKey) (privateKeyPEM : Bytes) (expectedDomains : List String)
    (now : Time) : Prop where
  begun : certificate.notBefore.instant - tolerance ≤ now
  current : now < certificate.notAfter.instant
  signed : lib.checkSignature certificate certificate.signatureAlgorithm
    certificate.rawTBSCertificate certificate.signature = .ok ()
  named : expectedDomains.Perm certificate.dnsNames
  matched : validateKeyMatches lib certificate privateKeyPEM = .ok ()

section Acceptance
variable {Name PublicKey PrivateKey : Type} {lib : Crypto Name PublicKey PrivateKey}

theorem parseCertificate_ok {certificatePEM : Bytes} {certificate : X509 Name PublicKey}
    {metadata : Metadata Name} :
    parseCertificate lib certificatePEM = .ok (certificate, metadata) ↔
      ∃ block, lib.decode certificatePEM = some block ∧ block.type = "CERTIFICATE" ∧
        lib.parseCertificate block.bytes = .ok certificate ∧
        metadata = metadataOf lib certificate := by
  constructor
  · intro parsed
    unfold parseCertificate at parsed
    split at parsed
    · cases parsed
    · rename_i block found
      obtain ⟨decoded, labelled⟩ := Option.filter_eq_some_iff.mp found
      split at parsed
      · cases parsed
      · rename_i read
        cases parsed
        exact ⟨block, decoded, of_decide_eq_true labelled, read, rfl⟩
  · rintro ⟨block, decoded, labelled, read, rfl⟩
    have found : (lib.decode certificatePEM).filter (fun block => block.type = "CERTIFICATE") =
        some block := Option.filter_eq_some_iff.mpr ⟨decoded, decide_eq_true labelled⟩
    simp only [parseCertificate, found, read]

theorem validateCertificateAndKey_ok {certificatePEM privateKeyPEM : Bytes}
    {expectedDomains : List String} {now : Time} {metadata : Metadata Name} :
    validateCertificateAndKey lib certificatePEM privateKeyPEM expectedDomains now =
        .ok metadata ↔
      ∃ certificate, parseCertificate lib certificatePEM = .ok (certificate, metadata) ∧
        Valid lib certificate privateKeyPEM expectedDomains now := by
  unfold validateCertificateAndKey
  cases parsed : parseCertificate lib certificatePEM with
  | error err => exact iff_of_false (fun h => nomatch h) fun ⟨_, h, _⟩ => nomatch h
  | ok read =>
    obtain ⟨certificate, metadata'⟩ := read
    change (if now < certificate.notBefore.instant - tolerance ∨
        ¬ now < certificate.notAfter.instant then _
      else _) = _ ↔ _
    constructor
    · intro accepted
      split at accepted
      · cases accepted
      rename_i times
      split at accepted
      · cases accepted
      rename_i signed
      split at accepted
      · cases accepted
      rename_i named
      cases matched : validateKeyMatches lib certificate privateKeyPEM with
      | error err =>
        rw [matched] at accepted
        cases accepted
      | ok _ =>
        rw [matched] at accepted
        cases accepted
        obtain ⟨begun, current⟩ := not_or.mp times
        refine ⟨certificate, rfl, Int.not_lt.mp begun, not_not.mp current, signed, ?_, matched⟩
        exact (sameStrings_iff _ _).mp (not_not.mp named)
    · rintro ⟨_, ⟨⟩, valid⟩
      obtain ⟨begun, current, signed, named, matched⟩ := valid
      rw [if_neg (not_or.mpr ⟨Int.not_lt.mpr begun, not_not.mpr current⟩), signed]
      dsimp only
      rw [if_neg (not_not.mpr ((sameStrings_iff _ _).mpr named)), matched]
      rfl

end Acceptance

/-- The comparison of names is one of multisets, and so a certificate is accepted only if
its names are those that were asked for. -/
theorem names_permuted :
    (∀ {Text : Type} [DecidableEq Text] (left right : List Text),
        sameStrings left right = true ↔ right.Perm left) ∧
      ∀ {Name PublicKey PrivateKey : Type} (lib : Crypto Name PublicKey PrivateKey)
        (certificatePEM privateKeyPEM : Bytes) (expectedDomains : List String) (now : Time)
        (metadata : Metadata Name),
        validateCertificateAndKey lib certificatePEM privateKeyPEM expectedDomains now =
            .ok metadata →
          ∃ certificate, parseCertificate lib certificatePEM = .ok (certificate, metadata) ∧
            metadata.dnsNames = certificate.dnsNames ∧
            certificate.dnsNames.Perm expectedDomains := by
  refine ⟨sameStrings_iff, ?_⟩
  intro Name PublicKey PrivateKey lib certificatePEM privateKeyPEM expectedDomains now metadata
    accepted
  obtain ⟨certificate, parsed, valid⟩ := validateCertificateAndKey_ok.mp accepted
  obtain ⟨-, -, -, -, rfl⟩ := parseCertificate_ok.mp parsed
  exact ⟨certificate, parsed, rfl, valid.named.symm⟩

/-- A certificate of one day for two names, in a library that reads a PEM block as its
label and its number. -/
def pairCertificate : X509 String Nat where
  raw := [1]
  rawTBSCertificate := [2]
  signature := [3]
  signatureAlgorithm := 0
  publicKey := 7
  serialNumber := 255
  issuer := "CN=example.com"
  subject := "CN=example.com"
  notBefore := utc 0
  notAfter := utc day
  dnsNames := ["example.com", "www.example.com"]

def pairCrypto : Crypto String Nat Nat where
  decode text := if text = [0] then some ⟨"CERTIFICATE", text⟩ else some ⟨"PRIVATE KEY", text⟩
  parseCertificate _ := .ok pairCertificate
  sum256 _ := [171, 205]
  checkSignature _ _ _ _ := .ok ()
  parsePKCS8PrivateKey key := .ok key.length
  parsePKCS1PrivateKey _ := .error (.new "asn1: structure error")
  parseECPrivateKey _ := .error (.new "asn1: structure error")
  signer key := some key
  marshalPKIXPublicKey key := .ok [UInt8.ofNat key]
  kind _ := .ecdsa "P-256"

theorem names_permuted_pair :
    ∃ certificate, parseCertificate pairCrypto [0] =
        .ok (certificate, metadataOf pairCrypto pairCertificate) ∧
      (metadataOf pairCrypto pairCertificate).dnsNames = certificate.dnsNames ∧
      certificate.dnsNames.Perm ["www.example.com", "example.com"] :=
  names_permuted.2 pairCrypto [0] [1, 2, 3, 4, 5, 6, 7] ["www.example.com", "example.com"] 1
    (metadataOf pairCrypto pairCertificate) (by decide)

end CertificateParser
