import CertMate.CertificateModel
import CertMate.DomainValidation

/-!
# DNS credentials

`internal/credential/model.go`, `providers.go` and `encryption.go`. The names
and hints that only the pages show are left out of the providers.
-/
namespace CredentialModel
open CertificateModel (Bytes Time utf8)
open DomainValidation (trimSpace)

/-- A Go map in the order of one iteration over it; `none` is the nil map. -/
abbrev StringMap := Option (AList fun _ : String => String)

instance decidableEqValues : DecidableEq (AList fun _ : String => String) := fun a b =>
  decidable_of_iff (a.entries = b.entries) AList.ext_iff.symm

namespace StringMap

def entries (m : StringMap) : List (Sigma fun _ : String => String) := m.elim [] AList.entries

def lookup (m : StringMap) (name : String) : Option String := m.bind (AList.lookup name)

/-- Indexing a Go map. -/
def get (m : StringMap) (name : String) : String := (m.lookup name).getD ""

/-- The same map, whatever the order. -/
def Same (m m' : StringMap) : Prop := ∀ name, m.lookup name = m'.lookup name

def sortedKeys (m : StringMap) : List String := (m.entries.map Sigma.fst).insertionSort (· ≤ ·)

theorem mem_entries_iff {m : StringMap} {e : Sigma fun _ : String => String} :
    e ∈ m.entries ↔ m.lookup e.1 = some e.2 := by
  cases m with
  | none => simp [entries, lookup]
  | some a => exact AList.mem_lookup_iff.symm

theorem nodupKeys_entries (m : StringMap) : m.entries.NodupKeys := by
  cases m with
  | none => exact List.nodupKeys_nil
  | some a => exact a.nodupKeys

theorem dlookup_entries (m : StringMap) (name : String) :
    m.entries.dlookup name = m.lookup name := by
  cases m <;> rfl

end StringMap

inductive SourceMode where
  | encrypted
  | environment
  | other (name : String)
  deriving DecidableEq, Repr

structure Credential where
  id : String
  name : String
  provider : String
  acmeDNSCode : String
  sourceMode : SourceMode
  maskedFields : List String
  environmentRefs : StringMap
  createdAt : Time
  updatedAt : Time

structure CreateRequest where
  name : String
  provider : String
  customACMECode : String
  sourceMode : SourceMode
  values : StringMap
  environmentRefs : StringMap
  deriving DecidableEq

structure ProcessValues where
  acmeDNSCode : String
  environment : StringMap
  deriving DecidableEq

inductive Error where
  | new (text : String)
  | wrap (context : String) (cause : Error)
  | database (text : String)
  | notFound
  | panicked
  deriving DecidableEq, Repr

structure Field where
  name : String
  required : Bool
  deriving DecidableEq, Repr

structure Provider where
  code : String
  acmeDNSCode : String
  fields : List Field
  custom : Bool
  deriving DecidableEq, Repr

def registry : List Provider :=
  [⟨"cloudflare", "dns_cf",
      [⟨"CF_Token", true⟩, ⟨"CF_Zone_ID", false⟩, ⟨"CF_Account_ID", false⟩], false⟩,
    ⟨"alidns", "dns_ali", [⟨"Ali_Key", true⟩, ⟨"Ali_Secret", true⟩], false⟩,
    ⟨"dnspod", "dns_dp", [⟨"DP_Id", true⟩, ⟨"DP_Key", true⟩], false⟩,
    ⟨"route53", "dns_aws", [⟨"AWS_ACCESS_KEY_ID", true⟩, ⟨"AWS_SECRET_ACCESS_KEY", true⟩,
      ⟨"AWS_SESSION_TOKEN", false⟩], false⟩,
    ⟨"huaweicloud", "dns_huaweicloud", [⟨"HUAWEICLOUD_Username", true⟩,
      ⟨"HUAWEICLOUD_Password", true⟩, ⟨"HUAWEICLOUD_DomainName", true⟩,
      ⟨"HUAWEICLOUD_Region", true⟩], false⟩,
    ⟨"custom", "", [], true⟩]

def getProvider (code : String) : Option Provider := registry.find? fun p => p.code = code

/-- `^[A-Z][A-Z0-9_]*$`. -/
def environmentNamePattern (name : String) : Bool :=
  match name.toList with
  | [] => false
  | first :: rest =>
    ('A' ≤ first && first ≤ 'Z') &&
      rest.all fun c => ('A' ≤ c && c ≤ 'Z') || ('0' ≤ c && c ≤ '9') || c == '_'

/-- `^[A-Za-z_][A-Za-z0-9_]*$`. -/
def processEnvironmentNamePattern (name : String) : Bool :=
  match name.toList with
  | [] => false
  | first :: rest =>
    (('A' ≤ first && first ≤ 'Z') || ('a' ≤ first && first ≤ 'z') || first == '_') &&
      rest.all fun c => ('A' ≤ c && c ≤ 'Z') || ('a' ≤ c && c ≤ 'z') || ('0' ≤ c && c ≤ '9') ||
        c == '_'

/-- `^dns_[a-z0-9_]+$`. -/
def providerCodePattern (code : String) : Bool :=
  match code.toList with
  | 'd' :: 'n' :: 's' :: '_' :: rest =>
    !rest.isEmpty && rest.all fun c => ('a' ≤ c && c ≤ 'z') || ('0' ≤ c && c ≤ '9') || c == '_'
  | _ => false

def forbiddenEnvironmentNames : List String :=
  ["PATH", "HOME", "SHELL", "LD_PRELOAD", "LD_LIBRARY_PATH", "GODEBUG", "HTTP_PROXY",
    "HTTPS_PROXY", "NO_PROXY", "APP_ENCRYPTION_KEY", "ADMIN_PASSWORD", "SESSION_SECRET"]

def validateEnvironmentName (name : String) : Except Error Unit :=
  if !environmentNamePattern name then .error (.new "环境变量名称格式无效")
  else if name.toUpper ∈ forbiddenEnvironmentNames then
    .error (.new "环境变量名称禁止覆盖系统或应用敏感配置")
  else .ok ()

def validateProcessEnvironmentName (name : String) : Except Error Unit :=
  if !processEnvironmentNamePattern name then .error (.new "环境变量名称格式无效")
  else if name.toUpper ∈ forbiddenEnvironmentNames then
    .error (.new "环境变量名称禁止覆盖系统或应用敏感配置")
  else .ok ()

theorem process_of_environment {name : String} (h : validateEnvironmentName name = .ok ()) :
    validateProcessEnvironmentName name = .ok () := by
  have pattern : environmentNamePattern name = true → processEnvironmentNamePattern name = true := by
    unfold environmentNamePattern processEnvironmentNamePattern
    cases name.toList with
    | nil => intro never; cases never
    | cons first rest =>
      intro fits
      obtain ⟨head, tail⟩ := Bool.and_eq_true_iff.mp fits
      refine Bool.and_eq_true_iff.mpr ⟨by simp [head], List.all_eq_true.mpr fun c there => ?_⟩
      have char := List.all_eq_true.mp tail c there
      simp only [Bool.or_eq_true] at char ⊢
      tauto
  unfold validateEnvironmentName at h
  split at h
  · cases h
  · rename_i fits
    rw [validateProcessEnvironmentName, if_neg (by simpa using pattern (by simpa using fits))]
    exact h

theorem field_process {provider : Provider} (known : provider ∈ registry) {field : Field}
    (declared : field ∈ provider.fields) : validateProcessEnvironmentName field.name = .ok () := by
  have all : ∀ p ∈ registry, ∀ f ∈ p.fields, validateProcessEnvironmentName f.name = .ok () := by
    decide +kernel
  exact all provider known field declared

def validateCustomProviderCode (code : String) : Except Error Unit :=
  if !providerCodePattern code then
    .error (.new "acme.sh DNS Provider Code 必须匹配 dns_[a-z0-9_]+")
  else .ok ()

def validateCustomValues : List (Sigma fun _ : String => String) → Except Error Unit
  | [] => .ok ()
  | ⟨name, value⟩ :: rest =>
    match validateEnvironmentName name with
    | .error err => .error err
    | .ok () => if value = "" then .error (.new "凭据值不能为空") else validateCustomValues rest

def validateValues (provider : Provider) (values : StringMap) : Except Error Unit :=
  if provider.custom then validateCustomValues values.entries
  else if provider.fields.any fun field =>
      field.required && decide (trimSpace (values.get field.name) = "") then
    .error (.new "缺少必填 DNS 凭据字段")
  else if values.entries.any fun e => !provider.fields.any fun field => field.name == e.1 then
    .error (.new "DNS 凭据包含 Provider 未声明字段")
  else .ok ()

/-- The loop of `prepare` over the references. -/
def validateReferences (provider : Provider) :
    List (Sigma fun _ : String => String) → Except Error Unit
  | [] => .ok ()
  | ⟨field, environmentName⟩ :: rest =>
    let known :=
      if provider.custom then validateEnvironmentName field
      else if provider.fields.any fun definition => definition.name == field then .ok ()
      else .error (.new "环境引用包含 Provider 未声明字段")
    match known with
    | .error err => .error err
    | .ok () =>
      match validateEnvironmentName environmentName with
      | .error err => .error err
      | .ok () => validateReferences provider rest

/-- `encoding/json` for string maps and string lists. -/
structure Codec where
  encodeMap : StringMap → Bytes
  decodeMap : Bytes → Except Error StringMap
  encodeList : List String → Bytes
  decodeList : Bytes → Except Error (List String)

/-- Decoding inverts encoding; the nil map is `null`, the empty one has two
braces, and no text is empty. -/
structure Codec.Inverts (codec : Codec) : Prop where
  written : ∀ m, codec.encodeMap m ≠ []
  null : codec.encodeMap none = utf8 "null"
  braces : codec.encodeMap (some ∅) = utf8 "\x7b\x7d"
  maps : ∀ m, ∃ m', codec.decodeMap (codec.encodeMap m) = .ok m' ∧ m'.Same m
  lists : ∀ l, codec.decodeList (codec.encodeList l) = .ok l

/-- `cipher.AEAD`. -/
structure Aead where
  nonceSize : Nat
  sealed : (nonce plaintext additionalData : Bytes) → Bytes
  opened : (nonce ciphertext additionalData : Bytes) → Option Bytes

def Aead.Inverts (aead : Aead) : Prop :=
  ∀ nonce plaintext additionalData, nonce.length = aead.nonceSize →
    aead.opened nonce (aead.sealed nonce plaintext additionalData) additionalData = some plaintext

def decrypt (codec : Codec) (aead : Aead) (value : Bytes) : Except Error StringMap :=
  if value.length < aead.nonceSize then .error (.new "加密凭据格式无效")
  else
    match aead.opened (value.take aead.nonceSize) (value.drop aead.nonceSize)
        (utf8 "dns_credentials") with
    | none => .error (.wrap "解密 DNS 凭据失败" (.new "cipher: message authentication failed"))
    | some plaintext => codec.decodeMap plaintext

/-- What `Encrypt` makes of the random bytes it has read. -/
def encrypted (codec : Codec) (aead : Aead) (random : Nat → UInt8) (values : StringMap) : Bytes :=
  let nonce := (List.range aead.nonceSize).map random
  nonce ++ aead.sealed nonce (codec.encodeMap values) (utf8 "dns_credentials")

theorem decrypt_encrypted {codec : Codec} {aead : Aead} (inverts : codec.Inverts)
    (opens : aead.Inverts) (random : Nat → UInt8) (values : StringMap) :
    ∃ m, decrypt codec aead (encrypted codec aead random values) = .ok m ∧ m.Same values := by
  have size : ((List.range aead.nonceSize).map random).length = aead.nonceSize := by simp
  obtain ⟨m, decoded, same⟩ := inverts.maps values
  refine ⟨m, ?_, same⟩
  unfold decrypt encrypted
  rw [if_neg (by rw [List.length_append, size]; omega), List.take_left' size,
    List.drop_left' size, opens _ _ _ size]
  exact decoded

def nullableBytes (value : Bytes) : Option Bytes := if value.length = 0 then none else some value

def nullableJSON (value : Bytes) : Option Bytes :=
  if value = utf8 "null" ∨ value = utf8 "\x7b\x7d" then none else some value

/-- What `scanDNSCredential` makes of the column of the references. -/
def scanRefs (codec : Codec) (column : Option Bytes) : Except Error StringMap :=
  match column with
  | some text => if text = [] then .ok none else codec.decodeMap text
  | none => .ok none

theorem scanRefs_nullableJSON {codec : Codec} (inverts : codec.Inverts) (refs : StringMap) :
    ∃ m, scanRefs codec (nullableJSON (codec.encodeMap refs)) = .ok m ∧ m.Same refs := by
  obtain ⟨m, decoded, same⟩ := inverts.maps refs
  unfold nullableJSON
  split
  · rename_i short
    refine ⟨none, rfl, ?_⟩
    have empty : ∀ m₀, codec.encodeMap m₀ = codec.encodeMap refs → m₀.Same none →
        StringMap.Same none refs := by
      intro m₀ encoded nothing name
      obtain ⟨m₁, decoded₁, same₁⟩ := inverts.maps m₀
      rw [encoded, decoded] at decoded₁
      cases decoded₁
      exact (nothing name).symm.trans ((same₁ name).symm.trans (same name))
    rcases short with null | braces
    · exact empty none (inverts.null.trans null.symm) fun _ => rfl
    · exact empty (some ∅) (inverts.braces.trans braces.symm) fun _ => rfl
  · refine ⟨m, ?_, same⟩
    rw [scanRefs, if_neg (inverts.written refs)]
    exact decoded

end CredentialModel
