import CertMate.CallTrees
import CertMate.CredentialModel
import CertMate.SqliteStore
import CertMate.TimestampOrder
import CertMate.UniqueTables

/-!
# The credential service and its table

`internal/credential/service.go` over the methods of
`internal/store/sqlite/store.go` that write and read `dns_credentials`.
-/
namespace CredentialService
open CallTrees UniqueTables CredentialModel
open CertificateModel (Bytes Time)
open DomainValidation (trimSpace)
open SqliteStore (zeroTime)

/-- What an `UPDATE dns_credentials` sets. -/
structure Columns where
  name : String
  provider : String
  acmeDNSCode : String
  sourceMode : SourceMode
  encryptedValues : Option Bytes
  environmentRefsJSON : Option Bytes
  maskedFieldsJSON : Bytes
  updatedAt : Time
  deriving DecidableEq, Repr

structure Row where
  id : String
  columns : Columns
  createdAt : Time
  deriving DecidableEq, Repr

def Row.name (r : Row) : String := r.columns.name

inductive Request where
  | create (request : CreateRequest)
  | update (id : String) (request : CreateRequest)
  | rename (id name : String)
  | delete (id : String)
  deriving DecidableEq

/-- The row a request is about. -/
def Request.target : Request → Option String
  | .create _ => none
  | .update id _ | .rename id _ => some (trimSpace id)
  | .delete id => some id

/-- An `UPDATE` carries the request it is made for, which only the history of the
state keeps. -/
inductive Eff where
  | random
  | newID
  | now
  | insert (row : Row)
  | update (caller : Request) (id : String) (columns : Columns)
  | select (id : String)
  | delete (id : String)
  | lookup (name : String)
  deriving DecidableEq

abbrev Ans : Eff → Type
  | .random => Except Error (Nat → UInt8)
  | .newID => String
  | .now => Time
  | .insert _ => Except Error Unit
  | .update _ _ _ => Except Error Nat
  | .select _ => Except Error (Option Row)
  | .delete _ => Except Error Nat
  | .lookup _ => Option String

/-- What comes from outside at the `n`-th call. The clock shows a year with four digits, so
that the text of a time is always read back. -/
structure Environment where
  random : Nat → Except Error (Nat → UInt8)
  newID : Nat → String
  clock : Nat → Time
  ordinary : ∀ n, TimestampOrder.Ordinary (clock n)
  readFails : Nat → Option String
  writeFails : Nat → Option String

abbrev CredentialTable := Table Row String String Row.id Row.name

/-- `processEnv` is the environment of the process; `committed` has the callers of
the updates that were carried out, the last first. -/
structure World where
  table : CredentialTable
  processEnv : String → Option String
  committed : List Request
  calls : Nat

def World.tick (w : World) : World := { w with calls := w.calls + 1 }

/-- `CHECK (source_mode IN ('encrypted', 'environment'))`. -/
def knownMode : SourceMode → Bool
  | .encrypted | .environment => true
  | .other _ => false

section Execution
variable (env : Environment)

def exec : (e : Eff) → World → Ans e × World
  | .random, w => (env.random w.calls, w.tick)
  | .newID, w => (env.newID w.calls, w.tick)
  | .now, w => (env.clock w.calls, w.tick)
  | .insert row, w =>
    match env.writeFails w.calls with
    | some err => (.error (.database err), w.tick)
    | none =>
      if knownMode row.columns.sourceMode then
        match w.table.insert row with
        | none => (.error (.database "UNIQUE constraint failed"), w.tick)
        | some table => (.ok (), { w.tick with table := table })
      else (.error (.database "CHECK constraint failed"), w.tick)
  | .update caller id columns, w =>
    match env.writeFails w.calls with
    | some err => (.error (.database err), w.tick)
    | none =>
      match w.table.find? id with
      | none => (.ok 0, w.tick)
      | some old =>
        if knownMode columns.sourceMode then
          match w.table.replace ⟨id, columns, old.createdAt⟩ with
          | none => (.error (.database "UNIQUE constraint failed"), w.tick)
          | some table =>
            (.ok 1, { w.tick with table := table, committed := caller :: w.committed })
        else (.error (.database "CHECK constraint failed"), w.tick)
  | .select id, w =>
    match env.readFails w.calls with
    | some err => (.error (.database err), w.tick)
    | none => (.ok (w.table.find? id), w.tick)
  | .delete id, w =>
    match env.writeFails w.calls with
    | some err => (.error (.database err), w.tick)
    | none =>
      match w.table.find? id with
      | none => (.ok 0, w.tick)
      | some _ => (.ok 1, { w.tick with table := w.table.erase id })
  | .lookup name, w => (w.processEnv name, w)

end Execution

section Statements
variable (env : Environment) (w : World)

theorem insert_cases (row : Row) :
    (∃ err, (exec env (.insert row) w).1 = .error err ∧
        (exec env (.insert row) w).2.table = w.table) ∨
      (exec env (.insert row) w).1 = .ok () ∧
        w.table.insert row = some (exec env (.insert row) w).2.table := by
  simp only [exec]
  split
  · exact Or.inl ⟨_, rfl, rfl⟩
  · split
    · cases inserted : w.table.insert row with
      | none => exact Or.inl ⟨_, rfl, rfl⟩
      | some table => exact Or.inr ⟨rfl, rfl⟩
    · exact Or.inl ⟨_, rfl, rfl⟩

theorem update_cases (caller : Request) (id : String) (columns : Columns) :
    ((∀ n, (exec env (.update caller id columns) w).1 = .ok n → n = 0) ∧
        (exec env (.update caller id columns) w).2.table = w.table ∧
        (exec env (.update caller id columns) w).2.committed = w.committed) ∨
      ∃ old, (exec env (.update caller id columns) w).1 = .ok 1 ∧ w.table.find? id = some old ∧
        w.table.replace ⟨id, columns, old.createdAt⟩ =
          some (exec env (.update caller id columns) w).2.table ∧
        (exec env (.update caller id columns) w).2.committed = caller :: w.committed := by
  simp only [exec]
  split
  · exact Or.inl ⟨(fun _ h => nomatch h), rfl, rfl⟩
  · cases found : w.table.find? id with
    | none => exact Or.inl ⟨(fun _ h => by cases h; rfl), rfl, rfl⟩
    | some old =>
      dsimp only
      split
      · cases replaced : w.table.replace ⟨id, columns, old.createdAt⟩ with
        | none => exact Or.inl ⟨(fun _ h => nomatch h), rfl, rfl⟩
        | some table => exact Or.inr ⟨old, rfl, rfl, replaced, rfl⟩
      · exact Or.inl ⟨(fun _ h => nomatch h), rfl, rfl⟩

theorem delete_cases (id : String) :
    ((∀ n, (exec env (.delete id) w).1 = .ok n → n = 0) ∧
        (exec env (.delete id) w).2.table = w.table) ∨
      (exec env (.delete id) w).1 = .ok 1 ∧
        (exec env (.delete id) w).2.table = w.table.erase id := by
  simp only [exec]
  split
  · exact Or.inl ⟨(fun _ h => nomatch h), rfl⟩
  · split
    · exact Or.inl ⟨(fun _ h => by cases h; rfl), rfl⟩
    · exact Or.inr ⟨rfl, rfl⟩

end Statements

abbrev Operation (α : Type) := Prog Eff Ans α

structure Service where
  codec : Codec
  cipher : Option Aead

variable (s : Service)

def columnsOf (value : Credential) (encrypted : Bytes) : Columns where
  name := value.name
  provider := value.provider
  acmeDNSCode := value.acmeDNSCode
  sourceMode := value.sourceMode
  encryptedValues := nullableBytes encrypted
  environmentRefsJSON := nullableJSON (s.codec.encodeMap value.environmentRefs)
  maskedFieldsJSON := s.codec.encodeList value.maskedFields
  updatedAt := value.updatedAt

/-- The texts of `created_at` and `updated_at` were written from the clock. It is taken to show
a year of four digits, so they are read back as they were and are no source of errors. -/
def scanDNSCredential (row : Row) : Except Error (Credential × Bytes) :=
  match scanRefs s.codec row.columns.environmentRefsJSON with
  | .error err => .error err
  | .ok refs =>
    match s.codec.decodeList row.columns.maskedFieldsJSON with
    | .error err => .error err
    | .ok masked =>
      .ok (⟨row.id, row.columns.name, row.columns.provider, row.columns.acmeDNSCode,
        row.columns.sourceMode, masked, refs, row.createdAt, row.columns.updatedAt⟩,
        row.columns.encryptedValues.getD [])

def dnsCredential (id : String) : Operation (Except Error (Credential × Bytes)) := do
  match ← Prog.perform (Eff.select id) with
  | .error err => return .error err
  | .ok none => return .error .notFound
  | .ok (some row) => return scanDNSCredential s row

def createDNSCredential (value : Credential) (encrypted : Bytes) :
    Operation (Except Error Credential) := do
  let id ← if value.id = "" then Prog.perform Eff.newID else pure value.id
  let createdAt ← if value.createdAt = zeroTime then Prog.perform Eff.now else pure value.createdAt
  let value := { value with
    id := id
    createdAt := createdAt
    updatedAt := createdAt }
  match ← Prog.perform (Eff.insert ⟨value.id, columnsOf s value encrypted, value.createdAt⟩) with
  | .error err => return .error (.wrap "创建 DNS 凭据" err)
  | .ok () => return .ok value

def updateDNSCredential (caller : Request) (value : Credential) (encrypted : Bytes) :
    Operation (Except Error Credential) := do
  let updatedAt ← Prog.perform Eff.now
  let value := { value with updatedAt := updatedAt }
  match ← Prog.perform (Eff.update caller value.id (columnsOf s value encrypted)) with
  | .error err => return .error (.wrap "更新 DNS 凭据" err)
  | .ok 0 => return .error .notFound
  | .ok _ =>
    match ← dnsCredential s value.id with
    | .error err => return .error err
    | .ok (stored, _) => return .ok stored

def deleteDNSCredential (id : String) : Operation (Except Error Unit) := do
  match ← Prog.perform (Eff.delete id) with
  | .error err => return .error err
  | .ok 0 => return .error .notFound
  | .ok _ => return .ok ()

/-- The part of `prepare` that depends on the mode: the ciphertext, the masked
fields and the references. -/
def prepareSource (provider : Provider) (request : CreateRequest) :
    Operation (Except Error (Bytes × List String × StringMap)) := do
  match request.sourceMode with
  | .encrypted =>
    match s.cipher with
    | none => return .error (.new "DNS 凭据加密服务不可用")
    | some aead =>
      match validateValues provider request.values with
      | .error err => return .error err
      | .ok () =>
        match ← Prog.perform Eff.random with
        | .error err => return .error err
        | .ok random =>
          return .ok (encrypted s.codec aead random request.values,
            request.values.sortedKeys, none)
  | .environment =>
    if request.environmentRefs.entries = [] then return .error (.new "环境变量引用不能为空")
    else
      match validateReferences provider request.environmentRefs.entries with
      | .error err => return .error err
      | .ok () =>
        if !provider.custom && provider.fields.any fun field => field.required &&
            decide (trimSpace (request.environmentRefs.get field.name) = "") then
          return .error (.new "缺少必填 DNS 凭据环境引用")
        else return .ok ([], request.environmentRefs.sortedKeys, request.environmentRefs)
  | .other _ => return .error (.new "DNS 凭据来源模式无效")

/-- The code that acme.sh gets for the provider. -/
def acmeCode (provider : Provider) (request : CreateRequest) : Except Error String :=
  if provider.custom then
    let code := trimSpace request.customACMECode
    match validateCustomProviderCode code with
    | .error err => .error err
    | .ok () => .ok code
  else .ok provider.acmeDNSCode

def prepare (request : CreateRequest) : Operation (Except Error (Credential × Bytes)) := do
  let name := trimSpace request.name
  if name = "" ∨ 100 < name.utf8ByteSize then return .error (.new "DNS 凭据名称长度无效")
  else
    match getProvider request.provider with
    | none => return .error (.new "不支持的 DNS Provider")
    | some provider =>
      match acmeCode provider request with
      | .error err => return .error err
      | .ok code =>
        match ← prepareSource s provider request with
        | .error err => return .error err
        | .ok (encrypted, masked, refs) =>
          return .ok (⟨"", name, provider.code, code, request.sourceMode, masked, refs,
            zeroTime, zeroTime⟩, encrypted)

def create (request : CreateRequest) : Operation (Except Error Credential) := do
  match ← prepare s request with
  | .error err => return .error err
  | .ok (value, encrypted) => createDNSCredential s value encrypted

def update (id : String) (request : CreateRequest) : Operation (Except Error Credential) := do
  match ← prepare s request with
  | .error err => return .error err
  | .ok (value, encrypted) =>
    updateDNSCredential s (.update id request) { value with id := trimSpace id } encrypted

def rename (id newName : String) : Operation (Except Error Credential) := do
  let name := trimSpace newName
  if name = "" ∨ 100 < name.utf8ByteSize then return .error (.new "DNS 凭据名称长度无效")
  else
    match ← dnsCredential s (trimSpace id) with
    | .error err => return .error err
    | .ok (value, encrypted) =>
      updateDNSCredential s (.rename id newName) { value with name := name } encrypted

def delete (id : String) : Operation (Except Error Unit) := deleteDNSCredential id

/-- The loop of `Resolve` over the references. -/
def resolveReferences : List (Sigma fun _ : String => String) →
    AList (fun _ : String => String) →
    Operation (Except Error (AList fun _ : String => String))
  | [], environment => return .ok environment
  | ⟨field, environmentName⟩ :: rest, environment => do
    match ← Prog.perform (Eff.lookup environmentName) with
    | none => return .error (.new "DNS 凭据引用的环境变量未配置")
    | some resolved =>
      if resolved = "" then return .error (.new "DNS 凭据引用的环境变量未配置")
      else resolveReferences rest (environment.insert field resolved)

def resolve (id : String) : Operation (Except Error ProcessValues) := do
  match ← dnsCredential s id with
  | .error err => return .error err
  | .ok (value, encrypted) =>
    match value.sourceMode with
    | .encrypted =>
      match s.cipher with
      | none => return .error .panicked
      | some aead =>
        match decrypt s.codec aead encrypted with
        | .error err => return .error err
        | .ok environment => return .ok ⟨value.acmeDNSCode, environment⟩
    | .environment =>
      match ← resolveReferences value.environmentRefs.entries ∅ with
      | .error err => return .error err
      | .ok environment => return .ok ⟨value.acmeDNSCode, some environment⟩
    | .other _ => return .error (.new "DNS 凭据来源模式无效")

end CredentialService
