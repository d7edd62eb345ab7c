import CertMate.CredentialService

/-!
# What a stored credential means

A row carries the code and the values, or the references, that a request has
asked for. `Resolve` gives back what the row carries, whoever has written it.
-/
namespace CredentialContents
open CallTrees UniqueTables CredentialModel CredentialService
open CertificateModel (Bytes Time)
open DomainValidation (trimSpace)
open SqliteStore (zeroTime)

inductive Source where
  | encrypted (values : StringMap)
  | environment (refs : StringMap)
  deriving DecidableEq

structure Contents where
  code : String
  source : Source
  deriving DecidableEq

def sourceOf (request : CreateRequest) : Option Source :=
  match request.sourceMode with
  | .encrypted => some (.encrypted request.values)
  | .environment => some (.environment request.environmentRefs)
  | .other _ => none

/-- What a request asks to be stored. -/
def contentsOf (request : CreateRequest) : Option Contents :=
  (getProvider request.provider).bind fun provider =>
    let code :=
      if provider.custom then trimSpace request.customACMECode else provider.acmeDNSCode
    (sourceOf request).map fun source => ⟨code, source⟩

/-- What `Resolve` has to answer for the contents. -/
def Yields (contents : Contents) (processEnv : String → Option String)
    (result : Except Error ProcessValues) : Prop :=
  match contents.source with
  | .encrypted values => ∃ m, result = .ok ⟨contents.code, m⟩ ∧ StringMap.Same m values
  | .environment refs =>
    ((∀ field name, refs.lookup field = some name →
      ∃ value, processEnv name = some value ∧ value ≠ "") →
      ∃ m : StringMap, result = .ok ⟨contents.code, m⟩ ∧
        ∀ field, m.lookup field = (refs.lookup field).bind processEnv) ∧
    (∀ field name, refs.lookup field = some name → (processEnv name).getD "" = "" →
      result = .error (.new "DNS 凭据引用的环境变量未配置"))

section Service
variable (s : Service)

/-- The columns hold the source, in the mode that is meant for it. -/
def Holds (columns : Columns) (refs : StringMap) : Source → Prop
  | .encrypted values => columns.sourceMode = .encrypted ∧ ∃ aead, s.cipher = some aead ∧
      ∃ m, decrypt s.codec aead (columns.encryptedValues.getD []) = .ok m ∧ m.Same values
  | .environment wanted => columns.sourceMode = .environment ∧ refs.Same wanted

/-- The columns can be read back and hold the contents. -/
structure Carries (columns : Columns) (contents : Contents) : Prop where
  code : columns.acmeDNSCode = contents.code
  masked : ∃ masked, s.codec.decodeList columns.maskedFieldsJSON = .ok masked
  refs : ∃ refs, scanRefs s.codec columns.environmentRefsJSON = .ok refs ∧
    Holds s columns refs contents.source

variable {s}

theorem getD_nullableBytes (value : Bytes) : (nullableBytes value).getD [] = value := by
  unfold nullableBytes
  split
  · rename_i empty
    exact (List.length_eq_zero_iff.mp empty).symm
  · rfl

theorem scan_id {row : Row} {value : Credential} {encrypted : Bytes}
    (scanned : scanDNSCredential s row = .ok (value, encrypted)) : value.id = row.id := by
  unfold scanDNSCredential at scanned
  split at scanned
  · cases scanned
  · split at scanned
    · cases scanned
    · cases scanned
      rfl

/-- What has been scanned from a row is written back as it was. -/
theorem carries_scanned (inverts : s.codec.Inverts) {row : Row} {contents : Contents}
    (h : Carries s row.columns contents) {value : Credential} {encrypted : Bytes}
    (scanned : scanDNSCredential s row = .ok (value, encrypted)) :
    Carries s (columnsOf s value encrypted) contents := by
  obtain ⟨refs, read, holds⟩ := h.refs
  obtain ⟨masked, decoded⟩ := h.masked
  unfold scanDNSCredential at scanned
  rw [read, decoded] at scanned
  cases scanned
  obtain ⟨refs', read', same⟩ := scanRefs_nullableJSON inverts refs
  refine ⟨h.code, ⟨masked, inverts.lists masked⟩, refs', read', ?_⟩
  cases source : contents.source with
  | encrypted values =>
    rw [source] at holds
    obtain ⟨mode, aead, cipher, m, opened, values⟩ := holds
    refine ⟨mode, aead, cipher, m, ?_, values⟩
    rw [columnsOf, getD_nullableBytes]
    exact opened
  | environment wanted =>
    rw [source] at holds
    exact ⟨holds.1, fun name => (same name).trans (holds.2 name)⟩

end Service

section Resolve
variable (env : Environment) {w : World}

/-- Every reference resolved, those of `l` before those already in `environment`. -/
theorem resolveReferences_ok {l : List (Sigma fun _ : String => String)}
    (known : ∀ e ∈ l, ∃ value, w.processEnv e.2 = some value ∧ value ≠ "") (distinct : l.NodupKeys)
    (environment : AList fun _ : String => String) :
    ∃ m, run (exec env) (resolveReferences l environment) w = (.ok m, w) ∧
      ∀ field, m.lookup field = match l.dlookup field with
        | some name => w.processEnv name
        | none => environment.lookup field := by
  induction l generalizing environment with
  | nil => exact ⟨environment, rfl, fun field => rfl⟩
  | cons e rest ih =>
    obtain ⟨first, name⟩ := e
    obtain ⟨value, found, filled⟩ := known _ List.mem_cons_self
    obtain ⟨absent, distinct⟩ := List.nodupKeys_cons.mp distinct
    obtain ⟨m, answer, looks⟩ := ih (fun e he => known e (List.mem_cons_of_mem _ he)) distinct
      (environment.insert first value)
    refine ⟨m, ?_, fun field => ?_⟩
    · simp only [resolveReferences, Prog.perform_bind, run_call, exec]
      rw [found]
      simp only [if_neg filled]
      exact answer
    · rw [looks field]
      by_cases same : field = first
      · subst same
        rw [List.dlookup_cons_eq, List.dlookup_eq_none.mpr absent]
        exact (AList.lookup_insert environment).trans found.symm
      · rw [List.dlookup_cons_ne _ _ same]
        cases rest.dlookup field with
        | some other => rfl
        | none => exact AList.lookup_insert_ne same

theorem resolveReferences_missing {l : List (Sigma fun _ : String => String)}
    (missing : ∃ e ∈ l, (w.processEnv e.2).getD "" = "")
    (environment : AList fun _ : String => String) :
    run (exec env) (resolveReferences l environment) w =
      (.error (.new "DNS 凭据引用的环境变量未配置"), w) := by
  induction l generalizing environment with
  | nil =>
    obtain ⟨e, he, -⟩ := missing
    cases he
  | cons e rest ih =>
    obtain ⟨first, name⟩ := e
    simp only [resolveReferences, Prog.perform_bind, run_call, exec]
    cases found : w.processEnv name with
    | none => rfl
    | some value =>
      by_cases filled : value = ""
      · simp only [if_pos filled]
        rfl
      · simp only [if_neg filled]
        refine ih ?_ _
        obtain ⟨e, he, empty⟩ := missing
        rcases List.mem_cons.mp he with rfl | he
        · rw [found] at empty
          exact absurd empty filled
        · exact ⟨e, he, empty⟩

/-- `Resolve` answers with the contents of the row it finds. -/
theorem resolve_yields {s : Service} {row : Row} {contents : Contents}
    (carries : Carries s row.columns contents) (found : w.table.find? row.id = some row)
    (reads : env.readFails w.calls = none) :
    Yields contents w.processEnv (run (exec env) (resolve s row.id) w).1 := by
  obtain ⟨masked, decoded⟩ := carries.masked
  obtain ⟨refs, scanned, holds⟩ := carries.refs
  have code := carries.code
  unfold resolve dnsCredential
  simp only [Prog.perform_bind, Prog.call_bind, run_call, exec, reads, found, scanDNSCredential,
    scanned, decoded, Prog.pure_eq, Prog.ret_bind]
  cases source : contents.source with
  | encrypted values =>
    rw [source] at holds
    obtain ⟨mode, aead, cipher, m, opened, same⟩ := holds
    simp only [Yields, source, mode, cipher, opened]
    exact ⟨m, by rw [code]; rfl, same⟩
  | environment wanted =>
    rw [source] at holds
    obtain ⟨mode, same⟩ := holds
    simp only [Yields, source, mode, run_bind]
    constructor
    · intro known
      have all : ∀ e ∈ refs.entries, ∃ value, w.processEnv e.2 = some value ∧ value ≠ "" := by
        intro e he
        exact known e.1 e.2 ((same e.1).symm.trans (StringMap.mem_entries_iff.mp he))
      obtain ⟨m, answer, looks⟩ := resolveReferences_ok env (w := w.tick) all
        (StringMap.nodupKeys_entries refs) ∅
      refine ⟨some m, ?_, fun field => (looks field).trans ?_⟩
      · rw [answer, code]
        rfl
      · rw [StringMap.dlookup_entries, same field]
        cases wanted.lookup field with
        | none => exact AList.lookup_empty field
        | some name => rfl
    · intro field name there empty
      have missing : ∃ e ∈ refs.entries, (w.processEnv e.2).getD "" = "" :=
        ⟨⟨field, name⟩, StringMap.mem_entries_iff.mpr ((same field).trans there), empty⟩
      rw [resolveReferences_missing env (w := w.tick) missing ∅]
      rfl

end Resolve

/-- What `prepare` hands on for a request it accepts. -/
structure Prepared (s : Service) (request : CreateRequest) (value : Credential)
    (encrypted : Bytes) : Prop where
  id : value.id = ""
  name : value.name = trimSpace request.name
  createdAt : value.createdAt = zeroTime
  contents : ∃ contents, contentsOf request = some contents ∧
    Carries s (columnsOf s value encrypted) contents

/-- All that is drawn from outside is a nonce. -/
abbrev Draws {β : Type} (p : Operation β) (Q : β → Prop) : Prop :=
  Silent (fun _ _ => True) (fun e => e = .random) p Q

section Prepare
variable {s : Service} {request : CreateRequest} {provider : Provider}

/-- Whatever takes over the mode, the fields and the references carries the
source that is asked for. -/
def Sourced (s : Service) (request : CreateRequest)
    (r : Except Error (Bytes × List String × StringMap)) : Prop :=
  ∀ encrypted masked refs, r = .ok (encrypted, masked, refs) → ∀ value : Credential,
    value.sourceMode = request.sourceMode → value.maskedFields = masked →
    value.environmentRefs = refs → ∃ source, sourceOf request = some source ∧
      Carries s (columnsOf s value encrypted) ⟨value.acmeDNSCode, source⟩

theorem prepareSource_draws (inverts : s.codec.Inverts)
    (opens : ∀ aead, s.cipher = some aead → aead.Inverts) (provider : Provider)
    (request : CreateRequest) :
    Draws (prepareSource s provider request) (Sourced s request) := by
  have refused : ∀ err, Sourced s request (.error err) := fun err _ _ _ h => nomatch h
  unfold prepareSource
  cases mode : request.sourceMode with
  | encrypted =>
    cases cipher : s.cipher with
    | none => exact refused _
    | some aead =>
      cases valid : validateValues provider request.values with
      | error err => exact refused err
      | ok =>
        refine ⟨rfl, fun r _ => ?_⟩
        cases r with
        | error err => exact refused err
        | ok random =>
          rintro _ masked refs ⟨⟩ value known fields none
          refine ⟨.encrypted request.values, by rw [sourceOf, mode], rfl, ?_, ?_⟩
          · exact ⟨_, inverts.lists _⟩
          · obtain ⟨refs, read, -⟩ := scanRefs_nullableJSON inverts value.environmentRefs
            obtain ⟨m, opened, same⟩ :=
              decrypt_encrypted inverts (opens aead cipher) random request.values
            refine ⟨refs, read, known.trans mode, aead, cipher, m, ?_, same⟩
            rw [columnsOf, getD_nullableBytes]
            exact opened
  | environment =>
    by_cases empty : request.environmentRefs.entries = []
    · simp only [if_pos empty]
      exact refused _
    · simp only [if_neg empty]
      cases valid : validateReferences provider request.environmentRefs.entries with
      | error err => exact refused err
      | ok =>
        simp only
        split
        · exact refused _
        · rintro _ masked refs ⟨⟩ value known fields same
          refine ⟨.environment request.environmentRefs, by rw [sourceOf, mode], rfl, ?_, ?_⟩
          · exact ⟨_, inverts.lists _⟩
          · obtain ⟨refs, read, found⟩ := scanRefs_nullableJSON inverts value.environmentRefs
            exact ⟨refs, read, known.trans mode, same ▸ found⟩
  | other name => exact refused _

theorem acmeCode_ok {code : String} (h : acmeCode provider request = .ok code) :
    code = if provider.custom then trimSpace request.customACMECode else provider.acmeDNSCode := by
  unfold acmeCode at h
  split at h
  · rename_i custom
    rw [if_pos custom]
    simp only at h
    split at h
    · cases h
    · cases h
      rfl
  · rename_i custom
    cases h
    rw [if_neg custom]

/-- What `prepare` returns is a refusal or a prepared credential. -/
def Ready (s : Service) (request : CreateRequest) (r : Except Error (Credential × Bytes)) : Prop :=
  ∀ value encrypted, r = .ok (value, encrypted) → Prepared s request value encrypted

theorem prepare_draws (inverts : s.codec.Inverts)
    (opens : ∀ aead, s.cipher = some aead → aead.Inverts) (request : CreateRequest) :
    Draws (prepare s request) (Ready s request) := by
  have refused : ∀ err, Ready s request (.error err) := fun err _ _ h => nomatch h
  unfold prepare
  by_cases short : trimSpace request.name = "" ∨ 100 < (trimSpace request.name).utf8ByteSize
  · simp only [if_pos short]
    exact refused _
  · simp only [if_neg short]
    cases found : getProvider request.provider with
    | none => exact refused _
    | some provider =>
      dsimp only
      cases coded : acmeCode provider request with
      | error err => exact refused err
      | ok code =>
        refine (prepareSource_draws inverts opens provider request).bind fun r sourced => ?_
        cases r with
        | error err => exact refused err
        | ok prepared =>
          obtain ⟨encrypted, masked, refs⟩ := prepared
          rintro value _ ⟨⟩
          refine ⟨rfl, rfl, rfl, ?_⟩
          let value : Credential := ⟨"", trimSpace request.name, provider.code, code,
            request.sourceMode, masked, refs, zeroTime, zeroTime⟩
          obtain ⟨source, asked, carries⟩ := sourced encrypted masked refs rfl value rfl rfl rfl
          refine ⟨⟨code, source⟩, ?_, carries⟩
          rw [contentsOf, found, Option.bind_some, asked, acmeCode_ok coded]
          rfl

end Prepare

end CredentialContents
