import CertMate.AcmeEngine
import CertMate.CredentialRounds

/-!
# What the engine makes of accepted credentials

`Create` and `Update` let through empty values of the declared fields, and a
custom provider without values. The engine starts no process with either.
-/
namespace AcceptedCredentials
open CallTrees UniqueTables CredentialModel CredentialService CredentialContents CredentialRounds
open DomainValidation (trimSpace)
open AcmeEngine (checkVariables checkVariables_ok_iff)

/-- The pairs in the order of one iteration. -/
def pairs (m : StringMap) : List (String × String) := m.entries.map fun e => (e.1, e.2)

/-- There are variables, and the engine starts `acme.sh` with them. -/
def Usable (values : ProcessValues) : Prop :=
  pairs values.environment ≠ [] ∧ checkVariables (pairs values.environment) = .ok ()

theorem usable_iff {values : ProcessValues} :
    Usable values ↔ (∃ name value, values.environment.lookup name = some value) ∧
      ∀ name value, values.environment.lookup name = some value →
        validateProcessEnvironmentName name = .ok () ∧ value ≠ "" := by
  unfold Usable pairs
  rw [checkVariables_ok_iff, List.forall_mem_map]
  constructor
  · rintro ⟨some, all⟩
    constructor
    · obtain ⟨e, there⟩ := List.exists_mem_of_ne_nil _ fun h => some (List.map_eq_nil_iff.mpr h)
      exact ⟨e.1, e.2, StringMap.mem_entries_iff.mp there⟩
    · intro name value found
      exact all ⟨name, value⟩ (StringMap.mem_entries_iff.mpr found)
  · rintro ⟨⟨name, value, found⟩, all⟩
    constructor
    · intro none
      have there := (StringMap.mem_entries_iff (e := ⟨name, value⟩)).mpr found
      rw [List.map_eq_nil_iff.mp none] at there
      cases there
    · exact fun e there => all e.1 e.2 (StringMap.mem_entries_iff.mp there)

/-- The map that a request in its mode brings along. -/
def given (request : CreateRequest) : StringMap :=
  match request.sourceMode with
  | .encrypted => request.values
  | _ => request.environmentRefs

/-- Values that are handed over are there and none of them is empty. -/
def Filled (request : CreateRequest) : Prop :=
  request.sourceMode = .encrypted →
    (∃ name value, request.values.lookup name = some value) ∧
      ∀ name, request.values.lookup name ≠ some ""

/-- The names are fit for a process, and in the mode of references there are some. -/
structure Checked (request : CreateRequest) : Prop where
  names : ∀ name value, (given request).lookup name = some value →
    validateProcessEnvironmentName name = .ok ()
  references : request.sourceMode = .environment →
    ∃ name value, request.environmentRefs.lookup name = some value

section Checks
variable {provider : Provider}

theorem validateCustomValues_names {l : List (Sigma fun _ : String => String)}
    (valid : validateCustomValues l = .ok ()) :
    ∀ e ∈ l, validateProcessEnvironmentName e.1 = .ok () := by
  induction l with
  | nil => exact fun _ there => nomatch there
  | cons e rest ih =>
    obtain ⟨name, value⟩ := e
    unfold validateCustomValues at valid
    split at valid
    · cases valid
    · rename_i named
      split at valid
      · cases valid
      · exact List.forall_mem_cons.mpr ⟨process_of_environment named, ih valid⟩

theorem validateValues_names (known : provider ∈ registry) {values : StringMap}
    (valid : validateValues provider values = .ok ()) :
    ∀ e ∈ values.entries, validateProcessEnvironmentName e.1 = .ok () := by
  unfold validateValues at valid
  split at valid
  · exact validateCustomValues_names valid
  · split at valid
    · cases valid
    · split at valid
      · cases valid
      · rename_i declared
        intro e there
        have among : provider.fields.any (fun field => field.name == e.1) = true := by
          by_contra absent
          exact declared (List.any_eq_true.mpr ⟨e, there, by simp [absent]⟩)
        obtain ⟨field, mem, same⟩ := List.any_eq_true.mp among
        rw [← eq_of_beq same]
        exact field_process known mem

theorem validateReferences_names (known : provider ∈ registry)
    {l : List (Sigma fun _ : String => String)} (valid : validateReferences provider l = .ok ()) :
    ∀ e ∈ l, validateProcessEnvironmentName e.1 = .ok () := by
  induction l with
  | nil => exact fun _ there => nomatch there
  | cons e rest ih =>
    obtain ⟨name, reference⟩ := e
    unfold validateReferences at valid
    simp only at valid
    split at valid
    · cases valid
    · rename_i named
      split at valid
      · cases valid
      · refine List.forall_mem_cons.mpr ⟨?_, ih valid⟩
        split at named
        · exact process_of_environment named
        · split at named
          · rename_i declared
            obtain ⟨field, mem, same⟩ := List.any_eq_true.mp declared
            rw [← eq_of_beq same]
            exact field_process known mem
          · cases named

theorem getProvider_mem {code : String} (found : getProvider code = some provider) :
    provider ∈ registry := List.mem_of_find?_eq_some found

variable {s : Service}

/-- What `prepareSource` returns is a refusal, or the request has been checked. -/
theorem prepareSource_checks (known : provider ∈ registry) (request : CreateRequest) :
    Draws (prepareSource s provider request) fun r => ∀ x, r = .ok x → Checked request := by
  unfold prepareSource
  cases mode : request.sourceMode with
  | encrypted =>
    cases s.cipher with
    | none => exact fun _ h => nomatch h
    | some aead =>
      cases valid : validateValues provider request.values with
      | error err => exact fun _ h => nomatch h
      | ok =>
        have names := validateValues_names known valid
        refine ⟨rfl, fun r _ => ?_⟩
        cases r with
        | error err => exact fun _ h => nomatch h
        | ok random =>
          intro _ _
          refine ⟨fun name value found => ?_, (fun other => nomatch mode.symm.trans other)⟩
          rw [given, mode] at found
          exact names ⟨name, value⟩ (StringMap.mem_entries_iff.mpr found)
  | environment =>
    simp only
    split
    · exact fun _ h => nomatch h
    · rename_i some
      cases valid : validateReferences provider request.environmentRefs.entries with
      | error err => exact fun _ h => nomatch h
      | ok =>
        have names := validateReferences_names known valid
        simp only
        split
        · exact fun _ h => nomatch h
        · intro _ _
          constructor
          · intro name value found
            rw [given, mode] at found
            exact names ⟨name, value⟩ (StringMap.mem_entries_iff.mpr found)
          · intro _
            obtain ⟨e, there⟩ := List.exists_mem_of_ne_nil _ some
            exact ⟨e.1, e.2, StringMap.mem_entries_iff.mp there⟩
  | other name => exact fun _ h => nomatch h

theorem prepare_checks (request : CreateRequest) :
    Draws (prepare s request) fun r => ∀ x, r = .ok x → Checked request := by
  unfold prepare
  simp only
  split
  · exact fun _ h => nomatch h
  · split
    · exact fun _ h => nomatch h
    · rename_i provider found
      split
      · exact fun _ h => nomatch h
      · refine (prepareSource_checks (getProvider_mem found) request).bind fun r checked => ?_
        cases r with
        | error err => exact fun _ h => nomatch h
        | ok prepared => exact fun _ _ => checked prepared rfl

end Checks

section Stored
variable {env : Environment} {s : Service} {w : World}

attribute [local irreducible] trimSpace

/-- An update that is accepted has put its columns in the row of its id. -/
theorem updateDNSCredential_stored {caller : Request} {value stored : Credential}
    {encrypted : CertificateModel.Bytes} {contents : Contents}
    (carries : Carries s (columnsOf s value encrypted) contents)
    (done : (run (exec env) (updateDNSCredential s caller value encrypted) w).1 = .ok stored) :
    ∃ row, (run (exec env) (updateDNSCredential s caller value encrypted) w).2.table.find?
        stored.id = some row ∧ Carries s row.columns contents := by
  revert done
  simp only [updateDNSCredential, Prog.perform_bind, run_call]
  generalize (exec env .now w).1 = updatedAt
  generalize (exec env .now w).2 = clocked
  have written : Carries s (columnsOf s { value with updatedAt := updatedAt } encrypted) contents :=
    ⟨carries.code, carries.masked, carries.refs⟩
  generalize columnsOf s { value with updatedAt := updatedAt } encrypted = columns at written ⊢
  rcases CredentialService.update_cases env clocked caller value.id columns with
    ⟨failed, -, -⟩ | ⟨old, ok, found, replaced, -⟩
  · cases answer : (exec env (.update caller value.id columns) clocked).1 with
    | error err => exact fun h => by cases h
    | ok n =>
      cases failed n answer
      exact fun h => by cases h
  · rw [ok]
    generalize (exec env (.update caller value.id columns) clocked).2 = w' at replaced ⊢
    have row : w'.table.find? value.id = some ⟨value.id, columns, old.createdAt⟩ := by
      rw [Table.find?_replace replaced, if_pos rfl, found]
      rfl
    simp only [dnsCredential, Prog.perform_bind, Prog.call_bind, run_call, exec, row]
    cases env.readFails w'.calls with
    | some err => exact fun h => by cases h
    | none =>
      cases scanned : scanDNSCredential s ⟨value.id, columns, old.createdAt⟩ with
      | error err =>
        simp only [Prog.pure_eq, Prog.ret_bind, scanned]
        exact fun h => by cases h
      | ok read =>
        simp only [Prog.pure_eq, Prog.ret_bind, scanned]
        rintro ⟨⟩
        rw [scan_id scanned]
        exact ⟨_, row, written⟩

/-- Whatever is accepted has been checked, and the row of its id carries it. -/
theorem accepted_stored (inverts : s.codec.Inverts)
    (opens : ∀ aead, s.cipher = some aead → aead.Inverts) {call : Request}
    {request : CreateRequest} (asks : call = .create request ∨ ∃ id, call = .update id request)
    {value : Credential}
    (accepted : (run (exec env) (program s call) w).1 = .ok (some value)) :
    Checked request ∧ ∃ row contents,
      (run (exec env) (program s call) w).2.table.find? value.id = some row ∧
        contentsOf request = some contents ∧ Carries s row.columns contents := by
  have checks := (draws_run env (prepare_checks (s := s) request) w).1
  rcases asks with rfl | ⟨id, rfl⟩
  · rw [program, run_bind] at accepted ⊢
    have checked : Checked request := by
      unfold create at accepted
      rw [run_bind] at accepted
      cases answer : (run (exec env) (prepare s request) w).1 with
      | error err =>
        rw [answer] at accepted
        cases accepted
      | ok prepared => exact checks prepared answer
    refine ⟨checked, ?_⟩
    rcases create_cases env inverts opens request w with
      ⟨err, failed, -⟩ | ⟨stored, row, contents, ok, inserted, numbered, asked, carries⟩
    · rw [failed] at accepted
      cases accepted
    · rw [ok] at accepted ⊢
      cases accepted
      refine ⟨row, contents, ?_, asked, carries⟩
      exact (Table.find?_insert inserted _).trans (if_pos numbered.symm)
  · rw [program, run_bind] at accepted ⊢
    obtain ⟨ready, -⟩ := draws_run env (prepare_draws inverts opens request) w
    unfold update at accepted ⊢
    rw [run_bind] at accepted ⊢
    cases answer : (run (exec env) (prepare s request) w).1 with
    | error err =>
      rw [answer] at accepted
      cases accepted
    | ok prepared =>
      obtain ⟨made, encrypted⟩ := prepared
      rw [answer] at ready accepted
      obtain ⟨-, -, -, contents, asked, carries⟩ := ready made encrypted rfl
      have written : Carries s (columnsOf s { made with id := trimSpace id } encrypted) contents :=
        ⟨carries.code, carries.masked, carries.refs⟩
      refine ⟨checks _ answer, ?_⟩
      dsimp only at accepted ⊢
      cases ended : (run (exec env) (updateDNSCredential s (.update id request)
          { made with id := trimSpace id } encrypted) (run (exec env) (prepare s request) w).2).1 with
      | error err =>
        rw [ended] at accepted
        cases accepted
      | ok stored =>
        rw [ended] at accepted
        cases accepted
        obtain ⟨row, there, holds⟩ := updateDNSCredential_stored written ended
        exact ⟨row, contents, there, asked, holds⟩

theorem resolve_reads {id : String} {values : ProcessValues}
    (resolved : (run (exec env) (resolve s id) w).1 = .ok values) :
    env.readFails w.calls = none := by
  cases reads : env.readFails w.calls with
  | none => rfl
  | some err =>
    unfold resolve dnsCredential at resolved
    simp only [Prog.perform_bind, Prog.call_bind, run_call, exec, reads] at resolved
    cases resolved

end Stored

/-- What `Resolve` answers for a checked request is usable if the request has
filled what it brings along. -/
theorem yields_usable_iff {request : CreateRequest} (checked : Checked request)
    {contents : Contents} (asked : contentsOf request = some contents)
    {processEnv : String → Option String} {values : ProcessValues}
    (yields : Yields contents processEnv (.ok values)) : Usable values ↔ Filled request := by
  obtain ⟨provider, -, source⟩ := Option.bind_eq_some_iff.mp asked
  obtain ⟨source, sourced, rfl⟩ := Option.map_eq_some_iff.mp source
  have names := checked.names
  rw [usable_iff]
  unfold sourceOf at sourced
  cases mode : request.sourceMode with
  | encrypted =>
    rw [mode] at sourced
    cases sourced
    obtain ⟨m, same, found⟩ := yields
    cases same
    have looks : ∀ name, m.lookup name = request.values.lookup name := found
    simp only [given, mode] at names
    simp only [looks, Filled, mode, true_implies]
    refine and_congr_right fun _ => ⟨fun all name empty => (all name "" empty).2 rfl, ?_⟩
    intro full name value there
    exact ⟨names name value there, fun empty => full name (empty ▸ there)⟩
  | environment =>
    rw [mode] at sourced
    cases sourced
    obtain ⟨known, missing⟩ := yields
    have full : ∀ field name, request.environmentRefs.lookup field = some name →
        ∃ value, processEnv name = some value ∧ value ≠ "" := by
      intro field name reference
      have filled : (processEnv name).getD "" ≠ "" := by
        intro empty
        cases missing field name reference empty
      cases found : processEnv name with
      | none =>
        rw [found] at filled
        exact absurd rfl filled
      | some value =>
        rw [found] at filled
        exact ⟨value, rfl, filled⟩
    obtain ⟨m, same, looks⟩ := known full
    cases same
    simp only [given, mode] at names
    refine ⟨(fun _ other => nomatch mode.symm.trans other), fun _ => ⟨?_, ?_⟩⟩
    · obtain ⟨field, name, reference⟩ := checked.references mode
      obtain ⟨value, found, -⟩ := full field name reference
      exact ⟨field, value, (looks field).trans (by rw [reference]; exact found)⟩
    · intro field value there
      cases reference : request.environmentRefs.lookup field with
      | none =>
        rw [looks field, reference] at there
        cases there
      | some name =>
        obtain ⟨value', found, filled⟩ := full field name reference
        rw [looks field, reference] at there
        cases there.symm.trans found
        exact ⟨names field name reference, filled⟩
  | other name =>
    rw [mode] at sourced
    cases sourced

/-- As long as the row of an accepted create or update stands, whatever `Resolve`
returns for it is usable exactly if the request has filled its values. -/
theorem accepted_usable_iff {env later : Environment} {s : Service} (inverts : s.codec.Inverts)
    (opens : ∀ aead, s.cipher = some aead → aead.Inverts) {call : Request}
    {request : CreateRequest} (asks : call = .create request ∨ ∃ id, call = .update id request)
    {w w' : World} {value : Credential}
    (accepted : (run (exec env) (program s call) w).1 = .ok (some value))
    (kept : w'.table.find? value.id =
      (run (exec env) (program s call) w).2.table.find? value.id)
    {values : ProcessValues}
    (resolved : (run (exec later) (resolve s value.id) w').1 = .ok values) :
    Usable values ↔ Filled request := by
  obtain ⟨checked, row, contents, there, asked, carries⟩ := accepted_stored inverts opens asks accepted
  rw [there] at kept
  have numbered : row.id = value.id := Table.key_of_find? kept
  rw [← numbered] at kept resolved
  have yields := resolve_yields later carries kept (resolve_reads resolved)
  rw [resolved] at yields
  exact yields_usable_iff checked asked yields

/-- Values as the pages submit them when an optional field has been cleared. -/
def clearedValues : StringMap :=
  some ((AList.singleton "CF_Token" "new-secret").insert "CF_Zone_ID" "")

def clearedTexts : List (StringMap × CertificateModel.Bytes) :=
  (clearedValues, CertificateModel.utf8
    "\x7b\"CF_Token\":\"new-secret\",\"CF_Zone_ID\":\"\"\x7d") :: sampleTexts

def clearedLists : List (List String × CertificateModel.Bytes) :=
  (["CF_Token", "CF_Zone_ID"], CertificateModel.utf8 "[\"CF_Token\",\"CF_Zone_ID\"]") ::
    sampleLists

def clearedCodec : Codec where
  encodeMap := tabledEncode clearedTexts numberOf
  decodeMap := tabledDecode clearedTexts mapOf
  encodeList := tabledEncode clearedLists Encodable.encode
  decodeList := tabledDecode clearedLists listOf

theorem clearedCodec_inverts : clearedCodec.Inverts := by
  have texts : Readable clearedTexts := ⟨by decide +kernel, by decide +kernel⟩
  have lists : Readable clearedLists := ⟨by decide +kernel, by decide +kernel⟩
  refine ⟨tabledEncode_ne_nil (by decide +kernel), by decide +kernel, by decide +kernel, ?_, ?_⟩
  · exact fun m => ⟨m, tabledDecode_encode texts mapOf_numberOf m, fun _ => rfl⟩
  · exact tabledDecode_encode lists listOf_encode

def clearedService : Service := ⟨clearedCodec, some sampleAead⟩

def clearedRequest : CreateRequest :=
  ⟨"Cloudflare", "cloudflare", "", .encrypted, clearedValues, none⟩

/-- The world after the create. -/
def clearedWorld : World :=
  (run (exec sampleEnvironment) (program clearedService (.create clearedRequest)) sampleWorld).2

theorem cleared_accepted :
    ∃ value, (run (exec sampleEnvironment) (program clearedService (.create clearedRequest))
        sampleWorld).1 = .ok (some value) ∧ value.id = "6d0f8a2c4b1e9d7350fa6b2c8e4d1f03" := by
  have numbered : ((run (exec sampleEnvironment) (program clearedService (.create clearedRequest))
      sampleWorld).1.map fun value => value.map Credential.id) =
        .ok (some "6d0f8a2c4b1e9d7350fa6b2c8e4d1f03") := by
    decide +kernel
  revert numbered
  cases (run (exec sampleEnvironment) (program clearedService (.create clearedRequest))
      sampleWorld).1 with
  | error err => intro never; cases never
  | ok stored =>
    intro numbered
    obtain ⟨value, rfl, same⟩ := Option.map_eq_some_iff.mp (Except.ok.inj numbered)
    exact ⟨value, rfl, same⟩

theorem cleared_resolved :
    (run (exec sampleEnvironment) (resolve clearedService "6d0f8a2c4b1e9d7350fa6b2c8e4d1f03")
      clearedWorld).1 = .ok ⟨"dns_cf", clearedValues⟩ := by
  decide +kernel

theorem accepted_usable_iff_cleared :
    Usable ⟨"dns_cf", clearedValues⟩ ↔ Filled clearedRequest := by
  obtain ⟨value, accepted, numbered⟩ := cleared_accepted
  have opens : ∀ aead, clearedService.cipher = some aead → aead.Inverts := by
    rintro aead ⟨⟩
    exact sampleAead_inverts
  have kept : clearedWorld.table.find? value.id = clearedWorld.table.find? value.id := rfl
  have resolved : (run (exec sampleEnvironment) (resolve clearedService value.id) clearedWorld).1 =
      .ok ⟨"dns_cf", clearedValues⟩ := by
    rw [numbered]
    exact cleared_resolved
  exact accepted_usable_iff clearedCodec_inverts opens (Or.inl rfl) accepted kept resolved

/-- An accepted credential that resolves and that the engine refuses. -/
theorem cleared_field_refused :
    ¬ ∀ value values, (run (exec sampleEnvironment)
        (program clearedService (.create clearedRequest)) sampleWorld).1 = .ok (some value) →
      (run (exec sampleEnvironment) (resolve clearedService value.id) clearedWorld).1 =
        .ok values → Usable values := by
  intro all
  obtain ⟨value, accepted, numbered⟩ := cleared_accepted
  have usable := all value ⟨"dns_cf", clearedValues⟩ accepted (by rw [numbered, cleared_resolved])
  have refused : checkVariables (pairs clearedValues) = .error (.new "DNS Provider 环境变量无效") := by
    decide +kernel
  cases refused.symm.trans usable.2

end AcceptedCredentials
