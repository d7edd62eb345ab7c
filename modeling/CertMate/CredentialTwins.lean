import CertMate.CredentialHandlers
import CertMate.CredentialRounds
import CertMate.TableViews
import CertMate.TwinRuns

/-!
# What the handlers tell of a secret

Two runs that differ in the values of the credentials and of the environment of
the process, but not in which of them are empty or blank, have the same
responses, audit events and log lines, and the same table but for the ciphertexts.
The requests are decoded bodies, so other values stay within `maxCertificateBody`
in both runs.
-/
namespace CredentialTwins
open CallTrees ThreadPools UniqueTables TableViews TwinRuns
open CredentialModel CredentialHandlers
open CertificateModel (Bytes Time)
open CredentialService (Columns Row Service columnsOf)
open DomainValidation (trimSpace)

/-- All that the checks look at in a value. -/
def shape (e : Sigma fun _ : String => String) : String × Bool × Bool :=
  (e.1, decide (e.2 = ""), decide (trimSpace e.2 = ""))

/-- The same fields, empty and blank in the same places. -/
def Masked (m m' : StringMap) : Prop := (m.entries.map shape).Perm (m'.entries.map shape)

instance decidableMasked (m m' : StringMap) : Decidable (Masked m m') :=
  inferInstanceAs (Decidable ((m.entries.map shape).Perm (m'.entries.map shape)))

/-- The same request for other values. -/
structure Disguised (request request' : CreateRequest) : Prop where
  name : request'.name = request.name
  provider : request'.provider = request.provider
  customACMECode : request'.customACMECode = request.customACMECode
  sourceMode : request'.sourceMode = request.sourceMode
  environmentRefs : request'.environmentRefs = request.environmentRefs
  values : Masked request.values request'.values

/-- The request with other bodies. -/
def rewritten (f : CreateRequest → CreateRequest) (request : Request) : Request where
  clientIP := request.clientIP
  route :=
    match request.route with
    | .createDNSCredential body => .createDNSCredential (body.map f)
    | .updateDNSCredential id body => .updateDNSCredential id (body.map f)
    | route => route

theorem trimSpace_empty : trimSpace "" = "" := by simp [trimSpace]

-- A goal about a value is otherwise reduced as far as the texts in it go.
attribute [local irreducible] trimSpace

theorem blank_iff (m : StringMap) (field : String) :
    trimSpace (m.get field) = "" ↔ ∀ e ∈ m.entries, e.1 = field → trimSpace e.2 = "" := by
  rw [StringMap.get]
  constructor
  · rintro blank ⟨_, value⟩ there rfl
    rw [StringMap.mem_entries_iff.mp there] at blank
    exact blank
  · intro blank
    cases found : m.lookup field with
    | none => exact trimSpace_empty
    | some value =>
      have there : (⟨field, value⟩ : Sigma fun _ : String => String) ∈ m.entries :=
        StringMap.mem_entries_iff.mpr found
      exact blank _ there rfl

theorem validateCustomValues_cases (l : List (Sigma fun _ : String => String)) :
    (CredentialModel.validateCustomValues l = .ok () ∧
        ∀ e ∈ l, validateEnvironmentName e.1 = .ok () ∧ e.2 ≠ "") ∨
      ∃ text, CredentialModel.validateCustomValues l = .error (.new text) ∧
        ∃ e ∈ l, validateEnvironmentName e.1 ≠ .ok () ∨ e.2 = "" := by
  induction l with
  | nil => exact Or.inl ⟨rfl, by simp⟩
  | cons e rest ih =>
    obtain ⟨name, value⟩ := e
    simp only [validateCustomValues]
    cases named : validateEnvironmentName name with
    | error err =>
      obtain ⟨text, rfl⟩ : ∃ text, err = .new text := by
        unfold validateEnvironmentName at named
        split at named
        · exact ⟨_, (Except.error.inj named).symm⟩
        · split at named
          · exact ⟨_, (Except.error.inj named).symm⟩
          · cases named
      exact Or.inr ⟨text, rfl, _, List.mem_cons_self, Or.inl (by simp [named])⟩
    | ok =>
      by_cases empty : value = ""
      · exact Or.inr ⟨_, if_pos empty, _, List.mem_cons_self, Or.inr empty⟩
      · simp only [if_neg empty]
        rcases ih with ⟨ok, all⟩ | ⟨text, refused, e, there, bad⟩
        · refine Or.inl ⟨ok, ?_⟩
          simpa [named, empty] using all
        · exact Or.inr ⟨text, refused, e, List.mem_cons_of_mem _ there, bad⟩

section Values
variable {m m' : StringMap} (h : Masked m m')
include h

theorem Masked.symm : Masked m' m := List.Perm.symm h

theorem Masked.keys : (m.entries.map Sigma.fst).Perm (m'.entries.map Sigma.fst) := by
  have first : ∀ m : StringMap, m.entries.map Sigma.fst = (m.entries.map shape).map Prod.fst := by
    intro m
    simp [shape, Function.comp_def]
  rw [first, first]
  exact List.Perm.map _ h

theorem Masked.sortedKeys : m.sortedKeys = m'.sortedKeys := by
  unfold StringMap.sortedKeys
  refine List.Perm.eq_of_pairwise (fun a b _ _ => le_antisymm) (List.pairwise_insertionSort _ _)
    (List.pairwise_insertionSort _ _) ?_
  exact (List.perm_insertionSort _ _).trans (h.keys.trans (List.perm_insertionSort _ _).symm)

/-- An entry has a counterpart under the same name. -/
theorem Masked.counterpart {e : Sigma fun _ : String => String} (there : e ∈ m.entries) :
    ∃ e' ∈ m'.entries, e'.1 = e.1 ∧ (e'.2 = "" ↔ e.2 = "") ∧
      (trimSpace e'.2 = "" ↔ trimSpace e.2 = "") := by
  obtain ⟨e', there', same⟩ := List.mem_map.mp (h.mem_iff.mp (List.mem_map_of_mem there))
  simp only [shape, Prod.mk.injEq, decide_eq_decide] at same
  exact ⟨e', there', same.1, same.2.1, same.2.2⟩

theorem Masked.blank {field : String} (blank : trimSpace (m.get field) = "") :
    trimSpace (m'.get field) = "" := by
  rw [blank_iff] at blank ⊢
  intro e there named
  obtain ⟨e', there', named', -, same⟩ := h.symm.counterpart there
  exact same.mp (blank e' there' (named'.trans named))

/-- Whether the values are valid does not depend on what they are. -/
theorem Masked.validateValues (provider : Provider) :
    validateValues provider m = validateValues provider m' ∨
      ∃ text text', validateValues provider m = .error (.new text) ∧
        validateValues provider m' = .error (.new text') := by
  unfold CredentialModel.validateValues
  split
  · rcases validateCustomValues_cases m.entries with ⟨ok, all⟩ | ⟨text, refused, e, there, bad⟩
    · rcases validateCustomValues_cases m'.entries with ⟨ok', -⟩ | ⟨-, -, e, there, bad⟩
      · exact Or.inl (ok.trans ok'.symm)
      · obtain ⟨e', there', named, empty, -⟩ := h.symm.counterpart there
        obtain ⟨known, filled⟩ := all e' there'
        rw [← named, ← empty] at bad
        exact absurd bad (by simp [known, filled])
    · rcases validateCustomValues_cases m'.entries with ⟨-, all⟩ | ⟨text', refused', -⟩
      · obtain ⟨e', there', named, empty, -⟩ := h.counterpart there
        obtain ⟨known, filled⟩ := all e' there'
        rw [← named, ← empty] at bad
        exact absurd bad (by simp [known, filled])
      · exact Or.inr ⟨text, text', refused, refused'⟩
  · refine Or.inl ?_
    have blanks : ∀ field, (trimSpace (m.get field) = "") = (trimSpace (m'.get field) = "") :=
      fun field => propext ⟨h.blank, h.symm.blank⟩
    have names : ∀ P : String → Bool,
        m.entries.any (fun e => P e.1) = m'.entries.any fun e => P e.1 := by
      intro P
      have keys := h.keys.any_eq (f := P)
      simpa only [List.any_map, Function.comp_def] using keys
    simp only [blanks, names fun name => !provider.fields.any fun field => field.name == name]

end Values

section Stored
variable (s : Service)

/-- What comes of opening a ciphertext. -/
def fault (encrypted : Bytes) : Option Error :=
  match s.cipher with
  | none => some .panicked
  | some aead =>
    match decrypt s.codec aead encrypted with
    | .ok _ => none
    | .error err => some err

def veiled (columns : Columns) : Columns × Option Error :=
  ({ columns with encryptedValues := none }, fault s (columns.encryptedValues.getD []))

/-- All of a row but its ciphertext, of which there is only whether it opens. -/
def shown (row : Row) : String × (Columns × Option Error) × Time :=
  (row.id, veiled s row.columns, row.createdAt)

theorem shows : Shows Row.id Row.name (shown s) where
  key := ⟨fun o => o.1, fun _ => rfl⟩
  name := ⟨fun o => o.2.1.1.name, fun _ => rfl⟩

end Stored

/-- Alike results, or the same error. -/
inductive Same {α : Type} (Q : α → α → Prop) : Except Error α → Except Error α → Prop
  | ok {a a' : α} (alike : Q a a') : Same Q (.ok a) (.ok a')
  | error (err : Error) : Same Q (.error err) (.error err)

/-- Alike results, the same error, or refusals that differ in their texts. -/
inductive Agree {α : Type} (Q : α → α → Prop) : Except Error α → Except Error α → Prop
  | ok {a a' : α} (alike : Q a a') : Agree Q (.ok a) (.ok a')
  | same (err : Error) : Agree Q (.error err) (.error err)
  | refused (text text' : String) : Agree Q (.error (.new text)) (.error (.new text'))

theorem Same.agree {α : Type} {Q : α → α → Prop} {r r' : Except Error α} (h : Same Q r r') :
    Agree Q r r' := by
  cases h with
  | ok alike => exact .ok alike
  | error err => exact .same err

section Calls
variable (s : Service)

inductive ServiceCalls : CredentialService.Eff → CredentialService.Eff → Prop
  | same (e : CredentialService.Eff) : ServiceCalls e e
  | insert {row row' : Row} (alike : shown s row = shown s row') :
      ServiceCalls (.insert row) (.insert row')
  | update {caller caller' : CredentialService.Request} {id : String} {columns columns' : Columns}
      (alike : veiled s columns = veiled s columns') :
      ServiceCalls (.update caller id columns) (.update caller' id columns')

def ServiceAnswers : (e e' : CredentialService.Eff) → CredentialService.Ans e →
    CredentialService.Ans e' → Prop
  | .random, .random, r, r' => r = r'
  | .newID, .newID, r, r' => r = r'
  | .now, .now, r, r' => r = r'
  | .insert _, .insert _, r, r' => r = r'
  | .update _ _ _, .update _ _ _, r, r' => r = r'
  | .select _, .select _, r, r' => r.map (Option.map (shown s)) = r'.map (Option.map (shown s))
  | .delete _, .delete _, r, r' => r = r'
  | .lookup _, .lookup _, r, r' =>
    r.map (fun value => decide (value = "")) = r'.map fun value => decide (value = "")
  | _, _, _, _ => False

/-- Two operations that call alike and come to alike results. -/
abbrev InStep {α : Type} (Q : α → α → Prop)
    (p p' : CredentialService.Operation (Except Error α)) : Prop :=
  Twin (ServiceCalls s) (ServiceAnswers s) (Agree Q) p p'

/-- Two operations that call alike and differ in nothing but what they find. -/
abbrev Exactly {α : Type} (Q : α → α → Prop)
    (p p' : CredentialService.Operation (Except Error α)) : Prop :=
  Twin (ServiceCalls s) (ServiceAnswers s) (Same Q) p p'

/-- A credential with its ciphertext, or one that opens as well. -/
def Stored (v v' : Credential × Bytes) : Prop := v.1 = v'.1 ∧ fault s v.2 = fault s v'.2

/-- What `prepare` makes of the mode, up to the ciphertext. -/
def Sourced (v v' : Bytes × List String × StringMap) : Prop :=
  fault s v.1 = fault s v'.1 ∧ v.2 = v'.2

variable {s}

/-- Operations that pass an error on. -/
theorem inStep_bind {α β : Type} {Q : α → α → Prop} {Q' : β → β → Prop}
    {p p' : CredentialService.Operation (Except Error α)}
    {f f' : Except Error α → CredentialService.Operation (Except Error β)} (h : InStep s Q p p')
    (errs : ∀ err, f (.error err) = .ret (.error err))
    (errs' : ∀ err, f' (.error err) = .ret (.error err))
    (next : ∀ a a', Q a a' → InStep s Q' (f (.ok a)) (f' (.ok a'))) :
    InStep s Q' (p >>= f) (p' >>= f') := by
  refine h.bind fun r r' agree => ?_
  cases agree with
  | ok alike => exact next _ _ alike
  | same err =>
    rw [errs, errs']
    exact .ret (.same err)
  | refused text text' =>
    rw [errs, errs']
    exact .ret (.refused text text')

theorem scan_same {row row' : Row} (alike : shown s row = shown s row') :
    Same (Stored s) (CredentialService.scanDNSCredential s row)
      (CredentialService.scanDNSCredential s row') := by
  obtain ⟨id, columns, createdAt⟩ := row
  obtain ⟨id', columns', createdAt'⟩ := row'
  obtain ⟨name, provider, code, mode, encrypted, refs, masked, updatedAt⟩ := columns
  obtain ⟨name', provider', code', mode', encrypted', refs', masked', updatedAt'⟩ := columns'
  simp only [shown, veiled, Prod.mk.injEq, Columns.mk.injEq] at alike
  obtain ⟨rfl, ⟨⟨rfl, rfl, rfl, rfl, -, rfl, rfl, rfl⟩, same⟩, rfl⟩ := alike
  simp only [CredentialService.scanDNSCredential]
  cases scanRefs s.codec refs with
  | error err => exact .error err
  | ok refs =>
    cases s.codec.decodeList masked with
    | error err => exact .error err
    | ok masked => exact .ok ⟨rfl, same⟩

theorem dnsCredential_exactly (id : String) :
    Exactly s (Stored s) (CredentialService.dnsCredential s id)
      (CredentialService.dnsCredential s id) := by
  refine .call (.same _) fun r r' alike => ?_
  change Except.map _ r = Except.map _ r' at alike
  cases r with
  | error err =>
    cases r' with
    | error err' =>
      cases alike
      exact .ret (.error err)
    | ok found => cases alike
  | ok found =>
    cases r' with
    | error err => cases alike
    | ok found' =>
      have alike := Except.ok.inj alike
      cases found with
      | none =>
        cases found' with
        | none => exact .ret (.error .notFound)
        | some row => cases alike
      | some row =>
        cases found' with
        | none => cases alike
        | some row' => exact .ret (scan_same (Option.some.inj alike))

theorem dnsCredential_inStep (id : String) :
    InStep s (Stored s) (CredentialService.dnsCredential s id)
      (CredentialService.dnsCredential s id) :=
  (dnsCredential_exactly id).mono fun _ _ => Same.agree

theorem veiled_columnsOf (value : Credential) {encrypted encrypted' : Bytes}
    (same : fault s encrypted = fault s encrypted') :
    veiled s (columnsOf s value encrypted) = veiled s (columnsOf s value encrypted') := by
  simp [veiled, columnsOf, CredentialContents.getD_nullableBytes, same]

/-- An insert of the credential with either ciphertext, and what is returned of it. -/
theorem insert_inStep {encrypted encrypted' : Bytes} (same : fault s encrypted = fault s encrypted')
    {id : String} {value : Credential} {createdAt : Time}
    {f f' : Except Error Unit → CredentialService.Operation (Except Error Credential)}
    (errs : ∀ err, f (.error err) = .ret (.error (.wrap "创建 DNS 凭据" err)))
    (errs' : ∀ err, f' (.error err) = .ret (.error (.wrap "创建 DNS 凭据" err)))
    (ok : f (.ok ()) = .ret (.ok value)) (ok' : f' (.ok ()) = .ret (.ok value)) :
    InStep s Eq
      (Prog.perform (CredentialService.Eff.insert ⟨id, columnsOf s value encrypted, createdAt⟩) >>= f)
      (Prog.perform
        (CredentialService.Eff.insert ⟨id, columnsOf s value encrypted', createdAt⟩) >>= f') := by
  have alike : shown s ⟨id, columnsOf s value encrypted, createdAt⟩ =
      shown s ⟨id, columnsOf s value encrypted', createdAt⟩ := by
    simp only [shown, veiled_columnsOf _ same]
  refine (twin_perform (.insert alike)).bind ?_
  rintro r _ rfl
  cases r with
  | error err =>
    rw [errs, errs']
    exact .ret (.same _)
  | ok =>
    rw [ok, ok']
    exact .ret (.ok rfl)

theorem createDNSCredential_inStep (value : Credential) {encrypted encrypted' : Bytes}
    (same : fault s encrypted = fault s encrypted') :
    InStep s Eq (CredentialService.createDNSCredential s value encrypted)
      (CredentialService.createDNSCredential s value encrypted') := by
  unfold CredentialService.createDNSCredential
  by_cases new : value.id = ""
  · simp only [if_pos new]
    refine (twin_perform (.same _)).bind ?_
    rintro id _ rfl
    by_cases undated : value.createdAt = SqliteStore.zeroTime
    · simp only [if_pos undated]
      refine (twin_perform (.same _)).bind ?_
      rintro createdAt _ rfl
      exact insert_inStep same (fun _ => rfl) (fun _ => rfl) rfl rfl
    · simp only [if_neg undated]
      exact insert_inStep same (fun _ => rfl) (fun _ => rfl) rfl rfl
  · simp only [if_neg new]
    by_cases undated : value.createdAt = SqliteStore.zeroTime
    · simp only [if_pos undated]
      refine (twin_perform (.same _)).bind ?_
      rintro createdAt _ rfl
      exact insert_inStep same (fun _ => rfl) (fun _ => rfl) rfl rfl
    · simp only [if_neg undated]
      exact insert_inStep same (fun _ => rfl) (fun _ => rfl) rfl rfl

theorem updateDNSCredential_inStep (caller caller' : CredentialService.Request) (value : Credential)
    {encrypted encrypted' : Bytes} (same : fault s encrypted = fault s encrypted') :
    InStep s Eq (CredentialService.updateDNSCredential s caller value encrypted)
      (CredentialService.updateDNSCredential s caller' value encrypted') := by
  unfold CredentialService.updateDNSCredential
  refine (twin_perform (.same _)).bind ?_
  rintro updatedAt _ rfl
  refine (twin_perform (.update (veiled_columnsOf _ same))).bind ?_
  rintro r _ rfl
  cases r with
  | error err => exact .ret (.same _)
  | ok count =>
    cases count with
    | zero => exact .ret (.same _)
    | succ n =>
      dsimp only
      refine inStep_bind (dnsCredential_inStep _) (fun _ => rfl) (fun _ => rfl) ?_
      rintro ⟨stored, _⟩ ⟨_, _⟩ ⟨rfl, -⟩
      exact .ret (.ok rfl)

end Calls

section Operations
variable {s : Service} {request request' : CreateRequest}

theorem fault_encrypted (inverts : s.codec.Inverts) {aead : Aead} (cipher : s.cipher = some aead)
    (opens : aead.Inverts) (random : Nat → UInt8) (values : StringMap) :
    fault s (encrypted s.codec aead random values) = none := by
  obtain ⟨m, opened, -⟩ := decrypt_encrypted inverts opens random values
  simp only [fault, cipher, opened]

variable (inverts : s.codec.Inverts) (opens : ∀ aead, s.cipher = some aead → aead.Inverts)
include inverts opens

theorem prepareSource_inStep (provider : Provider) (h : Disguised request request') :
    InStep s (Sourced s) (CredentialService.prepareSource s provider request)
      (CredentialService.prepareSource s provider request') := by
  unfold CredentialService.prepareSource
  rw [h.sourceMode, h.environmentRefs]
  cases request.sourceMode with
  | encrypted =>
    cases cipher : s.cipher with
    | none => exact .ret (.same _)
    | some aead =>
      dsimp only
      rcases h.values.validateValues provider with same | ⟨text, text', refused, refused'⟩
      · rw [← same]
        cases validateValues provider request.values with
        | error err => exact .ret (.same _)
        | ok =>
          refine (twin_perform (.same _)).bind ?_
          rintro r _ rfl
          cases r with
          | error err => exact .ret (.same _)
          | ok random =>
            refine .ret (.ok ⟨?_, ?_⟩)
            · simp only [fault_encrypted inverts cipher (opens aead cipher)]
            · simp only [h.values.sortedKeys]
      · rw [refused, refused']
        exact .ret (.refused _ _)
  | environment =>
    dsimp only
    split
    · exact .ret (.same _)
    · cases validateReferences provider request.environmentRefs.entries with
      | error err => exact .ret (.same _)
      | ok =>
        dsimp only
        split
        · exact .ret (.same _)
        · exact .ret (.ok ⟨rfl, rfl⟩)
  | other mode => exact .ret (.same _)

theorem prepare_inStep (h : Disguised request request') :
    InStep s (Stored s) (CredentialService.prepare s request)
      (CredentialService.prepare s request') := by
  have codes : ∀ provider, CredentialService.acmeCode provider request' =
      CredentialService.acmeCode provider request := by
    intro provider
    simp only [CredentialService.acmeCode, h.customACMECode]
  unfold CredentialService.prepare
  simp only [h.name, h.provider, h.sourceMode, codes]
  split
  · exact .ret (.same _)
  · cases getProvider request.provider with
    | none => exact .ret (.same _)
    | some provider =>
      dsimp only
      cases CredentialService.acmeCode provider request with
      | error err => exact .ret (.same _)
      | ok code =>
        refine inStep_bind (prepareSource_inStep inverts opens provider h) (fun _ => rfl)
          (fun _ => rfl) ?_
        rintro ⟨encrypted, _⟩ ⟨encrypted', masked, refs⟩ ⟨same, rfl⟩
        exact .ret (.ok ⟨rfl, same⟩)

theorem create_inStep (h : Disguised request request') :
    InStep s Eq (CredentialService.create s request) (CredentialService.create s request') := by
  refine inStep_bind (prepare_inStep inverts opens h) (fun _ => rfl) (fun _ => rfl) ?_
  rintro ⟨value, encrypted⟩ ⟨_, encrypted'⟩ ⟨rfl, same⟩
  exact createDNSCredential_inStep value same

theorem update_inStep (id : String) (h : Disguised request request') :
    InStep s Eq (CredentialService.update s id request) (CredentialService.update s id request') := by
  refine inStep_bind (prepare_inStep inverts opens h) (fun _ => rfl) (fun _ => rfl) ?_
  rintro ⟨value, encrypted⟩ ⟨_, encrypted'⟩ ⟨rfl, same⟩
  exact updateDNSCredential_inStep _ _ _ same

omit inverts opens in
theorem rename_inStep (id name : String) :
    InStep s Eq (CredentialService.rename s id name) (CredentialService.rename s id name) := by
  unfold CredentialService.rename
  dsimp only
  split
  · exact .ret (.same _)
  · refine inStep_bind (dnsCredential_inStep _) (fun _ => rfl) (fun _ => rfl) ?_
    rintro ⟨value, encrypted⟩ ⟨_, encrypted'⟩ ⟨rfl, same⟩
    exact updateDNSCredential_inStep _ _ _ same

theorem changeDNSCredential_inStep (id : String) (h : Disguised request request') :
    InStep s Eq (changeDNSCredential s id request) (changeDNSCredential s id request') := by
  unfold changeDNSCredential
  rw [h.provider, h.name]
  split
  · exact rename_inStep id _
  · exact update_inStep inverts opens id h

omit inverts opens

theorem delete_exactly (id : String) :
    Exactly s Eq (CredentialService.delete id) (CredentialService.delete id) := by
  refine (twin_perform (.same _)).bind ?_
  rintro r _ rfl
  cases r with
  | error err => exact .ret (.error _)
  | ok count =>
    cases count with
    | zero => exact .ret (.error _)
    | succ n => exact .ret (.ok rfl)

/-- The values of the references may differ, but not in which are missing. -/
theorem resolveReferences_inStep (l : List (Sigma fun _ : String => String))
    (found found' : AList fun _ : String => String) :
    InStep s (fun _ _ => True) (CredentialService.resolveReferences l found)
      (CredentialService.resolveReferences l found') := by
  induction l generalizing found found' with
  | nil => exact .ret (.ok trivial)
  | cons e rest ih =>
    obtain ⟨field, environmentName⟩ := e
    refine (twin_perform (.same _)).bind fun r r' alike => ?_
    change Option.map _ r = Option.map _ r' at alike
    cases r with
    | none =>
      cases r' with
      | none => exact .ret (.same _)
      | some value' => cases alike
    | some value =>
      cases r' with
      | none => cases alike
      | some value' =>
        simp only [Option.map_some, Option.some.injEq, decide_eq_decide] at alike
        by_cases empty : value = ""
        · simp only [if_pos empty, if_pos (alike.mp empty)]
          exact .ret (.same _)
        · simp only [if_neg empty, if_neg (mt alike.mpr empty)]
          exact ih _ _

theorem resolve_inStep (id : String) :
    InStep s (fun _ _ => True) (CredentialService.resolve s id) (CredentialService.resolve s id) := by
  refine inStep_bind (dnsCredential_inStep id) (fun _ => rfl) (fun _ => rfl) ?_
  rintro ⟨value, encrypted⟩ ⟨_, encrypted'⟩ ⟨rfl, same⟩
  dsimp only at same ⊢
  cases value.sourceMode with
  | encrypted =>
    cases cipher : s.cipher with
    | none => exact .ret (.same _)
    | some aead =>
      simp only [fault, cipher] at same ⊢
      cases opened : decrypt s.codec aead encrypted with
      | error err =>
        cases opened' : decrypt s.codec aead encrypted' with
        | error err' =>
          simp only [opened, opened', Option.some.injEq] at same
          subst same
          exact .ret (.same _)
        | ok m => simp [opened, opened'] at same
      | ok m =>
        cases opened' : decrypt s.codec aead encrypted' with
        | error err' => simp [opened, opened'] at same
        | ok m' => exact .ret (.ok trivial)
  | environment =>
    refine inStep_bind (resolveReferences_inStep _ ∅ ∅) (fun _ => rfl) (fun _ => rfl) ?_
    rintro m m' -
    exact .ret (.ok trivial)
  | other mode => exact .ret (.same _)

end Operations

section Handlers
variable (s : Service) (disguise : CreateRequest → CreateRequest)

inductive Calls : Eff → Eff → Prop
  | credentials {e e' : CredentialService.Eff} (alike : ServiceCalls s e e') :
      Calls (.credentials e) (.credentials e')
  | list : Calls .list .list
  | certificates : Calls .certificates .certificates
  | currentUser : Calls .currentUser .currentUser
  | createAuditEvent (event : Event) : Calls (.createAuditEvent event) (.createAuditEvent event)
  | log (line : LogLine) : Calls (.log line) (.log line)
  | respond (request : Request) (response : Response) :
      Calls (.respond request response) (.respond (rewritten disguise request) response)

def Answers : (e e' : Eff) → Ans e → Ans e' → Prop
  | .credentials e, .credentials e', r, r' => ServiceAnswers s e e' r r'
  | .list, .list, r, r' => r.map (List.map (shown s)) = r'.map (List.map (shown s))
  | .certificates, .certificates, r, r' => r = r'
  | .currentUser, .currentUser, r, r' => r = r'
  | .createAuditEvent _, .createAuditEvent _, r, r' => r = r'
  | .log _, .log _, _, _ => True
  | .respond _ _, .respond _ _, _, _ => True
  | _, _, _, _ => False

/-- Two programs that call alike and come to the same. -/
abbrev Told {α : Type} (p p' : Operation α) : Prop :=
  Twin (Calls s disguise) (Answers s) Eq p p'

variable {s disguise}

theorem credentials_bind {α β : Type} {Q : α → α → Prop} {p p' : CredentialService.Operation α}
    {f f' : α → Operation β} (h : Twin (ServiceCalls s) (ServiceAnswers s) Q p p')
    (next : ∀ r r', Q r r' → Told s disguise (f r) (f' r')) :
    Told s disguise (credentials p >>= f) (credentials p' >>= f') := by
  have calls : ∀ e e', ServiceCalls s e e' → Twin (Calls s disguise) (Answers s)
      (ServiceAnswers s e e') (Prog.perform (Eff.credentials e))
      (Prog.perform (Eff.credentials e')) :=
    fun _ _ alike => twin_perform (Calls.credentials alike)
  exact (h.lift calls).bind next

theorem internalError_told (operation : String) (err : Error) :
    Told s disguise (internalError operation err) (internalError operation err) :=
  .call (.log _) fun _ _ _ => .ret rfl

/-- The end of a handler that has something for the record. -/
theorem audited_told {clientIP eventType fallbackActor result : String}
    {detail : List (String × String)} (response : Response) :
    Told s disguise
      (auditAdminEvent clientIP eventType fallbackActor result detail >>= fun _ => pure response)
      (auditAdminEvent clientIP eventType fallbackActor result detail >>= fun _ => pure response) := by
  refine Twin.bind (Q := fun _ _ => True) ?_ fun _ _ _ => .ret rfl
  refine (twin_perform .currentUser).bind ?_
  rintro user _ rfl
  refine (twin_perform (.createAuditEvent _)).bind ?_
  rintro r _ rfl
  cases r with
  | error err => exact .call (.log _) fun _ _ _ => .ret trivial
  | ok => exact .ret trivial

theorem scanRows_same {rows rows' : List Row} (alike : rows.map (shown s) = rows'.map (shown s)) :
    scanRows s rows = scanRows s rows' := by
  induction rows generalizing rows' with
  | nil =>
    cases rows' with
    | nil => rfl
    | cons row' rest' => cases alike
  | cons row rest ih =>
    cases rows' with
    | nil => cases alike
    | cons row' rest' =>
      obtain ⟨first, others⟩ := List.cons.inj alike
      have same := scan_same first
      rw [scanRows, scanRows, ← ih others]
      revert same
      generalize CredentialService.scanDNSCredential s row = r
      generalize CredentialService.scanDNSCredential s row' = r'
      intro same
      cases same with
      | ok alike => simp only [alike.1]
      | error err => rfl

theorem listDNSCredentials_told :
    Told s disguise (listDNSCredentials s) (listDNSCredentials s) := by
  refine Twin.bind (Q := Eq) ?_ ?_
  · refine (twin_perform .list).bind fun r r' alike => ?_
    change Except.map _ r = Except.map _ r' at alike
    cases r with
    | error err =>
      cases r' with
      | error err' =>
        cases alike
        exact .ret rfl
      | ok rows' => cases alike
    | ok rows =>
      cases r' with
      | error err' => cases alike
      | ok rows' => exact .ret (scanRows_same (Except.ok.inj alike))
  · rintro r _ rfl
    cases r with
    | error err => exact internalError_told _ _
    | ok values => exact .ret rfl

variable (inverts : s.codec.Inverts) (opens : ∀ aead, s.cipher = some aead → aead.Inverts)
  (disguised : ∀ request, Disguised request (disguise request))
include inverts opens disguised

theorem createDNSCredential_told (clientIP : String) (body : Option CreateRequest) :
    Told s disguise (createDNSCredential s clientIP body)
      (createDNSCredential s clientIP (body.map disguise)) := by
  cases body with
  | none => exact .ret rfl
  | some request =>
    simp only [createDNSCredential, Option.map_some, (disguised request).provider]
    refine credentials_bind (create_inStep inverts opens (disguised request)) fun r r' agree => ?_
    cases agree with
    | ok same =>
      cases same
      exact audited_told _
    | same err => exact audited_told _
    | refused text text' => exact audited_told _

theorem updateDNSCredential_told (clientIP id : String) (body : Option CreateRequest) :
    Told s disguise (updateDNSCredential s clientIP id body)
      (updateDNSCredential s clientIP id (body.map disguise)) := by
  cases body with
  | none => exact .ret rfl
  | some request =>
    refine credentials_bind (changeDNSCredential_inStep inverts opens id (disguised request))
      fun r r' agree => ?_
    cases agree with
    | ok same =>
      cases same
      exact audited_told _
    | same err =>
      dsimp only
      split
      · exact .ret rfl
      · exact audited_told _
    | refused text text' => exact audited_told _

omit inverts opens disguised

theorem testDNSCredential_told (clientIP id : String) :
    Told s disguise (testDNSCredential s clientIP id) (testDNSCredential s clientIP id) := by
  refine credentials_bind (resolve_inStep id) fun r r' agree => ?_
  cases agree with
  | ok _ => exact audited_told _
  | same err =>
    cases err with
    | panicked => exact .ret rfl
    | notFound => exact .ret rfl
    | new text => exact audited_told _
    | database text => exact audited_told _
    | wrap context cause =>
      dsimp only
      split
      · exact .ret rfl
      · exact audited_told _
  | refused text text' => exact audited_told _

theorem dnsCredentialReferences_told (id : String) :
    Told s disguise (dnsCredentialReferences s id) (dnsCredentialReferences s id) := by
  refine credentials_bind (dnsCredential_exactly id) fun r r' same => ?_
  cases same with
  | ok _ =>
    refine (twin_perform .certificates).bind ?_
    rintro values _ rfl
    cases values with
    | error err => exact internalError_told _ _
    | ok values => exact .ret rfl
  | error err =>
    dsimp only
    split
    · exact .ret rfl
    · exact internalError_told _ _

theorem deleteDNSCredential_told (clientIP id : String) :
    Told s disguise (deleteDNSCredential clientIP id) (deleteDNSCredential clientIP id) := by
  refine credentials_bind (delete_exactly id) fun r r' same => ?_
  cases same with
  | ok _ => exact audited_told _
  | error err =>
    dsimp only
    split
    · exact .ret rfl
    · exact internalError_told _ _

include inverts opens disguised

theorem handle_told (request : Request) :
    Told s disguise (handle s request) (handle s (rewritten disguise request)) := by
  have authorized : Told s disguise (authorized s request.clientIP request.route)
      (authorized s request.clientIP (rewritten disguise request).route) := by
    obtain ⟨clientIP, route⟩ := request
    cases route with
    | listDNSCredentials => exact listDNSCredentials_told
    | createDNSCredential body =>
      exact createDNSCredential_told inverts opens disguised clientIP body
    | updateDNSCredential id body =>
      exact updateDNSCredential_told inverts opens disguised clientIP id body
    | testDNSCredential id => exact testDNSCredential_told clientIP id
    | dnsCredentialReferences id => exact dnsCredentialReferences_told id
    | deleteDNSCredential id => exact deleteDNSCredential_told clientIP id
  refine Twin.bind (Q := Eq) ?_ ?_
  · refine (twin_perform .currentUser).bind ?_
    rintro user _ rfl
    cases user with
    | none => exact .ret rfl
    | some user => exact authorized
  · rintro response _ rfl
    exact .call (.respond request response) fun _ _ _ => .ret rfl

end Handlers

section Runs
variable (env : Environment) (s : Service) (disguise : CreateRequest → CreateRequest)

structure ServiceWorlds (w w' : CredentialService.World) : Prop where
  table : seen (shown s) w.table = seen (shown s) w'.table
  processEnv : ∀ name, (w.processEnv name).map (fun value => decide (value = "")) =
    (w'.processEnv name).map fun value => decide (value = "")
  calls : w.calls = w'.calls

/-- States that differ in secrets only, after the same requests but for the secrets in them. -/
structure Worlds (w w' : World) : Prop where
  service : ServiceWorlds s w.service w'.service
  audits : w'.audits = w.audits
  logs : w'.logs = w.logs
  exchanges : w'.exchanges = w.exchanges.map fun e => (e.1, rewritten disguise e.2.1, e.2.2)
  calls : w'.calls = w.calls

def relation : TwinRuns.Relation Eff Ans World Request Unit where
  calls := Calls s disguise
  answers := Answers s
  results := Eq
  notes request request' := request' = rewritten disguise request
  worlds := Worlds s disguise

section Statements
variable {s disguise} (env : CredentialService.Environment) {w w' : CredentialService.World}
  (h : ServiceWorlds s w w')
include h

theorem ServiceWorlds.tick : ServiceWorlds s w.tick w'.tick :=
  ⟨h.table, h.processEnv, congrArg (· + 1) h.calls⟩

theorem insert_alike {row row' : Row} (alike : shown s row = shown s row') :
    (CredentialService.exec env (.insert row) w).1 =
        (CredentialService.exec env (.insert row') w').1 ∧
      ServiceWorlds s (CredentialService.exec env (.insert row) w).2
        (CredentialService.exec env (.insert row') w').2 := by
  have mode : row.columns.sourceMode = row'.columns.sourceMode :=
    congrArg (fun o : String × (Columns × Option Error) × Time => o.2.1.1.sourceMode) alike
  have inserted := insert_seen (shows s) h.table alike
  simp only [CredentialService.exec, ← h.calls, ← mode]
  cases env.writeFails w.calls with
  | some err => exact ⟨rfl, h.tick⟩
  | none =>
    dsimp only
    split
    · cases found : w.table.insert row with
      | none =>
        cases found' : w'.table.insert row' with
        | none => exact ⟨rfl, h.tick⟩
        | some table' => simp [found, found'] at inserted
      | some table =>
        cases found' : w'.table.insert row' with
        | none => simp [found, found'] at inserted
        | some table' =>
          simp only [found, found', Option.map_some, Option.some.injEq] at inserted
          exact ⟨rfl, inserted, h.processEnv, h.tick.calls⟩
    · exact ⟨rfl, h.tick⟩

theorem update_alike {caller caller' : CredentialService.Request} {id : String}
    {columns columns' : Columns} (alike : veiled s columns = veiled s columns') :
    (CredentialService.exec env (.update caller id columns) w).1 =
        (CredentialService.exec env (.update caller' id columns') w').1 ∧
      ServiceWorlds s (CredentialService.exec env (.update caller id columns) w).2
        (CredentialService.exec env (.update caller' id columns') w').2 := by
  have mode : columns.sourceMode = columns'.sourceMode :=
    congrArg (fun o : Columns × Option Error => o.1.sourceMode) alike
  have before := find?_seen (shows s) h.table id
  simp only [CredentialService.exec, ← h.calls, ← mode]
  cases env.writeFails w.calls with
  | some err => exact ⟨rfl, h.tick⟩
  | none =>
    cases there : w.table.find? id with
    | none =>
      cases there' : w'.table.find? id with
      | none => exact ⟨rfl, h.tick⟩
      | some old' => simp [there, there'] at before
    | some old =>
      cases there' : w'.table.find? id with
      | none => simp [there, there'] at before
      | some old' =>
        simp only [there, there', Option.map_some, Option.some.injEq] at before
        have created : old.createdAt = old'.createdAt :=
          congrArg (fun o : String × (Columns × Option Error) × Time => o.2.2) before
        have row : shown s ⟨id, columns, old.createdAt⟩ = shown s ⟨id, columns', old'.createdAt⟩ := by
          simp only [shown, alike, created]
        have replaced := replace_seen (shows s) h.table row
        dsimp only
        split
        · cases found : w.table.replace ⟨id, columns, old.createdAt⟩ with
          | none =>
            cases found' : w'.table.replace ⟨id, columns', old'.createdAt⟩ with
            | none => exact ⟨rfl, h.tick⟩
            | some table' => simp [found, found'] at replaced
          | some table =>
            cases found' : w'.table.replace ⟨id, columns', old'.createdAt⟩ with
            | none => simp [found, found'] at replaced
            | some table' =>
              simp only [found, found', Option.map_some, Option.some.injEq] at replaced
              exact ⟨rfl, replaced, h.processEnv, h.tick.calls⟩
        · exact ⟨rfl, h.tick⟩

theorem select_alike (id : String) :
    (CredentialService.exec env (.select id) w).1.map (Option.map (shown s)) =
        (CredentialService.exec env (.select id) w').1.map (Option.map (shown s)) ∧
      ServiceWorlds s (CredentialService.exec env (.select id) w).2
        (CredentialService.exec env (.select id) w').2 := by
  have found := find?_seen (shows s) h.table id
  simp only [CredentialService.exec, ← h.calls]
  cases env.readFails w.calls with
  | some err => exact ⟨rfl, h.tick⟩
  | none => exact ⟨congrArg Except.ok found, h.tick⟩

theorem delete_alike (id : String) :
    (CredentialService.exec env (.delete id) w).1 =
        (CredentialService.exec env (.delete id) w').1 ∧
      ServiceWorlds s (CredentialService.exec env (.delete id) w).2
        (CredentialService.exec env (.delete id) w').2 := by
  have found := find?_seen (shows s) h.table id
  simp only [CredentialService.exec, ← h.calls]
  cases env.writeFails w.calls with
  | some err => exact ⟨rfl, h.tick⟩
  | none =>
    cases there : w.table.find? id with
    | none =>
      cases there' : w'.table.find? id with
      | none => exact ⟨rfl, h.tick⟩
      | some row' => simp [there, there'] at found
    | some row =>
      cases there' : w'.table.find? id with
      | none => simp [there, there'] at found
      | some row' => exact ⟨rfl, erase_seen (shows s) h.table id, h.processEnv, h.tick.calls⟩

theorem service_alike {e e' : CredentialService.Eff} (calls : ServiceCalls s e e') :
    ServiceAnswers s e e' (CredentialService.exec env e w).1
        (CredentialService.exec env e' w').1 ∧
      ServiceWorlds s (CredentialService.exec env e w).2 (CredentialService.exec env e' w').2 := by
  cases calls with
  | insert alike => exact insert_alike env h alike
  | update alike => exact update_alike env h alike
  | same =>
    cases e with
    | random => exact ⟨congrArg env.random h.calls, h.tick⟩
    | newID => exact ⟨congrArg env.newID h.calls, h.tick⟩
    | now => exact ⟨congrArg env.clock h.calls, h.tick⟩
    | insert row => exact insert_alike env h rfl
    | update caller id columns => exact update_alike env h rfl
    | select id => exact select_alike env h id
    | delete id => exact delete_alike env h id
    | lookup name => exact ⟨h.processEnv name, h⟩

end Statements

variable {s disguise}

theorem Worlds.tick {w w' : World} (h : Worlds s disguise w w') :
    Worlds s disguise w.tick w'.tick :=
  ⟨h.service, h.audits, h.logs, h.exchanges, congrArg (· + 1) h.calls⟩

/-- The rows in the order of their names look alike as well. -/
theorem sorted_alike {w w' : World} (h : Worlds s disguise w w') :
    (w.service.table.rows.insertionSort fun r r' => r.name ≤ r'.name).map (shown s) =
      (w'.service.table.rows.insertionSort fun r r' => r.name ≤ r'.name).map (shown s) := by
  have sorted : ∀ rows : List Row,
      (rows.insertionSort fun r r' => r.name ≤ r'.name).map (shown s) =
        (rows.map (shown s)).insertionSort fun o o' => o.2.1.1.name ≤ o'.2.1.1.name := fun rows =>
    List.map_insertionSort _ _ _ _ fun _ _ _ _ => Iff.rfl
  rw [sorted, sorted]
  exact congrArg _ h.service.table

theorem exec_alike (t : Nat) {e e' : Eff} {w w' : World} (calls : Calls s disguise e e')
    (h : Worlds s disguise w w') :
    Answers s e e' (exec env t e w).1 (exec env t e' w').1 ∧
      Worlds s disguise (exec env t e w).2 (exec env t e' w').2 := by
  cases calls with
  | credentials alike =>
    obtain ⟨told, service⟩ := service_alike env.service h.service alike
    exact ⟨told, service, h.audits, h.logs, h.exchanges, h.calls⟩
  | list =>
    have rows := sorted_alike h
    simp only [exec, h.calls]
    cases env.listFails w.calls with
    | some err => exact ⟨rfl, h.tick⟩
    | none => exact ⟨congrArg Except.ok rows, h.tick⟩
  | certificates => exact ⟨congrArg env.certificates h.calls.symm, h.tick⟩
  | currentUser => exact ⟨congrArg env.currentUser h.calls.symm, h.tick⟩
  | createAuditEvent event =>
    simp only [exec, h.calls]
    cases env.auditFails w.calls with
    | some err => exact ⟨rfl, h.tick⟩
    | none => exact ⟨rfl, h.service, congrArg (event :: ·) h.audits, h.logs, h.exchanges, h.tick.calls⟩
  | log line => exact ⟨trivial, h.service, h.audits, congrArg (line :: ·) h.logs, h.exchanges, h.calls⟩
  | respond request response =>
    refine ⟨trivial, h.service, h.audits, h.logs, ?_, h.calls⟩
    simp only [exec, h.exchanges, List.map_cons]

variable (inverts : s.codec.Inverts) (opens : ∀ aead, s.cipher = some aead → aead.Inverts)
  (disguised : ∀ request, Disguised request (disguise request))
include inverts opens disguised

theorem relation_kept : (relation s disguise).Kept (pool s env) where
  exec t _ _ _ _ calls worlds := exec_alike env t calls worlds
  enabled _ _ _ _ _ _ _ := rfl
  note _ _ _ _ _ _ notes _ _ := notes
  alone _ _ := rfl
  starts th := by
    rintro ⟨request, rfl⟩
    exact ⟨thread s (rewritten disguise request), ⟨_, rfl⟩,
      handle_told inverts opens disguised request, rfl⟩
  restart _ _ worlds := worlds

/-- For every run of the handlers, whatever the requests and their order, and whenever
the process is killed, there is one in which each request has the values that `disguise`
gives it, and which the responses, the audit events, the log and the table without its
ciphertexts do not tell apart from the first. -/
theorem secrets_never_shown {w w' : World} (alike : Worlds s disguise w w')
    {d : Config Eff Ans World Request Unit} (run : Reach (pool s env) .any (.crowd w []) d) :
    ∃ d', Reach (pool s env) .any (.crowd w' []) d' ∧ Worlds s disguise d.world d'.world ∧
      ∀ t, (d'.threads t).map (fun th => th.seen) =
        (d.threads t).map fun th => rewritten disguise th.seen := by
  have start : (relation s disguise).Configs (.crowd w []) (.crowd w' []) := by
    refine ⟨fun _ => Iff.rfl, fun t th th' there => ?_, alike⟩
    cases there
  obtain ⟨d', run', twins⟩ := (relation_kept env inverts opens disguised).reach start run
  refine ⟨d', run', twins.worlds, fun t => ?_⟩
  cases there : d.threads t with
  | none =>
    rw [(twins.free t).mp there]
    rfl
  | some th =>
    obtain ⟨th', there', -, notes⟩ := twins.counterpart there
    rw [there', Option.map_some, Option.map_some, notes]

end Runs

section Sample
open CredentialRounds (sampleService sampleValues sampleCodec_inverts sampleService_opens)

def sampleEnvironment : Environment where
  service := CredentialRounds.sampleEnvironment
  listFails _ := none
  certificates _ := .ok []
  currentUser _ := some "admin"
  auditFails _ := none

def sampleWorld : World := ⟨CredentialRounds.sampleWorld, [], [], [], 0⟩

def sampleCreate : CreateRequest :=
  ⟨"Cloudflare old", "cloudflare", "", .encrypted, sampleValues, none⟩

/-- Another token in the place of the one of the sample. -/
def otherToken (request : CreateRequest) : CreateRequest :=
  if request = sampleCreate then
    { request with values := some (AList.singleton "CF_Token" "another-secret") }
  else request

theorem otherToken_disguised (request : CreateRequest) :
    Disguised request (otherToken request) := by
  unfold otherToken
  split
  · rename_i same
    subst same
    exact ⟨rfl, rfl, rfl, rfl, rfl, by decide +kernel⟩
  · exact ⟨rfl, rfl, rfl, rfl, rfl, List.Perm.refl _⟩

/-- One token or another: it is created all the same. -/
theorem secrets_never_shown_created : ∃ d', Reach (pool sampleService sampleEnvironment) .any
      (.crowd sampleWorld []) d' ∧
    d'.world.exchanges.map (fun e => (e.2.1, e.2.2.status)) =
      [(⟨"10.0.0.9", .createDNSCredential (some (otherToken sampleCreate))⟩, 201)] ∧
    d'.world.audits.map Event.result = ["succeeded"] := by
  let asked : Config Eff Ans World Request Unit := .crowd sampleWorld
    [thread sampleService ⟨"10.0.0.9", .createDNSCredential (some sampleCreate)⟩]
  have played : ((pool sampleService sampleEnvironment).play (fun _ _ _ => true)
      [0, 0, 0, 0, 0, 0, 0, 0] asked).map (fun c =>
        (c.world.exchanges.map fun e => (e.2.1, e.2.2.status), c.world.audits.map Event.result)) =
      some ([(⟨"10.0.0.9", .createDNSCredential (some sampleCreate)⟩, 201)], ["succeeded"]) := by
    decide +kernel
  obtain ⟨d, schedule, seen⟩ := Option.map_eq_some_iff.mp played
  obtain ⟨answered, recorded⟩ := Prod.mk.inj seen
  have run : Reach (pool sampleService sampleEnvironment) .any (.crowd sampleWorld []) d := by
    refine (crowd_reach (fun _ _ => trivial) _ _ fun th there => ?_).trans
      (play_reach (fun _ _ _ _ => trivial) schedule)
    rw [List.mem_singleton.mp there]
    exact ⟨_, rfl⟩
  have alike : Worlds sampleService otherToken sampleWorld sampleWorld :=
    ⟨⟨rfl, fun _ => rfl, rfl⟩, rfl, rfl, rfl, rfl⟩
  obtain ⟨d', run', worlds, -⟩ := secrets_never_shown sampleEnvironment sampleCodec_inverts
    sampleService_opens otherToken_disguised alike run
  refine ⟨d', run', ?_, by rw [worlds.audits, recorded]⟩
  have both : d'.world.exchanges.map (fun e => (e.2.1, e.2.2.status)) =
      (d.world.exchanges.map fun e => (e.2.1, e.2.2.status)).map
        fun e => (rewritten otherToken e.1, e.2) := by
    rw [worlds.exchanges, List.map_map, List.map_map]
    rfl
  rw [both, answered]
  rfl

end Sample

end CredentialTwins
