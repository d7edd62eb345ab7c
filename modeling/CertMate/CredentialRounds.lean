import CertMate.CredentialContents
import CertMate.RunTriples

/-!
# Credentials after a run of calls

Creates, updates, renames and deletes one after another. Every stored row
carries what the last accepted create or update of its id has asked for, as long as no row
that has just been written cannot be read back: the call is refused then, and the row stays
as it was written.
-/
namespace CredentialRounds
open CallTrees RunTriples UniqueTables CredentialModel CredentialService CredentialContents
open CertificateModel (Bytes Time)
open DomainValidation (trimSpace)
open SqliteStore (zeroTime)

def program (s : Service) : Request → Operation (Except Error (Option Credential))
  | .create request => create s request >>= fun r => pure (r.map some)
  | .update id request => update s id request >>= fun r => pure (r.map some)
  | .rename id name => rename s id name >>= fun r => pure (r.map some)
  | .delete id => delete id >>= fun r => pure (r.map fun _ => none)

abbrev History := List (Request × Except Error (Option Credential))

/-- The calls one after another, with what they have returned. -/
def runs (env : Environment) (s : Service) : List Request → World → History × World
  | [], w => ([], w)
  | request :: rest, w =>
    let (result, w') := run (exec env) (program s request) w
    let (history, w'') := runs env s rest w'
    ((request, result) :: history, w'')

/-- A read that follows a committed update does not fail. -/
def readsBack (env : Environment) (committed : List Request) (e : Eff) (w : World) : Prop :=
  ∀ id, e = .select id → w.committed ≠ committed → env.readFails w.calls = none

/-- Whatever the call writes it reads back. -/
def Answered (env : Environment) (s : Service) (request : Request) (w : World) : Prop :=
  Along (exec env) (readsBack env w.committed) (program s request) w

def AllAnswered (env : Environment) (s : Service) : List Request → World → Prop
  | [], _ => True
  | request :: rest, w =>
    Answered env s request w ∧ AllAnswered env s rest (run (exec env) (program s request) w).2

/-- What an accepted call makes of the contents under `id`. -/
def settle (id : String) (before : Option Contents) :
    Request × Except Error (Option Credential) → Option Contents
  | (.create request, .ok (some value)) => if value.id = id then contentsOf request else before
  | (.update target request, .ok _) => if trimSpace target = id then contentsOf request else before
  | (.delete target, .ok _) => if target = id then none else before
  | _ => before

/-- The contents of the last accepted create or update of `id`. -/
def last (id : String) (history : History) : Option Contents := history.foldl (settle id) none

/-- The table has a row for every id with contents, and it carries them. -/
def Keeps (s : Service) (T : CredentialTable) (f : String → Option Contents) : Prop :=
  ∀ id, T.find? id = none ∧ f id = none ∨
    ∃ row contents, T.find? id = some row ∧ f id = some contents ∧ Carries s row.columns contents

section Calls
variable {env : Environment} {s : Service} {w : World}

-- A goal about a program is otherwise reduced as far as the texts in it go.
attribute [local irreducible] trimSpace

theorem draws_run (env : Environment) {β : Type} {p : Operation β} {Q : β → Prop} (h : Draws p Q)
    (w : World) :
    Q (run (exec env) p w).1 ∧ (run (exec env) p w).2.table = w.table ∧
      (run (exec env) p w).2.committed = w.committed := by
  have ended : ∃ _ : Unit, Q (run (exec env) p w).1 ∧
      (run (exec env) p w).2.table = w.table ∧
        (run (exec env) p w).2.committed = w.committed := by
    refine (Follows.run_invariant
      (I := fun _ (w' : World) => w'.table = w.table ∧ w'.committed = w.committed) ?_ h
      ⟨rfl, rfl⟩).2
    rintro _ _ w' rfl same
    exact ⟨trivial, same⟩
  exact ended.choose_spec

theorem scan_of_carries {row : Row} {contents : Contents} (h : Carries s row.columns contents) :
    ∃ value encrypted, scanDNSCredential s row = .ok (value, encrypted) := by
  obtain ⟨refs, read, -⟩ := h.refs
  obtain ⟨masked, decoded⟩ := h.masked
  exact ⟨_, _, by rw [scanDNSCredential, read, decoded]⟩

/-- A create is refused, or adds a row that carries what it asks for. -/
theorem create_cases (env : Environment) (inverts : s.codec.Inverts)
    (opens : ∀ aead, s.cipher = some aead → aead.Inverts) (request : CreateRequest) (w : World) :
    (∃ err, (run (exec env) (create s request) w).1 = .error err ∧
        (run (exec env) (create s request) w).2.table = w.table) ∨
      ∃ value row contents, (run (exec env) (create s request) w).1 = .ok value ∧
        w.table.insert row = some (run (exec env) (create s request) w).2.table ∧
        row.id = value.id ∧ contentsOf request = some contents ∧
        Carries s row.columns contents := by
  obtain ⟨ready, same, -⟩ := draws_run env (prepare_draws inverts opens request) w
  unfold create
  rw [run_bind]
  cases answer : (run (exec env) (prepare s request) w).1 with
  | error err => exact Or.inl ⟨err, rfl, same⟩
  | ok prepared =>
    obtain ⟨value, encrypted⟩ := prepared
    rw [answer] at ready
    obtain ⟨id, -, createdAt, contents, asked, carries⟩ := ready value encrypted rfl
    generalize (run (exec env) (prepare s request) w).2 = w' at same ⊢
    simp only [createDNSCredential, if_pos id, if_pos createdAt, Prog.perform_bind, run_call]
    generalize drawn : exec env .newID w' = numbered
    have kept : numbered.2.table = w.table := by
      rw [← drawn]
      exact same
    generalize timed : exec env .now numbered.2 = clocked
    have kept' : clocked.2.table = w.table := by
      rw [← timed]
      exact kept
    rcases insert_cases env clocked.2 ⟨numbered.1, columnsOf s { value with
      id := numbered.1
      createdAt := clocked.1
      updatedAt := clocked.1 } encrypted, clocked.1⟩ with ⟨err, failed, still⟩ | ⟨ok, inserted⟩
    · rw [failed]
      exact Or.inl ⟨_, rfl, still.trans kept'⟩
    · rw [ok]
      rw [kept'] at inserted
      refine Or.inr ⟨_, _, contents, rfl, inserted, rfl, asked, ?_⟩
      exact ⟨carries.code, carries.masked, carries.refs⟩

/-- A write of columns that carry something is refused, or leaves them in the row
that was there. -/
theorem updateDNSCredential_cases (caller : Request) {value : Credential} {encrypted : Bytes}
    {contents : Contents} (carries : Carries s (columnsOf s value encrypted) contents) (w : World)
    (back : Along (exec env) (readsBack env w.committed)
      (updateDNSCredential s caller value encrypted) w) :
    (∃ err, (run (exec env) (updateDNSCredential s caller value encrypted) w).1 = .error err ∧
        (run (exec env) (updateDNSCredential s caller value encrypted) w).2.table = w.table) ∨
      ∃ stored row, (run (exec env) (updateDNSCredential s caller value encrypted) w).1 =
          .ok stored ∧
        w.table.replace row =
          some (run (exec env) (updateDNSCredential s caller value encrypted) w).2.table ∧
        (∃ old, w.table.find? value.id = some old) ∧ row.id = value.id ∧
        row.name = value.name ∧ Carries s row.columns contents := by
  simp only [updateDNSCredential, Prog.perform_bind, run_call] at back ⊢
  have back := back.2.2
  generalize timed : exec env .now w = clocked at back ⊢
  have kept : clocked.2.table = w.table := by rw [← timed]; rfl
  have unwritten : clocked.2.committed = w.committed := by rw [← timed]; rfl
  have written : Carries s (columnsOf s { value with updatedAt := clocked.1 } encrypted) contents :=
    ⟨carries.code, carries.masked, carries.refs⟩
  have named : (columnsOf s { value with updatedAt := clocked.1 } encrypted).name = value.name := rfl
  generalize columnsOf s { value with updatedAt := clocked.1 } encrypted = columns
    at written named back ⊢
  rcases update_cases env clocked.2 caller value.id columns with
    ⟨failed, still, -⟩ | ⟨old, ok, found, replaced, more⟩
  · cases answer : (exec env (.update caller value.id columns) clocked.2).1 with
    | error err => exact Or.inl ⟨_, rfl, still.trans kept⟩
    | ok n =>
      cases failed n answer
      exact Or.inl ⟨_, rfl, still.trans kept⟩
  · rw [ok] at back ⊢
    refine Or.inr ?_
    generalize (exec env (.update caller value.id columns) clocked.2).2 = w' at replaced more back ⊢
    have grown : w'.committed ≠ w.committed := by
      rw [more, unwritten]
      exact List.cons_ne_self _ _
    have reads : env.readFails w'.calls = none := back.1 value.id rfl grown
    have row : w'.table.find? value.id = some ⟨value.id, columns, old.createdAt⟩ := by
      rw [Table.find?_replace replaced, if_pos rfl, found]
      rfl
    have carried : Carries s (Row.mk value.id columns old.createdAt).columns contents := written
    obtain ⟨stored, rest, scanned⟩ := scan_of_carries carried
    simp only [dnsCredential, Prog.perform_bind, Prog.call_bind, run_call, exec, reads, row, scanned]
    rw [kept] at replaced found
    exact ⟨stored, _, rfl, replaced, ⟨old, found⟩, rfl, named, written⟩

theorem update_cases (inverts : s.codec.Inverts)
    (opens : ∀ aead, s.cipher = some aead → aead.Inverts) (id : String) (request : CreateRequest)
    (w : World) (back : Along (exec env) (readsBack env w.committed) (update s id request) w) :
    (∃ err, (run (exec env) (update s id request) w).1 = .error err ∧
        (run (exec env) (update s id request) w).2.table = w.table) ∨
      ∃ stored row contents, (run (exec env) (update s id request) w).1 = .ok stored ∧
        w.table.replace row = some (run (exec env) (update s id request) w).2.table ∧
        (∃ old, w.table.find? (trimSpace id) = some old) ∧ row.id = trimSpace id ∧
        contentsOf request = some contents ∧ Carries s row.columns contents := by
  obtain ⟨ready, same, unwritten⟩ := draws_run env (prepare_draws inverts opens request) w
  unfold update at back ⊢
  have back := (along_bind.mp back).2
  rw [run_bind]
  cases answer : (run (exec env) (prepare s request) w).1 with
  | error err => exact Or.inl ⟨err, rfl, same⟩
  | ok prepared =>
    obtain ⟨value, encrypted⟩ := prepared
    rw [answer] at ready back
    rw [← unwritten] at back
    obtain ⟨-, -, -, contents, asked, carries⟩ := ready value encrypted rfl
    have written : Carries s (columnsOf s { value with id := trimSpace id } encrypted) contents :=
      ⟨carries.code, carries.masked, carries.refs⟩
    rcases updateDNSCredential_cases (.update id request) written
      (run (exec env) (prepare s request) w).2 back with
      ⟨err, failed, still⟩ | ⟨stored, row, ok, replaced, found, numbered, -, holds⟩
    · exact Or.inl ⟨err, failed, still.trans same⟩
    · rw [same] at replaced found
      exact Or.inr ⟨stored, row, contents, ok, replaced, found, numbered, asked, holds⟩

theorem rename_cases (inverts : s.codec.Inverts) {f : String → Option Contents}
    (keeps : Keeps s w.table f) (id name : String)
    (back : Along (exec env) (readsBack env w.committed) (rename s id name) w) :
    (∃ err, (run (exec env) (rename s id name) w).1 = .error err ∧
        (run (exec env) (rename s id name) w).2.table = w.table) ∨
      ∃ stored row contents, (run (exec env) (rename s id name) w).1 = .ok stored ∧
        w.table.replace row = some (run (exec env) (rename s id name) w).2.table ∧
        (∃ old, w.table.find? (trimSpace id) = some old) ∧ row.id = trimSpace id ∧
        f (trimSpace id) = some contents ∧ Carries s row.columns contents := by
  unfold rename at back ⊢
  by_cases short : trimSpace name = "" ∨ 100 < (trimSpace name).utf8ByteSize
  · simp only [if_pos short]
    exact Or.inl ⟨_, rfl, rfl⟩
  simp only [if_neg short, dnsCredential, Prog.perform_bind, Prog.call_bind, run_call] at back ⊢
  have back := back.2
  cases reads : env.readFails w.calls with
  | some err =>
    simp only [exec, reads]
    exact Or.inl ⟨_, rfl, rfl⟩
  | none =>
    simp only [exec, reads] at back ⊢
    rcases keeps (trimSpace id) with ⟨absent, -⟩ | ⟨row, contents, found, known, carries⟩
    · simp only [absent]
      exact Or.inl ⟨_, rfl, rfl⟩
    · obtain ⟨value, encrypted, scanned⟩ := scan_of_carries carries
      simp only [found, scanned, Prog.pure_eq, Prog.ret_bind] at back ⊢
      have read := carries_scanned inverts carries scanned
      have numbered : value.id = trimSpace id :=
        (scan_id scanned).trans (Table.key_of_find? found)
      have written : Carries s (columnsOf s { value with name := trimSpace name } encrypted)
          contents := ⟨read.code, read.masked, read.refs⟩
      rcases updateDNSCredential_cases (.rename id name) written w.tick back with
        ⟨err, failed, still⟩ | ⟨stored, next, ok, replaced, -, same, -, holds⟩
      · exact Or.inl ⟨err, failed, still⟩
      · exact Or.inr ⟨stored, next, contents, ok, replaced, ⟨row, rfl⟩,
          same.trans numbered, known, holds⟩

theorem delete_cases (env : Environment) (id : String) (w : World) :
    (∃ err, (run (exec env) (delete id) w).1 = .error err ∧
        (run (exec env) (delete id) w).2.table = w.table) ∨
      (run (exec env) (delete id) w).1 = .ok () ∧
        (run (exec env) (delete id) w).2.table = w.table.erase id := by
  simp only [delete, deleteDNSCredential, Prog.perform_bind, run_call]
  rcases CredentialService.delete_cases env w id with ⟨failed, still⟩ | ⟨ok, erased⟩
  · cases answer : (exec env (.delete id) w).1 with
    | error err => exact Or.inl ⟨_, rfl, still⟩
    | ok n =>
      cases failed n answer
      exact Or.inl ⟨_, rfl, still⟩
  · rw [ok]
    exact Or.inr ⟨rfl, erased⟩

end Calls

section Keeping
variable {s : Service} {T T' : CredentialTable} {f g : String → Option Contents}

theorem Keeps.congr (h : Keeps s T f) (same : ∀ id, g id = f id) : Keeps s T g := by
  intro id
  rw [same id]
  exact h id

/-- A row that carries the contents of its id has been inserted. -/
theorem Keeps.insert (h : Keeps s T f) {row : Row} (inserted : T.insert row = some T')
    {contents : Contents} (carries : Carries s row.columns contents)
    (own : g row.id = some contents) (others : ∀ id, id ≠ row.id → g id = f id) :
    Keeps s T' g := by
  intro id
  rw [Table.find?_insert inserted]
  by_cases mine : id = row.id
  · subst mine
    exact Or.inr ⟨row, contents, if_pos rfl, own, carries⟩
  · rw [if_neg mine, others id mine]
    exact h id

theorem Keeps.replace (h : Keeps s T f) {row old : Row} (replaced : T.replace row = some T')
    (found : T.find? row.id = some old) {contents : Contents}
    (carries : Carries s row.columns contents) (own : g row.id = some contents)
    (others : ∀ id, id ≠ row.id → g id = f id) : Keeps s T' g := by
  intro id
  rw [Table.find?_replace replaced]
  by_cases mine : id = row.id
  · subst mine
    rw [if_pos rfl, found]
    exact Or.inr ⟨row, contents, rfl, own, carries⟩
  · rw [if_neg mine, others id mine]
    exact h id

theorem Keeps.erase (h : Keeps s T f) {id₀ : String} (own : g id₀ = none)
    (others : ∀ id, id ≠ id₀ → g id = f id) : Keeps s (T.erase id₀) g := by
  intro id
  rw [Table.find?_erase]
  by_cases mine : id = id₀
  · subst mine
    exact Or.inl ⟨if_pos rfl, own⟩
  · rw [if_neg mine, others id mine]
    exact h id

end Keeping

/-- What a call that returns `result` has made of the table: nothing if it was
refused, and otherwise nothing outside the row it is about. -/
structure Confined (request : Request) (result : Except Error (Option Credential))
    (T T' : CredentialTable) : Prop where
  refused : ∀ err, result = .error err → T'.find? = T.find?
  created : ∀ made value, request = .create made → result = .ok (some value) →
    T.find? value.id = none ∧ ∀ id, id ≠ value.id → T'.find? id = T.find? id
  others : ∀ target, request.target = some target → ∀ id, id ≠ target → T'.find? id = T.find? id

section Steps
variable {env : Environment} {s : Service} {w : World} {f : String → Option Contents}

attribute [local irreducible] trimSpace

/-- A call that is refused and leaves the table alone. -/
theorem Keeps.refused {T T' : CredentialTable} (keeps : Keeps s T f) (request : Request)
    (err : Error)
    (same : T' = T) : Keeps s T' (fun id => settle id (f id) (request, .error err)) ∧
      Confined request (.error err) T T' := by
  subst same
  refine ⟨keeps.congr fun id => ?_, fun _ _ => rfl, (fun _ _ _ h => nomatch h), fun _ _ _ _ => rfl⟩
  cases request <;> rfl

/-- A call that puts a row in the place of the one it is about. -/
theorem Keeps.written {T T' : CredentialTable} (keeps : Keeps s T f) {request : Request}
    {row old : Row} {target : String} {g : String → Option Contents} {contents : Contents}
    (stored : Option Credential) (about : request.target = some target)
    (done : T.replace row = some T') (found : T.find? target = some old)
    (numbered : row.id = target)
    (carries : Carries s row.columns contents) (own : g target = some contents)
    (others : ∀ id, id ≠ target → g id = f id) :
    Keeps s T' g ∧ Confined request (.ok stored) T T' := by
  subst numbered
  refine ⟨keeps.replace done found carries own others, (fun _ h => nomatch h), ?_, ?_⟩
  · intro made value created
    subst created
    cases about
  · intro target same id away
    cases about.symm.trans same
    exact (Table.find?_replace done id).trans (if_neg away)

/-- One call keeps the table and the contents together. -/
theorem step_keeps (inverts : s.codec.Inverts)
    (opens : ∀ aead, s.cipher = some aead → aead.Inverts) (keeps : Keeps s w.table f)
    (request : Request) (back : Answered env s request w) :
    Keeps s (run (exec env) (program s request) w).2.table
        (fun id => settle id (f id) (request, (run (exec env) (program s request) w).1)) ∧
      Confined request (run (exec env) (program s request) w).1 w.table
        (run (exec env) (program s request) w).2.table := by
  cases request with
  | create made =>
    have cases := create_cases env inverts opens made w
    rw [program, run_bind]
    generalize run (exec env) (create s made) w = after at cases ⊢
    obtain ⟨result, w'⟩ := after
    rcases cases with ⟨err, rfl, same⟩ | ⟨value, row, contents, rfl, inserted, numbered, asked, carries⟩
    · exact keeps.refused _ err same
    · refine ⟨keeps.insert inserted carries ?_ fun id away => ?_, (fun _ h => nomatch h), ?_,
        (fun _ h => nomatch h)⟩
      · exact (if_pos numbered.symm).trans asked
      · exact if_neg fun h => away (h.symm.trans numbered.symm)
      · intro _ other _ same
        have same : value = other := Option.some.inj (Except.ok.inj same)
        rw [← same, ← numbered]
        refine ⟨Table.absent_of_insert inserted, fun id away => ?_⟩
        exact (Table.find?_insert inserted id).trans (if_neg away)
  | update id made =>
    have cases := update_cases inverts opens id made w (along_bind.mp back).1
    rw [program, run_bind]
    generalize run (exec env) (update s id made) w = after at cases ⊢
    obtain ⟨result, w'⟩ := after
    rcases cases with ⟨err, rfl, same⟩ |
      ⟨stored, row, contents, rfl, done, ⟨old, found⟩, numbered, asked, carries⟩
    · exact keeps.refused _ err same
    · refine keeps.written (some stored) rfl done found numbered carries ?_ ?_
      · exact (if_pos rfl).trans asked
      · exact fun j away => if_neg fun h => away h.symm
  | rename id name =>
    have cases := rename_cases inverts keeps id name (along_bind.mp back).1
    rw [program, run_bind]
    generalize run (exec env) (rename s id name) w = after at cases ⊢
    obtain ⟨result, w'⟩ := after
    rcases cases with ⟨err, rfl, same⟩ |
      ⟨stored, row, contents, rfl, done, ⟨old, found⟩, numbered, known, carries⟩
    · exact keeps.refused _ err same
    · exact keeps.written (some stored) rfl done found numbered carries known fun _ _ => rfl
  | delete id =>
    have cases := delete_cases env id w
    rw [program, run_bind]
    generalize run (exec env) (delete id) w = after at cases ⊢
    obtain ⟨result, w'⟩ := after
    rcases cases with ⟨err, rfl, same⟩ | ⟨rfl, erased⟩
    · exact keeps.refused _ err same
    · have gone : ∀ j, j ≠ id → w'.table.find? j = w.table.find? j := fun j away => by
        rw [erased, Table.find?_erase, if_neg away]
      refine ⟨?_, (fun _ h => nomatch h), (fun _ _ h => nomatch h), ?_⟩
      · rw [Prog.pure_eq, run_ret, erased]
        exact keeps.erase (if_pos rfl) fun j away => if_neg fun h => away h.symm
      · rintro _ ⟨⟩ j away
        exact gone j away

/-- A run of calls keeps them together. -/
theorem runs_keep (inverts : s.codec.Inverts)
    (opens : ∀ aead, s.cipher = some aead → aead.Inverts) (requests : List Request)
    (keeps : Keeps s w.table f) (back : AllAnswered env s requests w) :
    Keeps s (runs env s requests w).2.table
      fun id => (runs env s requests w).1.foldl (settle id) (f id) := by
  induction requests generalizing w f with
  | nil => exact keeps
  | cons request rest ih => exact ih (step_keeps inverts opens keeps request back.1).1 back.2

end Steps

/-- After any run of calls on an empty table in which every row that is written is read back,
`Resolve` answers, for every stored id, with what the last accepted create or update of the id
has asked for, and whatever such call comes next stays within its own row, or changes nothing
if it is refused. -/
theorem credentials_round_trip (env : Environment) (s : Service) (inverts : s.codec.Inverts)
    (opens : ∀ aead, s.cipher = some aead → aead.Inverts) (requests : List Request) (w : World)
    (fresh : w.table = Table.empty) (back : AllAnswered env s requests w) :
    (∀ id row, (runs env s requests w).2.table.find? id = some row →
      ∃ contents, last id (runs env s requests w).1 = some contents ∧
        (env.readFails (runs env s requests w).2.calls = none → ∀ processEnv,
          Yields contents processEnv (run (exec env) (resolve s id)
            { (runs env s requests w).2 with processEnv := processEnv }).1)) ∧
    ∀ request, Answered env s request (runs env s requests w).2 → Confined request
      (run (exec env) (program s request) (runs env s requests w).2).1
      (runs env s requests w).2.table
      (run (exec env) (program s request) (runs env s requests w).2).2.table := by
  have start : Keeps s w.table fun _ => none := by
    rw [fresh]
    exact fun id => Or.inl ⟨rfl, rfl⟩
  have keeps := runs_keep inverts opens requests start back
  refine ⟨fun id row found => ?_, fun request answered =>
    (step_keeps inverts opens keeps request answered).2⟩
  rcases keeps id with ⟨absent, -⟩ | ⟨row', contents, there, known, carries⟩
  · cases absent.symm.trans found
  · refine ⟨contents, known, fun reads processEnv => ?_⟩
    cases Table.key_of_find? there
    exact resolve_yields env (w := { (runs env s requests w).2 with processEnv := processEnv })
      carries there reads

/-- Where no read fails everything is read back. -/
theorem answered_of_reads {env : Environment} {s : Service} (reads : ∀ n, env.readFails n = none)
    (requests : List Request) (w : World) : AllAnswered env s requests w := by
  induction requests generalizing w with
  | nil => exact trivial
  | cons request rest ih =>
    have single : Answered env s request w :=
      along_all (C := readsBack env w.committed) (fun _ w' _ _ _ => reads w'.calls) _ w
    exact ⟨single, ih _⟩

section Tabled
variable {α : Type} [DecidableEq α] (table : List (α × Bytes)) (number : α → Nat) (back : Nat → α)

def tabledEncode (a : α) : Bytes :=
  match table.find? fun (e : α × Bytes) => e.1 = a with
  | some e => e.2
  | none => 0 :: List.replicate (number a) 0

def tabledDecode (text : Bytes) : Except Error α :=
  match table.find? fun (e : α × Bytes) => e.2 = text with
  | some e => .ok e.1
  | none => .ok (back text.tail.length)

/-- The texts of the table differ, and none of them is unary. -/
def Readable : Prop :=
  (∀ e ∈ table, table.find? (fun (e' : α × Bytes) => e'.2 = e.2) = some e) ∧
    ∀ e ∈ table, e.2.head? ≠ some 0

variable {table number back}

theorem tabledDecode_encode (readable : Readable table) (inverse : ∀ a, back (number a) = a)
    (a : α) :
    tabledDecode table back (tabledEncode table number a) = .ok a := by
  unfold tabledEncode tabledDecode
  cases listed : table.find? fun (e : α × Bytes) => e.1 = a with
  | some e =>
    have there := List.mem_of_find?_eq_some listed
    have same : decide (e.1 = a) = true :=
      List.find?_some (p := fun (e : α × Bytes) => decide (e.1 = a)) listed
    rw [readable.1 e there, ← of_decide_eq_true same]
  | none =>
    have absent :
        table.find? (fun (e : α × Bytes) => e.2 = 0 :: List.replicate (number a) 0) = none := by
      refine List.find?_eq_none.mpr fun e there unary => readable.2 e there ?_
      rw [of_decide_eq_true unary]
      rfl
    rw [absent, List.tail_cons, List.length_replicate, inverse]

theorem tabledEncode_ne_nil (readable : ∀ e ∈ table, e.2 ≠ []) (a : α) :
    tabledEncode table number a ≠ [] := by
  unfold tabledEncode
  split
  · rename_i e listed
    exact readable e (List.mem_of_find?_eq_some listed)
  · exact List.cons_ne_nil _ _

end Tabled

instance encodableChar : Encodable Char := .ofLeftInverse Char.toNat Char.ofNat Char.ofNat_toNat

instance encodableString : Encodable String :=
  .ofLeftInverse String.toList String.ofList fun _ => String.ofList_toList

def sampleValues : StringMap := some (AList.singleton "CF_Token" "old-secret")

def sampleRefs : StringMap := some (AList.singleton "CF_Token" "CF_TOKEN_PROD")

def sampleTexts : List (StringMap × Bytes) :=
  [(none, CertificateModel.utf8 "null"), (some ∅, CertificateModel.utf8 "\x7b\x7d"),
    (sampleValues, CertificateModel.utf8 "\x7b\"CF_Token\":\"old-secret\"\x7d"),
    (sampleRefs, CertificateModel.utf8 "\x7b\"CF_Token\":\"CF_TOKEN_PROD\"\x7d")]

def sampleLists : List (List String × Bytes) :=
  [(["CF_Token"], CertificateModel.utf8 "[\"CF_Token\"]")]

def numberOf (m : StringMap) : Nat := Encodable.encode (m.map AList.entries)

def mapOf (n : Nat) : StringMap :=
  ((Encodable.decode n : Option (Option (List (Sigma fun _ : String => String)))).getD none).bind
    fun entries => if distinct : entries.keys.Nodup then some ⟨entries, distinct⟩ else none

theorem mapOf_numberOf (m : StringMap) : mapOf (numberOf m) = m := by
  unfold mapOf numberOf
  rw [Encodable.encodek, Option.getD_some]
  cases m with
  | none => rfl
  | some a => exact dif_pos a.nodupKeys

def listOf (n : Nat) : List String := (Encodable.decode n).getD []

theorem listOf_encode (l : List String) : listOf (Encodable.encode l) = l := by
  rw [listOf, Encodable.encodek, Option.getD_some]

def sampleCodec : Codec where
  encodeMap := tabledEncode sampleTexts numberOf
  decodeMap := tabledDecode sampleTexts mapOf
  encodeList := tabledEncode sampleLists Encodable.encode
  decodeList := tabledDecode sampleLists listOf

theorem sampleCodec_inverts : sampleCodec.Inverts := by
  have texts : Readable sampleTexts := ⟨by decide +kernel, by decide +kernel⟩
  have lists : Readable sampleLists := ⟨by decide +kernel, by decide +kernel⟩
  refine ⟨tabledEncode_ne_nil (by decide +kernel), by decide +kernel, by decide +kernel, ?_, ?_⟩
  · exact fun m => ⟨m, tabledDecode_encode texts mapOf_numberOf m, fun _ => rfl⟩
  · exact tabledDecode_encode lists listOf_encode

/-- A tag of 16 bytes that is not checked. -/
def sampleAead : Aead where
  nonceSize := 12
  sealed _ plaintext _ := plaintext ++ List.replicate 16 0
  opened _ ciphertext _ := some (ciphertext.take (ciphertext.length - 16))

theorem sampleAead_inverts : sampleAead.Inverts := by
  intro nonce plaintext additionalData _
  simp [sampleAead]

def sampleService : Service := ⟨sampleCodec, some sampleAead⟩

theorem sampleService_opens (aead : Aead) (h : sampleService.cipher = some aead) :
    aead.Inverts := by
  cases h
  exact sampleAead_inverts

def sampleEnvironment : Environment where
  random n := .ok fun i => UInt8.ofNat (n + i)
  newID n := if n = 1 then "6d0f8a2c4b1e9d7350fa6b2c8e4d1f03" else "b7c1e05d92f84a6e3d10c58f7a2b9e64"
  clock _ := 0
  ordinary _ := by decide
  readFails _ := none
  writeFails _ := none

def sampleWorld : World := ⟨Table.empty, fun _ => none, [], 0⟩

def sampleRequests : List Request :=
  [.create ⟨"Cloudflare old", "cloudflare", "", .encrypted, sampleValues, none⟩,
    .update "6d0f8a2c4b1e9d7350fa6b2c8e4d1f03 "
      ⟨"Cloudflare new", "cloudflare", "", .environment, none, sampleRefs⟩,
    .rename "6d0f8a2c4b1e9d7350fa6b2c8e4d1f03" "Cloudflare renamed"]

def sampleId : String := "6d0f8a2c4b1e9d7350fa6b2c8e4d1f03"

/-- The database is locked at one of the reads. -/
def lockedAt (call : Nat) : Environment :=
  { sampleEnvironment with
    readFails := fun n => if n = call then some "database is locked" else none }

def checksBack (env : Environment) (committed : List Request) (e : Eff) (w : World) : Bool :=
  match e with
  | .select _ => w.committed = committed || (env.readFails w.calls).isNone
  | _ => true

theorem readsBack_of_checks {env : Environment} {committed : List Request} {e : Eff} {w : World}
    (h : checksBack env committed e w = true) : readsBack env committed e w := by
  rintro id rfl grown
  simp only [checksBack, Bool.or_eq_true, decide_eq_true_eq] at h
  exact Option.isNone_iff_eq_none.mp (h.resolve_left grown)

theorem answered_of_checks {env : Environment} {s : Service} {request : Request} {w : World}
    (h : checks (exec env) (checksBack env w.committed) (program s request) w = true) :
    Answered env s request w :=
  (along_of_checks h).mono fun _ _ => readsBack_of_checks

/-- A secret has been replaced by a reference; a rename is refused because its first read
fails, and another one is not. -/
theorem credentials_round_trip_second :
    (∃ contents, last sampleId
        (runs (lockedAt 7) sampleService sampleRequests sampleWorld).1 = some contents ∧
      ∀ processEnv, Yields contents processEnv
        (run (exec (lockedAt 7)) (resolve sampleService sampleId)
          { (runs (lockedAt 7) sampleService sampleRequests sampleWorld).2 with
            processEnv := processEnv }).1) ∧
      Confined (.rename sampleId "Cloudflare renamed")
        (run (exec (lockedAt 7)) (program sampleService (.rename sampleId "Cloudflare renamed"))
          (runs (lockedAt 7) sampleService sampleRequests sampleWorld).2).1
        (runs (lockedAt 7) sampleService sampleRequests sampleWorld).2.table
        (run (exec (lockedAt 7)) (program sampleService (.rename sampleId "Cloudflare renamed"))
          (runs (lockedAt 7) sampleService sampleRequests sampleWorld).2).2.table := by
  have back : AllAnswered (lockedAt 7) sampleService sampleRequests sampleWorld :=
    ⟨answered_of_checks (by decide +kernel), answered_of_checks (by decide +kernel),
      answered_of_checks (by decide +kernel), trivial⟩
  have stored : ((runs (lockedAt 7) sampleService sampleRequests sampleWorld).2.table.find?
      sampleId).map Row.name = some "Cloudflare new" := by
    decide +kernel
  obtain ⟨row, found, -⟩ := Option.map_eq_some_iff.mp stored
  obtain ⟨resolves, confines⟩ := credentials_round_trip (lockedAt 7) sampleService
    sampleCodec_inverts sampleService_opens sampleRequests sampleWorld rfl back
  obtain ⟨contents, known, yields⟩ := resolves sampleId row found
  exact ⟨⟨contents, known, yields (by decide +kernel)⟩,
    confines _ (answered_of_checks (by decide +kernel))⟩

def refuses (result : Except Error (Option Credential)) : Bool :=
  match result with
  | .error _ => true
  | .ok _ => false

/-- A call that is refused and has changed a row is not confined. -/
theorem not_confined {request : Request} {result : Except Error (Option Credential)}
    {T T' : CredentialTable} {id : String} (refused : refuses result = true)
    (changed : T'.find? id ≠ T.find? id) : ¬ Confined request result T T' := by
  intro confined
  cases result with
  | error err => exact changed (by rw [confined.refused err rfl])
  | ok stored => cases refused

def replacement : Request :=
  .update sampleId ⟨"Cloudflare new", "cloudflare", "", .environment, none, sampleRefs⟩

/-- An update is refused because the row that it has written cannot be read back. -/
theorem refused_update_stored :
    ¬ ∀ (env : Environment) (s : Service) (requests : List Request) (w : World),
      s.codec.Inverts → (∀ aead, s.cipher = some aead → aead.Inverts) → w.table = Table.empty →
        ∀ request, Confined request
          (run (exec env) (program s request) (runs env s requests w).2).1
          (runs env s requests w).2.table
          (run (exec env) (program s request) (runs env s requests w).2).2.table := by
  intro confines
  have refused : refuses (run (exec (lockedAt 6)) (program sampleService replacement)
      (runs (lockedAt 6) sampleService (sampleRequests.take 1) sampleWorld).2).1 = true := by
    decide +kernel
  have changed : (run (exec (lockedAt 6)) (program sampleService replacement)
      (runs (lockedAt 6) sampleService (sampleRequests.take 1) sampleWorld).2).2.table.find?
        sampleId ≠
      (runs (lockedAt 6) sampleService (sampleRequests.take 1) sampleWorld).2.table.find?
        sampleId := by
    decide +kernel
  exact not_confined refused changed (confines (lockedAt 6) sampleService (sampleRequests.take 1)
    sampleWorld sampleCodec_inverts sampleService_opens rfl replacement)

end CredentialRounds
