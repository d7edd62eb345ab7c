import CertMate.CredentialRounds
import CertMate.ThreadPools

/-!
# Renames and updates side by side

`Rename` reads the whole row and writes it back under the new name. The secret
of the last update survives as long as no other update has been committed
between the two.
-/
namespace CredentialRaces
open CallTrees ThreadPools UniqueTables
open CredentialModel CredentialService CredentialContents
open CertificateModel (Bytes Time)
open DomainValidation (trimSpace)

/-- The name that a request gives to the row. -/
def newName : Request → Option String
  | .update _ request => some (trimSpace request.name)
  | .rename _ name => some (trimSpace name)
  | _ => none

/-- What a thread remembers: its request and the row it has read. -/
structure Local where
  request : Request
  read : Option Row
  deriving DecidableEq

abbrev Configuration := Config Eff Ans World Local (Except Error (Option Credential))

def note (l : Local) : (e : Eff) → Ans e → Local
  | .select _, .ok (some row) => { l with read := some row }
  | _, _ => l

def answers : (e : Eff) → Ans e → Prop
  | .select id, r => ∀ row, r = .ok (some row) → row.id = id
  | _, _ => True

section Service
variable (env : Environment) (s : Service)

/-- The columns an `UPDATE` may set: an update sets what it asks for, a rename
what it has read. -/
def Meant (l : Local) (columns : Columns) : Prop :=
  match l.request with
  | .update _ request => ∃ contents, contentsOf request = some contents ∧ Carries s columns contents
  | .rename _ _ => ∃ row, l.read = some row ∧
      ∀ contents, Carries s row.columns contents → Carries s columns contents
  | _ => False

def allows (l : Local) : Eff → Prop
  | .update caller id columns => caller = l.request ∧ l.request.target = some id ∧
      newName l.request = some columns.name ∧ Meant s l columns
  | .insert _ | .delete _ => False
  | _ => True

def thread (request : Request) : Thread Eff Ans Local (Except Error (Option Credential)) :=
  ⟨CredentialRounds.program s request, ⟨request, none⟩⟩

/-- Updates and renames of any rows. -/
def concurrent : Request → Prop
  | .update _ _ | .rename _ _ => True
  | _ => False

def pool : System Eff Ans World Local (Except Error (Option Credential)) where
  exec _ := exec env
  enabled _ _ _ := true
  note := note
  spawn _ _ := none
  starts th := ∃ request, concurrent request ∧ th = thread s request
  restart w := w

/-- Between its read and its write of the row `id` a rename sees no update that
changes what the row means. -/
def undisturbed (id : String) : Discipline Eff Ans World Local (Except Error (Option Credential)) where
  start _ _ := True
  call c t e :=
    match e with
    | .update (.rename _ _) target _ => target = id → ∀ th read stored, c.threads t = some th →
        th.seen.read = some read → c.world.table.find? id = some stored →
        ∀ contents, Carries s stored.columns contents → Carries s read.columns contents
    | _ => True
  crash _ := True

def updateOf (id : String) : Request → Option CreateRequest
  | .update target request => if trimSpace target = id then some request else none
  | _ => none

/-- The request of the last update of `id` that has been committed. -/
def lastUpdate (id : String) (committed : List Request) : Option CreateRequest :=
  committed.findSome? (updateOf id)

/-- The name that the last request for `id` that has been committed has set. -/
def lastName (id : String) (committed : List Request) : Option String :=
  committed.findSome? fun request => if request.target = some id then newName request else none

/-- What the row `id` has to mean, if it meant `contents` at first. -/
def meaning (id : String) (contents : Contents) (committed : List Request) : Contents :=
  ((lastUpdate id committed).bind contentsOf).getD contents

end Service

section Programs
variable {s : Service}

-- A goal about a program is otherwise reduced as far as the texts in it go.
attribute [local irreducible] trimSpace

abbrev Keeps (s : Service) {β : Type} (p : Operation β) (l : Local) : Prop :=
  Follows answers (allows s) note p l fun _ _ => True

/-- A program that goes on with a row it has read. -/
theorem dnsCredential_keeps {β : Type} {id : String} {l : Local}
    {f : Except Error (Credential × Bytes) → Operation β}
    (failed : ∀ err l', Keeps s (f (.error err)) l')
    (found : ∀ row value encrypted, row.id = id →
      scanDNSCredential s row = .ok (value, encrypted) →
      Keeps s (f (.ok (value, encrypted))) { l with read := some row }) :
    Keeps s (dnsCredential s id >>= f) l := by
  refine ⟨trivial, fun r honest => ?_⟩
  cases r with
  | error err => exact failed err _
  | ok answer =>
    cases answer with
    | none => exact failed _ _
    | some row =>
      change Keeps s (f (scanDNSCredential s row)) { l with read := some row }
      cases scanned : scanDNSCredential s row with
      | error err => exact failed err _
      | ok stored => exact found row stored.1 stored.2 (honest row rfl) scanned

theorem Meant.timed {l : Local} {value : Credential} {encrypted : Bytes}
    (h : Meant s l (columnsOf s value encrypted)) (updatedAt : Time) :
    Meant s l (columnsOf s { value with updatedAt := updatedAt } encrypted) := by
  have carried : ∀ contents, Carries s (columnsOf s value encrypted) contents →
      Carries s (columnsOf s { value with updatedAt := updatedAt } encrypted) contents :=
    fun contents carries => ⟨carries.code, carries.masked, carries.refs⟩
  unfold Meant at h ⊢
  split at h
  · obtain ⟨contents, asked, carries⟩ := h
    exact ⟨contents, asked, carried contents carries⟩
  · obtain ⟨row, read, carries⟩ := h
    exact ⟨row, read, fun contents held => carried contents (carries contents held)⟩
  · exact h

theorem updateDNSCredential_keeps {caller : Request} {value : Credential} {encrypted : Bytes}
    {l : Local} (own : caller = l.request) (target : l.request.target = some value.id)
    (named : newName l.request = some value.name)
    (meant : Meant s l (columnsOf s value encrypted)) :
    Keeps s (updateDNSCredential s caller value encrypted) l := by
  refine follows_call.mpr ⟨trivial, fun updatedAt _ => ?_⟩
  refine follows_call.mpr ⟨⟨own, target, named, meant.timed updatedAt⟩, fun r _ => ?_⟩
  cases r with
  | error err => exact trivial
  | ok n =>
    cases n with
    | zero => exact trivial
    | succ n =>
      exact dnsCredential_keeps (fun _ _ => trivial) fun _ _ _ _ _ => trivial

theorem update_keeps (inverts : s.codec.Inverts)
    (opens : ∀ aead, s.cipher = some aead → aead.Inverts) (id : String) (request : CreateRequest) :
    Keeps s (update s id request) ⟨.update id request, none⟩ := by
  have silent : Follows answers (allows s) note (prepare s request) ⟨.update id request, none⟩
      fun r l => l = ⟨.update id request, none⟩ ∧ Ready s request r := by
    refine ((prepare_draws inverts opens request).weaken fun _ _ _ => trivial).follows ?_ ?_ _
    · rintro _ _ rfl
      exact trivial
    · rintro _ _ _ rfl
      rfl
  refine silent.bind ?_
  rintro (err | ⟨value, encrypted⟩) _ ⟨rfl, ready⟩
  · exact trivial
  · obtain ⟨-, name, -, contents, asked, carries⟩ := ready value encrypted rfl
    refine updateDNSCredential_keeps rfl rfl (congrArg some name.symm) ⟨contents, asked, ?_⟩
    exact ⟨carries.code, carries.masked, carries.refs⟩

theorem rename_keeps (inverts : s.codec.Inverts) (id name : String) :
    Keeps s (rename s id name) ⟨.rename id name, none⟩ := by
  unfold rename
  by_cases short : trimSpace name = "" ∨ 100 < (trimSpace name).utf8ByteSize
  · simp only [if_pos short]
    exact trivial
  · simp only [if_neg short]
    refine dnsCredential_keeps (fun _ _ => trivial) fun row value encrypted numbered scanned => ?_
    have target : some (trimSpace id) = some value.id :=
      congrArg some ((scan_id scanned).trans numbered).symm
    refine updateDNSCredential_keeps rfl target rfl ⟨row, rfl, fun contents carries => ?_⟩
    have read := carries_scanned inverts carries scanned
    exact ⟨read.code, read.masked, read.refs⟩

/-- What is made of the result does not matter. -/
theorem map_keeps {β γ : Type} {p : Operation β} {l : Local} (h : Keeps s p l) (g : β → γ) :
    Keeps s (p >>= fun r => pure (g r)) l :=
  h.bind fun _ _ _ => trivial

theorem program_keeps (inverts : s.codec.Inverts)
    (opens : ∀ aead, s.cipher = some aead → aead.Inverts) {request : Request}
    (admitted : concurrent request) :
    Keeps s (CredentialRounds.program s request) ⟨request, none⟩ := by
  cases request with
  | update id request =>
    rw [CredentialRounds.program]
    exact map_keeps (update_keeps inverts opens id request) (Except.map some)
  | rename id name =>
    rw [CredentialRounds.program]
    exact map_keeps (rename_keeps inverts id name) (Except.map some)
  | create | delete => cases admitted

end Programs

/-- The row `id` has the name of the last request that was committed, and means
what the last update has asked for. -/
def Current (s : Service) (id : String) (contents : Contents) (name : String) (w : World) : Prop :=
  ∃ row, w.table.find? id = some row ∧ row.name = (lastName id w.committed).getD name ∧
    Carries s row.columns (meaning id contents w.committed)

section Rows
variable {env : Environment} {s : Service} {id name : String} {contents : Contents} {w : World}

theorem exec_answers (e : Eff) : answers e (exec env e w).1 := by
  cases e with
  | select id =>
    intro row found
    cases failing : env.readFails w.calls with
    | some err =>
      simp only [exec, failing] at found
      cases found
    | none =>
      simp only [exec, failing] at found
      exact Table.key_of_find? (Except.ok.inj found)
  | _ => trivial

/-- All calls but a committed `UPDATE` leave the row and the history alone. -/
theorem current_frame {e : Eff} {l : Local} (allowed : allows s l e)
    (reads : ∀ caller target columns, e ≠ .update caller target columns)
    (h : Current s id contents name w) : Current s id contents name (exec env e w).2 := by
  cases e with
  | update caller target columns => exact absurd rfl (reads caller target columns)
  | insert | delete => exact allowed.elim
  | select j =>
    simp only [exec]
    split <;> exact h
  | _ => exact h

theorem lastName_cons {caller : Request} {committed : List Request}
    (other : caller.target ≠ some id) : lastName id
    (caller :: committed) = lastName id committed := by
  rw [lastName, List.findSome?_cons, if_neg other]
  rfl

theorem meaning_cons {caller : Request} {committed : List Request}
    (other : ∀ target request, caller = .update target request → trimSpace target ≠ id) :
    meaning id contents (caller :: committed) = meaning id contents committed := by
  have same : lastUpdate id (caller :: committed) = lastUpdate id committed := by
    cases caller with
    | update target request =>
      have skipped : updateOf id (.update target request) = none :=
        if_neg (other target request rfl)
      rw [lastUpdate, List.findSome?_cons, skipped]
      rfl
    | _ => rfl
  rw [meaning, same, meaning]

theorem current_update {l : Local} {caller : Request} {target : String} {columns : Columns}
    (allowed : allows s l (.update caller target columns))
    (undisturbed : ∀ old new, caller = .rename old new → target = id → ∀ read stored,
      l.read = some read → w.table.find? id = some stored →
      ∀ contents, Carries s stored.columns contents → Carries s read.columns contents)
    (h : Current s id contents name w) :
    Current s id contents name (exec env (.update caller target columns) w).2 := by
  obtain ⟨own, about, named, meant⟩ := allowed
  subst own
  obtain ⟨row, there, called, carries⟩ := h
  rcases update_cases env w l.request target columns with
    ⟨-, table, history⟩ | ⟨old, -, found, replaced, history⟩
  · refine ⟨row, table ▸ there, history ▸ called, history ▸ carries⟩
  · unfold Current
    rw [history, Table.find?_replace replaced]
    by_cases mine : id = target
    · subst mine
      rw [if_pos rfl, found]
      refine ⟨_, rfl, ?_, ?_⟩
      · rw [lastName, List.findSome?_cons, if_pos about, named]
        rfl
      · unfold Meant at meant
        cases request : l.request with
        | update target made =>
          rw [request] at about meant
          obtain ⟨asked, known, written⟩ := meant
          have own : updateOf id (.update target made) = some made := if_pos (Option.some.inj about)
          have last : lastUpdate id (.update target made :: w.committed) = some made := by
            rw [lastUpdate, List.findSome?_cons, own]
          rw [meaning, last, Option.bind_some, known]
          exact written
        | rename old new =>
          rw [request] at meant
          obtain ⟨read, seen, written⟩ := meant
          rw [meaning_cons fun _ _ h => Request.noConfusion h]
          exact written _ (undisturbed old new request rfl read row seen there _ carries)
        | create | delete =>
          rw [request] at meant
          exact meant.elim
    · rw [if_neg mine, lastName_cons (about ▸ fun h => mine (Option.some.inj h).symm),
        meaning_cons fun _ _ h same => mine ?_]
      · exact ⟨row, there, called, carries⟩
      · rw [h] at about
        exact same.symm.trans (Option.some.inj about)

end Rows

section Runs
variable {env : Environment} {s : Service}

abbrev Protocol (env : Environment) (s : Service) :
    Assertion Eff Ans World Local (Except Error (Option Credential)) :=
  conforming (pool env s) answers (allows s) fun _ _ => True

theorem protocol_stable (inverts : s.codec.Inverts)
    (opens : ∀ aead, s.cipher = some aead → aead.Inverts)
    {D : Discipline Eff Ans World Local (Except Error (Option Credential))} :
    (Protocol env s).Stable (pool env s) D fun _ => True :=
  conforming_stable (fun _ e _ => exec_answers e)
    (fun _ ⟨_, admitted, same⟩ => same ▸ program_keeps inverts opens admitted)
    (fun _ _ _ h => nomatch h)

def current (s : Service) (id : String) (contents : Contents) (name : String) :
    Assertion Eff Ans World Local (Except Error (Option Credential)) where
  world := Current s id contents name
  thread _ _ _ := True

theorem current_stable (id : String) (contents : Contents) (name : String) :
    (current s id contents name).Stable (pool env s) (undisturbed s id)
      (Protocol env s).Holds where
  own c t e k l known holds running _ ok := by
    have allowed := allowed_of_conforming known running
    refine ⟨?_, trivial⟩
    by_cases update : ∃ caller target columns, e = .update caller target columns
    · obtain ⟨caller, target, columns, rfl⟩ := update
      refine current_update allowed ?_ holds.world
      rintro old new rfl mine read stored seen there
      exact ok mine _ read stored running seen there
    · exact current_frame allowed (fun caller target columns h =>
        update ⟨caller, target, columns, h⟩) holds.world
  other _ _ _ _ _ _ _ _ _ _ _ _ _ _ := trivial
  start _ _ _ _ _ _ _ _ := trivial
  spawn _ _ _ _ _ _ _ _ _ _ _ _ _ := trivial
  crash _ _ holds _ := holds.world

end Runs

/-- The row `id` has the name that was committed last, and `Resolve` answers with
what the last committed update has asked for. -/
def Resolves (env : Environment) (s : Service) (id : String) (contents : Contents) (name : String)
    (w : World) : Prop :=
  (∃ row, w.table.find? id = some row ∧ row.name = (lastName id w.committed).getD name) ∧
    ∀ processEnv, env.readFails w.calls = none →
      Yields (meaning id contents w.committed) processEnv
        (run (exec env) (resolve s id) { w with processEnv := processEnv }).1

/-- The row a run starts from, and nothing committed yet. -/
structure Stored (s : Service) (id : String) (contents : Contents) (name : String)
    (w : World) : Prop where
  row : ∃ row, w.table.find? id = some row ∧ row.name = name ∧ Carries s row.columns contents
  committed : w.committed = []

/-- Renames and updates in any order, none of whose renames of `id` is disturbed,
never lose a secret. -/
theorem rename_keeps_secret {env : Environment} {s : Service} (inverts : s.codec.Inverts)
    (opens : ∀ aead, s.cipher = some aead → aead.Inverts) {id name : String} {contents : Contents}
    {w : World} (stored : Stored s id contents name w) {c : Configuration}
    (run : Reach (pool env s) (undisturbed s id) (.crowd w []) c) :
    Resolves env s id contents name c.world := by
  have known : (Protocol env s).Holds (.crowd w []) := ⟨trivial, fun _ _ h => nomatch h⟩
  have holds : (current s id contents name).Holds (.crowd w []) := by
    refine ⟨?_, fun _ _ _ => trivial⟩
    obtain ⟨row, there, named, carries⟩ := stored.row
    change Current s id contents name w
    rw [Current, stored.committed]
    exact ⟨row, there, named, carries⟩
  obtain ⟨-, last⟩ := (current_stable id contents name).reach
    (fun _ _ => (protocol_stable inverts opens).step trivial) run known holds
  obtain ⟨row, there, named, carries⟩ := last.world
  refine ⟨⟨row, there, named⟩, fun processEnv reads => ?_⟩
  cases Table.key_of_find? there
  exact resolve_yields env (w := { c.world with processEnv := processEnv }) carries there reads

open CredentialRounds (sampleService sampleEnvironment sampleWorld sampleRequests sampleValues
  sampleRefs sampleCodec_inverts sampleService_opens sampleId)

def oldContents : Contents := ⟨"dns_cf", .encrypted sampleValues⟩

def storedWorld : World :=
  (CredentialRounds.runs sampleEnvironment sampleService (sampleRequests.take 1) sampleWorld).2

theorem storedWorld_stored :
    Stored sampleService sampleId oldContents "Cloudflare old" storedWorld := by
  have named : (storedWorld.table.find? sampleId).map Row.name = some "Cloudflare old" := by
    decide +kernel
  have asked : CredentialRounds.last sampleId (CredentialRounds.runs sampleEnvironment sampleService
      (sampleRequests.take 1) sampleWorld).1 = some oldContents := by
    decide +kernel
  have start : CredentialRounds.Keeps sampleService sampleWorld.table fun _ => none :=
    fun _ => Or.inl ⟨rfl, rfl⟩
  refine ⟨?_, by decide +kernel⟩
  have back : CredentialRounds.AllAnswered sampleEnvironment sampleService (sampleRequests.take 1)
      sampleWorld := CredentialRounds.answered_of_reads (fun _ => rfl) _ _
  rcases CredentialRounds.runs_keep sampleCodec_inverts sampleService_opens
    (sampleRequests.take 1) start back sampleId with ⟨absent, -⟩ | ⟨row, contents, there, known, carries⟩
  · have found : storedWorld.table.find? sampleId = none := absent
    rw [found] at named
    cases named
  · have found : storedWorld.table.find? sampleId = some row := there
    rw [found] at named
    cases asked.symm.trans known
    exact ⟨row, there, Option.some.inj named, carries⟩

def couple : Configuration := .crowd storedWorld
  [thread sampleService (.rename sampleId "Cloudflare renamed"),
    thread sampleService (.update sampleId
      ⟨"Cloudflare new", "cloudflare", "", .environment, none, sampleRefs⟩)]

theorem couple_reach {D : Discipline Eff Ans World Local (Except Error (Option Credential))}
    (ok : ∀ c th, D.start c th) :
    Reach (pool sampleEnvironment sampleService) D (.crowd storedWorld []) couple := by
  refine crowd_reach ok _ _ fun th there => ?_
  have concurrently : ∀ old new, concurrent (.rename old new) := fun _ _ => trivial
  have besides : ∀ id request, concurrent (.update id request) := fun _ _ => trivial
  rcases List.mem_cons.mp there with rfl | there
  · exact ⟨_, concurrently _ _, rfl⟩
  · rw [List.mem_singleton.mp there]
    exact ⟨_, besides _ _, rfl⟩

/-- A rename writes only over the row it has read. -/
def rereads (c : Configuration) (t : Nat) (e : Eff) : Bool :=
  match e with
  | .update (.rename _ _) target _ =>
    decide ((c.threads t).bind (fun th => th.seen.read) = c.world.table.find? target)
  | _ => true

theorem undisturbed_of_rereads {c : Configuration} {t : Nat} {e : Eff} (h : rereads c t e = true) :
    (undisturbed sampleService sampleId).call c t e := by
  cases e with
  | update caller target columns =>
    cases caller with
    | rename old new =>
      intro mine th read stored running seen there contents carries
      have same := of_decide_eq_true h
      rw [running, Option.bind_some, seen, mine, there] at same
      cases same
      exact carries
    | _ => trivial
  | _ => trivial

/-- The rename follows the update. -/
theorem rename_keeps_secret_second : ∃ c : Configuration, c.Quiet ∧ c.world.committed.length = 2 ∧
    Resolves sampleEnvironment sampleService sampleId oldContents "Cloudflare old" c.world := by
  have played : ((pool sampleEnvironment sampleService).play rereads [0, 0, 1, 1, 1, 0, 1]
      couple).map (fun c => (c.resting 2, c.world.committed.length)) = some (true, 2) := by
    decide +kernel
  obtain ⟨c, schedule, seen⟩ := Option.map_eq_some_iff.mp played
  obtain ⟨ended, writes⟩ := Prod.mk.inj seen
  have run := play_reach (D := undisturbed sampleService sampleId)
    (fun _ _ _ => undisturbed_of_rereads) schedule
  exact ⟨c, quiet_of_resting (play_bounded (crowd_free _ [_, _]) schedule) ended, writes,
    rename_keeps_secret sampleCodec_inverts sampleService_opens storedWorld_stored
      ((couple_reach fun _ _ => trivial).trans run)⟩

/-- The update comes between the read and the write of the rename, which puts the
old secret back. -/
theorem secret_put_back : ¬ ∀ (env : Environment) (s : Service) (id name : String)
    (contents : Contents) (w : World) (c : Configuration), s.codec.Inverts →
    (∀ aead, s.cipher = some aead → aead.Inverts) → Stored s id contents name w →
    Reach (pool env s) .uninterrupted (.crowd w []) c → c.Quiet →
    Resolves env s id contents name c.world := by
  intro claim
  have played : ((pool sampleEnvironment sampleService).play (fun _ _ _ => true)
      [1, 0, 0, 0, 1, 1, 1] couple).map (fun c => (c.resting 2,
        meaning sampleId oldContents c.world.committed,
        (run (exec sampleEnvironment) (resolve sampleService sampleId)
          { c.world with processEnv := fun _ => none }).1)) =
      some (true, ⟨"dns_cf", .environment sampleRefs⟩, .ok ⟨"dns_cf", sampleValues⟩) := by
    decide +kernel
  obtain ⟨c, schedule, seen⟩ := Option.map_eq_some_iff.mp played
  simp only [Prod.mk.injEq] at seen
  obtain ⟨ended, asked, resolved⟩ := seen
  have run : Reach (pool sampleEnvironment sampleService) .uninterrupted couple c :=
    play_reach (fun _ _ _ _ => trivial) schedule
  obtain ⟨-, yields⟩ := claim sampleEnvironment sampleService sampleId "Cloudflare old" oldContents
    storedWorld c sampleCodec_inverts sampleService_opens storedWorld_stored
    ((couple_reach fun _ _ => trivial).trans run)
    (quiet_of_resting (play_bounded (crowd_free _ [_, _]) schedule) ended)
  have missing := (yields (fun _ => none) rfl)
  rw [asked, resolved] at missing
  cases missing.2 "CF_Token" "CF_TOKEN_PROD" (by decide +kernel) rfl

end CredentialRaces
