import CertMate.EnvProgress
import CertMate.RunTriples

/-!
# What the deployment script may do

The commands of `scripts/deploy.sh` against what the script has been answered before them,
and what each of its functions has made sure of when it goes on.
-/
namespace DeployProtocol
open CallTrees RunTriples LineTexts EnvFile EnvFile.LcCtype DeployScript EnvProgress

/-- The answers so far, the latest first. -/
abbrev Told := List (Sigma Ans)

def heard (told : Told) (e : Eff) (r : Ans e) : Told := ⟨e, r⟩ :: told

/-- What the script knows of its files. -/
structure Files where
  env : Option Kind
  file : Option Text
  temp : Option Text

structure Note where
  files : Files
  told : Told

/-- The files are the same, and nothing is forgotten. -/
def Later (x y : Note) : Prop := y.files = x.files ∧ x.told ⊆ y.told

theorem Later.refl (x : Note) : Later x x := ⟨rfl, List.Subset.refl _⟩

theorem Later.trans {x y z : Note} (h : Later x y) (h' : Later y z) : Later x z :=
  ⟨h'.1.trans h.1, fun _ there => h'.2 (h.2 there)⟩

def candidatePath (projectRoot configured : Text) : Text :=
  if configured.head? = some '/' then configured else projectRoot ++ '/' :: configured

/-- A directory of the host that has been found fit for the container. -/
structure Fit (projectRoot configured uid gid directory : Text) (told : Told) : Prop where
  explicit : configured ≠ [] ∧ '$' ∉ configured ∧ configured.head? ≠ some '~'
  unlinked : ⟨.run (.isLink (candidatePath projectRoot configured)), false⟩ ∈ told
  resolved : ⟨.output (.realpath (candidatePath projectRoot configured)), some directory⟩ ∈ told
  narrow : directory ∉ broadPaths projectRoot
  made : ⟨.run (.makeDirectory directory), true⟩ ∈ told
  owner : ⟨.output (.stat "%u" directory), some uid⟩ ∈ told
  group : ⟨.output (.stat "%g" directory), some gid⟩ ∈ told
  mode : ∃ mode, ⟨.output (.stat "%a" directory), some mode⟩ ∈ told ∧ ownerMayWrite mode = true

def Prepared (projectRoot : Text) (vars : Variables) (told : Told) : Prop :=
  ∃ data certs,
    Fit projectRoot (envValue vars "DATA_HOST_DIR" "./data".toList)
      (envValue vars "APP_UID" "10001".toList) (envValue vars "APP_GID" "10001".toList) data told ∧
    Fit projectRoot (envValue vars "CERTS_HOST_DIR" "./certs".toList)
      (envValue vars "APP_UID" "10001".toList) (envValue vars "APP_GID" "10001".toList) certs
      told ∧
    nested data certs = false

theorem Fit.more {projectRoot configured uid gid directory : Text} {told told' : Told}
    (h : Fit projectRoot configured uid gid directory told) (more : told ⊆ told') :
    Fit projectRoot configured uid gid directory told' where
  explicit := h.explicit
  unlinked := more h.unlinked
  resolved := more h.resolved
  narrow := h.narrow
  made := more h.made
  owner := more h.owner
  group := more h.group
  mode := by
    obtain ⟨mode, there, writes⟩ := h.mode
    exact ⟨mode, more there, writes⟩

theorem Prepared.more {projectRoot : Text} {vars : Variables} {told told' : Told}
    (h : Prepared projectRoot vars told) (more : told ⊆ told') :
    Prepared projectRoot vars told' := by
  obtain ⟨data, certs, fit, fit', apart⟩ := h
  exact ⟨data, certs, fit.more more, fit'.more more, apart⟩

/-- A number that `validate_integer_range` lets through; it counts modulo 2^64. -/
def Ranged (value : Text) (minimum maximum : Nat) : Prop :=
  IntegerRanges.Digits (String.ofList value) ∧ minimum ≤ IntegerRanges.number value % 2 ^ 64 ∧
    IntegerRanges.number value % 2 ^ 64 ≤ maximum

variable [LcCtype]

def Files.note (x : Files) : (e : Eff) → Ans e → Files
  | .envKind, kind => { x with env := some kind }
  | .output .readEnv, some text => { x with file := some text }
  | .run .copyExample, _ => { x with env := none, file := none }
  | .run .makeTemp, _ => { x with temp := none }
  | .run .removeTemp, _ => { x with temp := none }
  | .run (.awkValue key value), true => { x with temp := x.file.map (writtenFile key value) }
  | .run (.awkValue _ _), false => { x with temp := none }
  | .run (.awkAdmin username passwordHash), true =>
    { x with temp := x.file.map (adminFile username passwordHash) }
  | .run (.awkAdmin _ _), false => { x with temp := none }
  | .run .replaceEnv, true => ⟨none, x.temp, none⟩
  | _, _ => x

def note (x : Note) (e : Eff) (r : Ans e) : Note := ⟨x.files.note e r, heard x.told e r⟩

/-- What has been checked before there are secrets. -/
structure Checked (vars : Variables) : Prop where
  quoting : ∀ key ∈ sensitiveKeys, exposed vars key = false
  username : envValue vars "ADMIN_USERNAME" "admin".toList ≠ []
  unspaced : (envValue vars "ADMIN_USERNAME" "admin".toList).any space = false
  source : configuredSources vars ≠ []
  hash : given vars "ADMIN_PASSWORD_HASH" = [] ∨
    bcryptShape (given vars "ADMIN_PASSWORD_HASH") = true
  port : Ranged (envValue vars "APP_PORT" "8080".toList) 1 65535
  data : envValue vars "DATA_DIR" "/data".toList = "/data".toList
  certs : envValue vars "CERT_OUTPUT_DIR" "/certs".toList = "/certs".toList
  user : Ranged (envValue vars "APP_UID" "10001".toList) 1 2147483647
  group : Ranged (envValue vars "APP_GID" "10001".toList) 1 2147483647

structure Deployable (vars : Variables) : Prop extends Checked vars where
  session : given vars "SESSION_SECRET_FILE" ≠ [] ∨ 32 ≤ size (given vars "SESSION_SECRET")
  encryption : given vars "APP_ENCRYPTION_KEY_FILE" ≠ [] ∨
    32 ≤ size (given vars "APP_ENCRYPTION_KEY")
  distinct : given vars "SESSION_SECRET_FILE" ≠ [] ∨ given vars "APP_ENCRYPTION_KEY_FILE" ≠ [] ∨
    given vars "SESSION_SECRET" ≠ given vars "APP_ENCRYPTION_KEY"

/-- `.env` is made only where there is none, it is replaced only by what a change makes of
it, and the service is started only when all has been checked. -/
def allows (projectRoot : Text) (x : Note) : Eff → Prop
  | .run .copyExample => x.files.env = some .absent
  | .run .replaceEnv => ∃ file file', x.files.file = some file ∧ x.files.temp = some file' ∧
      Change file file'
  | .run .composeUp => ∃ file vars, x.files.file = some file ∧ Current file vars ∧
      Deployable vars ∧ Prepared projectRoot vars x.told
  | _ => True

/-- A command that is always allowed and leaves the files alone. -/
def plain : Eff → Bool
  | .envKind => false
  | .output .readEnv => false
  | .run c =>
    match c with
    | .copyExample | .makeTemp | .removeTemp | .awkValue _ _ | .awkAdmin _ _ | .replaceEnv
    | .composeUp => false
    | _ => true
  | _ => true

section Plain
variable {e : Eff}

theorem note_plain (h : plain e = true) (x : Files) (r : Ans e) : x.note e r = x := by
  cases e with
  | run c => cases c <;> first | rfl | cases h
  | output q => cases q <;> first | rfl | cases h
  | exampleKind => rfl
  | envKind => cases h

theorem allows_plain (h : plain e = true) (projectRoot : Text) (x : Note) :
    allows projectRoot x e := by
  cases e with
  | run c => cases c <;> first | exact trivial | cases h
  | output q => exact trivial
  | exampleKind => exact trivial
  | envKind => exact trivial

end Plain

/-- Only what is allowed is done, and where the script goes on, `Q` holds. -/
def Safe (projectRoot : Text) {α : Type} (p : Script α) (x : Note) (Q : α → Note → Prop) : Prop :=
  Follows (fun _ _ => True) (allows projectRoot) note p.run x fun r y => ∀ a, r = .ok a → Q a y

/-- The script knows the file that is in place. -/
def Knows (x : Note) (vars : Variables) : Prop :=
  ∃ file, x.files.file = some file ∧ Current file vars

theorem Knows.later {x y : Note} {vars : Variables} (h : Knows x vars) (later : Later x y) :
    Knows y vars := by
  unfold Knows
  rwa [later.1]

section Rules
variable {projectRoot : Text} {α β : Type} {p : Script α} {f : α → Script β} {x : Note}
  {P Q : α → Note → Prop} {Q' : β → Note → Prop}

theorem safe_pure {a : α} (h : Q a x) : Safe projectRoot (pure a) x Q := by
  intro b same
  cases same
  exact h

theorem safe_throw (e : Exit) : Safe projectRoot (throw e : Script α) x Q := by
  intro b same
  cases same

theorem safe_die (message : String) : Safe projectRoot (die message : Script α) x Q :=
  safe_throw _

theorem Safe.bind (h : Safe projectRoot p x P)
    (next : ∀ a y, P a y → Safe projectRoot (f a) y Q') : Safe projectRoot (p >>= f) x Q' := by
  have both : Follows (fun _ _ => True) (allows projectRoot) note
      (p.run >>= ExceptT.bindCont f) x fun r y => ∀ a, r = .ok a → Q' a y := by
    refine Follows.bind h fun r y ends => ?_
    cases r with
    | ok a => exact next a y (ends a rfl)
    | error e => exact safe_throw e
  exact both

theorem Safe.mono (h : Safe projectRoot p x P) (weaker : ∀ a y, P a y → Q a y) :
    Safe projectRoot p x Q :=
  Follows.mono (fun _ y ends a same => weaker a y (ends a same)) h

theorem safe_ask {e : Eff} {Q : Ans e → Note → Prop} (allowed : allows projectRoot x e)
    (next : ∀ r, Q r (note x e r)) : Safe projectRoot (ask e) x Q := by
  refine ⟨allowed, fun r _ a same => ?_⟩
  cases same
  exact next r

/-- A plain command adds to what the script has been told. -/
theorem safe_plain {e : Eff} (h : plain e = true) :
    Safe projectRoot (ask e) x fun r y => Later x y ∧ ⟨e, r⟩ ∈ y.told := by
  apply safe_ask (allows_plain h projectRoot x)
  intro r
  exact ⟨⟨note_plain h x.files r, List.subset_cons_self _ _⟩, List.mem_cons_self⟩

theorem safe_must {condition : Bool} {message : String} :
    Safe projectRoot (must condition message) x fun _ y => y = x ∧ condition = true := by
  unfold must
  split
  · rename_i holds
    exact safe_pure ⟨rfl, holds⟩
  · exact safe_die message

theorem safe_orDie {c : Command} {message : String} {Q : Unit → Note → Prop}
    (allowed : allows projectRoot x (.run c)) (next : Q () (note x (.run c) true)) :
    Safe projectRoot (orDie c message) x Q := by
  unfold orDie
  refine (safe_ask (Q := fun r y => y = note x (.run c) r) allowed fun r => rfl).bind ?_
  rintro done y rfl
  refine safe_must.mono ?_
  rintro - y ⟨rfl, holds⟩
  have done_ : done = true := holds
  rw [done_]
  exact next

/-- `command || die` with a plain command. -/
theorem plain_orDie {c : Command} {message : String} (h : plain (.run c) = true) :
    Safe projectRoot (orDie c message) x fun _ y => Later x y ∧ ⟨.run c, true⟩ ∈ y.told := by
  apply safe_orDie (allows_plain h projectRoot x)
  exact ⟨⟨note_plain h x.files true, List.subset_cons_self _ _⟩, List.mem_cons_self⟩

theorem plain_assigned {q : Question} (h : plain (.output q) = true) :
    Safe projectRoot (assigned q) x fun text y =>
      Later x y ∧ ⟨.output q, some text⟩ ∈ y.told := by
  unfold assigned
  refine (safe_plain h).bind fun r y told => ?_
  cases r with
  | some text => exact safe_pure told
  | none => exact safe_throw _

theorem plain_assignedOrDie {q : Question} {message : String} (h : plain (.output q) = true) :
    Safe projectRoot (assignedOrDie q message) x fun text y =>
      Later x y ∧ ⟨.output q, some text⟩ ∈ y.told := by
  unfold assignedOrDie
  refine (safe_plain h).bind fun r y told => ?_
  cases r with
  | some text => exact safe_pure told
  | none => exact safe_die message

end Rules

section Walk
variable {projectRoot : Text} {α : Type} {x : Note} {vars : Variables}

/-- Nothing is forgotten on the way. -/
theorem Safe.remember {p : Script α} {Q : α → Note → Prop} (h : Safe projectRoot p x Q) :
    Safe projectRoot p x fun a y => x.told ⊆ y.told ∧ Q a y := by
  have kept : ∀ (p : Prog Eff Ans (Except Exit α)) (z : Note), x.told ⊆ z.told →
      Follows (fun _ _ => True) (allows projectRoot) note p z
        (fun r y => ∀ a, r = .ok a → Q a y) →
      Follows (fun _ _ => True) (allows projectRoot) note p z
        fun r y => ∀ a, r = .ok a → x.told ⊆ y.told ∧ Q a y := by
    intro p
    induction p with
    | ret r =>
      intro z more ends a same
      exact ⟨more, ends a same⟩
    | call e k ih =>
      intro z more h
      refine ⟨h.1, fun r told => ih r _ ?_ (h.2 r told)⟩
      exact fun _ there => List.mem_cons_of_mem _ (more there)
  exact kept p x (List.Subset.refl _) h

theorem requireCommand_safe (name : String) :
    Safe projectRoot (requireCommand name) x fun _ y => Later x y :=
  (plain_orDie rfl).mono fun _ _ told => told.1

theorem parseEnv_safe : Safe projectRoot parseEnv x fun vars y => Knows y vars := by
  have read : Safe projectRoot (assigned .readEnv) x fun text y => y.files.file = some text := by
    unfold assigned
    refine (safe_ask (Q := fun r y => y = note x (.output .readEnv) r) trivial
      fun r => rfl).bind ?_
    rintro r y rfl
    cases r with
    | some text => exact safe_pure rfl
    | none => exact safe_throw _
  unfold parseEnv
  refine read.bind fun text y there => ?_
  cases parsed : parseEnvFile text with
  | ok vars => exact safe_pure ⟨text, there, .of_parse parsed⟩
  | error message => exact safe_die _

/-- The new file takes the place of the old one. -/
theorem replace_safe {c : Command} {first second third fourth : String} {file file' : Text}
    (here : x.files.file = some file) (change : Change file file')
    (allowed : ∀ y, allows projectRoot y (.run c))
    (written : ∀ y : Files, y.file = some file →
      y.note (.run c) true = { y with temp := some file' }) {rest : Script α}
    {Q : α → Note → Prop}
    (next : ∀ y : Note, y.files.file = some file' → ⟨.run .replaceEnv, true⟩ ∈ y.told →
      Safe projectRoot rest y Q) :
    Safe projectRoot
      (do orDie .makeTemp first
          orDie c second
          orDie .protectTemp third
          orDie .replaceEnv fourth
          rest) x Q := by
  refine Safe.bind (safe_orDie (Q := fun _ y => y = note x (.run .makeTemp) true) trivial rfl) ?_
  rintro - y rfl
  refine Safe.bind (safe_orDie (Q := fun _ z =>
    z = note (note x (.run .makeTemp) true) (.run c) true) (allowed _) rfl) ?_
  rintro - z rfl
  refine (plain_orDie rfl).bind ?_
  rintro - z ⟨later, -⟩
  have files : z.files = { x.files with temp := some file' } := by
    rw [later.1]
    exact written { x.files with temp := none } here
  have standing : z.files.file = some file ∧ z.files.temp = some file' := by
    rw [files]
    exact ⟨here, rfl⟩
  refine Safe.bind (safe_orDie (Q := fun _ y => y.files.file = some file' ∧
    ⟨.run .replaceEnv, true⟩ ∈ y.told) ?_ ⟨standing.2, List.mem_cons_self⟩) ?_
  · exact ⟨file, file', standing.1, standing.2, change⟩
  · exact fun _ y done => next y done.1 done.2

theorem writeEnvValue_safe (posix : Posix) {keys : String × String} {secret : Text}
    (knows : Knows x vars)
    (own : keys ∈ secretKeys) (unset : given vars keys.1 = [] ∧ given vars keys.2 = [])
    (shape : secretShape secret = true) :
    Safe projectRoot (writeEnvValue vars keys.1 secret) x fun vars' y =>
      vars' = (EnvFile.writeEnvValue keys.1.toList secret ⟨[], vars⟩).vars ∧ Knows y vars' := by
  obtain ⟨file, here, current⟩ := knows
  apply replace_safe (c := .awkValue keys.1.toList secret) here
    (.secret current own unset shape) fun _ => trivial
  · intro y there
    simp [Files.note, there]
  · intro y there _
    exact safe_pure ⟨rfl, _, there, current.write posix (secretKeys_ident own) (secret_runes shape)⟩

theorem writeAdminCredentials_safe {username passwordHash : Text} (knows : Knows x vars)
    (name : usernameShape username = true) (hash : bcryptShape passwordHash = true) :
    Safe projectRoot (writeAdminCredentials username passwordHash) x fun vars' y =>
      Knows y vars' ∧ ⟨.run .replaceEnv, true⟩ ∈ y.told := by
  obtain ⟨file, here, -⟩ := knows
  apply replace_safe (c := .awkAdmin username passwordHash) here (.admin name hash) fun _ => trivial
  · intro y there
    simp [Files.note, there]
  · intro y _ replaced
    exact parseEnv_safe.remember.mono fun vars' z ends => ⟨ends.2, ends.1 replaced⟩

theorem buildSetupHelper_safe (ready : Bool) :
    Safe projectRoot (buildSetupHelper ready) x fun _ y => Later x y := by
  unfold buildSetupHelper
  split
  · exact safe_pure (.refl x)
  · refine (requireCommand_safe _).bind fun _ y later => ?_
    exact (plain_orDie rfl).mono fun _ _ told => later.trans told.1

theorem chooseUsername_safe (requested : Text) :
    Safe projectRoot (chooseUsername vars requested) x fun _ y => Later x y := by
  unfold chooseUsername
  split
  · exact safe_pure (.refl x)
  · refine (plain_orDie rfl).bind ?_
    rintro - y ⟨asked, -⟩
    refine (plain_assigned rfl).bind ?_
    rintro username z ⟨read, -⟩
    exact safe_pure (asked.trans read)

theorem choosePassword_safe : Safe projectRoot choosePassword x fun _ y => Later x y := by
  unfold choosePassword
  refine (plain_assignedOrDie rfl).bind ?_
  rintro password y ⟨read, -⟩
  refine (plain_assignedOrDie rfl).bind ?_
  rintro confirmation z ⟨again, -⟩
  refine safe_must.bind ?_
  rintro - z ⟨rfl, -⟩
  refine safe_must.bind ?_
  rintro - z ⟨rfl, -⟩
  exact safe_pure (read.trans again)

theorem configureAdminCredentials_safe (knows : Knows x vars) (requested : Text) :
    Safe projectRoot (configureAdminCredentials vars requested) x fun vars' y =>
      Knows y vars' ∧ ⟨.run .replaceEnv, true⟩ ∈ y.told := by
  unfold configureAdminCredentials
  refine (chooseUsername_safe requested).bind fun username y chosen => ?_
  refine safe_must.bind ?_
  rintro - y ⟨rfl, name⟩
  refine (buildSetupHelper_safe false).bind fun _ y built => ?_
  refine choosePassword_safe.bind fun password z entered => ?_
  refine (plain_assignedOrDie rfl).bind ?_
  rintro passwordHash z ⟨hashed, -⟩
  refine safe_must.bind ?_
  rintro - z ⟨rfl, hash⟩
  have later := ((chosen.trans built).trans entered).trans hashed
  exact writeAdminCredentials_safe (knows.later later) name hash

theorem ensureAdminConfig_safe (knows : Knows x vars) :
    Safe projectRoot (ensureAdminConfig vars) x fun configured y => Knows y configured.1 := by
  unfold ensureAdminConfig
  split
  · exact safe_pure knows
  · refine (plain_orDie rfl).bind ?_
    rintro - y ⟨asked, -⟩
    refine (configureAdminCredentials_safe (knows.later asked) []).bind fun vars' z knows' => ?_
    exact safe_pure knows'.1

theorem validateSensitiveQuoting_safe :
    Safe projectRoot (validateSensitiveQuoting vars) x fun _ y =>
      y = x ∧ ∀ key ∈ sensitiveKeys, exposed vars key = false := by
  unfold validateSensitiveQuoting
  split
  · rename_i none_
    refine safe_pure ⟨rfl, fun key there => ?_⟩
    simpa using List.find?_eq_none.mp none_ key there
  · exact safe_die _

theorem validateIntegerRange_safe (key : String) (value : Text) {minimum maximum : Nat}
    (ordered : minimum ≤ maximum) (small : maximum < 2 ^ 63) :
    Safe projectRoot (validateIntegerRange key value minimum maximum) x fun _ y =>
      y = x ∧ Ranged value minimum maximum := by
  unfold validateIntegerRange
  split
  · rename_i passed
    have range := (IntegerRanges.validateIntegerRange_iff ordered small).mp passed
    rw [String.toList_ofList] at range
    exact safe_pure ⟨rfl, range⟩
  · exact safe_die _

theorem validateAdminConfig_safe :
    Safe projectRoot (validateAdminConfig vars) x fun _ y => y = x ∧
      envValue vars "ADMIN_USERNAME" "admin".toList ≠ [] ∧
      (envValue vars "ADMIN_USERNAME" "admin".toList).any space = false ∧
      configuredSources vars ≠ [] ∧
      (given vars "ADMIN_PASSWORD_HASH" = [] ∨
        bcryptShape (given vars "ADMIN_PASSWORD_HASH") = true) := by
  unfold validateAdminConfig
  dsimp only
  refine safe_must.bind ?_
  rintro - y ⟨rfl, visible⟩
  refine safe_must.bind ?_
  rintro - y ⟨rfl, unspaced⟩
  refine safe_must.bind ?_
  rintro - y ⟨rfl, source⟩
  refine safe_must.mono ?_
  rintro - y ⟨rfl, hash⟩
  refine ⟨rfl, ?_, by simpa using unspaced, by simpa using source, by simpa using hash⟩
  intro empty
  rw [empty] at visible
  exact absurd visible (by simp [trimWhitespace, trim])

theorem validateRuntimeConfig_safe :
    Safe projectRoot (validateRuntimeConfig vars) x fun _ y => y = x ∧
      Ranged (envValue vars "APP_PORT" "8080".toList) 1 65535 ∧
      envValue vars "DATA_DIR" "/data".toList = "/data".toList ∧
      envValue vars "CERT_OUTPUT_DIR" "/certs".toList = "/certs".toList := by
  unfold validateRuntimeConfig
  refine validateSensitiveQuoting_safe.bind ?_
  rintro - y ⟨rfl, -⟩
  refine (validateIntegerRange_safe _ _ (by omega) (by omega)).bind ?_
  rintro - y ⟨rfl, port⟩
  refine safe_must.bind ?_
  rintro - y ⟨rfl, data⟩
  refine safe_must.mono ?_
  rintro - y ⟨rfl, certs⟩
  exact ⟨rfl, port, by simpa using data, by simpa using certs⟩

theorem validateSecretConfig_safe :
    Safe projectRoot (validateSecretConfig vars) x fun _ y => y = x ∧
      (given vars "SESSION_SECRET_FILE" ≠ [] ∨ 32 ≤ size (given vars "SESSION_SECRET")) ∧
      (given vars "APP_ENCRYPTION_KEY_FILE" ≠ [] ∨
        32 ≤ size (given vars "APP_ENCRYPTION_KEY")) ∧
      (given vars "SESSION_SECRET_FILE" ≠ [] ∨ given vars "APP_ENCRYPTION_KEY_FILE" ≠ [] ∨
        given vars "SESSION_SECRET" ≠ given vars "APP_ENCRYPTION_KEY") := by
  unfold validateSecretConfig
  refine safe_must.bind ?_
  rintro - y ⟨rfl, session⟩
  refine safe_must.bind ?_
  rintro - y ⟨rfl, encryption⟩
  refine safe_must.mono ?_
  rintro - y ⟨rfl, distinct⟩
  simp only [Bool.or_eq_true, decide_eq_true_eq] at session encryption distinct
  exact ⟨rfl, session, encryption, by tauto⟩

theorem resolveHostPath_safe (configured : Text) :
    Safe projectRoot (resolveHostPath projectRoot configured) x fun directory y => Later x y ∧
      (configured ≠ [] ∧ '$' ∉ configured ∧ configured.head? ≠ some '~') ∧
      ⟨.run (.isLink (candidatePath projectRoot configured)), false⟩ ∈ y.told ∧
      ⟨.output (.realpath (candidatePath projectRoot configured)), some directory⟩ ∈ y.told ∧
      directory ∉ broadPaths projectRoot := by
  unfold resolveHostPath
  refine safe_must.bind ?_
  rintro - y ⟨rfl, some_⟩
  refine safe_must.bind ?_
  rintro - y ⟨rfl, explicit⟩
  refine (safe_plain rfl).bind ?_
  rintro linked y ⟨asked, link⟩
  refine safe_must.bind ?_
  rintro - y ⟨rfl, unlinked⟩
  refine (plain_assignedOrDie rfl).bind ?_
  rintro directory z ⟨resolved, path⟩
  refine safe_must.bind ?_
  rintro - z ⟨rfl, narrow⟩
  have off : linked = false := by simpa using unlinked
  subst off
  refine safe_pure ⟨asked.trans resolved, ⟨by simpa using some_, ?_⟩, resolved.2 link, path, ?_⟩
  · simp only [Bool.and_eq_true, Bool.not_eq_true', List.any_eq_false, decide_eq_true_eq] at explicit
    exact ⟨fun there => explicit.1 _ there rfl, explicit.2⟩
  · simpa using narrow

theorem directoryReady_safe (directory uid gid : Text) :
    Safe projectRoot (directoryReady directory uid gid) x fun ready y => Later x y ∧
      (ready = true → ⟨.output (.stat "%u" directory), some uid⟩ ∈ y.told ∧
        ⟨.output (.stat "%g" directory), some gid⟩ ∈ y.told ∧
        ∃ mode, ⟨.output (.stat "%a" directory), some mode⟩ ∈ y.told ∧
          ownerMayWrite mode = true) := by
  have unready : ∀ {y}, Later x y → Safe projectRoot (pure false : Script Bool) y fun ready z =>
      Later x z ∧ (ready = true → ⟨.output (.stat "%u" directory), some uid⟩ ∈ z.told ∧
        ⟨.output (.stat "%g" directory), some gid⟩ ∈ z.told ∧
        ∃ mode, ⟨.output (.stat "%a" directory), some mode⟩ ∈ z.told ∧
          ownerMayWrite mode = true) :=
    fun later => safe_pure ⟨later, fun absurd_ => by cases absurd_⟩
  unfold directoryReady
  refine (safe_plain rfl).bind ?_
  rintro owner y ⟨first, there⟩
  cases owner with
  | none => exact unready first
  | some owner =>
    refine (safe_plain rfl).bind ?_
    rintro group z ⟨second, there'⟩
    cases group with
    | none => exact unready (first.trans second)
    | some group =>
      refine (safe_plain rfl).bind ?_
      rintro mode u ⟨third, there''⟩
      cases mode with
      | none => exact unready ((first.trans second).trans third)
      | some mode =>
        refine safe_pure ⟨(first.trans second).trans third, fun ready => ?_⟩
        simp only [Bool.and_eq_true, decide_eq_true_eq] at ready
        obtain ⟨⟨rfl, rfl⟩, writes⟩ := ready
        exact ⟨third.2 (second.2 there), third.2 there', mode, there'', writes⟩

theorem prepareHostDirectories_safe :
    Safe projectRoot (prepareHostDirectories projectRoot vars) x fun _ y => Later x y ∧
      Prepared projectRoot vars y.told ∧
      Ranged (envValue vars "APP_UID" "10001".toList) 1 2147483647 ∧
      Ranged (envValue vars "APP_GID" "10001".toList) 1 2147483647 := by
  unfold prepareHostDirectories
  dsimp only
  refine (validateIntegerRange_safe _ _ (by omega) (by omega)).bind ?_
  rintro - y ⟨rfl, user⟩
  refine (validateIntegerRange_safe _ _ (by omega) (by omega)).bind ?_
  rintro - y ⟨rfl, group⟩
  refine (resolveHostPath_safe _).bind ?_
  rintro data a ⟨toA, explicit, unlinked, resolved, narrow⟩
  refine (resolveHostPath_safe _).bind ?_
  rintro certs b ⟨toB, explicit', unlinked', resolved', narrow'⟩
  refine safe_must.bind ?_
  rintro - b ⟨rfl, apart⟩
  refine (safe_plain rfl).bind ?_
  rintro dataMade c ⟨toC, made⟩
  refine (safe_plain rfl).bind ?_
  rintro certsMade d ⟨toD, made'⟩
  refine safe_must.bind ?_
  rintro - d ⟨rfl, both⟩
  obtain ⟨rfl, rfl⟩ : dataMade = true ∧ certsMade = true := by simpa using both
  refine (directoryReady_safe _ _ _).bind ?_
  rintro dataReady e ⟨toE, found⟩
  refine (directoryReady_safe _ _ _).bind ?_
  rintro certsReady f ⟨toF, found'⟩
  refine safe_must.mono ?_
  rintro - f ⟨rfl, ready⟩
  obtain ⟨rfl, rfl⟩ : dataReady = true ∧ certsReady = true := by simpa using ready
  obtain ⟨owner, group_, mode, there, writes⟩ := found rfl
  obtain ⟨owner', group', mode'⟩ := found' rfl
  have fromC := (toD.trans toE).trans toF
  have fromB := toC.trans fromC
  have fromA := toB.trans fromB
  refine ⟨toA.trans fromA, ⟨data, certs, ?_, ?_, by simpa using apart⟩, user, group⟩
  · exact ⟨explicit, fromA.2 unlinked, fromA.2 resolved, narrow, fromC.2 made,
      toF.2 owner, toF.2 group_, mode, toF.2 there, writes⟩
  · exact ⟨explicit', fromB.2 unlinked', fromB.2 resolved', narrow', (toE.trans toF).2 made',
      owner', group', mode'⟩

theorem generateSecret_safe : Safe projectRoot generateSecret x fun secret y =>
    Later x y ∧ secretShape secret = true := by
  unfold generateSecret
  refine (plain_assignedOrDie rfl).bind ?_
  rintro secret y ⟨later, -⟩
  refine safe_must.bind ?_
  rintro - y ⟨rfl, shape⟩
  exact safe_pure ⟨later, shape⟩

theorem freshSecret_safe (valueKey : String) :
    Safe projectRoot (freshSecret vars valueKey) x fun secret y =>
      Later x y ∧ secretShape secret = true := by
  unfold freshSecret
  refine generateSecret_safe.bind ?_
  rintro secret y ⟨first, shape⟩
  split
  · refine generateSecret_safe.bind ?_
    rintro again z ⟨second, shape'⟩
    refine safe_must.bind ?_
    rintro - z ⟨rfl, -⟩
    exact safe_pure ⟨first.trans second, shape'⟩
  · exact safe_pure ⟨first, shape⟩

/-- What is checked and prepared by the other keys stays so. -/
structure Ready (projectRoot : Text) (vars : Variables) (x : Note) : Prop where
  knows : Knows x vars
  checked : Checked vars
  prepared : Prepared projectRoot vars x.told

theorem Ready.later {y : Note} (h : Ready projectRoot vars x) (later : Later x y) :
    Ready projectRoot vars y :=
  ⟨h.knows.later later, h.checked, h.prepared.more later.2⟩

/-- The keys that are looked at before there are secrets. -/
def checkedKeys : List String :=
  sourceKeys ++ ["ADMIN_USERNAME", "APP_PORT", "DATA_DIR", "CERT_OUTPUT_DIR", "APP_UID",
    "APP_GID", "DATA_HOST_DIR", "CERTS_HOST_DIR"]

section Secrets
variable {keys : String × String} {secret : Text}

/-- The variables after a secret has been written. -/
def withSecret (vars : Variables) (keys : String × String) (secret : Text) : Variables :=
  (EnvFile.writeEnvValue keys.1.toList secret ⟨[], vars⟩).vars

theorem envValue_withSecret (own : keys ∈ secretKeys) {key : String} (there : key ∈ checkedKeys)
    (fallback : Text) :
    envValue (withSecret vars keys secret) key fallback = envValue vars key fallback := by
  have all : ∀ keys ∈ secretKeys, ∀ key ∈ checkedKeys, key.toList ≠ keys.1.toList := by
    decide +kernel
  simp [envValue, withSecret, EnvFile.writeEnvValue,
    Function.update_of_ne (all keys own key there)]

theorem exposed_withSecret (shape : secretShape secret = true) (key : String)
    (before : exposed vars key = false) : exposed (withSecret vars keys secret) key = false := by
  unfold exposed at before ⊢
  by_cases same : key.toList = keys.1.toList
  · have plain : secret.any (fun c => decide (c = '$')) = false := by
      rw [List.any_eq_false]
      intro c there
      simp only [secretShape, Bool.and_eq_true] at shape
      have hex := List.all_eq_true.mp shape.2 c there
      simp only [decide_eq_true_eq]
      rintro rfl
      exact absurd hex (by decide)
    simp [withSecret, EnvFile.writeEnvValue, same, plain]
  · simpa [withSecret, EnvFile.writeEnvValue, Function.update_of_ne same] using before

theorem Checked.withSecret (h : Checked vars) (own : keys ∈ secretKeys)
    (shape : secretShape secret = true) : Checked (withSecret vars keys secret) := by
  have same := @envValue_withSecret _ vars keys secret own
  have sources : configuredSources (DeployProtocol.withSecret vars keys secret) =
      configuredSources vars := by
    apply List.filter_congr
    intro key there
    rw [given, given, same (List.mem_append_left _ there)]
  refine ⟨fun key there => exposed_withSecret shape key (h.quoting key there), ?_, ?_, ?_, ?_, ?_,
    ?_, ?_, ?_, ?_⟩
  · rw [same (by decide)]
    exact h.username
  · rw [same (by decide)]
    exact h.unspaced
  · rw [sources]
    exact h.source
  · rw [given, same (by decide)]
    exact h.hash
  · rw [same (by decide)]
    exact h.port
  · rw [same (by decide)]
    exact h.data
  · rw [same (by decide)]
    exact h.certs
  · rw [same (by decide)]
    exact h.user
  · rw [same (by decide)]
    exact h.group

theorem Prepared.withSecret {told : Told} (h : Prepared projectRoot vars told)
    (own : keys ∈ secretKeys) : Prepared projectRoot (withSecret vars keys secret) told := by
  have same := @envValue_withSecret _ vars keys secret own
  unfold Prepared
  rwa [same (by decide), same (by decide), same (by decide), same (by decide)]

theorem ensureSecret_safe (posix : Posix) (keys : String × String)
    (ready : Ready projectRoot vars x) (own : keys ∈ secretKeys) (built : Bool) :
    Safe projectRoot (ensureSecret vars built keys.1 keys.2) x fun made y =>
      Ready projectRoot made.1 y := by
  unfold ensureSecret
  split
  · exact safe_pure ready
  · rename_i unset
    refine (buildSetupHelper_safe built).bind fun _ y helper => ?_
    refine (freshSecret_safe _).bind ?_
    rintro secret z ⟨generated, shape⟩
    have ready := ready.later (helper.trans generated)
    have none_ : given vars keys.1 = [] ∧ given vars keys.2 = [] := by tauto
    refine (writeEnvValue_safe posix ready.knows own none_ shape).remember.bind ?_
    rintro vars' u ⟨more, rfl, knows⟩
    exact safe_pure ⟨knows, ready.checked.withSecret own shape,
      (ready.prepared.withSecret own).more more⟩

end Secrets

/-- The service has been started and has been found healthy. -/
def Up (told : Told) : Prop :=
  ⟨.run .composeUp, true⟩ ∈ told ∧
    ∃ container, ⟨.output (.inspect container), some "healthy".toList⟩ ∈ told

theorem pollHealth_safe (container : Text) (left : Nat) :
    Safe projectRoot (pollHealth container left) x fun _ y =>
      ⟨.output (.inspect container), some "healthy".toList⟩ ∈ y.told := by
  induction left generalizing x with
  | zero => exact safe_die _
  | succ left ih =>
    unfold pollHealth
    refine (safe_plain rfl).bind ?_
    rintro state y ⟨-, there⟩
    dsimp only
    split
    · rename_i healthy
      cases state with
      | none => exact absurd healthy (by decide)
      | some state =>
        have same : state = "healthy".toList := healthy
        subst same
        exact safe_pure there
    · split
      · exact safe_die _
      · refine (safe_plain rfl).bind ?_
        rintro slept z -
        split
        · exact ih
        · exact safe_throw _

theorem waitForHealth_safe : Safe projectRoot waitForHealth x fun _ y =>
    ∃ container, ⟨.output (.inspect container), some "healthy".toList⟩ ∈ y.told := by
  unfold waitForHealth
  refine (plain_assigned rfl).bind ?_
  rintro container y -
  refine safe_must.bind ?_
  rintro - y ⟨rfl, -⟩
  exact (pollHealth_safe container _).mono fun _ _ healthy => ⟨container, healthy⟩

theorem enterRoot_safe : Safe projectRoot enterRoot x fun _ y => Later x y := by
  unfold enterRoot
  refine (safe_plain rfl).bind ?_
  rintro done y ⟨later, -⟩
  split
  · exact safe_pure later
  · exact safe_throw _

theorem deployCompose_safe (ready : Ready projectRoot vars x) (deployable : Deployable vars) :
    Safe projectRoot deployCompose x fun _ y => Up y.told := by
  unfold deployCompose
  refine (requireCommand_safe _).bind fun _ a toA => ?_
  refine (plain_orDie rfl).bind ?_
  rintro - b ⟨toB, -⟩
  refine enterRoot_safe.bind fun _ c toC => ?_
  refine (plain_orDie rfl).bind ?_
  rintro - d ⟨toD, -⟩
  refine (plain_orDie rfl).bind ?_
  rintro - e ⟨toE, -⟩
  have ready := ready.later ((((toA.trans toB).trans toC).trans toD).trans toE)
  obtain ⟨file, here, current⟩ := ready.knows
  refine Safe.bind (safe_orDie (Q := fun _ y => ⟨.run .composeUp, true⟩ ∈ y.told)
    ⟨file, vars, here, current, deployable, ready.prepared⟩ List.mem_cons_self) ?_
  rintro - f up
  exact waitForHealth_safe.remember.mono fun _ y ends => ⟨ends.1 up, ends.2⟩

theorem initializeExisting_safe (posix : Posix) :
    Safe projectRoot (initializeExisting projectRoot) x fun _ y => Up y.told := by
  unfold initializeExisting
  refine (plain_orDie rfl).bind fun _ _ _ => ?_
  refine (requireCommand_safe _).bind fun _ _ _ => ?_
  refine (requireCommand_safe _).bind fun _ _ _ => ?_
  refine (requireCommand_safe _).bind fun _ _ _ => ?_
  refine (requireCommand_safe _).bind fun _ _ _ => ?_
  refine parseEnv_safe.bind fun vars a knows => ?_
  refine validateSensitiveQuoting_safe.bind ?_
  rintro - a ⟨rfl, -⟩
  refine (ensureAdminConfig_safe knows).bind ?_
  rintro ⟨vars, built⟩ b knows
  refine validateSensitiveQuoting_safe.bind ?_
  rintro - b ⟨rfl, quoting⟩
  refine validateAdminConfig_safe.bind ?_
  rintro - b ⟨rfl, username, unspaced, source, hash⟩
  refine validateRuntimeConfig_safe.bind ?_
  rintro - b ⟨rfl, port, data, certs⟩
  refine prepareHostDirectories_safe.bind ?_
  rintro - c ⟨later, prepared, user, group⟩
  have checked : Checked vars :=
    ⟨quoting, username, unspaced, source, hash, port, data, certs, user, group⟩
  have ready : Ready projectRoot vars c := ⟨knows.later later, checked, prepared⟩
  refine (ensureSecret_safe posix ("SESSION_SECRET", "SESSION_SECRET_FILE") ready (by decide)
    built).bind ?_
  rintro ⟨vars, built⟩ d ready
  refine (ensureSecret_safe posix ("APP_ENCRYPTION_KEY", "APP_ENCRYPTION_KEY_FILE") ready
    (by decide) built).bind ?_
  rintro ⟨vars, built⟩ e ready
  refine validateSecretConfig_safe.bind ?_
  rintro - e ⟨rfl, session, encryption, distinct⟩
  exact deployCompose_safe ready ⟨ready.checked, session, encryption, distinct⟩

/-- What a run of `init` or `update` has done when it ends well. -/
def Settled (told : Told) : Prop := ⟨.run .copyExample, true⟩ ∈ told ∨ Up told

theorem initializeEnv_safe (posix : Posix) :
    Safe projectRoot (initializeEnv projectRoot) x fun _ y => Settled y.told := by
  unfold initializeEnv
  refine (safe_plain rfl).bind ?_
  rintro example_ a -
  refine safe_must.bind ?_
  rintro - a ⟨rfl, -⟩
  refine Safe.bind (safe_ask (Q := fun kind y => y = note a .envKind kind) trivial
    fun kind => rfl) ?_
  rintro kind b rfl
  cases kind with
  | link => exact safe_die _
  | other => exact safe_die _
  | regular => exact (initializeExisting_safe posix).mono fun _ _ up => Or.inr up
  | absent =>
    refine Safe.bind (safe_orDie (Q := fun _ y => ⟨.run .copyExample, true⟩ ∈ y.told) rfl
      List.mem_cons_self) ?_
    rintro - c copied
    exact (plain_orDie rfl).mono fun _ _ ends => Or.inl (ends.1.2 copied)

theorem update_safe (posix : Posix) :
    Safe projectRoot (update projectRoot) x fun _ y => Settled y.told := by
  unfold update
  refine Safe.bind (safe_ask (Q := fun _ _ => True) trivial fun _ => trivial) ?_
  rintro env a -
  refine safe_must.bind ?_
  rintro - a ⟨rfl, -⟩
  refine (requireCommand_safe _).bind fun _ _ _ => ?_
  refine (requireCommand_safe _).bind fun _ _ _ => ?_
  refine enterRoot_safe.bind fun _ _ _ => ?_
  refine (plain_assignedOrDie rfl).bind fun root _ _ => ?_
  refine (safe_plain rfl).bind fun resolved b _ => ?_
  refine safe_must.bind ?_
  rintro - b ⟨rfl, -⟩
  refine (plain_orDie rfl).bind fun _ _ _ => ?_
  refine (plain_orDie rfl).bind fun _ _ _ => ?_
  refine (plain_orDie rfl).bind fun _ _ _ => ?_
  exact initializeEnv_safe posix

theorem configureAdmin_safe (requested : Text) :
    Safe projectRoot (configureAdmin requested) x fun _ y =>
      ⟨.run .replaceEnv, true⟩ ∈ y.told := by
  unfold configureAdmin
  refine Safe.bind (safe_ask (Q := fun _ _ => True) trivial fun _ => trivial) ?_
  rintro env a -
  refine safe_must.bind ?_
  rintro - a ⟨rfl, -⟩
  refine (plain_orDie rfl).bind fun _ _ _ => ?_
  refine (requireCommand_safe _).bind fun _ _ _ => ?_
  refine (requireCommand_safe _).bind fun _ _ _ => ?_
  refine parseEnv_safe.bind fun vars b knows => ?_
  refine validateSensitiveQuoting_safe.bind ?_
  rintro - b ⟨rfl, -⟩
  refine (configureAdminCredentials_safe knows requested).bind ?_
  rintro - c ⟨-, replaced⟩
  exact safe_pure replaced

/-- What each command has done when it ends well. -/
def Done (told : Told) : Invocation → Prop
  | .init => Settled told
  | .update => Settled told
  | .configureAdmin _ => ⟨.run .replaceEnv, true⟩ ∈ told
  | .help => True
  | .unknown _ => False

theorem main_safe (posix : Posix) (invocation : Invocation) :
    Safe projectRoot (main projectRoot invocation) x fun _ y => Done y.told invocation := by
  cases invocation with
  | init => exact initializeEnv_safe posix
  | update => exact update_safe posix
  | configureAdmin requested => exact configureAdmin_safe requested
  | help => exact safe_pure trivial
  | unknown name => exact safe_die _

end Walk

end DeployProtocol
