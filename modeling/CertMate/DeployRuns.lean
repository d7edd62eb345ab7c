import CertMate.DeployProtocol

/-!
# Runs of the deployment script

The script may be killed between any two of its commands and started again. What it does
to `.env` and when it starts the service, on every host.
-/
namespace DeployRuns
open CallTrees RunTriples EnvFile DeployScript EnvProgress DeployProtocol

theorem up_more {told told' : Told} (h : Up told) (more : told ⊆ told') : Up told' := by
  obtain ⟨started, container, healthy⟩ := h
  exact ⟨more started, container, more healthy⟩

theorem done_more {told told' : Told} {invocation : Invocation} (h : Done told invocation)
    (more : told ⊆ told') : Done told' invocation := by
  have settled : Settled told → Settled told' := by
    rintro (copied | up)
    · exact Or.inl (more copied)
    · exact Or.inr (up_more up more)
  cases invocation with
  | init => exact settled h
  | update => exact settled h
  | configureAdmin username => exact more h
  | help => exact trivial
  | unknown name => exact h

section Steps
variable {host : Host} {projectRoot : Text} {x : Files} {w : World} {e : Eff}

/-- The script is right about its files. -/
structure Seen (x : Files) (w : World) : Prop where
  env : ∀ kind, x.env = some kind → w.env.kind = kind
  file : ∀ text, x.file = some text → w.env = .file text
  temp : ∀ text, x.temp = some text → w.temp = some text

theorem Seen.congr {w' : World} (h : Seen x w) (env : w'.env = w.env) (temp : w'.temp = w.temp) :
    Seen x w' := by
  refine ⟨?_, ?_, ?_⟩
  · rw [env]
    exact h.env
  · rw [env]
    exact h.file
  · rw [temp]
    exact h.temp

/-- The temporary file does not matter where the script knows nothing of it. -/
theorem Seen.forget {w' : World} (h : Seen x w) (env : w'.env = w.env) :
    Seen { x with temp := none } w' := by
  refine ⟨?_, ?_, fun text there => by cases there⟩
  · rw [env]
    exact h.env
  · rw [env]
    exact h.file

/-- What a program writes is what it makes of `.env`. -/
theorem Seen.write (h : Seen x w) (content : Text → Text) :
    Seen { x with temp := x.file.map content }
      { w.tick with temp := some (content w.text) } := by
  refine ⟨h.env, h.file, fun text there => ?_⟩
  obtain ⟨file, here, rfl⟩ := Option.map_eq_some_iff.mp there
  have text_ : w.text = file := by rw [World.text, h.file file here]
  change some (content w.text) = _
  rw [text_]

variable [LcCtype]

variable (host w) in
theorem exec_plain (h : plain e = true) :
    (exec host e w).2.env = w.env ∧ (exec host e w).2.temp = w.temp := by
  cases e with
  | run c => cases c <;> first | exact ⟨rfl, rfl⟩ | cases h
  | output q => cases q <;> first | exact ⟨rfl, rfl⟩ | cases h
  | exampleKind => exact ⟨rfl, rfl⟩
  | envKind => cases h

/-- Only two commands touch `.env`. -/
theorem exec_env (copies : e ≠ .run .copyExample) (replaces : e ≠ .run .replaceEnv) :
    (exec host e w).2.env = w.env := by
  cases e with
  | run c =>
    cases c with
    | copyExample => exact absurd rfl copies
    | replaceEnv => exact absurd rfl replaces
    | makeTemp =>
      simp only [exec, execCommand]
      split <;> rfl
    | _ => rfl
  | output q =>
    cases q with
    | readEnv =>
      simp only [exec]
      split <;> rfl
    | _ => rfl
  | exampleKind => rfl
  | envKind => rfl

variable (host w) in
theorem replaceEnv_cases :
    (∃ text, w.temp = some text ∧ (exec host (.run .replaceEnv) w).1 = true ∧
      (exec host (.run .replaceEnv) w).2.env = .file text) ∨
    ((exec host (.run .replaceEnv) w).1 = false ∧
      (exec host (.run .replaceEnv) w).2.env = w.env ∧
      (exec host (.run .replaceEnv) w).2.temp = w.temp) := by
  simp only [exec, execCommand]
  split
  · rename_i text works there
    exact Or.inl ⟨text, there, rfl, rfl⟩
  · exact Or.inr ⟨rfl, rfl, rfl⟩

theorem Seen.step (h : Seen x w) (e : Eff) :
    Seen (x.note e (exec host e w).1) (exec host e w).2 := by
  by_cases quiet : plain e = true
  · obtain ⟨env, temp⟩ := exec_plain host w quiet
    rw [note_plain quiet]
    exact h.congr env temp
  cases e with
  | exampleKind => exact absurd rfl quiet
  | envKind => exact ⟨fun kind same => Option.some.inj same, h.file, h.temp⟩
  | output q =>
    cases q with
    | readEnv =>
      simp only [exec]
      split
      · rename_i text here
        split
        · refine ⟨h.env, fun t same => ?_, h.temp⟩
          cases same
          exact here
        · exact h.congr rfl rfl
      · exact h.congr rfl rfl
    | _ => exact absurd rfl quiet
  | run c =>
    cases c with
    | copyExample =>
      exact ⟨fun _ same => (by cases same), fun _ same => (by cases same), h.temp⟩
    | makeTemp => exact h.forget (exec_env (by simp) (by simp))
    | removeTemp => exact h.forget rfl
    | awkValue key value =>
      simp only [exec, execCommand, World.writeTemp]
      cases host.works w.ticks with
      | true => exact h.write (writtenFile key value)
      | false => exact h.forget rfl
    | awkAdmin username passwordHash =>
      simp only [exec, execCommand, World.writeTemp]
      cases host.works w.ticks with
      | true => exact h.write (adminFile username passwordHash)
      | false => exact h.forget rfl
    | replaceEnv =>
      simp only [exec, execCommand]
      split
      · rename_i text works there
        refine ⟨fun _ same => (by cases same), fun t same => ?_, fun _ same => (by cases same)⟩
        have found := h.temp t same
        rw [there, Option.some.injEq] at found
        rw [← found]
      · exact h.congr rfl rfl
    | composeUp => exact h.congr rfl rfl
    | _ => exact absurd rfl quiet

end Steps

section Runs
variable [LcCtype] {projectRoot : Text}

theorem script_follows (posix : Posix) (projectRoot : Text) (invocation : Invocation) (x : Note) :
    Follows (fun _ _ => True) (allows projectRoot) note (script projectRoot invocation) x
      fun r y => r = .ok () → Done y.told invocation := by
  refine Follows.bind (main_safe posix invocation) fun r y ends => ?_
  refine ⟨trivial, fun _ _ same => ?_⟩
  exact done_more (ends () same) (List.subset_cons_self _ _)

/-- A run of the script, to its end or up to a call. It knows of no temporary file. -/
def Run (w w' : World) : Prop :=
  ∃ host projectRoot invocation n,
    w' = upTo (exec host) n (script projectRoot invocation) { w with temp := none }

/-- The file is in place and what has been is preserved. -/
def Stands (file : Text) (vars : Variables) (w : World) : Prop :=
  ∃ file' vars', w.env = .file file' ∧ parseEnvFile file' = .ok vars' ∧
    Preserved file vars file' vars'

theorem Stands.step (posix : Posix) {host : Host} {file : Text} {vars : Variables} {x : Note}
    {w : World} {e : Eff}
    (h : Stands file vars w) (seen : Seen x.files w) (allowed : allows projectRoot x e) :
    Stands file vars (exec host e w).2 := by
  obtain ⟨file', vars', here, accepted, preserved⟩ := h
  by_cases copies : e = .run .copyExample
  · subst copies
    have absent := seen.env _ allowed
    rw [here] at absent
    cases absent
  by_cases replaces : e = .run .replaceEnv
  · subst replaces
    obtain ⟨old, new, known, made, change⟩ := allowed
    obtain rfl : old = file' := by simpa [here, eq_comm] using seen.file old known
    obtain ⟨vars'', parsed, next⟩ := change.preserved posix accepted
    rcases replaceEnv_cases host w with ⟨text, there, -, after⟩ | ⟨-, after, -⟩
    · have same := seen.temp new made
      rw [there, Option.some.injEq] at same
      subst same
      exact ⟨text, vars'', after, parsed, preserved.trans next⟩
    · exact ⟨old, vars', after.trans here, accepted, preserved⟩
  · exact ⟨file', vars', (exec_env copies replaces).trans here, accepted, preserved⟩

theorem Run.stands (posix : Posix) {file : Text} {vars : Variables} {w w' : World} (run : Run w w')
    (h : Stands file vars w) : Stands file vars w' := by
  obtain ⟨host, projectRoot, invocation, n, rfl⟩ := run
  have seen : Seen ⟨none, none, none⟩ { w with temp := none } :=
    ⟨fun _ same => (by cases same), fun _ same => (by cases same), fun _ same => (by cases same)⟩
  have step : ∀ (x : Note) (e : Eff) (w : World), allows projectRoot x e →
      Seen x.files w ∧ Stands file vars w → True ∧
        Seen (note x e (exec host e w).1).files (exec host e w).2 ∧
          Stands file vars (exec host e w).2 := fun x e w allowed known =>
    ⟨trivial, known.1.step e, known.2.step posix known.1 allowed⟩
  have through := Follows.run_invariant (I := fun x w => Seen x.files w ∧ Stands file vars w) step
    (script_follows posix projectRoot invocation ⟨⟨none, none, none⟩, []⟩)
    (w := { w with temp := none }) ⟨seen, h⟩
  obtain ⟨x, -, stands⟩ := (through_iff_upTo _ _ _ _).mp through.1 n
  exact stands

/-- However often the script is run, and wherever its runs are killed, an accepted `.env`
stays one: other lines and values are what they were, a secret that is there is never
replaced, and the account changes as a whole or not at all. -/
theorem env_never_damaged (posix : Posix) {w w' : World}
    (runs : Relation.ReflTransGen Run w w') {file : Text} {vars : Variables}
    (here : w.env = .file file)
    (accepted : parseEnvFile file = .ok vars) :
    ∃ file' vars', w'.env = .file file' ∧ parseEnvFile file' = .ok vars' ∧
      Preserved file vars file' vars' := by
  induction runs with
  | refl => exact ⟨file, vars, here, accepted, .refl file vars⟩
  | tail _ run ih => exact run.stands posix ih

/-- What the script knows is what another reader of the file finds. -/
theorem deployable_found {file : Text} {vars : Variables} {told : Told}
    (current : Current file vars) (h : Deployable vars)
    (prepared : Prepared projectRoot vars told) :
    ∃ found, parseEnvFile file = .ok found ∧ Deployable found ∧ Prepared projectRoot found told := by
  obtain ⟨⟨lines, raws, values⟩, parsed, same, same'⟩ := current
  obtain ⟨lines', raws', values'⟩ := vars
  cases same
  cases same'
  refine ⟨_, parsed, ⟨⟨h.quoting, h.username, h.unspaced, h.source, h.hash, h.port, h.data,
    h.certs, h.user, h.group⟩, h.session, h.encryption, h.distinct⟩, prepared⟩

/-- The service is started only with a `.env` that another reader finds in order, and with
two directories that have just been found fit and apart. A run that ends well has done what
it is for. -/
theorem starts_deployable (posix : Posix) (host : Host) (projectRoot : Text)
    (invocation : Invocation) (w : World) :
    Along (noted (exec host) heard)
      (fun e x => e = .run .composeUp → ∃ file vars, x.2.env = .file file ∧
        parseEnvFile file = .ok vars ∧ Deployable vars ∧ Prepared projectRoot vars x.1)
      (script projectRoot invocation) ([], { w with temp := none }) ∧
    Yields (noted (exec host) heard) (script projectRoot invocation)
      ([], { w with temp := none }) fun r x => r = .ok () → Done x.1 invocation := by
  have seen : Seen ⟨none, none, none⟩ { w with temp := none } :=
    ⟨fun _ same => (by cases same), fun _ same => (by cases same), fun _ same => (by cases same)⟩
  have follows := script_follows posix projectRoot invocation ⟨⟨none, none, none⟩, []⟩
  have step : ∀ (x : Note) e (w : Told × World), allows projectRoot x e →
      x.told = w.1 ∧ Seen x.files w.2 → True ∧
        (note x e (noted (exec host) heard e w).1).told = (noted (exec host) heard e w).2.1 ∧
        Seen (note x e (noted (exec host) heard e w).1).files (noted (exec host) heard e w).2.2 := by
    rintro x e ⟨told, w⟩ - ⟨rfl, seen⟩
    exact ⟨trivial, rfl, seen.step e⟩
  constructor
  · refine along_of_follows step ?_ follows ⟨rfl, seen⟩
    rintro x e ⟨told, w⟩ allowed ⟨rfl, seen⟩ rfl
    obtain ⟨file, vars, here, current, deployable, prepared⟩ := allowed
    obtain ⟨found, parsed, deployable, prepared⟩ := deployable_found current deployable prepared
    exact ⟨file, found, seen.file file here, parsed, deployable, prepared⟩
  · obtain ⟨-, x, done, told, -⟩ := follows.run_invariant step
      (w := ([], { w with temp := none })) ⟨rfl, seen⟩
    intro ok
    rw [← told]
    exact done ok

end Runs

section Sample

local instance hostLocale : LcCtype := utf8Locale true

/-- What the commands of an `init` print on a host on which all goes well. -/
def initHost : Host where
  works n := n ≠ 6 && n ≠ 8
  prints n :=
    match n with
    | 7 => some "/srv/certmate/data".toList
    | 9 => some "/srv/certmate/certs".toList
    | 12 | 13 | 15 | 16 => some "10001".toList
    | 14 | 17 => some "700".toList
    | 20 => some (List.replicate 64 '0')
    | 25 => some (List.replicate 64 '1')
    | 36 => some "c0ffee".toList
    | 37 => some "starting".toList
    | 39 => some "healthy".toList
    | _ => none
  leaves _ := []
  entries _ := .absent

def initWorld : World :=
  ⟨.file "ADMIN_PASSWORD_FILE=/run/secrets/admin\n".toList, .file [], none, 0⟩

/-- The service is started with two new secrets. -/
theorem starts_deployable_init :
    (run (exec initHost) (script "/srv/certmate".toList .init) initWorld).1 = .ok () ∧
    Done (run (noted (exec initHost) heard) (script "/srv/certmate".toList .init)
      ([], initWorld)).2.1 .init := by
  have ended : (run (exec initHost) (script "/srv/certmate".toList .init) initWorld).1 =
      .ok () := by
    have fine : (run (exec initHost) (script "/srv/certmate".toList .init)
        initWorld).1.isOk = true := by
      decide +kernel
    cases result : (run (exec initHost) (script "/srv/certmate".toList .init) initWorld).1 with
    | ok _ => rfl
    | error _ =>
      rw [result] at fine
      cases fine
  refine ⟨ended, (starts_deployable rfl initHost _ .init initWorld).2 ?_⟩
  exact (run_noted (exec initHost) heard _ [] initWorld).1.trans ended

def samplePasswordHash : Text := "$2a$10$".toList ++ List.replicate 53 'a'

def sampleHost : Host where
  works _ := true
  prints n :=
    match n with
    | 6 | 7 => some "password".toList
    | 8 => some samplePasswordHash
    | _ => none
  leaves _ := []
  entries _ := .absent

def sampleWorld : World := ⟨.file sampleFile, .file [], none, 0⟩

/-- Killed right after the new file has taken the place of the old one. -/
def configured : World :=
  upTo (exec sampleHost) 15 (script "/srv/certmate".toList (.configureAdmin "admin".toList))
    sampleWorld

theorem env_never_damaged_killed : ∃ file' vars vars', Run sampleWorld configured ∧
    configured.env = .file file' ∧ file' ≠ sampleFile ∧ parseEnvFile sampleFile = .ok vars ∧
    parseEnvFile file' = .ok vars' ∧ Preserved sampleFile vars file' vars' := by
  have run : Run sampleWorld configured := ⟨_, _, _, 15, rfl⟩
  obtain ⟨vars, accepted⟩ := sampleFile_accepted
  obtain ⟨file', vars', there, parsed, preserved⟩ :=
    env_never_damaged rfl (.single run) rfl accepted
  have changed : configured.text = adminFile "admin".toList samplePasswordHash sampleFile := by
    decide +kernel
  have same : file' = adminFile "admin".toList samplePasswordHash sampleFile := by
    simpa only [World.text, there] using changed
  have other : adminFile "admin".toList samplePasswordHash sampleFile ≠ sampleFile := by
    decide +kernel
  exact ⟨file', vars, vars', run, there, by rwa [same], accepted, parsed, preserved⟩

end Sample

section Polls
variable {host : Host}

/-- What the `n`-th poll from now prints. -/
def polled (host : Host) (ticks n : Nat) : Text := (host.prints (ticks + 2 * n)).getD []

/-- States that end the waiting without success. -/
def fatal : List Text := ["unhealthy".toList, "exited".toList, "dead".toList]

/-- The first of the polls that says something final says that all is well. -/
def Recovers (host : Host) (ticks left : Nat) : Prop :=
  ∃ n < left, polled host ticks n = "healthy".toList ∧
    ∀ m < n, polled host ticks m ∉ fatal ∧ host.works (ticks + 2 * m + 1) = true

theorem recovers_zero (host : Host) (ticks : Nat) : ¬ Recovers host ticks 0 := by
  rintro ⟨n, none_, -⟩
  omega

theorem polled_succ (host : Host) (ticks n : Nat) :
    polled host ticks (n + 1) = polled host (ticks + 2) n := by
  unfold polled
  rw [show ticks + 2 * (n + 1) = ticks + 2 + 2 * n by omega]

theorem recovers_succ (ticks left : Nat) : Recovers host ticks (left + 1) ↔
    polled host ticks 0 = "healthy".toList ∨
      polled host ticks 0 ∉ fatal ∧ host.works (ticks + 1) = true ∧
        Recovers host (ticks + 2) left := by
  constructor
  · rintro ⟨n, below, healthy, before⟩
    cases n with
    | zero => exact Or.inl healthy
    | succ n =>
      obtain ⟨first, slept⟩ := before 0 (by omega)
      refine Or.inr ⟨first, slept, n, by omega, ?_, fun m hm => ?_⟩
      · rwa [← polled_succ]
      · have later := before (m + 1) (by omega)
        rwa [polled_succ, show ticks + 2 * (m + 1) + 1 = ticks + 2 + 2 * m + 1 by omega] at later
  · rintro (healthy | ⟨first, slept, n, below, healthy, before⟩)
    · exact ⟨0, by omega, healthy, fun m hm => by omega⟩
    · refine ⟨n + 1, by omega, by rwa [polled_succ], fun m hm => ?_⟩
      cases m with
      | zero => exact ⟨first, slept⟩
      | succ m =>
        rw [polled_succ, show ticks + 2 * (m + 1) + 1 = ticks + 2 + 2 * m + 1 by omega]
        exact before m (by omega)

variable [LcCtype]

theorem run_ask {α : Type} (e : Eff) (f : Ans e → Script α) (w : World) :
    run (exec host) (ask e >>= f).run w =
      run (exec host) (f (exec host e w).1).run (exec host e w).2 := rfl

theorem pollHealth_iff (container : Text) (left : Nat) (w : World) :
    (run (exec host) (pollHealth container left).run w).1 = .ok () ↔
      Recovers host w.ticks left := by
  induction left generalizing w with
  | zero =>
    refine iff_of_false ?_ (recovers_zero host w.ticks)
    intro ended
    cases ended
  | succ left ih =>
    rw [recovers_succ]
    unfold pollHealth
    rw [run_ask]
    dsimp only
    split
    · rename_i healthy
      exact iff_of_true rfl (Or.inl healthy)
    · rename_i other
      split
      · rename_i ends
        refine iff_of_false (fun ended => by cases ended) ?_
        rintro (healthy | ⟨goes, -⟩)
        · exact other healthy
        · exact goes (List.contains_iff_mem.mp ends)
      · rename_i goes
        rw [run_ask]
        split
        · rename_i slept
          rw [ih]
          constructor
          · exact fun later => Or.inr ⟨goes ∘ List.contains_iff_mem.mpr, slept, later⟩
          · rintro (healthy | ⟨-, -, later⟩)
            · exact absurd healthy other
            · exact later
        · rename_i woken
          refine iff_of_false (fun ended => by cases ended) ?_
          rintro (healthy | ⟨-, slept, -⟩)
          · exact other healthy
          · exact woken slept

theorem run_script_bind {α β : Type} (p : Script α) (f : α → Script β) (w : World) :
    run (exec host) (p >>= f).run w =
      match (run (exec host) p.run w).1 with
      | .ok a => run (exec host) (f a).run (run (exec host) p.run w).2
      | .error e => (.error e, (run (exec host) p.run w).2) := by
  change run (exec host) (p.run >>= ExceptT.bindCont f) w = _
  rw [run_bind]
  cases (run (exec host) p.run w).1 <;> rfl

theorem run_containerId (w : World) : run (exec host) (assigned .containerId).run w =
    ((host.prints w.ticks).elim (.error .failed) .ok, w.tick) := by
  unfold assigned
  rw [run_ask]
  have printed : exec host (.output .containerId) w = (host.prints w.ticks, w.tick) := rfl
  rw [printed]
  cases host.prints w.ticks <;> rfl

theorem run_must (condition : Bool) (message : String) (w : World) :
    run (exec host) (must condition message).run w =
      (if condition then .ok () else .error (.die message), w) := by
  cases condition <;> rfl

/-- The service is found healthy if and only if there is a container and one of its first
sixty polls says so, before any has said that it is not. -/
theorem waitForHealth_iff (host : Host) (w : World) :
    (run (exec host) waitForHealth.run w).1 = .ok () ↔
      (∃ container, host.prints w.ticks = some container ∧ container ≠ []) ∧
        Recovers host (w.ticks + 1) 60 := by
  unfold waitForHealth
  rw [run_script_bind, run_containerId]
  cases host.prints w.ticks with
  | none => exact iff_of_false (fun ended => by cases ended) (by simp)
  | some container =>
    dsimp only [Option.elim_some]
    rw [run_script_bind, run_must]
    by_cases there : container = []
    · subst there
      exact iff_of_false (fun ended => by cases ended) (by simp)
    · simp only [there, ne_eq, not_false_eq_true, decide_true, if_true, pollHealth_iff,
        Option.some.injEq, exists_eq_left', true_and]
      rfl

end Polls

end DeployRuns
