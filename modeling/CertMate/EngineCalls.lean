import CertMate.EngineFiles

/-!
# Calls of the engines at the same time

A call of an engine makes one directory, works in it, and removes it again, so that calls
which overlap do not meet.
-/
namespace EngineCalls
open CertificateModel CallTrees ThreadPools PrivateCells EngineFiles
open FileSystem (FileMode)
open ServiceWorld (SelfSignedRequest IssueRequest RenewRequest RevokeRequest)

/-- What a call has been answered: the directory it has, whether it has asked for one before,
and whether it was not let remove it. -/
structure Call where
  request : Request
  tried : Bool
  dir : Option String
  lost : Bool
  deriving DecidableEq, Repr

def Call.new (request : Request) : Call := ⟨request, false, none, false⟩

def note (s : Call) : (e : Eff) → Ans e → Call
  | .mkdirTemp _, .ok dir => { s with tried := true, dir := some dir }
  | .mkdirTemp _, .error _ => { s with tried := true }
  | .remove _, .ok _ => { s with dir := none }
  | .remove _, .error _ => { s with lost := true }
  | .removeAll _, .ok _ => { s with dir := none }
  | .removeAll _, .error _ => { s with lost := true }
  | _, _ => s

def manners : Manners Eff Ans Call String where
  makes := makes
  place := place
  held := Call.dir
  tried := Call.tried
  lost := Call.lost
  note := note

/-- Only its owner has a right to the directory. -/
def Private (d : TempDir) : Prop := d.mode &&& 0o077 = 0

/-- A mode that grants the others nothing does not under any umask. -/
theorem masked_private (H : Host) {mode : FileMode} (h : mode &&& 0o077 = 0) :
    H.masked mode &&& 0o077 = 0 := by
  apply Nat.eq_of_testBit_eq
  intro i
  have bit := congrArg (Nat.testBit · i) h
  simp only [Nat.testBit_and, Nat.zero_testBit] at bit
  simp only [Host.masked, Nat.testBit_and, Nat.testBit_xor, Nat.zero_testBit]
  rcases Bool.and_eq_false_iff.mp bit with unset | others
  · simp [unset]
  · rw [others, Bool.and_false]

theorem note_request (s : Call) (e : Eff) (r : Ans e) : (note s e r).request = s.request := by
  cases e with
  | mkdirTemp pattern => cases r <;> rfl
  | remove dir => cases r <;> rfl
  | removeAll dir => cases r <;> rfl
  | _ => rfl

theorem note_tried (s : Call) (e : Eff) (r : Ans e) : (note s e r).tried =
    (s.tried || makes e) := by
  cases e with
  | mkdirTemp pattern => cases r <;> simp [note, makes]
  | remove dir => cases r <;> simp [note, makes]
  | removeAll dir => cases r <;> simp [note, makes]
  | _ => simp [note, makes]

theorem note_idle (s : Call) (e : Eff) (r : Ans e) (plain : makes e = false)
    (nowhere : place e = none) : (note s e r).dir = s.dir := by
  cases e with
  | mkdirTemp pattern => cases plain
  | remove dir => cases nowhere
  | removeAll dir => cases nowhere
  | _ => rfl

section Suits
variable (hosts : Nat → Host)

theorem made_private (t n : Nat) (pattern dir : String) (cell : Option TempDir) (s : Call)
    (key : (device hosts).key t n (.mkdirTemp pattern) = some dir) :
    ((note s (.mkdirTemp pattern) ((device hosts).effect t n (.mkdirTemp pattern) cell).1).dir =
        s.dir ∧ ((device hosts).effect t n (.mkdirTemp pattern) cell).2 = cell) ∨
      (cell = none ∧
        (note s (.mkdirTemp pattern) ((device hosts).effect t n (.mkdirTemp pattern) cell).1).dir =
          some dir ∧
        ∃ new, ((device hosts).effect t n (.mkdirTemp pattern) cell).2 = some new ∧ Private new) := by
  cases key
  by_cases fails : (hosts t).fails n = true
  · left
    simp [device, fails, Host.failed, note]
  · cases cell with
    | some d =>
      left
      simp [device, fails, Host.done, note]
    | none =>
      right
      simp only [device, fails, Host.done, note]
      exact ⟨trivial, rfl, _, rfl, masked_private _ (by decide)⟩

/-- A call in a directory leaves it private, or removes it and is told so. -/
theorem used_private (t n : Nat) (e : Eff) (dir : String) (d : TempDir) (s : Call)
    (plain : makes e = false) (here : place e = some dir) (held : s.dir = some dir)
    (good : Private d) :
    ((note s e ((device hosts).effect t n e (some d)).1).dir = some dir ∧
        ∃ new, ((device hosts).effect t n e (some d)).2 = some new ∧ Private new) ∨
      ((note s e ((device hosts).effect t n e (some d)).1).dir = none ∧
        ((device hosts).effect t n e (some d)).2 = none) := by
  by_cases fails : (hosts t).fails n = true
  · left
    simp only [device, fails, if_true]
    cases e with
    | mkdirTemp pattern => cases plain
    | writeFile dir name content =>
      refine ⟨held, _, rfl, ?_⟩
      dsimp only
      cases (hosts t).written n with
      | none => exact good
      | some count => exact good
    | chmodDir dir => exact ⟨held, d, rfl, good⟩
    | remove dir => exact ⟨held, d, rfl, good⟩
    | removeAll dir => exact ⟨held, _, rfl, good⟩
    | run command => exact ⟨held, _, rfl, good⟩
    | readFile dir name limit => exact ⟨held, d, rfl, good⟩
    | chmodFile dir name => exact ⟨held, d, rfl, good⟩
    | mkdirAll => cases here
    | secrets values => cases here
    | now => cases here
  · simp only [device, fails, Bool.false_eq_true, if_false]
    cases e with
    | mkdirTemp pattern => cases plain
    | remove dir => exact Or.inr ⟨rfl, rfl⟩
    | removeAll dir => exact Or.inr ⟨rfl, rfl⟩
    | chmodDir dir =>
      have closed : (0o700 : FileMode) &&& 0o077 = 0 := by decide
      exact Or.inl ⟨held, _, rfl, closed⟩
    | writeFile dir name content => exact Or.inl ⟨held, _, rfl, good⟩
    | run command => exact Or.inl ⟨held, _, rfl, good⟩
    | readFile dir name limit =>
      left
      simp only [Host.done, Option.bind_some]
      cases d.files name with
      | none => exact ⟨held, d, rfl, good⟩
      | some file => exact ⟨held, d, rfl, good⟩
    | chmodFile dir name =>
      left
      simp only [Host.done, Option.bind_some]
      cases d.files name with
      | none => exact ⟨held, d, rfl, good⟩
      | some file => exact ⟨held, _, rfl, good⟩
    | mkdirAll => cases here
    | secrets values => cases here
    | now => cases here

theorem manners_suit : manners.Suits (device hosts) Private where
  placed t n e plain := by
    cases e with
    | mkdirTemp pattern => cases plain
    | _ => rfl
  made t n e key cell s made here := by
    cases e with
    | mkdirTemp pattern => exact made_private hosts t n pattern key cell s here
    | _ => cases made
  used t n e key cell s plain here held good :=
    used_private hosts t n e key cell s plain here held good
  keyed t n e made := by
    cases e with
    | mkdirTemp pattern => exact Option.some_ne_none _
    | _ => cases made
  idle := note_idle
  tries := note_tried

end Suits

section Calls
variable {hosts : Nat → Host} {t : Nat} {e : Eff} {dir : String} {w : Store String TempDir}

/-- A call in a directory. -/
theorem exec_at (plain : makes e = false) (here : place e = some dir) :
    (device hosts).exec t e w =
      (((device hosts).effect t (w.counts t) e (w.cells dir)).1,
        (w.put dir ((device hosts).effect t (w.counts t) e (w.cells dir)).2).tick t) :=
  exec_some (((manners_suit hosts).placed t _ e plain).trans here)

theorem exec_done (plain : makes e = false) (here : place e = some dir)
    (passes : (hosts t).fails (w.counts t) = false) :
    (device hosts).exec t e w =
      (((hosts t).done (w.counts t) e (w.cells dir)).1,
        (w.put dir ((hosts t).done (w.counts t) e (w.cells dir)).2).tick t) := by
  rw [exec_at plain here]
  simp [device, passes]

end Calls

/-- A call that has nothing to do with directories, or works in this one. -/
def Inside (dir : String) (e : Eff) : Prop :=
  makes e = false ∧ (∀ name, e ≠ .remove name) ∧ (∀ name, e ≠ .removeAll name) ∧
    ∀ name, place e = some name → name = dir

/-- Any answers. -/
abbrev anything : (e : Eff) → Ans e → Prop := fun _ _ => True

section Bodies
variable {Name PublicKey PrivateKey : Type}
  {lib : CertificateParser.Crypto Name PublicKey PrivateKey} {s : Setup} {dir : String}

theorem only_check {ε α β : Type} {C : Eff → Prop} {fail : ε → Failure}
    {next : α → Engine (Except Failure β)} (h : ∀ a, Only anything C (next a)) (r : Except ε α) :
    Only anything C (check fail next r) := by
  cases r with
  | error err => exact trivial
  | ok a => exact h a

theorem inside_call {α : Type} {e : Eff} {k : Ans e → Engine α} (here : Inside dir e)
    (next : ∀ r, Only anything (Inside dir) (k r)) : Only anything (Inside dir) (.call e k) :=
  ⟨here, fun r _ => next r⟩

theorem inside_readPEM (large : Error) (name : String) :
    Only anything (Inside dir) (readPEM large dir name) :=
  inside_call ⟨rfl, by simp, by simp, by simp [place]⟩ fun _ => trivial

theorem inside_runAcme (arguments : List String) (values : List (String × String))
    {directory : Option String} (here : ∀ name, directory = some name → name = dir) :
    Only anything (Inside dir) (runAcme s arguments values directory) := by
  unfold runAcme
  cases AcmeEngine.checkVariables values with
  | error err => exact trivial
  | ok _ =>
    refine ⟨⟨rfl, by simp, by simp, here⟩, fun process _ => ?_⟩
    exact inside_call ⟨rfl, by simp, by simp, by simp [place]⟩ fun _ => trivial

theorem inside_generateIn (request : SelfSignedRequest) (arguments : List String) :
    Only anything (Inside dir) (generateIn lib s request arguments dir) := by
  refine only_bind (inside_call ⟨rfl, by simp, by simp, by simp [place]⟩ fun _ => trivial) ?_
  apply only_check
  intro _
  refine ⟨⟨rfl, by simp, by simp, by simp [place, opensslCommand]⟩, fun process _ => ?_⟩
  apply only_check
  intro summary
  refine only_bind (inside_readPEM _ _) (only_check fun certificatePEM => ?_)
  refine only_bind (inside_readPEM _ _) (only_check fun privateKeyPEM => ?_)
  refine only_bind (inside_call ⟨rfl, by simp, by simp, by simp [place]⟩ fun _ => trivial) ?_
  apply only_check
  intro _
  refine ⟨⟨rfl, by simp, by simp, by simp [place]⟩, fun now _ => ?_⟩
  apply only_check
  exact fun _ => trivial

theorem inside_collect (exitCode : Int) (combined : Bytes) :
    Only anything (Inside dir) (collect lib dir exitCode combined) := by
  refine only_bind (inside_readPEM _ _) (only_check fun certificatePEM => ?_)
  refine only_bind (inside_readPEM _ _) (only_check fun chainPEM => ?_)
  refine only_bind (inside_readPEM _ _) (only_check fun fullchainPEM => ?_)
  refine only_bind (inside_readPEM _ _) (only_check fun privateKeyPEM => ?_)
  apply only_check
  intro parsed
  apply only_check
  exact fun _ => trivial

theorem inside_installIn (primaryDomain keyType : String) (values : List (String × String))
    (previousOutput : Bytes) :
    Only anything (Inside dir)
      (installIn lib s primaryDomain keyType values previousOutput dir) := by
  refine only_bind (inside_runAcme _ _ (by simp)) fun ran => ?_
  cases ran.err with
  | some err => exact trivial
  | none => exact inside_collect _ _

end Bodies

section Manners
variable {Name PublicKey PrivateKey : Type}
  (lib : CertificateParser.Crypto Name PublicKey PrivateKey) (s : Setup)

/-- The program keeps to the manners and ends with `Q`. -/
abbrev Keeps {α : Type} (p : Engine α) (c : Call) (Q : α → Call → Prop) : Prop :=
  Follows anything manners.allows note p c Q

/-- The call has no directory, or could not remove it. -/
def Rid (c : Call) : Prop := c.dir = none ∨ c.lost = true

variable {lib s} {c : Call} {dir : String}

theorem allowed_inside {e : Eff} (plain : makes e = false)
    (own : ∀ name, place e = some name → name = dir) (held : c.dir = some dir) :
    manners.allows c e := by
  simp only [Manners.allows, manners, plain, Bool.false_eq_true, if_false]
  intro name there
  rw [own name there, held]

theorem allowed_idle {e : Eff} (plain : makes e = false) (nowhere : place e = none) :
    manners.allows c e := by
  simp [Manners.allows, manners, plain, nowhere]

theorem allowed_new (pattern : String) (untried : c.tried = false) :
    manners.allows c (.mkdirTemp pattern) := by
  simpa [Manners.allows, manners, makes] using untried

theorem note_inside {e : Eff} (inside : Inside dir e) (r : Ans e) : note c e r = c := by
  obtain ⟨plain, kept, kept', -⟩ := inside
  cases e with
  | mkdirTemp pattern => cases plain
  | remove name => exact absurd rfl (kept name)
  | removeAll name => exact absurd rfl (kept' name)
  | _ => rfl

theorem keeps_inside {α : Type} {p : Engine α} (h : Only anything (Inside dir) p)
    (held : c.dir = some dir) : Keeps p c fun _ c' => c'.dir = some dir := by
  induction p with
  | ret a => exact held
  | call e k ih =>
    obtain ⟨here, next⟩ := h
    refine ⟨allowed_inside here.1 here.2.2.2 held, fun r _ => ?_⟩
    rw [note_inside here]
    exact ih r (next r trivial)

/-- The process of a command that is not about a directory. -/
theorem keeps_runAcme (arguments : List String) (values : List (String × String)) :
    Keeps (runAcme s arguments values none) c fun _ c' => c' = c := by
  unfold runAcme
  cases AcmeEngine.checkVariables values with
  | error err => exact rfl
  | ok _ =>
    refine ⟨allowed_idle rfl rfl, fun process _ => ?_⟩
    exact ⟨allowed_idle rfl rfl, fun secrets _ => rfl⟩

theorem keeps_removing {α : Type} {body : Engine α}
    (h : Keeps body c fun _ c' => c'.dir = some dir) :
    Keeps (removing dir body) c fun _ => Rid := by
  refine h.bind fun result c' held => ?_
  refine ⟨allowed_inside rfl (by simp [place]) held, fun r _ => ?_⟩
  cases r with
  | error err => exact Or.inr rfl
  | ok _ => exact Or.inl rfl

theorem keeps_check {ε α β : Type} {fail : ε → Failure} {next : α → Engine (Except Failure β)}
    {Q : Call → Prop} (failed : Q c) (h : ∀ a, Keeps (next a) c fun _ => Q) (r : Except ε α) :
    Keeps (check fail next r) c fun _ => Q := by
  cases r with
  | error err => exact failed
  | ok a => exact h a

/-- The directory is made, and the rest is up to `body`. -/
theorem keeps_mkdir {α : Type} {wrap wrap' : Error → Failure} {pattern : String}
    {body : String → Engine (Except Failure α)} (untried : c.tried = false)
    (nothing : c.dir = none)
    (h : ∀ dir c', c'.dir = some dir → Keeps (body dir) c' fun _ => Rid) :
    Keeps (mkdirAll >>= check wrap fun _ => mkdirTemp pattern >>= check wrap' body) c
      fun _ => Rid := by
  refine ⟨allowed_idle rfl rfl, fun root _ => ?_⟩
  apply keeps_check (Or.inl nothing)
  intro _
  refine ⟨allowed_new pattern untried, fun made _ => ?_⟩
  cases made with
  | error err => exact Or.inl nothing
  | ok dir => exact h dir _ rfl

theorem keeps_generate (request : SelfSignedRequest) (untried : c.tried = false)
    (nothing : c.dir = none) : Keeps (generate lib s request) c fun _ => Rid := by
  unfold generate
  split
  · exact Or.inl nothing
  · apply keeps_check (Or.inl nothing)
    intro arguments
    apply keeps_mkdir untried nothing
    intro dir c' held
    refine ⟨allowed_inside rfl (by simp [place]) held, fun r _ => ?_⟩
    cases r with
    | error err =>
      refine ⟨allowed_inside rfl (by simp [place]) held, fun r _ => ?_⟩
      cases r with
      | error err => exact Or.inr rfl
      | ok _ => exact Or.inl rfl
    | ok _ => exact keeps_removing (keeps_inside (inside_generateIn request arguments) held)

theorem keeps_install (primaryDomain keyType : String) (values : List (String × String))
    (previousOutput : Bytes) (untried : c.tried = false) (nothing : c.dir = none) :
    Keeps (install lib s primaryDomain keyType values previousOutput) c fun _ => Rid := by
  apply keeps_mkdir untried nothing
  intro dir c' held
  apply keeps_removing
  apply keeps_inside _ held
  refine only_bind (inside_call ⟨rfl, by simp, by simp, by simp [place]⟩ fun _ => trivial) ?_
  apply only_check
  exact fun _ => inside_installIn _ _ _ _

theorem keeps_runAndInstall (operation dnsProvider primaryDomain keyType : String)
    (values : List (String × String)) (arguments : List String) (untried : c.tried = false)
    (nothing : c.dir = none) :
    Keeps (runAndInstall lib s operation dnsProvider primaryDomain keyType values arguments) c
      fun _ => Rid := by
  refine (keeps_runAcme arguments values).bind fun ran c' same => ?_
  subst same
  cases ran.err with
  | some err => exact Or.inl nothing
  | none => exact keeps_install _ _ _ _ untried nothing

theorem keeps_programOf (request : Request) (untried : c.tried = false) (nothing : c.dir = none) :
    Keeps (programOf lib s request) c fun _ => Rid := by
  cases request with
  | generate request => exact keeps_generate request untried nothing
  | issue request =>
    apply keeps_check (Or.inl nothing)
    exact fun arguments => keeps_runAndInstall _ _ _ _ _ arguments untried nothing
  | renew request =>
    apply keeps_check (Or.inl nothing)
    exact fun arguments => keeps_runAndInstall _ _ _ _ _ arguments untried nothing
  | revoke request =>
    apply keeps_check (Or.inl nothing)
    intro arguments
    refine (keeps_runAcme arguments []).bind fun ran c' same => ?_
    subst same
    cases ran.err with
    | some err => exact Or.inl nothing
    | none => exact Or.inl nothing

end Manners

section Pool
variable {Name PublicKey PrivateKey : Type}
  (lib : CertificateParser.Crypto Name PublicKey PrivateKey) (s : Setup) (hosts : Nat → Host)

abbrev EngineThread (Name : Type) := Thread Eff Ans Call (Except Failure (Reply Name))

abbrev EngineState (Name : Type) :=
  Config Eff Ans (Store String TempDir) Call (Except Failure (Reply Name))

/-- A thread that is about to make a call. -/
def Begins (th : EngineThread Name) : Prop :=
  ∃ request, th = ⟨programOf lib s request, Call.new request⟩

def engines : System Eff Ans (Store String TempDir) Call (Except Failure (Reply Name)) :=
  pool (device hosts) manners (Begins lib s)

def textOf (call : Call) : Engine (Except Failure (Reply Name)) := programOf lib s call.request

variable {lib s hosts}

theorem textOf_note (call : Call) (e : Eff) (r : Ans e) :
    textOf lib s (note call e r) = textOf lib s call := by
  rw [textOf, note_request]
  rfl

theorem textOf_begins {th : EngineThread Name} (h : Begins lib s th) :
    textOf lib s th.seen = th.prog := by
  obtain ⟨request, rfl⟩ := h
  rfl

theorem newcomer {th : EngineThread Name} (h : Begins lib s th) : manners.Newcomer th := by
  obtain ⟨request, rfl⟩ := h
  exact ⟨rfl, rfl, keeps_programOf request rfl rfl⟩

/-- Two hosts that give different names to directories. -/
def twoHosts (t : Nat) : Host := goodHost (if t = 0 then "0" else "1")

def emptyRoot : Store String TempDir := ⟨fun _ => none, fun _ => 0⟩

abbrev SampleState := EngineState String

/-- A call that is about to begin. -/
def begun (request : Request) : EngineThread String :=
  ⟨programOf CertificateParser.pairCrypto sampleSetup request, Call.new request⟩

/-- Two calls side by side, which have made `n` calls each, in turn. -/
def twoCalls (n : Nat) : Option SampleState :=
  (engines CertificateParser.pairCrypto sampleSetup twoHosts).play (fun _ _ _ => true)
    (List.replicate n [0, 1]).flatten
    (.crowd emptyRoot [begun (.generate monthRequest), begun (.generate monthRequest)])

theorem twoCalls_reach
    {D : Discipline Eff Ans (Store String TempDir) Call (Except Failure (Reply String))}
    (starts : ∀ c th, D.start c th) (calls : ∀ c t e, D.call c t e) {n : Nat} {c : SampleState}
    (h : twoCalls n = some c) :
    Reach (engines CertificateParser.pairCrypto sampleSetup twoHosts) D (.crowd emptyRoot []) c := by
  refine (crowd_reach starts emptyRoot _ ?_).trans (play_reach (fun c t e _ => calls c t e) h)
  intro th there
  simp only [List.mem_cons, List.not_mem_nil, or_false, or_self] at there
  exact ⟨.generate monthRequest, there⟩

/-- A call has ended without an error. -/
def answered (c : SampleState) (t : Nat) : Bool :=
  match c.outcome t with
  | some (.ok _, _) => true
  | _ => false

theorem outcome_of_answered {c : SampleState} {t : Nat} (h : answered c t = true) :
    ∃ reply call, c.outcome t = some (.ok reply, call) := by
  unfold answered at h
  split at h
  · rename_i reply call ended
    exact ⟨reply, call, ended⟩
  · cases h

theorem twoCalls_answered : ∃ c, twoCalls 10 = some c ∧ answered c 0 = true ∧
    answered c 1 = true := by
  have played : (twoCalls 10).map (fun c => (answered c 0, answered c 1)) = some (true, true) := by
    decide +kernel
  obtain ⟨c, made, both⟩ := Option.map_eq_some_iff.mp played
  exact ⟨c, made, congrArg Prod.fst both, congrArg Prod.snd both⟩

/-- A call that removes a directory. -/
def removes : Eff → Bool
  | .remove _ => true
  | .removeAll _ => true
  | _ => false

/-- No call is killed, and every removal is let through. -/
def removable (hosts : Nat → Host) :
    Discipline Eff Ans (Store String TempDir) Call (Except Failure (Reply Name)) where
  start _ _ := True
  call c t e := removes e = true → (hosts t).fails (c.world.counts t) = false
  crash _ := False

/-- A call has its directory, so it is removed. -/
theorem removable_kept {start : String → Option TempDir} {c : EngineState Name} {t : Nat} {e : Eff}
    {k : Ans e → Engine (Except Failure (Reply Name))} {call : Call}
    (known : Known manners Private start c) (running : c.threads t = some ⟨.call e k, call⟩)
    (ok : (removable hosts).call c t e) (kept : call.lost = false) :
    (note call e ((device hosts).exec t e c.world).1).lost = false := by
  cases e with
  | remove dir =>
    have key : (device hosts).key t 0 (.remove dir) = some dir := rfl
    rcases known.key (manners_suit hosts) running key with ⟨made, -⟩ | ⟨-, -, held⟩
    · cases made
    · obtain ⟨-, -, mine⟩ := known.standing.thread t _ running
      obtain ⟨-, d, full, -⟩ := mine dir held
      rw [exec_done rfl rfl (ok rfl), full]
      exact kept
  | removeAll dir =>
    rw [exec_done rfl rfl (ok rfl)]
    exact kept
  | mkdirTemp pattern =>
    cases ((device hosts).exec t (.mkdirTemp pattern) c.world).1 with
    | error err => exact kept
    | ok dir => exact kept
  | _ => exact kept

/-- What is below the temporary root before any call stays as it is, whatever happens, and a
directory that a call has made is its own: nobody else has it, no other user can look into
it, and it is under a new name. Where no call is killed and every removal is let through, the
root is in the end as it was. -/
theorem temp_root_kept {c₀ c : EngineState Name} (idle : ∀ t, c₀.threads t = none) :
    (Reach (engines lib s hosts) .any c₀ c →
      (∀ dir, c₀.world.cells dir ≠ none → c.world.cells dir = c₀.world.cells dir) ∧
      ∀ t th dir, c.threads t = some th → th.seen.dir = some dir →
        c₀.world.cells dir = none ∧ (∃ d, c.world.cells dir = some d ∧ d.mode &&& 0o077 = 0) ∧
        ∀ u th', c.threads u = some th' → th'.seen.dir = some dir → u = t) ∧
    (Reach (engines lib s hosts) (removable hosts) c₀ c → c.Quiet →
      c.world.cells = c₀.world.cells) := by
  constructor
  · intro run
    have known := known_reach (manners_suit hosts) (fun th begins => newcomer begins) idle run
    refine ⟨known.standing.world, fun t th dir there has => ?_⟩
    obtain ⟨-, -, mine⟩ := known.standing.thread t th there
    obtain ⟨free, d, full, good⟩ := mine dir has
    exact ⟨free, ⟨d, full, good⟩, fun u th' there' has' =>
      known.exclusive u t th' th dir there' there has' has⟩
  · intro run quiet
    apply cells_of_quiet (manners_suit hosts) (fun th begins => newcomer begins) _ _ _ idle run quiet
    · rintro th ⟨request, rfl⟩
      rfl
    · exact fun c => not_false
    · exact fun c t e k call known running ok kept => removable_kept known running ok kept

/-- In the middle each of two calls has a directory, and in the end there is none. -/
theorem temp_root_kept_turns :
    (∃ c th d, twoCalls 5 = some c ∧ c.threads 0 = some th ∧ th.seen.dir = some "selfsigned-0" ∧
      c.world.cells "selfsigned-0" = some d ∧ d.mode &&& 0o077 = 0 ∧
      ∀ th', c.threads 1 = some th' → th'.seen.dir ≠ some "selfsigned-0") ∧
    ∃ c, twoCalls 10 = some c ∧ c.world.cells = emptyRoot.cells := by
  constructor
  · have played : ((twoCalls 5).bind fun c => (c.threads 0).map fun th => th.seen.dir) =
        some (some "selfsigned-0") := by
      decide +kernel
    obtain ⟨c, made, seen⟩ := Option.bind_eq_some_iff.mp played
    obtain ⟨th, there, has⟩ := Option.map_eq_some_iff.mp seen
    have reached := twoCalls_reach (D := .any) (fun _ _ => trivial) (fun _ _ _ => trivial) made
    obtain ⟨-, ⟨d, full, closed⟩, alone⟩ :=
      ((temp_root_kept fun _ => rfl).1 reached).2 0 th _ there has
    refine ⟨c, th, d, made, there, has, full, closed, fun th' there' also => ?_⟩
    cases alone 1 th' there' also
  · obtain ⟨c, made, first, second⟩ := twoCalls_answered
    have quiet : c.Quiet := by
      have begins := crowd_free emptyRoot [begun (.generate monthRequest),
        begun (.generate monthRequest)]
      refine quiet_of_resting (n := 2) (play_bounded begins made) ?_
      obtain ⟨reply, call, ended⟩ := outcome_of_answered first
      obtain ⟨reply', call', ended'⟩ := outcome_of_answered second
      simp [Config.resting, List.range_succ, ended, ended']
    have reached := twoCalls_reach (D := removable twoHosts) (fun _ _ => trivial)
      (fun _ _ _ _ => rfl) made
    exact ⟨c, made, (temp_root_kept fun _ => rfl).2 reached quiet⟩

end Pool

end EngineCalls
