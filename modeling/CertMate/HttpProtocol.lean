import CertMate.HttpHandlers
import CertMate.ServiceCalls
import CertMate.ServiceProtocol

/-!
# What a request may do next

What a request has been answered decides whether it may make the calls that
need a fresh password and whether its response may carry a private key.
-/
namespace HttpProtocol
open CertificateModel CallTrees SessionManager HttpHandlers ServiceCalls
open LoginLimiter (Manager)

/-- What is remembered of a request under way: when its cookie was decoded, the
session found there, the readings of the clock, and the events about private
keys it has tried to write. A goroutine of the scheduler has no request. -/
structure Local where
  request : Option Request
  arrived : Option Int
  session : Option Session
  times : List Int
  audits : List Event

def Local.new (request : Option Request) : Local := ⟨request, none, none, [], []⟩

def note : Local → (e : Eff) → Ans e → Local
  | l, .present _, r => { l with arrived := some r.1, session := r.2 }
  | l, .now, t => { l with times := t :: l.times }
  | l, .service (.store (.createAuditEvent event)), _ =>
    if event.eventType ∈ keyEvents then { l with audits := event :: l.audits } else l
  | l, _, _ => l

/-- The password in a request. -/
def password : Route → Option String
  | .login body => body.map LoginRequest.password
  | .reauthenticate body => body
  | .deleteCertificate _ body => body.map DeleteRequest.password
  | .revokeCertificate _ body => body
  | .downloadCertificateArchive _ body => body.map ArchiveRequest.password
  | .revealPrivateKey _ body => body
  | _ => none

section Conditions
variable (m : Manager)

/-- The session was valid at some reading of the clock. -/
def Valid (s : Session) (l : Local) : Prop :=
  s.signed m = true ∧ ∃ t ∈ l.times, t ≤ s.expiry

/-- The session carries a fresh mark. -/
def Marked (s : Session) (l : Local) : Prop :=
  ∃ value t, s.reauthAt = some value ∧ t ∈ l.times ∧ t - value * second ≤ reauthTTL

/-- The request has a valid session and brings the password or a fresh mark. -/
def Cleared (l : Local) : Prop :=
  ∃ request s, l.request = some request ∧ l.session = some s ∧ Valid m s l ∧
    ((∃ text, password request.route = some text ∧ m.compare text = true) ∨ Marked s l)

/-- What a cookie may be issued for. -/
def Grounds (l : Local) (cookie : Presented) (cause : Cause) (session : Session) : Prop :=
  (∃ request, l.request = some request ∧ cookie = request.cookie) ∧
    match cause with
    | .login username text =>
      username = m.username ∧ m.compare text = true ∧ session.reauthAt = none ∧
        ∃ t ∈ l.times, session.createdAt = t / second
    | .reauthenticate text =>
      m.compare text = true ∧ ∃ s t, l.session = some s ∧ s.authenticated = true ∧
        t ∈ l.times ∧ session = { s with reauthAt := some (t / second) }
    | .logout => session = .empty

/-- The calls that need a fresh password. -/
def Sensitive : ServiceWorld.Eff → Prop
  | .renewACME _ request => request.force = true
  | .revokeACME _ _ => True
  | .store (.deleteCertificateWithAudit _ _) => True
  | _ => False

/-- The route that a sensitive call belongs to. -/
def Asks : Route → ServiceWorld.Eff → Prop
  | .forceRenewCertificate _, .renewACME _ _ => True
  | .revokeCertificate _ _, .revokeACME _ _ => True
  | .deleteCertificate _ _, .store (.deleteCertificateWithAudit _ _) => True
  | _, _ => False

/-- The request is cleared and asks for the call. -/
def Permits (l : Local) (e : ServiceWorld.Eff) : Prop :=
  Cleared m l ∧ ∃ request, l.request = some request ∧ Asks request.route e

def allows (l : Local) : Eff → Prop
  | .service e => Sensitive e → Permits m l e
  | .present cookie => l.times = [] ∧ ∃ request, l.request = some request ∧ cookie = request.cookie
  | .save cookie cause session => Grounds m l cookie cause session
  | _ => True

/-- What every world answers. -/
def Honest : (e : Eff) → Ans e → Prop
  | .service e, r => ServiceProtocol.Honest e r
  | .limiter (.compare _ username text), r =>
    r = (decide (username = m.username) && m.compare text)
  | _, _ => True

/-- The event is about the key that the request asks for. -/
def Names (request : Request) (event : Event) : Prop :=
  match request.route with
  | .downloadCertificateFile id _ =>
    event.certificateID = some id ∧ event.eventType = "private_key.download"
  | .revealPrivateKey id _ =>
    event.certificateID = some id ∧ event.eventType = "private_key.view"
  | .downloadCertificateArchive id _ =>
    event.certificateID = some id ∧ event.eventType = "private_key.archive_download"
  | _ => False

/-- The session has expired after it was found valid. -/
def Lapsed (s : Session) (times : List Int) : Prop :=
  ∃ newer t older, times = newer ++ t :: older ∧ s.expiry < t ∧ ∃ t' ∈ older, t' ≤ s.expiry

/-- The actor is named, unless the session has expired in the meantime. -/
def Named (l : Local) (actor : String) : Prop :=
  ∀ s, l.session = some s → s.signed m = true → actor = m.username ∨ Lapsed s l.times

def Witnessed (l : Local) : Prop :=
  ∃ request event, l.request = some request ∧ event ∈ l.audits ∧ Names request event ∧
    Named m l event.actor

end Conditions

def carriesKey (r : Response) : Bool :=
  match r.body with
  | .file filename _ => filename = "privkey.pem"
  | .archive entries => entries.any fun e => e.1 = "privkey.pem"
  | _ => false

def Ends (m : Manager) (r : Response) (l : Local) : Prop :=
  carriesKey r = true → Cleared m l ∧ Witnessed m l

/-- The clock has been read since. -/
def Later (l l' : Local) : Prop := ∃ more, l' = { l with times := more ++ l.times }

theorem Later.refl (l : Local) : Later l l := ⟨[], rfl⟩

theorem Later.trans {l l' l'' : Local} (h : Later l l') (h' : Later l' l'') : Later l l'' := by
  obtain ⟨more, rfl⟩ := h
  obtain ⟨others, rfl⟩ := h'
  exact ⟨others ++ more, by simp⟩

theorem Later.now (l : Local) (t : Int) : Later l { l with times := t :: l.times } := ⟨[t], rfl⟩

section Later
variable {m : Manager} {l l' : Local}

theorem Later.request (h : Later l l') : l'.request = l.request := by
  obtain ⟨more, rfl⟩ := h
  rfl

theorem Later.session (h : Later l l') : l'.session = l.session := by
  obtain ⟨more, rfl⟩ := h
  rfl

theorem Later.audits (h : Later l l') : l'.audits = l.audits := by
  obtain ⟨more, rfl⟩ := h
  rfl

theorem Later.times (h : Later l l') {t : Int} (there : t ∈ l.times) : t ∈ l'.times := by
  obtain ⟨more, rfl⟩ := h
  exact List.mem_append_right _ there

theorem Valid.later {s : Session} (valid : Valid m s l) (h : Later l l') : Valid m s l' := by
  obtain ⟨signed, t, there, early⟩ := valid
  exact ⟨signed, t, h.times there, early⟩

theorem Marked.later {s : Session} (marked : Marked s l) (h : Later l l') : Marked s l' := by
  obtain ⟨value, t, mark, there, fresh⟩ := marked
  exact ⟨value, t, mark, h.times there, fresh⟩

theorem Cleared.later (cleared : Cleared m l) (h : Later l l') : Cleared m l' := by
  obtain ⟨request, s, mine, found, valid, proof⟩ := cleared
  exact ⟨request, s, h.request.trans mine, h.session.trans found, valid.later h,
    proof.imp_right fun marked => marked.later h⟩

theorem Permits.later {e : ServiceWorld.Eff} (permitted : Permits m l e) (h : Later l l') :
    Permits m l' e := by
  obtain ⟨cleared, request, mine, asks⟩ := permitted
  exact ⟨cleared.later h, request, h.request.trans mine, asks⟩

theorem Valid.lapsed {s : Session} {t : Int} (valid : Valid m s l)
    (read : l'.times = t :: l.times) (late : s.expiry < t) : Lapsed s l'.times := by
  obtain ⟨-, t', there, early⟩ := valid
  exact ⟨[], t, l.times, read, late, t', there, early⟩

end Later

section Parts
variable {m : Manager} {l : Local}

abbrev Runs (m : Manager) {α : Type} (p : Operation α) (l : Local) (Q : α → Local → Prop) : Prop :=
  Follows (Honest m) (allows m) note p l Q

theorem plain_sensitive {P : ServiceWorld.Eff → Prop} {e : ServiceWorld.Eff} (h : Plain P e)
    (sensitive : Sensitive e) : P e := by
  cases e with
  | renewACME id request => exact h sensitive
  | revokeACME id request => exact h
  | store q =>
    cases q with
    | deleteCertificateWithAudit id event => exact h
    | _ => cases sensitive
  | _ => cases sensitive

theorem plain_unnoted {P : ServiceWorld.Eff → Prop} {e : ServiceWorld.Eff} (h : Plain P e)
    (l : Local) (r : ServiceWorld.Ans e) : note l (.service e) r = l := by
  cases e with
  | store q =>
    cases q with
    | createAuditEvent event => exact if_neg h
    | _ => rfl
  | _ => rfl

/-- What the service does in between is allowed and leaves no note. -/
theorem service_bind {α β : Type} {p : CertificateService.Operation α} {f : α → Operation β}
    {Q : β → Local → Prop} (plain : Behaves (Permits m l) p) (rest : ∀ a, Runs m (f a) l Q) :
    Runs m (service p >>= f) l Q := by
  induction p with
  | ret a => exact rest a
  | call e k ih =>
    refine follows_call.mpr ⟨plain_sensitive (plain_of_regular plain.1), fun r _ => ?_⟩
    rw [plain_unnoted (plain_of_regular plain.1)]
    exact ih r (plain.2 r trivial)

theorem limiter_bind {α β : Type} {p : Prog LoginLimiter.Eff LoginLimiter.Ans α}
    {f : α → Operation β} {Q : β → Local → Prop} {C : LoginLimiter.Eff → Prop} {R : α → Prop}
    (silent : Silent (fun e r => Honest m (.limiter e) r) C p R)
    (rest : ∀ a, R a → Runs m (f a) l Q) : Runs m (limiter p >>= f) l Q := by
  induction p with
  | ret a => exact rest a silent
  | call e k ih => exact follows_call.mpr ⟨trivial, fun r honest => ih r (silent.2 r honest)⟩

/-- What `CurrentUser` tells. -/
def Told (m : Manager) (session : Option Session) (user : Option String) (l l' : Local) : Prop :=
  match user with
  | some name => name = m.username ∧ ∃ s, session = some s ∧ Valid m s l'
  | none => ∀ s, session = some s → s.signed m = true →
      ∃ t, l'.times = t :: l.times ∧ s.expiry < t

theorem username_of_signed {s : Session} (signed : s.signed m = true) :
    s.username = m.username := by
  simp only [Session.signed, Bool.and_eq_true, decide_eq_true_eq] at signed
  exact signed.1.2

theorem currentUser_bind {β : Type} {session : Option Session} {f : Option String → Operation β}
    {Q : β → Local → Prop}
    (rest : ∀ user l', Later l l' → Told m session user l l' → Runs m (f user) l' Q) :
    Runs m (currentUser m session >>= f) l Q := by
  cases session with
  | none => exact rest none l (Later.refl l) fun _ h => nomatch h
  | some s =>
    unfold currentUser
    dsimp only
    cases signed : s.signed m with
    | false =>
      refine rest none l (Later.refl l) fun s' same claimed => ?_
      cases same
      rw [signed] at claimed
      cases claimed
    | true =>
      refine follows_call.mpr ⟨trivial, fun t _ => ?_⟩
      change Runs m ((if s.expiry < t then .ret none else .ret (some s.username)) >>= f) _ Q
      split
      · rename_i late
        refine rest none _ (Later.now l t) fun s' same _ => ?_
        cases same
        exact ⟨t, rfl, late⟩
      · rename_i early
        have valid : Valid m s { l with times := t :: l.times } :=
          ⟨signed, t, List.mem_cons_self, by omega⟩
        exact rest _ _ (Later.now l t) ⟨username_of_signed signed, s, rfl, valid⟩

/-- The actor of an audit record. -/
theorem actor_bind {β : Type} {rt : Router} {session : Option Session} {f : String → Operation β}
    {Q : β → Local → Prop}
    (rest : ∀ actor l', Later l l' → (∀ s, session = some s → s.signed rt.manager = true →
      actor = rt.manager.username ∨ ∃ t, l'.times = t :: l.times ∧ s.expiry < t) →
      Runs m (f actor) l' Q)
    (same : rt.manager = m) : Runs m (actorOf rt session >>= f) l Q := by
  subst same
  unfold actorOf
  rw [Prog.bind_assoc]
  refine currentUser_bind fun user l' later told => rest _ l' later fun s found signed => ?_
  cases user with
  | none => exact Or.inr (told s found signed)
  | some name => exact Or.inl told.1

theorem reauthenticate_bind {β : Type} {cookie : Presented} {text : String}
    {f : Except ReauthError Session → Operation β} {Q : β → Local → Prop}
    (presented : ∃ request, l.request = some request ∧ cookie = request.cookie)
    (refused : ∀ err l', Later l l' → Runs m (f (.error err)) l' Q)
    (accepted : ∀ s s' l', Later l l' → l.session = some s → Valid m s l' →
      m.compare text = true → s'.signed m = s.signed m → s'.expiry = s.expiry →
      Runs m (f (.ok s')) l' Q) :
    Runs m (reauthenticate m cookie l.session text >>= f) l Q := by
  unfold reauthenticate
  rw [Prog.bind_assoc]
  refine currentUser_bind fun user l' later told => ?_
  cases user with
  | none => exact refused .unauthenticated l' later
  | some name =>
    obtain ⟨-, s, found, valid⟩ := told
    dsimp only
    cases right : m.compare text with
    | false => exact refused .invalidCredentials l' later
    | true =>
      refine follows_call.mpr ⟨trivial, fun t _ => ?_⟩
      have now : Later l { l' with times := t :: l'.times } := later.trans (Later.now l' t)
      refine follows_call.mpr ⟨?_, fun saved _ => ?_⟩
      · obtain ⟨request, mine, same⟩ := presented
        refine ⟨⟨request, later.request.trans mine, same⟩, right, s, t, later.session.trans found,
          ?_, List.mem_cons_self, ?_⟩
        · have signed := valid.1
          simp only [Session.signed, Bool.and_eq_true] at signed
          exact signed.1.1
        · rw [found]
          rfl
      · cases saved with
        | error err => exact refused (.failed err) _ now
        | ok _ =>
          rw [found]
          exact accepted s _ _ now found (valid.later (Later.now l' t)) right rfl rfl

theorem reauthenticated_bind {β : Type} {f : Bool → Operation β} {Q : β → Local → Prop}
    (refused : ∀ l', Later l l' → Runs m (f false) l' Q)
    (accepted : ∀ s l', Later l l' → l.session = some s → Valid m s l' → Marked s l' →
      Runs m (f true) l' Q) :
    Runs m (reauthenticated m l.session >>= f) l Q := by
  unfold reauthenticated
  rw [Prog.bind_assoc]
  refine currentUser_bind fun user l' later told => ?_
  cases user with
  | none => exact refused l' later
  | some name =>
    obtain ⟨-, s, found, valid⟩ := told
    dsimp only
    rw [found, Option.bind_some]
    cases mark : s.reauthAt with
    | none => exact refused l' later
    | some value =>
      refine follows_call.mpr ⟨trivial, fun t _ => ?_⟩
      have now : Later l { l' with times := t :: l'.times } := later.trans (Later.now l' t)
      change Runs m (f (decide (t - value * second ≤ reauthTTL)))
        { l' with times := t :: l'.times } Q
      by_cases fresh : t - value * second ≤ reauthTTL
      · rw [decide_eq_true fresh]
        exact accepted s _ now found (valid.later (Later.now l' t))
          ⟨value, t, mark, List.mem_cons_self, fresh⟩
      · rw [decide_eq_false fresh]
        exact refused _ now

/-- A record that is not about a key. -/
theorem adminAudit_bind {β : Type} {rt : Router} (same : rt.manager = m) {session : Option Session}
    {clientIP eventType fallbackActor result : String} (other : eventType ∉ keyEvents)
    {f : Unit → Operation β} {Q : β → Local → Prop} (rest : ∀ l', Later l l' → Runs m (f ()) l' Q) :
    Runs m (auditAdminEvent rt session clientIP eventType fallbackActor result >>= f) l Q := by
  subst same
  unfold auditAdminEvent
  rw [Prog.bind_assoc]
  refine currentUser_bind fun user l' later _ => ?_
  rw [Prog.bind_assoc]
  exact service_bind (store_plain other) fun _ => rest l' later

end Parts

section Responses
variable {m : Manager} {l : Local} {r : Response}

theorem ends_plain (plain : carriesKey r = false) : Ends m r l := by
  intro carries
  rw [plain] at carries
  cases carries

theorem configurationError_plain (err : Error) (code message : String) :
    carriesKey (configurationError err code message) = false := by
  unfold configurationError
  split
  · rfl
  · split <;> rfl

theorem createdResponse_plain (outcome : Outcome Certificate) :
    carriesKey (createdResponse outcome) = false := by
  cases outcome with
  | error err => exact configurationError_plain err _ _
  | _ => rfl

theorem updatedResponse_plain (outcome : Outcome Certificate) :
    carriesKey (updatedResponse outcome) = false := by
  cases outcome with
  | error err =>
    unfold updatedResponse
    dsimp only
    split <;> rfl
  | _ => rfl

theorem issuedResponse_plain (outcome : Outcome Certificate) :
    carriesKey (issuedResponse outcome) = false := by
  cases outcome with
  | error err =>
    unfold issuedResponse
    dsimp only
    split
    · rfl
    · split
      · rfl
      · exact configurationError_plain err _ _
  | _ => rfl

theorem renewedResponse_plain (outcome : Outcome Certificate) :
    carriesKey (renewedResponse outcome) = false := by
  cases outcome with
  | error err =>
    unfold renewedResponse
    dsimp only
    split
    · rfl
    · split
      · rfl
      · split <;> rfl
  | _ => rfl

theorem revokedResponse_plain (outcome : Outcome Certificate) :
    carriesKey (revokedResponse outcome) = false := by
  cases outcome with
  | error err =>
    unfold revokedResponse
    dsimp only
    split
    · rfl
    · split
      · rfl
      · split <;> rfl
  | _ => rfl

theorem deletedResponse_plain (outcome : Outcome Unit) :
    carriesKey (deletedResponse outcome) = false := by
  cases outcome with
  | error err =>
    unfold deletedResponse
    dsimp only
    split
    · rfl
    · split <;> rfl
  | _ => rfl

end Responses

section Handlers
variable {rt : Router} {m : Manager} {l : Local} {request : Request}

-- A goal about a program is otherwise reduced as far as the texts in it go.
attribute [local irreducible] DomainValidation.trimSpace

/-- The visit of a request that has been let in. -/
abbrev visitOf (request : Request) (l : Local) : Visit :=
  ⟨request.cookie, request.clientIP, l.session⟩

abbrev Serves (rt : Router) (p : Operation Response) (l : Local) : Prop :=
  Runs rt.manager p l (Ends rt.manager)

theorem actor_service {α : Type} {p : String → CertificateService.Operation α}
    {respond : α → Response} {session : Option Session}
    (plain : ∀ actor l', Later l l' → Behaves (Permits rt.manager l') (p actor))
    (safe : ∀ a, carriesKey (respond a) = false) :
    Serves rt (do
      let actor ← actorOf rt session
      let outcome ← service (p actor)
      return respond outcome) l := by
  refine actor_bind (fun actor l' later _ => ?_) rfl
  exact service_bind (plain actor l' later) fun outcome => ends_plain (safe outcome)

theorem certificateByID_bind {id : Id} {f : Except Response Certificate → Operation Response}
    (refused : ∀ r, carriesKey r = false → Serves rt (f (.error r)) l)
    (found : ∀ value, value.id = id → Serves rt (f (.ok value)) l) :
    Serves rt (certificateByID id >>= f) l := by
  refine follows_call.mpr ⟨fun h => h.elim, fun answer honest => ?_⟩
  cases answer with
  | error err =>
    refine refused _ ?_
    split <;> rfl
  | ok value => exact found value honest

theorem listCertificates_serves : Serves rt listCertificates l := by
  refine service_bind list_plain fun listed => ?_
  cases listed <;> exact ends_plain rfl

theorem createCertificate_serves (body : Option CreateRequest) :
    Serves rt (createCertificate rt (visitOf request l) body) l := by
  cases body with
  | none => exact ends_plain rfl
  | some create =>
    refine actor_bind (fun actor l' later _ => ?_) rfl
    split
    · exact service_bind (createSelfSigned_plain _ _ _ _) fun outcome =>
        ends_plain (createdResponse_plain outcome)
    · exact service_bind (createACME_plain _ _ _ _) fun outcome =>
        ends_plain (createdResponse_plain outcome)
    · exact ends_plain rfl

theorem getCertificate_serves (id : Id) : Serves rt (getCertificate id) l := by
  refine certificateByID_bind (fun r plain => ends_plain plain) fun value _ => ?_
  exact ends_plain rfl

theorem updateCertificate_serves (id : Id) (body : Option CertificateService.UpdateRequest) :
    Serves rt (updateCertificate rt (visitOf request l) id body) l := by
  cases body with
  | none => exact ends_plain rfl
  | some update =>
    exact actor_service (fun actor l' _ => update_plain id update actor _) updatedResponse_plain

theorem issueCertificate_serves (id : Id) :
    Serves rt (issueCertificate rt (visitOf request l) id) l :=
  actor_service (fun actor _ _ => issue_plain rt.certificates id actor _) issuedResponse_plain

theorem runCertificateRenewal_serves (id : Id) {force : Bool}
    (fresh : force = true → MayForce (Permits rt.manager l)) {visit : Visit} :
    Serves rt (runCertificateRenewal rt visit id force) l :=
  actor_service (fun actor _ later => renew_plain rt.certificates id
    (fun forced id request => (fresh forced id request).later later) actor _) renewedResponse_plain

theorem forceRenewCertificate_serves (mine : l.request = some request) {id : Id}
    (route : request.route = .forceRenewCertificate id) :
    Serves rt (forceRenewCertificate rt (visitOf request l) id) l := by
  refine reauthenticated_bind (fun l' _ => ends_plain rfl) fun s l' later found valid marked => ?_
  have cleared : Cleared rt.manager l' :=
    ⟨request, s, later.request.trans mine, later.session.trans found, valid, Or.inr marked⟩
  have permitted : MayForce (Permits rt.manager l') := by
    refine fun _ _ => ⟨cleared, request, later.request.trans mine, ?_⟩
    rw [route]
    trivial
  exact runCertificateRenewal_serves id fun _ => permitted

/-- With the right password in it a request is cleared. -/
theorem cleared_of_password {l' : Local} {s : Session} {text : String}
    (mine : l.request = some request) (carried : password request.route = some text)
    (later : Later l l') (found : l.session = some s) (valid : Valid rt.manager s l')
    (right : rt.manager.compare text = true) : Cleared rt.manager l' :=
  ⟨request, s, later.request.trans mine, later.session.trans found, valid,
    Or.inl ⟨text, carried, right⟩⟩

theorem revokeCertificate_serves (mine : l.request = some request) {id : Id} {body : Option String}
    (route : request.route = .revokeCertificate id body) :
    Serves rt (revokeCertificate rt (visitOf request l) id body) l := by
  cases body with
  | none => exact ends_plain rfl
  | some text =>
    refine reauthenticate_bind ⟨request, mine, rfl⟩ (fun _ _ _ => ends_plain rfl)
      fun s s' l' later found valid right _ _ => ?_
    have carried : password request.route = some text := by
      rw [route]
      rfl
    have cleared := cleared_of_password mine carried later found valid right
    have permitted : MayRevoke (Permits rt.manager l') := by
      refine fun _ _ => ⟨cleared, request, later.request.trans mine, ?_⟩
      rw [route]
      trivial
    exact actor_service (fun actor _ later => revoke_plain
      (fun id request => (permitted id request).later later) rt.certificates id actor _)
      revokedResponse_plain

theorem deleteCertificate_serves (mine : l.request = some request) {id : Id}
    {body : Option DeleteRequest} (route : request.route = .deleteCertificate id body) :
    Serves rt (deleteCertificate rt (visitOf request l) id body) l := by
  cases body with
  | none => exact ends_plain rfl
  | some delete =>
    refine certificateByID_bind (fun r plain => ends_plain plain) fun value _ => ?_
    dsimp only
    split
    · exact ends_plain rfl
    · refine reauthenticate_bind ⟨request, mine, rfl⟩ (fun _ _ _ => ends_plain rfl)
        fun s s' l' later found valid right _ _ => ?_
      have carried : password request.route = some delete.password := by
        rw [route]
        rfl
      have cleared := cleared_of_password mine carried later found valid right
      have permitted : MayDelete (Permits rt.manager l') := by
        refine fun _ _ => ⟨cleared, request, later.request.trans mine, ?_⟩
        rw [route]
        trivial
      exact actor_service (fun actor _ later => delete_plain
        (fun id event => (permitted id event).later later) value.id delete.deleteFiles actor _)
        deletedResponse_plain

theorem listCertificateFiles_serves (id : Id) : Serves rt (listCertificateFiles id) l := by
  refine certificateByID_bind (fun r plain => ends_plain plain) fun value _ => ?_
  refine service_bind (availableFiles_plain value.id) fun available => ?_
  cases available <;> exact ends_plain rfl

/-- Only the type of the private key stands for its file. -/
theorem privateKey_of_fileName {fileType filename : String}
    (h : certificateFileName fileType = some filename) (other : fileType ≠ "private-key") :
    filename ≠ "privkey.pem" := by
  unfold certificateFileName certificateFiles at h
  simp only [List.lookup_cons, List.lookup_nil] at h
  split at h
  · cases h; decide
  · split at h
    · cases h; decide
    · split at h
      · cases h; decide
      · split at h
        · rename_i same
          exact absurd (eq_of_beq same) other
        · cases h

theorem fileResponse_plain {fileType filename : String} (download : Bool)
    (content : FileSystem.Content) (other : filename ≠ "privkey.pem") :
    carriesKey (fileResponse fileType filename download content) = false :=
  decide_eq_false other

/-- The record of an access to a key is noted, and then the response is sent. -/
theorem keyAudit_bind {id : Id} {eventType actor clientIP : String} (key : eventType ∈ keyEvents)
    {f : Except Error Unit → Operation Response}
    (rest : ∀ answer, Serves rt (f answer) { l with
      audits := CertificateService.auditEvent id eventType actor clientIP "succeeded" [] ::
        l.audits }) :
    Serves rt (service (auditFileAccess id eventType actor clientIP) >>= f) l := by
  refine follows_call.mpr ⟨fun h => h.elim, fun answer _ => ?_⟩
  have noted : note l (.service (.store (.createAuditEvent
      (CertificateService.auditEvent id eventType actor clientIP "succeeded" [])))) answer =
      { l with audits := CertificateService.auditEvent id eventType actor clientIP "succeeded" [] ::
        l.audits } := if_pos key
  rw [noted]
  exact rest answer

/-- Whom the record of a cleared request names. -/
theorem named_of_cleared {l' : Local} {session : Option Session} {actor : String}
    (cleared : Cleared rt.manager l) (later : Later l l')
    (same : ∀ s, l.session = some s → ∃ s', session = some s' ∧
      s'.signed rt.manager = s.signed rt.manager ∧ s'.expiry = s.expiry)
    (told : ∀ s, session = some s → s.signed rt.manager = true →
      actor = rt.manager.username ∨ ∃ t, l'.times = t :: l.times ∧ s.expiry < t) :
    Named rt.manager l' actor := by
  obtain ⟨-, s₀, -, found₀, valid, -⟩ := cleared
  intro s found signed
  have found : l.session = some s := later.session ▸ found
  cases found₀.symm.trans found
  obtain ⟨s', presented, signed', expiry⟩ := same s₀ found
  refine (told s' presented (signed'.trans signed)).imp_right fun ⟨t, read, late⟩ => ?_
  exact valid.lapsed read (expiry ▸ late)

/-- A request that is cleared sends its key after the record. -/
theorem ends_key {r : Response} {id : Id} {eventType actor clientIP : String}
    (mine : l.request = some request) (cleared : Cleared rt.manager l)
    (names : Names request
      (CertificateService.auditEvent id eventType actor clientIP "succeeded" []))
    (named : Named rt.manager l actor) :
    Ends rt.manager r { l with
      audits := CertificateService.auditEvent id eventType actor clientIP "succeeded" [] ::
        l.audits } := by
  intro _
  exact ⟨cleared, request, _, mine, List.mem_cons_self, names, named⟩

theorem serveCertificateFile_plain {id : Id} {fileType : String} (other : fileType ≠ "private-key")
    (download : Bool) {visit : Visit} :
    Serves rt (serveCertificateFile rt visit id fileType download) l := by
  unfold serveCertificateFile
  cases name : certificateFileName fileType with
  | none => exact ends_plain rfl
  | some filename =>
    refine service_bind (readFile_plain id filename) fun content => ?_
    cases content with
    | error err =>
      refine ends_plain ?_
      split <;> rfl
    | ok content =>
      dsimp only
      rw [if_neg other]
      exact ends_plain (fileResponse_plain download content (privateKey_of_fileName name other))

/-- The private key is served to a request that is cleared. -/
theorem serveCertificateFile_key (mine : l.request = some request) (cleared : Cleared rt.manager l)
    {id : Id} (download : Bool) {visit : Visit}
    (names : ∀ actor, Names request (CertificateService.auditEvent id
      (if download then "private_key.download" else "private_key.view") actor visit.clientIP
      "succeeded" []))
    (session : ∀ s, l.session = some s → ∃ s', visit.session = some s' ∧
      s'.signed rt.manager = s.signed rt.manager ∧ s'.expiry = s.expiry) :
    Serves rt (serveCertificateFile rt visit id "private-key" download) l := by
  refine service_bind (readFile_plain id "privkey.pem") fun content => ?_
  cases content with
  | error err =>
    refine ends_plain ?_
    split <;> rfl
  | ok content =>
    dsimp only
    rw [if_pos rfl]
    refine actor_bind (fun actor l' later told => ?_) rfl
    have key : (if download then "private_key.download" else "private_key.view") ∈ keyEvents := by
      cases download <;> decide
    have named := named_of_cleared cleared later session told
    exact keyAudit_bind key fun _ => ends_key (later.request.trans mine) (cleared.later later)
      (names actor) named

theorem viewCertificateFile_serves (id : Id) (fileType : String) :
    Serves rt (viewCertificateFile rt (visitOf request l) id fileType) l := by
  unfold viewCertificateFile
  split
  · exact ends_plain rfl
  · rename_i other
    exact serveCertificateFile_plain other false

theorem downloadCertificateFile_serves (mine : l.request = some request) {id : Id}
    {fileType : String} (route : request.route = .downloadCertificateFile id fileType) :
    Serves rt (downloadCertificateFile rt (visitOf request l) id fileType) l := by
  unfold downloadCertificateFile
  split
  · rename_i key
    subst key
    refine reauthenticated_bind (fun l' _ => ends_plain rfl) fun s l' later found valid marked => ?_
    have cleared : Cleared rt.manager l' :=
      ⟨request, s, later.request.trans mine, later.session.trans found, valid, Or.inr marked⟩
    refine serveCertificateFile_key (later.request.trans mine) cleared true (fun actor => ?_)
      fun s' found' => ?_
    · rw [Names, route]
      exact ⟨rfl, rfl⟩
    · exact ⟨s', later.session.symm.trans found', rfl, rfl⟩
  · rename_i other
    exact serveCertificateFile_plain other true

theorem revealPrivateKey_serves (mine : l.request = some request) {id : Id} {body : Option String}
    (route : request.route = .revealPrivateKey id body) :
    Serves rt (revealPrivateKey rt (visitOf request l) id body) l := by
  cases body with
  | none => exact ends_plain rfl
  | some text =>
    refine reauthenticate_bind ⟨request, mine, rfl⟩ (fun _ _ _ => ends_plain rfl)
      fun s s' l' later found valid right signed expiry => ?_
    have carried : password request.route = some text := by
      rw [route]
      rfl
    have cleared := cleared_of_password mine carried later found valid right
    refine serveCertificateFile_key (later.request.trans mine) cleared false (fun actor => ?_)
      fun s₀ found₀ => ?_
    · rw [Names, route]
      exact ⟨rfl, rfl⟩
    · cases (later.session.trans found).symm.trans found₀
      exact ⟨s', rfl, signed, expiry⟩

/-- The entries read so far and those of the remaining types. -/
theorem archiveEntries_bind {id : Id} {types : List String}
    {entries : List (String × FileSystem.Content)}
    {f : Except Response (List (String × FileSystem.Content)) → Operation Response}
    (refused : ∀ r, carriesKey r = false → Serves rt (f (.error r)) l)
    (written : ∀ more, (∀ e ∈ more, ∃ fileType ∈ types, certificateFileName fileType = some e.1) →
      Serves rt (f (.ok (entries ++ more))) l) :
    Serves rt (archiveEntries id types entries >>= f) l := by
  induction types generalizing entries with
  | nil =>
    have done := written [] (fun _ h => nomatch h)
    rw [List.append_nil] at done
    exact done
  | cons fileType rest ih =>
    unfold archiveEntries
    cases name : certificateFileName fileType with
    | none => exact refused _ rfl
    | some filename =>
      dsimp only
      rw [Prog.bind_assoc]
      refine service_bind (readFile_plain id filename) fun content => ?_
      cases content with
      | error err => exact refused _ rfl
      | ok content =>
        refine ih fun more named => ?_
        rw [List.append_assoc]
        refine written _ (List.forall_mem_cons.mpr ⟨⟨fileType, List.mem_cons_self, name⟩, ?_⟩)
        intro e there
        obtain ⟨other, mem, same⟩ := named e there
        exact ⟨other, List.mem_cons_of_mem _ mem, same⟩

theorem writeArchive_plain (value : Certificate) {visit : Visit} :
    Serves rt (writeArchive rt visit value false) l := by
  refine archiveEntries_bind (fun r plain => ends_plain plain) fun entries named => ?_
  refine actor_bind (fun actor l' _ _ => ?_) rfl
  refine service_bind (audit_plain (by decide) value.id actor visit.clientIP "succeeded" [])
    fun _ => ends_plain ?_
  simp only [carriesKey, List.nil_append, List.any_append, List.any_cons, List.any_nil,
    Bool.or_false, Bool.or_eq_false_iff]
  have readme : "README.txt" ≠ "privkey.pem" := by decide
  refine ⟨?_, decide_eq_false readme⟩
  rw [List.any_eq_false]
  intro e there key
  obtain ⟨fileType, mem, name⟩ := named e there
  refine privateKey_of_fileName name ?_ (of_decide_eq_true key)
  rintro rfl
  exact absurd mem (by decide)

theorem writeArchive_key (mine : l.request = some request) (cleared : Cleared rt.manager l)
    {value : Certificate} {visit : Visit}
    (names : ∀ actor, Names request (CertificateService.auditEvent value.id
      "private_key.archive_download" actor visit.clientIP "succeeded" []))
    (session : ∀ s, l.session = some s → ∃ s', visit.session = some s' ∧
      s'.signed rt.manager = s.signed rt.manager ∧ s'.expiry = s.expiry) :
    Serves rt (writeArchive rt visit value true) l := by
  refine archiveEntries_bind (fun r plain => ends_plain plain) fun entries _ => ?_
  refine actor_bind (fun actor l' later told => ?_) rfl
  refine service_bind (audit_plain (by decide) value.id actor visit.clientIP "succeeded" [])
    fun _ => ?_
  have named := named_of_cleared cleared later session told
  exact keyAudit_bind (by decide) fun _ => ends_key (later.request.trans mine)
    (cleared.later later) (names actor) named

theorem downloadCertificateArchive_serves (mine : l.request = some request) {id : Id}
    {body : Option ArchiveRequest} (route : request.route = .downloadCertificateArchive id body) :
    Serves rt (downloadCertificateArchive rt (visitOf request l) id body) l := by
  cases body with
  | none => exact ends_plain rfl
  | some archive =>
    refine certificateByID_bind (fun r plain => ends_plain plain) fun value numbered => ?_
    dsimp only
    split
    · refine reauthenticate_bind ⟨request, mine, rfl⟩ (fun _ _ _ => ends_plain rfl)
        fun s s' l' later found valid right signed expiry => ?_
      have carried : password request.route = some archive.password := by
        rw [route]
        rfl
      have cleared := cleared_of_password mine carried later found valid right
      refine writeArchive_key (later.request.trans mine) cleared (fun actor => ?_)
        fun s₀ found₀ => ?_
      · rw [Names, route]
        exact ⟨congrArg some numbered, rfl⟩
      · cases (later.session.trans found).symm.trans found₀
        exact ⟨s', rfl, signed, expiry⟩
    · exact writeArchive_plain value

theorem auditPrivateKeyCopy_serves (id : Id) :
    Serves rt (auditPrivateKeyCopy rt (visitOf request l) id) l := by
  refine reauthenticated_bind (fun l' _ => ends_plain rfl) fun s l' _ _ _ _ => ?_
  refine certificateByID_bind (fun r plain => ends_plain plain) fun value _ => ?_
  refine actor_bind (fun actor l'' _ _ => ?_) rfl
  refine service_bind (audit_plain (by decide) id actor _ "succeeded" []) fun recorded => ?_
  cases recorded <;> exact ends_plain rfl

theorem meHandler_serves : Serves rt (meHandler rt (visitOf request l)) l := by
  refine currentUser_bind fun user l' later _ => ?_
  cases user with
  | none => exact ends_plain rfl
  | some username =>
    dsimp only
    rw [← later.session]
    exact reauthenticated_bind (fun _ _ => ends_plain rfl) fun _ _ _ _ _ _ => ends_plain rfl

theorem logoutHandler_serves (mine : l.request = some request) :
    Serves rt (logoutHandler rt (visitOf request l)) l := by
  refine actor_bind (fun actor l' later _ => ?_) rfl
  refine follows_call.mpr ⟨⟨⟨request, later.request.trans mine, rfl⟩, rfl⟩, fun saved _ => ?_⟩
  cases saved with
  | error err => exact ends_plain rfl
  | ok _ => exact adminAudit_bind rfl (by decide) fun _ _ => ends_plain rfl

theorem reauthenticateHandler_serves (mine : l.request = some request) (body : Option String) :
    Serves rt (reauthenticateHandler rt (visitOf request l) body) l := by
  cases body with
  | none => exact ends_plain rfl
  | some text =>
    refine reauthenticate_bind ⟨request, mine, rfl⟩ (fun err l' _ => ?_)
      fun _ _ _ _ _ _ _ _ _ => adminAudit_bind rfl (by decide) fun _ _ => ends_plain rfl
    cases err with
    | invalidCredentials => exact adminAudit_bind rfl (by decide) fun _ _ => ends_plain rfl
    | unauthenticated => exact ends_plain rfl
    | failed err => exact ends_plain rfl

/-- `Authenticate` accepts the credentials of the administrator only. -/
theorem authenticate_silent (client username text : String) :
    Silent (fun e r => Honest m (.limiter e) r) (fun _ => True)
      (LoginLimiter.authenticate m client username text) fun result =>
        result = none → username = m.username ∧ m.compare text = true := by
  refine follows_call.mpr ⟨trivial, fun passes _ => ?_⟩
  cases passes with
  | false => exact (fun h => nomatch h)
  | true =>
    refine follows_call.mpr ⟨trivial, fun accepted honest => ?_⟩
    cases accepted with
    | false => exact follows_call.mpr ⟨trivial, fun _ _ h => nomatch h⟩
    | true =>
      refine follows_call.mpr ⟨trivial, fun _ _ _ => ?_⟩
      have both : (decide (username = m.username) && m.compare text) = true := honest.symm
      rw [Bool.and_eq_true, decide_eq_true_eq] at both
      exact both

theorem login_bind {β : Type} {cookie : Presented} {session : Option Session}
    {username text : String} {f : Except Error Session → Operation β} {Q : β → Local → Prop}
    (presented : ∃ request, l.request = some request ∧ cookie = request.cookie)
    (accepted : username = m.username ∧ m.compare text = true)
    (rest : ∀ result l', Runs m (f result) l' Q) :
    Runs m (login m cookie session username text >>= f) l Q := by
  refine follows_call.mpr ⟨trivial, fun t _ => follows_call.mpr ⟨?_, fun saved _ => ?_⟩⟩
  · exact ⟨presented, accepted.1, accepted.2, rfl, t, List.mem_cons_self, rfl⟩
  · cases saved <;> exact rest _ _

theorem loginHandler_serves (mine : l.request = some request) (unread : l.times = [])
    (body : Option LoginRequest) :
    Serves rt (loginHandler rt request.cookie request.clientIP body) l := by
  cases body with
  | none => exact ends_plain rfl
  | some login =>
    refine limiter_bind (authenticate_silent _ _ _) fun result accepted => ?_
    cases result with
    | none =>
      refine follows_call.mpr ⟨⟨unread, request, mine, rfl⟩, fun presented _ => ?_⟩
      refine login_bind ⟨request, mine, rfl⟩ (accepted rfl) fun result l' => ?_
      cases result with
      | error err => exact ends_plain rfl
      | ok session => exact adminAudit_bind rfl (by decide) fun _ _ => ends_plain rfl
    | some err =>
      cases err with
      | rateLimited | invalidCredentials =>
        refine follows_call.mpr ⟨⟨unread, request, mine, rfl⟩, fun presented _ => ?_⟩
        exact adminAudit_bind rfl (by decide) fun _ _ => ends_plain rfl

theorem authorized_serves (mine : l.request = some request) :
    Serves rt (authorized rt (visitOf request l) request.route) l := by
  cases route : request.route with
  | login body => exact ends_plain rfl
  | logout => exact logoutHandler_serves mine
  | me => exact meHandler_serves
  | reauthenticate text => exact reauthenticateHandler_serves mine text
  | listCertificates => exact listCertificates_serves
  | createCertificate body => exact createCertificate_serves body
  | getCertificate id => exact getCertificate_serves id
  | updateCertificate id body => exact updateCertificate_serves id body
  | deleteCertificate id body => exact deleteCertificate_serves mine route
  | issueCertificate id => exact issueCertificate_serves id
  | renewCertificate id =>
    have unforced : false = true → MayForce (Permits rt.manager l) := fun h => nomatch h
    exact runCertificateRenewal_serves id unforced
  | forceRenewCertificate id => exact forceRenewCertificate_serves mine route
  | revokeCertificate id text => exact revokeCertificate_serves mine route
  | listCertificateFiles id => exact listCertificateFiles_serves id
  | viewCertificateFile id fileType => exact viewCertificateFile_serves id fileType
  | downloadCertificateFile id fileType => exact downloadCertificateFile_serves mine route
  | downloadCertificateArchive id body => exact downloadCertificateArchive_serves mine route
  | revealPrivateKey id text => exact revealPrivateKey_serves mine route
  | auditPrivateKeyCopy id => exact auditPrivateKeyCopy_serves id

/-- A response carries a private key only where the request is cleared and its
access has been put on record. -/
theorem handle_serves (rt : Router) (request : Request) :
    Serves rt (handle rt request) (.new (some request)) := by
  unfold handle
  split
  · exact loginHandler_serves rfl rfl _
  · refine follows_call.mpr ⟨⟨rfl, request, rfl, rfl⟩, fun presented _ => ?_⟩
    refine currentUser_bind fun user l' later _ => ?_
    cases user with
    | none => exact ends_plain rfl
    | some name =>
      obtain ⟨more, rfl⟩ := later
      have served : Serves rt (authorized rt (visitOf request ⟨some request, some presented.1,
        presented.2, more ++ [], []⟩) request.route) _ := authorized_serves rfl
      exact served

end Handlers

end HttpProtocol
