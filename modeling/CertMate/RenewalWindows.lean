import CertMate.CreatedValues

/-!
# How long before its end a certificate is renewed

The creating methods bound the days by the kind of the certificate; an update
only bounds them by 365. As long as the updates respect the bound of the
creation, every stored certificate does, and a self-signed certificate that has
its whole validity before it is not due.
-/
namespace RenewalWindows
open CertificateModel CallTrees ThreadPools ServiceWorld CertificateService ServicePool
  ServiceProtocol CreatedValues
open SqliteStore hiding exec

/-- The bound that the creating method of this mode checks. -/
def Fits (terms : Terms) (renewBeforeDays : Int) : Prop :=
  1 ≤ renewBeforeDays ∧
    match terms.mode with
    | .selfSigned => renewBeforeDays < terms.selfSignedValidDays
    | .acme => renewBeforeDays ≤ 90
    | .other _ => True

def Windowed (db : Db) : Prop :=
  ∀ id row, db.row id = some row → Fits row.terms row.renewBeforeDays

/-- A record is only inserted with days that fit. -/
def Fitted : Eff → Prop
  | .store (.createCertificate value) => Fits value.terms value.renewBeforeDays
  | _ => True

/-- The updates that respect the bound, for the certificate as it is stored. -/
def Respects (db : Db) : Eff → Prop
  | .store (.updateCertificateSettings id _ _ renewBeforeDays _) =>
    ∀ row, db.row id = some row → Fits row.terms renewBeforeDays
  | _ => True

section Step
variable {B : Backend} {db : Db}

theorem created_fits {now : Nat → Time} {value : Certificate} {id : Id}
    (h : Fits value.terms value.renewBeforeDays) :
    Fits (newRow now value id).terms (newRow now value id).renewBeforeDays := h

/-- Apart from the settings, no `UPDATE` names the days. -/
theorem change_days {now : Nat → Time} {q : Query} {id : Id} {u : Update}
    (change : q.change now = some (id, u)) (c : Certificate) :
    (u.apply c).renewBeforeDays = c.renewBeforeDays ∨
      ∃ name autoRenewEnabled createRenewedMarker, q = .updateCertificateSettings id name
        autoRenewEnabled (u.apply c).renewBeforeDays createRenewedMarker := by
  cases q with
  | updateCertificateSettings key name autoRenewEnabled renewBeforeDays createRenewedMarker =>
    cases change
    exact Or.inr ⟨name, autoRenewEnabled, createRenewedMarker, rfl⟩
  | _ => cases change <;> exact Or.inl rfl

theorem query_windowed {q : Query} (h : Windowed db) (fitted : Fitted (.store q))
    (respects : Respects db (.store q)) : Windowed (SqliteStore.exec B q db).2 := by
  intro id row' there
  cases exec_row B q db id with
  | same row => exact h id row' (row ▸ there)
  | changed u change row =>
    rw [row] at there
    obtain ⟨c, before, rfl⟩ := Option.map_eq_some_iff.mp there
    rw [change_terms change c]
    rcases change_days change c with same | ⟨name, autoRenewEnabled, createRenewedMarker, settings⟩
    · rw [same]
      exact h id c before
    · rw [settings] at respects
      exact respects c before
  | created value query new row =>
    rw [row] at there
    cases there
    subst query
    exact created_fits fitted
  | deleted event query present row =>
    rw [row] at there
    cases there

theorem exec_windowed {env : Environment} {thread : Nat} {e : Eff} {w : World}
    (h : Windowed w.db) (fitted : Fitted e) (respects : Respects w.db e) :
    Windowed (exec env thread e w).2.db := by
  by_cases stored : ∃ q, e = .store q
  · obtain ⟨q, rfl⟩ := stored
    have after : Windowed (SqliteStore.exec env.backend q w.db).2 :=
      query_windowed h fitted respects
    exact after
  · rw [ServiceSteps.exec_db fun q same => stored ⟨q, same⟩]
    exact h

/-- An update that goes through leaves days that fit exactly if it was asked
for such days. -/
theorem updated_fits_iff {id : Id} {name : String} {autoRenewEnabled : Bool} {renewBeforeDays : Int}
    {createRenewedMarker : Bool} {row row' : Certificate} {v : Unit}
    (answered : (SqliteStore.exec B (.updateCertificateSettings id name autoRenewEnabled
      renewBeforeDays createRenewedMarker) db).1 = .ok v)
    (before : db.row id = some row)
    (after : (SqliteStore.exec B (.updateCertificateSettings id name autoRenewEnabled
      renewBeforeDays createRenewedMarker) db).2.row id = some row') :
    Fits row'.terms row'.renewBeforeDays ↔ Fits row.terms renewBeforeDays := by
  obtain ⟨answer, state⟩ := exec_ok answered
  rw [state] at after
  simp only [act, before] at answer after
  split at answer
  · cases answer
  · rename_i bounded
    rw [if_neg bounded, Db.row_tick, Db.row_update, if_pos rfl, before] at after
    cases after
    exact Iff.rfl

end Step

abbrev Inserts {α : Type} (p : Operation α) : Prop := Only Honest Fitted p

theorem fits_of_built {value : Certificate} (built : AsBuilt value) :
    Fits value.terms value.renewBeforeDays := by
  have days := built.days
  unfold DaysChecked at days
  unfold Fits
  cases mode : value.mode with
  | acme =>
    rw [mode] at days
    simp only [Certificate.terms, mode]
    exact ⟨days.1, days.2.1⟩
  | selfSigned =>
    rw [mode] at days
    simp only [Certificate.terms, mode]
    exact ⟨days.1, days.2.1⟩
  | other name =>
    rw [mode] at days
    exact days.elim

theorem fitted_of_built {e : Eff} (built : BuiltCall e) : Fitted e := by
  cases e with
  | store q =>
    cases q with
    | createCertificate value => exact fits_of_built built
    | _ => trivial
  | _ => trivial

theorem programOf_inserts {s : Service} (request : Request) : Inserts (programOf s request) :=
  (programOf_builds request).mono fun _ => fitted_of_built

/-- Every update respects the bound for the certificate as it is stored then. -/
def respectful : Discipline Eff Ans World Local (Outcome Unit) where
  start _ _ := True
  call c _ e := Respects c.world.db e
  crash _ := True

def windows : Assertion Eff Ans World Local (Outcome Unit) where
  world w := Windowed w.db
  thread _ th _ := Inserts th.prog

theorem windows_stable (env : Environment) (s : Service) :
    windows.Stable (pool env s) respectful fun _ => True where
  own c t e k l _ h running _ ok := by
    obtain ⟨fitted, rest⟩ := h.thread t _ running
    exact ⟨exec_windowed h.world fitted ok, rest _ (exec_honest env t e c.world)⟩
  other c t e k l u th _ h _ _ _ _ there := h.thread u th there
  start c t th _ _ _ starts _ := by
    obtain ⟨request, -, rfl⟩ := starts
    exact programOf_inserts request
  spawn c t e k l u child _ _ _ new _ _ := by
    obtain ⟨request, rfl⟩ := spawn_some new
    exact programOf_inserts request
  crash _ _ h _ := h.world

theorem window_later {now notAfter early valid : Int} (shorter : early < valid)
    (whole : now + valid * day ≤ notAfter) : now < notAfter - early * day := by
  have scaled : early * day < valid * day := by
    apply Int.mul_lt_mul_of_pos_right shorter
    decide
  omega

/-- A certificate that is renewed earlier than a whole validity before its end
is not due when it has the whole validity before it. -/
theorem not_due {row : Certificate} {now notAfter : Time} (ends : row.notAfter = some notAfter)
    (early : row.renewBeforeDays < row.selfSignedValidDays)
    (whole : now + row.selfSignedValidDays * day ≤ notAfter) : dueForRenewal row now = false := by
  have later : now < notAfter - row.renewBeforeDays * day := window_later early whole
  simp only [dueForRenewal, ends]
  split
  · rfl
  · exact decide_eq_false (Int.not_le.mpr later)

/-- In every run of the service in which the updates respect the bound of the
mode, every stored certificate has days within that bound, and a self-signed
certificate with its whole validity before it is not due for renewal. By
`updated_fits_iff` an update that does not respect the bound breaks it at once. -/
theorem window_meaningful {env : Environment} {s : Service} {start c : Configuration}
    (started : Started start) (empty : start.world.db.certificates.rows = [])
    (run : Reach (pool env s) respectful start c) {id : Id} {row : Certificate}
    (there : c.world.db.row id = some row) :
    Fits row.terms row.renewBeforeDays ∧
      ∀ now notAfter, row.mode = .selfSigned → row.notAfter = some notAfter →
        now + row.selfSignedValidDays * day ≤ notAfter → dueForRenewal row now = false := by
  have first : Windowed start.world.db := by
    intro id row there
    have member := (KeyedTables.Table.find?_eq_some_iff.mp there).1
    rw [empty] at member
    cases member
  have holds := ((windows_stable env s).reach (fun _ _ _ _ => trivial) run trivial
    (started.holds first)).2
  have fits := holds.world id row there
  refine ⟨fits, fun now notAfter mode ends whole => ?_⟩
  have early : row.renewBeforeDays < row.selfSignedValidDays := by
    have bound := fits.2
    simp only [Certificate.terms, mode] at bound
    exact bound
  exact not_due ends early whole

/-- The creation is thread 0, the update thread 1 and the renewal thread 2. -/
def month (renewBeforeDays : Int) : Configuration :=
  requested emptyWorld [.renew 0 false "scheduler" "",
    .update 0 ⟨"month", true, renewBeforeDays, false⟩ "admin" "",
    .createSelfSigned monthRequest "admin" ""]

def inTurn : List Nat := List.replicate 26 0 ++ List.replicate 4 1 ++ List.replicate 68 2

theorem month_begun (renewBeforeDays : Int)
    {D : Discipline Eff Ans World Local (Outcome Unit)} (ok : ∀ c th, D.start c th) :
    Reach (pool monthEnvironment sampleService) D (requested emptyWorld [])
      (month renewBeforeDays) := by
  apply requested_reach _ ok
  simp [Request.external]

/-- What `respectful` asks of a call, as far as the sample needs it. -/
def bounded (c : Configuration) (_ : Nat) (e : Eff) : Bool :=
  match e with
  | .store (.updateCertificateSettings id _ _ renewBeforeDays _) =>
    (c.world.db.row id).all fun row => row.mode = .selfSigned && decide (1 ≤ renewBeforeDays) &&
      decide (renewBeforeDays < row.selfSignedValidDays)
  | _ => true

theorem bounded_respects {c : Configuration} {t : Nat} {e : Eff} (h : bounded c t e = true) :
    respectful.call c t e := by
  cases e with
  | store q =>
    cases q with
    | updateCertificateSettings id name autoRenewEnabled renewBeforeDays createRenewedMarker =>
      intro row there
      have bound : (row.mode = .selfSigned ∧ 1 ≤ renewBeforeDays) ∧
          renewBeforeDays < row.selfSignedValidDays := by
        simpa [bounded, there] using h
      refine ⟨bound.1.2, ?_⟩
      simp only [Certificate.terms, bound.1.1]
      exact bound.2
    | _ => trivial
  | _ => trivial

/-- What is seen of the stored certificate. -/
structure Seen where
  mode : Mode
  validDays : Int
  renewBeforeDays : Int
  notAfter : Option Time
  lastRenewedAt : Option Time
  due : Bool
  deriving DecidableEq

def Seen.of (row : Certificate) : Seen where
  mode := row.mode
  validDays := row.selfSignedValidDays
  renewBeforeDays := row.renewBeforeDays
  notAfter := row.notAfter
  lastRenewedAt := row.lastRenewedAt
  due := dueForRenewal row 0

theorem window_meaningful_month : ∃ (c : Configuration) (row : Certificate),
    c.world.db.row 0 = some row ∧ Fits row.terms row.renewBeforeDays ∧
      dueForRenewal row 0 = false := by
  have played : (((pool monthEnvironment sampleService).play bounded inTurn (month 20)).bind
      fun c => (c.world.db.row 0).map Seen.of) =
      some ⟨.selfSigned, 30, 20, some (30 * day), some 0, false⟩ := by
    decide +kernel
  obtain ⟨c, run, seen⟩ := Option.bind_eq_some_iff.mp played
  obtain ⟨row, there, values⟩ := Option.map_eq_some_iff.mp seen
  have begun := month_begun 20 (D := respectful) fun _ _ => trivial
  have reached := begun.trans (play_reach (D := respectful) (fun _ _ _ => bounded_respects) run)
  obtain ⟨fits, idle⟩ := window_meaningful (requested_started fun _ => rfl) rfl reached there
  have valid : row.selfSignedValidDays = 30 := congrArg Seen.validDays values
  refine ⟨c, row, there, fits, idle 0 (30 * day) (congrArg Seen.mode values)
    (congrArg Seen.notAfter values) ?_⟩
  rw [valid]
  decide

/-- The certificate has just been renewed, for the whole of its 30 days, and is
due again. -/
theorem window_exceeded : ∃ (c : Configuration) (row : Certificate),
    Reach (pool monthEnvironment sampleService) .any (requested emptyWorld []) c ∧
      c.world.db.row 0 = some row ∧ ¬ Fits row.terms row.renewBeforeDays ∧
      row.mode = .selfSigned ∧ row.lastRenewedAt = some 0 ∧
      row.notAfter = some (0 + row.selfSignedValidDays * day) ∧ dueForRenewal row 0 = true := by
  have played : (((pool monthEnvironment sampleService).play (fun _ _ _ => true) inTurn
      (month 365)).bind fun c => (c.world.db.row 0).map Seen.of) =
      some ⟨.selfSigned, 30, 365, some (30 * day), some 0, true⟩ := by
    decide +kernel
  obtain ⟨c, run, seen⟩ := Option.bind_eq_some_iff.mp played
  obtain ⟨row, there, values⟩ := Option.map_eq_some_iff.mp seen
  have begun := month_begun 365 (D := .any) fun _ _ => trivial
  have mode : row.mode = .selfSigned := congrArg Seen.mode values
  have valid : row.selfSignedValidDays = 30 := congrArg Seen.validDays values
  have days : row.renewBeforeDays = 365 := congrArg Seen.renewBeforeDays values
  refine ⟨c, row, begun.trans (play_reach (D := .any) (fun _ _ _ _ => trivial) run), there, ?_, mode,
    congrArg Seen.lastRenewedAt values, ?_, congrArg Seen.due values⟩
  · intro fits
    have early := fits.2
    simp only [Certificate.terms, mode] at early
    omega
  · rw [valid]
    exact congrArg Seen.notAfter values

end RenewalWindows
