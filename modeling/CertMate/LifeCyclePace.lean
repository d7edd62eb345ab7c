import CertMate.PacedRuns
import CertMate.OperationCalls

/-!
# The life cycle whatever the settings

An issue, a renewal or a revocation keeps pace with itself when the settings of the
certificate it reads are others: its calls differ in the name that stands in `metadata.json`, in
the settings that it hands to the store with the certificate, and in the marker file of the
publication.
-/
namespace LifeCyclePace
open CertificateModel CallTrees ServiceWorld CertificateFiles CertificateService PacedRuns
open DomainValidation (validateACMEDomains)
open SqliteStore hiding exec

/-- The columns of `UpdateCertificateSettings`. -/
structure Settings where
  name : String
  autoRenewEnabled : Bool
  renewBeforeDays : Int
  createRenewedMarker : Bool
  deriving DecidableEq, Repr

def settingsOf (c : Certificate) : Settings :=
  ⟨c.name, c.autoRenewEnabled, c.renewBeforeDays, c.createRenewedMarker⟩

/-- The certificate with other settings and another `updated_at`. -/
def restyle (c : Certificate) (settings : Settings) (updatedAt : Time) : Certificate :=
  { c with
    name := settings.name
    autoRenewEnabled := settings.autoRenewEnabled
    renewBeforeDays := settings.renewBeforeDays
    createRenewedMarker := settings.createRenewedMarker
    updatedAt := updatedAt }

/-- The certificate without its settings and without `updated_at`. -/
def lifeCycle (c : Certificate) : Certificate := restyle c ⟨"", false, 0, false⟩ zeroTime

theorem restyle_of_lifeCycle {c c' : Certificate} (h : lifeCycle c' = lifeCycle c) :
    ∃ settings updatedAt, c' = restyle c settings updatedAt := by
  refine ⟨settingsOf c', c'.updatedAt, ?_⟩
  have back := congrArg (fun x => restyle x (settingsOf c') c'.updatedAt) h
  exact back

section Calls

/-- A call of the publisher and its counterpart: the name of the certificate stands in
`metadata.json`. -/
inductive FileAlike : FileSystem.Call → FileSystem.Call → Prop
  | same (f : FileSystem.Call) : FileAlike f f
  | metadata (path : FileSystem.Path) (document : FileSystem.Document) (name : String)
      (mode : FileSystem.FileMode) :
      FileAlike (.op (.writeFile path "metadata.json" (.document document) mode))
        (.op (.writeFile path "metadata.json" (.document { document with name := name }) mode))

/-- What `createRenewedMarker` adds to a publication. -/
def marking : FileSystem.Call → Bool
  | .now => true
  | .op (.writeFile path name (.renewedAt _) _) => path.area = .root && name = marker
  | _ => false

/-- The write of the marker file has not failed. -/
def Written : (f : FileSystem.Call) → FileSystem.Answer f → Prop
  | .op (.writeFile _ _ _ _), r => r = .ok ()
  | _, _ => True

/-- A call of a life-cycle operation that reads no row and is told no settings. -/
def Plain : Eff → Prop
  | .store (.markCertificateFailed _ _) | .store (.setCertificateStatus _ _)
  | .store (.createJob _) | .store (.finishJob _ _ _ _ _) | .store (.createAuditEvent _) => True
  | .store _ | .file _ _ => False
  | e => OperationCalls.Apart e

/-- A call of a life-cycle operation and its counterpart. -/
inductive Alike : Eff → Eff → Prop
  | plain {e : Eff} (plain : Plain e) : Alike e e
  | read (id : Id) : Alike (.store (.certificate id)) (.store (.certificate id))
  | file (certificate : Id) {f f' : FileSystem.Call} (alike : FileAlike f f') :
      Alike (.file certificate f) (.file certificate f')
  | issued (c : Certificate) (settings : Settings) (updatedAt : Time) :
      Alike (.store (.markCertificateIssued c))
        (.store (.markCertificateIssued (restyle c settings updatedAt)))
  | renewed (c : Certificate) (settings : Settings) (updatedAt : Time) :
      Alike (.store (.markCertificateRenewed c))
        (.store (.markCertificateRenewed (restyle c settings updatedAt)))

variable (asks : Id → Bool)

/-- The same answers, but for the settings of a row that is read. `asks` are the markers that
the rows of the second run ask for. -/
inductive Told : (e e' : Eff) → Ans e → Ans e' → Prop
  | plain {e : Eff} (plain : Plain e) (r : Ans e) : Told e e r r
  | row (c : Certificate) (settings : Settings) (updatedAt : Time)
      (asked : settings.createRenewedMarker = asks c.id) :
      Told (.store (.certificate c.id)) (.store (.certificate c.id)) (.ok c)
        (.ok (restyle c settings updatedAt))
  | missing (id : Id) (err : Error) :
      Told (.store (.certificate id)) (.store (.certificate id)) (.error err) (.error err)
  | file {certificate : Id} {f f' : FileSystem.Call} {r : FileSystem.Answer f}
      {r' : FileSystem.Answer f'} (same : HEq r' r) (honest : PublishProtocol.Honest f r) :
      Told (.file certificate f) (.file certificate f') r r'
  | issued {c c' : Certificate} (r : Except Error Unit) :
      Told (.store (.markCertificateIssued c)) (.store (.markCertificateIssued c')) r r
  | renewed {c c' : Certificate} (r : Except Error Unit) :
      Told (.store (.markCertificateRenewed c)) (.store (.markCertificateRenewed c')) r r

/-- What keeping pace means for the publication of a certificate. -/
def filePace (certificate : Id) : Pace FileSystem.Call FileSystem.Answer where
  calls := FileAlike
  answers f _ r r' := HEq r' r ∧ PublishProtocol.Honest f r
  left f := asks certificate = false ∧ marking f = true
  passes := Written
  right f r := marking f = true ∧ Written f r

def pace : Pace Eff Ans where
  calls := Alike
  answers := Told asks
  left e := ∃ certificate f, e = .file certificate f ∧ (filePace asks certificate).left f
  passes
    | .file _ f, r => Written f r
    | _, _ => True
  right
    | .file _ f, r => marking f = true ∧ Written f r
    | _, _ => False

end Calls

section Publishing
variable {asks : Id → Bool} {certificate : Id} {α : Type}

end Publishing

section Operations
variable {asks : Id → Bool} {α β : Type} {Q : α → β → Prop}

variable {value : Certificate} {settings : Settings}

/-- The two ways in which a result is recorded. -/
def Marks (asks : Id → Bool) (mark : Certificate → Operation (Except Error Unit)) : Prop :=
  ∀ c settings updatedAt, Paced (pace asks) (fun a a' => a' = a) (mark c)
    (mark (restyle c settings updatedAt))

end Operations

end LifeCyclePace
