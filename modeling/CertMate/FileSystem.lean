import CertMate.CertificateModel
import CertMate.CallTrees

/-!
# The certificate root and the backup directory

The calls of package `os` that `files/publisher.go` makes, one at a time. The
directories below the root and below the backup directory are the state; which
calls fail, and all that is left to the operating system, is the host's choice.
-/
namespace FileSystem
open CertificateModel CallTrees

abbrev FileMode := Nat

inductive Area where
  | root
  | backup
  deriving DecidableEq, Repr

structure Path where
  area : Area
  name : String
  deriving DecidableEq, Repr

/-- The object that becomes `metadata.json`. -/
structure Document where
  certificateID : Id
  name : String
  mode : Mode
  primaryDomain : String
  domains : List String
  issuer : String
  serialNumber : String
  notBefore : ZonedTime
  notAfter : ZonedTime
  fingerprintSHA256 : String
  keyAlgorithm : String
  updatedAt : ZonedTime
  deriving DecidableEq, Repr

/-- What a file holds. A JSON document and the text of a marker are kept as the
values they are written from; neither text is empty. -/
inductive Content where
  | bytes (value : Bytes)
  | document (value : Document)
  | renewedAt (time : Time)
  deriving DecidableEq, Repr

def Content.isEmpty : Content → Bool
  | .bytes value => value.isEmpty
  | _ => false

/-- `serial` is the identity that `os.SameFile` compares. -/
structure File where
  serial : Nat
  content : Content
  mode : FileMode
  deriving DecidableEq, Repr

/-- An entry of a certificate directory; a link leads to `outside`. -/
inductive Entry where
  | file (value : File)
  | link (outside : Option File)
  | dir
  deriving DecidableEq, Repr

structure Dir where
  mode : FileMode
  entries : List (String × Entry)
  deriving DecidableEq, Repr

def Dir.get (d : Dir) (name : String) : Option Entry := d.entries.lookup name

def Dir.put (d : Dir) (name : String) (entry : Entry) : Dir :=
  { d with entries := (name, entry) :: d.entries.filter fun e => e.1 != name }

theorem lookup_filter (keep : String → Bool) (entries : List (String × Entry)) (name : String) :
    (entries.filter fun e => keep e.1).lookup name =
      if keep name then entries.lookup name else none := by
  induction entries with
  | nil => simp
  | cons e entries ih =>
    obtain ⟨key, entry⟩ := e
    by_cases same : name = key
    · subst same
      cases kept : keep name with
      | true => simp [List.lookup, kept]
      | false => simpa [List.filter_cons, kept] using ih
    · have other : (name == key) = false := by simpa using same
      cases kept : keep key with
      | true => simpa [List.filter_cons, List.lookup, kept, other] using ih
      | false => simpa [List.filter_cons, List.lookup, kept, other] using ih

theorem lookup_filter_ne {entries : List (String × Entry)} {name other : String}
    (h : other ≠ name) :
    (entries.filter fun e => e.1 != name).lookup other = entries.lookup other := by
  have kept : (other != name) = true := by simpa using h
  rw [lookup_filter (fun key => key != name), if_pos kept]

@[simp] theorem Dir.get_put (d : Dir) (name : String) (entry : Entry) (other : String) :
    (d.put name entry).get other = if other = name then some entry else d.get other := by
  by_cases h : other = name
  · simp [Dir.get, Dir.put, h]
  · have hb : (other == name) = false := by simpa using h
    simp [Dir.get, Dir.put, List.lookup, hb, h, lookup_filter_ne h]

inductive Node where
  | dir (value : Dir)
  | link (outside : Option Dir)
  | file
  deriving DecidableEq, Repr

/-- The directory that a path through the node reaches. -/
def Node.reach : Node → Option Dir
  | .dir d => some d
  | .link outside => outside
  | .file => none

def Node.withDir (d : Dir) : Node → Node
  | .dir _ => .dir d
  | .link _ => .link (some d)
  | .file => .file

inductive Kind where
  | dir
  | link
  | regular
  deriving DecidableEq, Repr

structure Info where
  kind : Kind
  serial : Nat
  deriving DecidableEq, Repr

def Node.info : Node → Info
  | .dir _ => ⟨.dir, 0⟩
  | .link _ => ⟨.link, 0⟩
  | .file => ⟨.regular, 0⟩

def Entry.info : Entry → Info
  | .file f => ⟨.regular, f.serial⟩
  | .link _ => ⟨.link, 0⟩
  | .dir => ⟨.dir, 0⟩

/-- The file that opening the entry reaches, through a link if it is one. -/
def Entry.reach : Entry → Option File
  | .file f => some f
  | .link outside => outside
  | .dir => none

/-- An open handle. -/
inductive Opened where
  | file (value : File)
  | dir
  deriving DecidableEq, Repr

def Opened.info : Opened → Info
  | .file f => ⟨.regular, f.serial⟩
  | .dir => ⟨.dir, 0⟩

/-- Which of the three renames of `Publish` a call is. -/
inductive Switch where
  | retire
  | release
  | restore
  deriving DecidableEq, Repr

/-- The calls that can fail. -/
inductive Op where
  | lstatRoot
  | mkdirAllBackup
  | mkdirTemp (namePrefix : String)
  | mkdir (path : Path)
  | chmodDir (path : Path)
  | remove (path : Path)
  | removeAll (path : Path)
  | rename (why : Switch) (source target : Path)
  | lstat (path : Path)
  | lstatIn (path : Path) (name : String)
  | writeFile (path : Path) (name : String) (content : Content) (mode : FileMode)
  | chmodFile (path : Path) (name : String) (mode : FileMode)
  | readFile (path : Path) (name : String)
  | openFile (path : Path) (name : String)
  | statOpened (handle : Opened)
  | createFile (path : Path) (name : String) (mode : FileMode)
  | copyInto (path : Path) (name : String) (handle : Opened)
  | closeFile (path : Path) (name : String)
  deriving DecidableEq, Repr

abbrev Value : Op → Type
  | .lstatRoot => Info
  | .mkdirTemp _ => Path
  | .lstat _ => Info
  | .lstatIn _ _ => Info
  | .readFile _ _ => Content
  | .openFile _ _ => Opened
  | .statOpened _ => Info
  | _ => Unit

/-- `range` visits a Go map, whose order is the runtime's choice. -/
inductive Call where
  | op (value : Op)
  | now
  | range (values : List (String × FileMode))
  deriving DecidableEq, Repr

abbrev Answer : Call → Type
  | .op o => Except Error (Value o)
  | .now => Time
  | .range values => { order : List (String × FileMode) // order.Perm values }

/-- The choices of the operating system and the runtime, for the `n`-th call:
whether it fails, what a failing write leaves in its file and a failing
`RemoveAll` in its directory, the `k`-th random name that `MkdirTemp` tries,
the clock, and the order of a map. -/
structure Host where
  fails : Nat → Bool
  leaves : Nat → Option Content
  keeps : Nat → String → Bool
  tempName : Nat → Nat → String
  clock : Nat → Time
  order : Nat → (values : List (String × FileMode)) →
    { order : List (String × FileMode) // order.Perm values }
  umask : FileMode

/-- A host on which nothing fails. -/
def calmHost : Host where
  fails _ := false
  leaves _ := none
  keeps _ _ := false
  tempName n k := toString n ++ "x" ++ toString k
  clock n := 1700000000000000000 + n
  order _ values := ⟨values, .refl values⟩
  umask := 0o022

/-- `switches` lists the renames of `Publish` that have succeeded, last first. -/
structure Fs where
  root : Option Kind
  backupExists : Bool
  nodes : Path → Option Node
  calls : Nat
  serial : Nat
  switches : List (Switch × Path × Path)

namespace Fs

def set (s : Fs) (p : Path) (node : Option Node) : Fs :=
  { s with nodes := Function.update s.nodes p node }

@[simp] theorem set_self (s : Fs) (p : Path) (node : Option Node) :
    (s.set p node).nodes p = node := by
  simp [set]

theorem set_other (s : Fs) {p q : Path} (node : Option Node) (h : q ≠ p) :
    (s.set p node).nodes q = s.nodes q := by
  simp [set, h]

@[simp] theorem set_switches (s : Fs) (p : Path) (node : Option Node) :
    (s.set p node).switches = s.switches := rfl

def dirAt (s : Fs) (p : Path) : Option Dir := (s.nodes p).bind Node.reach

def setDir (s : Fs) (p : Path) (d : Dir) : Fs := s.set p ((s.nodes p).map (Node.withDir d))

def entryAt (s : Fs) (p : Path) (name : String) : Option Entry :=
  (s.dirAt p).bind fun d => d.get name

end Fs

/-- What a file created with `mode` gets. -/
def Host.masked (H : Host) (mode : FileMode) : FileMode := mode ^^^ (mode &&& H.umask)

def ioError : Error := .os .other "input/output error"
def notExist : Error := .os .notExist "no such file or directory"
def fileExists : Error := .os .exist "file exists"
def notDirectory : Error := .os .other "not a directory"
def notEmpty : Error := .os .other "directory not empty"

/-- Write to a file of a directory; a new file gets `mode`, an old one keeps
its own. A link is followed out of the directory and stays as it is. -/
def putFile (H : Host) (s : Fs) (p : Path) (name : String) (content : Content)
    (mode : FileMode) : Fs :=
  match s.dirAt p with
  | none => s
  | some d =>
    match d.get name with
    | none =>
      { s.setDir p (d.put name (.file ⟨s.serial, content, H.masked mode⟩)) with
        serial := s.serial + 1 }
    | some (.file f) => s.setDir p (d.put name (.file { f with content := content }))
    | some _ => s

/-- The parent of a directory that is to be created. -/
def parentExists (s : Fs) : Area → Bool
  | .root => s.root = some .dir ∨ s.root = some .link
  | .backup => s.backupExists

/-- What `Lstat` says of a path with nothing there; below a file there are no paths. -/
def missing (s : Fs) (area : Area) : Error :=
  if area = .root ∧ s.root = some .regular then notDirectory else notExist

/-- A call that the host lets through. -/
def act (H : Host) : (o : Op) → Fs → Except Error (Value o) × Fs
  | .lstatRoot, s =>
    match s.root with
    | none => (.error notExist, s)
    | some kind => (.ok ⟨kind, 0⟩, s)
  | .mkdirAllBackup, s => (.ok (), { s with backupExists := true })
  | .mkdirTemp namePrefix, s =>
    if parentExists s .root then
      let names := (List.range 10000).map fun k => namePrefix ++ H.tempName s.calls k
      match names.find? fun name => (s.nodes ⟨.root, name⟩).isNone with
      | none => (.error fileExists, s)
      | some name => (.ok ⟨.root, name⟩, s.set ⟨.root, name⟩ (some (.dir ⟨0o700, []⟩)))
    else (.error notExist, s)
  | .mkdir p, s =>
    if parentExists s p.area then
      match s.nodes p with
      | none => (.ok (), s.set p (some (.dir ⟨H.masked 0o750, []⟩)))
      | some _ => (.error fileExists, s)
    else (.error notExist, s)
  | .chmodDir p, s =>
    match s.dirAt p with
    | none => (.error notExist, s)
    | some d => (.ok (), s.setDir p { d with mode := 0o750 })
  | .remove p, s =>
    match s.nodes p with
    | none => (.error notExist, s)
    | some (.dir d) => if d.entries.isEmpty then (.ok (), s.set p none) else (.error notEmpty, s)
    | some _ => (.ok (), s.set p none)
  | .removeAll p, s => (.ok (), s.set p none)
  | .rename why source target, s =>
    match s.nodes source with
    | none => (.error notExist, s)
    | some node =>
      match s.nodes target with
      | some (.dir _) => (.error fileExists, s)
      | some _ => (.error notDirectory, s)
      | none =>
        (.ok (), { (s.set source none).set target (some node) with
          switches := (why, source, target) :: s.switches })
  | .lstat p, s =>
    match s.nodes p with
    | none => (.error (missing s p.area), s)
    | some node => (.ok node.info, s)
  | .lstatIn p name, s =>
    match s.entryAt p name with
    | none => (.error (missing s p.area), s)
    | some entry => (.ok entry.info, s)
  | .writeFile p name content mode, s =>
    match s.dirAt p with
    | none => (.error notExist, s)
    | some d => (if d.get name = some .dir then .error ioError else .ok (),
        putFile H s p name content mode)
  | .chmodFile p name mode, s =>
    match s.dirAt p, s.entryAt p name with
    | some d, some (.file f) => (.ok (), s.setDir p (d.put name (.file { f with mode := mode })))
    | _, some _ => (.ok (), s)
    | _, none => (.error notExist, s)
  | .readFile p name, s =>
    match (s.entryAt p name).bind Entry.reach with
    | none => (.error notExist, s)
    | some f => (.ok f.content, s)
  | .openFile p name, s =>
    match s.entryAt p name with
    | none => (.error notExist, s)
    | some .dir => (.ok .dir, s)
    | some entry =>
      match entry.reach with
      | none => (.error notExist, s)
      | some f => (.ok (.file f), s)
  | .statOpened handle, s => (.ok handle.info, s)
  | .createFile p name mode, s =>
    match s.dirAt p with
    | none => (.error notExist, s)
    | some d =>
      match d.get name with
      | some _ => (.error fileExists, s)
      | none => (.ok (), putFile H s p name (.bytes []) mode)
  | .copyInto p name handle, s =>
    match handle with
    | .dir => (.error ioError, s)
    | .file f => (.ok (), putFile H s p name f.content 0)
  | .closeFile _ _, s => (.ok (), s)

/-- The traces of a call that the host makes fail. -/
def spoil (H : Host) (o : Op) (s : Fs) : Fs :=
  match o with
  | .writeFile p name _ mode =>
    match H.leaves s.calls with
    | none => s
    | some content => putFile H s p name content mode
  | .copyInto p name _ =>
    match H.leaves s.calls with
    | none => s
    | some content => putFile H s p name content 0
  | .removeAll p =>
    match s.nodes p with
    | some (.dir d) =>
      s.set p (some (.dir { d with entries := d.entries.filter fun e => H.keeps s.calls e.1 }))
    | _ => s
  | _ => s

/-- The state with one more call counted. -/
def Fs.tick (s : Fs) : Fs := { s with calls := s.calls + 1 }

@[simp] theorem Fs.tick_nodes (s : Fs) : s.tick.nodes = s.nodes := rfl
@[simp] theorem Fs.tick_calls (s : Fs) : s.tick.calls = s.calls + 1 := rfl
@[simp] theorem Fs.tick_switches (s : Fs) : s.tick.switches = s.switches := rfl

def exec (H : Host) : (e : Call) → Fs → Answer e × Fs
  | .op o, s =>
    if H.fails s.calls then (.error ioError, (spoil H o s).tick)
    else ((act H o s).1, (act H o s).2.tick)
  | .now, s => (H.clock s.calls, s.tick)
  | .range values, s => (H.order s.calls values, s.tick)

/-- The paths whose node a call may change. -/
def Touches : Op → Path → Prop
  | .mkdirTemp namePrefix, p => p.area = .root ∧ ∃ rest, p.name = namePrefix ++ rest
  | .mkdir q, p | .chmodDir q, p | .remove q, p | .removeAll q, p => p = q
  | .rename _ source target, p => p = source ∨ p = target
  | .writeFile q _ _ _, p | .chmodFile q _ _, p | .createFile q _ _, p | .copyInto q _ _, p => p = q
  | _, _ => False

theorem putFile_frame (H : Host) (s : Fs) {p q : Path} (name : String) (content : Content)
    (mode : FileMode) (h : q ≠ p) : (putFile H s p name content mode).nodes q = s.nodes q := by
  unfold putFile
  split
  · rfl
  · split
    · exact s.set_other _ h
    · exact s.set_other _ h
    · rfl

theorem spoil_frame (H : Host) (o : Op) (s : Fs) {p : Path} (h : ¬ Touches o p) :
    (spoil H o s).nodes p = s.nodes p := by
  unfold spoil
  split
  · split
    · rfl
    · exact putFile_frame H s _ _ _ h
  · split
    · rfl
    · exact putFile_frame H s _ _ _ h
  · split
    · exact s.set_other _ h
    · rfl
  · rfl

theorem act_frame (H : Host) (o : Op) (s : Fs) {p : Path} (h : ¬ Touches o p) :
    (act H o s).2.nodes p = s.nodes p := by
  cases o with
  | mkdirTemp namePrefix =>
    simp only [act]
    split
    · split
      · rfl
      · rename_i name found
        refine s.set_other _ ?_
        rintro rfl
        obtain ⟨k, -, rfl⟩ := List.mem_map.mp (List.mem_of_find?_eq_some found)
        exact h ⟨rfl, _, rfl⟩
    · rfl
  | rename why source target =>
    have hs : p ≠ source := fun e => h (Or.inl e)
    have ht : p ≠ target := fun e => h (Or.inr e)
    simp only [act]
    split
    · rfl
    · split
      · rfl
      · rfl
      · exact (Fs.set_other _ _ ht).trans (s.set_other _ hs)
  | writeFile q name content mode =>
    simp only [act]
    split
    · rfl
    · exact putFile_frame H s _ _ _ h
  | createFile q name mode =>
    simp only [act]
    split
    · rfl
    · split
      · rfl
      · exact putFile_frame H s _ _ _ h
  | copyInto q name handle =>
    simp only [act]
    split
    · rfl
    · exact putFile_frame H s _ _ _ h
  | chmodFile q name mode =>
    simp only [act]
    split
    · exact s.set_other _ h
    · rfl
    · rfl
  | chmodDir q =>
    simp only [act]
    split
    · rfl
    · exact s.set_other _ h
  | mkdir q =>
    simp only [act]
    split
    · split
      · exact s.set_other _ h
      · rfl
    · rfl
  | remove q =>
    simp only [act]
    split
    · rfl
    · split
      · exact s.set_other _ h
      · rfl
    · exact s.set_other _ h
  | removeAll q => exact s.set_other _ h
  | lstatRoot => simp only [act]; split <;> rfl
  | mkdirAllBackup => rfl
  | lstat q => simp only [act]; split <;> rfl
  | lstatIn q name => simp only [act]; split <;> rfl
  | readFile q name => simp only [act]; split <;> rfl
  | openFile q name =>
    simp only [act]
    split
    · rfl
    · rfl
    · split <;> rfl
  | statOpened handle => rfl
  | closeFile q name => rfl

/-- What a call does not touch, it leaves as it is, failing or not. -/
theorem exec_frame (H : Host) (o : Op) (s : Fs) {p : Path} (h : ¬ Touches o p) :
    (exec H (.op o) s).2.nodes p = s.nodes p := by
  simp only [exec]
  split
  · exact spoil_frame H o s h
  · exact act_frame H o s h

theorem putFile_kept (H : Host) (s : Fs) (p : Path) (name : String) (content : Content)
    (mode : FileMode) : (putFile H s p name content mode).calls = s.calls ∧
      (putFile H s p name content mode).root = s.root ∧
      (putFile H s p name content mode).switches = s.switches := by
  unfold putFile
  split
  · exact ⟨rfl, rfl, rfl⟩
  · split <;> exact ⟨rfl, rfl, rfl⟩

theorem spoil_kept (H : Host) (o : Op) (s : Fs) :
    (spoil H o s).calls = s.calls ∧ (spoil H o s).root = s.root ∧
      (spoil H o s).switches = s.switches := by
  unfold spoil
  split
  · split
    · exact ⟨rfl, rfl, rfl⟩
    · exact putFile_kept H s _ _ _ _
  · split
    · exact ⟨rfl, rfl, rfl⟩
    · exact putFile_kept H s _ _ _ _
  · split <;> exact ⟨rfl, rfl, rfl⟩
  · exact ⟨rfl, rfl, rfl⟩

theorem act_kept (H : Host) (o : Op) (s : Fs) :
    (act H o s).2.calls = s.calls ∧ (act H o s).2.root = s.root := by
  have put := putFile_kept H s
  constructor
  · cases o <;> simp only [act] <;> repeat' first | split | rfl | exact (put _ _ _ _).1
  · cases o <;> simp only [act] <;> repeat' first | split | rfl | exact (put _ _ _ _).2.1

@[simp] theorem exec_calls (H : Host) (e : Call) (s : Fs) :
    (exec H e s).2.calls = s.calls + 1 := by
  cases e with
  | op o =>
    simp only [exec]
    split
    · exact congrArg (· + 1) (spoil_kept H o s).1
    · exact congrArg (· + 1) (act_kept H o s).1
  | now => rfl
  | range values => rfl

@[simp] theorem exec_root (H : Host) (e : Call) (s : Fs) : (exec H e s).2.root = s.root := by
  cases e with
  | op o =>
    simp only [exec]
    split
    · exact (spoil_kept H o s).2.1
    · exact (act_kept H o s).2
  | now => rfl
  | range values => rfl

section Answers
variable {H : Host} {s : Fs}

theorem exec_ok {o : Op} {v : Value o} (h : (exec H (.op o) s).1 = .ok v) :
    (act H o s).1 = .ok v ∧ (exec H (.op o) s).2 = (act H o s).2.tick := by
  simp only [exec] at h ⊢
  split at h
  · cases h
  · rename_i through
    rw [if_neg through]
    exact ⟨h, rfl⟩

theorem exec_error {o : Op} {err : Error} (h : (exec H (.op o) s).1 = .error err) :
    H.fails s.calls = true ∧ (exec H (.op o) s).2 = (spoil H o s).tick ∨
      (act H o s).1 = .error err ∧ (exec H (.op o) s).2 = (act H o s).2.tick := by
  simp only [exec] at h ⊢
  split at h
  · rename_i failed
    rw [if_pos failed]
    exact Or.inl ⟨failed, rfl⟩
  · rename_i through
    rw [if_neg through]
    exact Or.inr ⟨h, rfl⟩

theorem rename_ok {why : Switch} {source target : Path}
    (h : (exec H (.op (.rename why source target)) s).1 = .ok ()) :
    ∃ node, s.nodes source = some node ∧ s.nodes target = none ∧
      (exec H (.op (.rename why source target)) s).2.nodes =
        Function.update (Function.update s.nodes source none) target (some node) ∧
      (exec H (.op (.rename why source target)) s).2.switches =
        (why, source, target) :: s.switches := by
  obtain ⟨answer, state⟩ := exec_ok h
  rw [state]
  simp only [act] at answer ⊢
  split at answer
  · cases answer
  · rename_i node found
    rw [found]
    split at answer
    · cases answer
    · cases answer
    · rename_i free
      rw [free]
      exact ⟨node, rfl, rfl, rfl, rfl⟩

/-- A rename whose source is there and whose target is free fails only if the
host makes it fail, and then nothing has moved. -/
theorem rename_error {why : Switch} {source target : Path} {err : Error} {node : Node}
    (there : s.nodes source = some node) (free : s.nodes target = none)
    (h : (exec H (.op (.rename why source target)) s).1 = .error err) :
    H.fails s.calls = true ∧ (exec H (.op (.rename why source target)) s).2.nodes = s.nodes := by
  rcases exec_error h with ⟨failed, state⟩ | ⟨answer, -⟩
  · exact ⟨failed, by rw [state]; rfl⟩
  · simp [act, there, free] at answer

theorem rename_error_nodes {why : Switch} {source target : Path} {err : Error}
    (h : (exec H (.op (.rename why source target)) s).1 = .error err) :
    (exec H (.op (.rename why source target)) s).2.nodes = s.nodes ∧
      (exec H (.op (.rename why source target)) s).2.switches = s.switches := by
  rcases exec_error h with ⟨-, state⟩ | ⟨answer, state⟩
  · rw [state]
    exact ⟨rfl, rfl⟩
  · rw [state]
    simp only [act] at answer ⊢
    split at answer
    · exact ⟨rfl, rfl⟩
    · split at answer
      · exact ⟨rfl, rfl⟩
      · exact ⟨rfl, rfl⟩
      · cases answer

theorem mkdirTemp_error_nodes {namePrefix : String} {err : Error}
    (h : (exec H (.op (.mkdirTemp namePrefix)) s).1 = .error err) :
    (exec H (.op (.mkdirTemp namePrefix)) s).2.nodes = s.nodes := by
  rcases exec_error h with ⟨-, state⟩ | ⟨answer, state⟩
  · rw [state]
    rfl
  · rw [state]
    simp only [act] at answer ⊢
    split at answer
    · rename_i parent
      rw [if_pos parent]
      split at answer
      · rfl
      · cases answer
    · rename_i parent
      rw [if_neg parent]
      rfl

theorem exec_switches {o : Op} (h : ∀ why source target, o ≠ .rename why source target) :
    (exec H (.op o) s).2.switches = s.switches := by
  simp only [exec]
  split
  · exact (spoil_kept H o s).2.2
  · have put := putFile_kept H s
    cases o <;> simp only [act] <;>
      repeat' first | split | rfl | exact (put _ _ _ _).2.2 | exact absurd rfl (h _ _ _)

theorem removeAll_none {p : Path} (h : s.nodes p = none) :
    (exec H (.op (.removeAll p)) s).2.nodes p = none := by
  simp only [exec, act, spoil, h]
  split
  · exact h
  · exact Function.update_self _ _ _

theorem removeAll_ok {p : Path} (h : (exec H (.op (.removeAll p)) s).1 = .ok ()) :
    (exec H (.op (.removeAll p)) s).2.nodes p = none := by
  rw [(exec_ok h).2]
  exact Function.update_self _ _ _

theorem lstat_error {p : Path} {err : Error} (h : (exec H (.op (.lstat p)) s).1 = .error err) :
    err = ioError ∨ s.nodes p = none := by
  simp only [exec, act] at h
  split at h
  · cases h
    exact Or.inl rfl
  · split at h
    · rename_i absent
      exact Or.inr absent
    · cases h

theorem mkdirTemp_fresh {namePrefix : String} {p : Path}
    (h : (exec H (.op (.mkdirTemp namePrefix)) s).1 = .ok p) :
    s.nodes p = none ∧ ∃ mode, (exec H (.op (.mkdirTemp namePrefix)) s).2.nodes =
      Function.update s.nodes p (some (.dir ⟨mode, []⟩)) := by
  obtain ⟨answer, state⟩ := exec_ok h
  rw [state]
  simp only [act] at answer ⊢
  split at answer
  · rename_i parent
    rw [if_pos parent]
    split at answer
    · cases answer
    · rename_i name found
      cases answer
      exact ⟨by simpa using List.find?_some found, _, rfl⟩
  · cases answer

theorem dirAt_of_dir {p : Path} {d : Dir} (h : s.nodes p = some (.dir d)) :
    s.dirAt p = some d := by
  simp [Fs.dirAt, h, Node.reach]

theorem setDir_of_dir {p : Path} {d d' : Dir} (h : s.nodes p = some (.dir d)) :
    (s.setDir p d').nodes p = some (.dir d') := by
  simp [Fs.setDir, h, Node.withDir]

theorem chmodDir_dir {p : Path} {d : Dir} (h : s.nodes p = some (.dir d)) :
    ∃ mode, (exec H (.op (.chmodDir p)) s).2.nodes p = some (.dir { d with mode := mode }) := by
  simp only [exec]
  split
  · exact ⟨d.mode, h⟩
  · simp only [act, dirAt_of_dir h]
    exact ⟨_, setDir_of_dir h⟩

/-- Writing over nothing or over a file leaves a file with the content. -/
theorem writeFile_ok {p : Path} {name : String} {content : Content} {mode : FileMode} {d : Dir}
    (h : s.nodes p = some (.dir d))
    (plain : ∀ entry, d.get name = some entry → ∃ f, entry = .file f)
    (answered : (exec H (.op (.writeFile p name content mode)) s).1 = .ok ()) :
    ∃ f, f.content = content ∧ (exec H (.op (.writeFile p name content mode)) s).2.nodes p =
      some (.dir (d.put name (.file f))) := by
  obtain ⟨-, state⟩ := exec_ok answered
  rw [state]
  simp only [act, dirAt_of_dir h, putFile, Fs.tick_nodes]
  split
  · exact ⟨_, rfl, setDir_of_dir h⟩
  · exact ⟨_, rfl, setDir_of_dir h⟩
  · rename_i entry notFile found
    obtain ⟨f, rfl⟩ := plain entry found
    exact absurd rfl (notFile f)

theorem chmodFile_ok {p : Path} {name : String} {mode : FileMode} {d : Dir}
    (h : s.nodes p = some (.dir d))
    (plain : ∀ entry, d.get name = some entry → ∃ f, entry = .file f)
    (answered : (exec H (.op (.chmodFile p name mode)) s).1 = .ok ()) :
    ∃ f, d.get name = some (.file f) ∧ (exec H (.op (.chmodFile p name mode)) s).2.nodes p =
      some (.dir (d.put name (.file { f with mode := mode }))) := by
  obtain ⟨answer, state⟩ := exec_ok answered
  rw [state]
  have entry : s.entryAt p name = d.get name := by simp [Fs.entryAt, dirAt_of_dir h]
  cases found : d.get name with
  | none => simp [act, dirAt_of_dir h, entry, found] at answer
  | some e =>
    obtain ⟨f, rfl⟩ := plain e found
    refine ⟨f, rfl, ?_⟩
    simp only [act, dirAt_of_dir h, entry, found, Fs.tick_nodes]
    exact setDir_of_dir h

theorem chmodFile_error {p : Path} {name : String} {mode : FileMode} {err : Error}
    (answered : (exec H (.op (.chmodFile p name mode)) s).1 = .error err) :
    (exec H (.op (.chmodFile p name mode)) s).2.nodes = s.nodes := by
  rcases exec_error answered with ⟨-, state⟩ | ⟨answer, state⟩
  · rw [state]
    rfl
  · rw [state]
    simp only [act] at answer ⊢
    split at answer
    · cases answer
    · cases answer
    · rfl

end Answers

end FileSystem
