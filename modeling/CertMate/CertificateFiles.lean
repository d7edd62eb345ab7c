import CertMate.DomainValidation
import CertMate.FileSystem
import CertMate.Timestamps

/-!
# The publisher

`internal/certificate/files/publisher.go`, one `os` call at a time. Paths are
children of the certificate root or of the backup directory: a valid directory
name has no separator, so the escape checks of `validateTarget` and
`removeManagedDirectory` have nothing left to refuse.
-/
namespace CertificateFiles
open CertificateModel DomainValidation FileSystem CallTrees Timestamps

abbrev Files (α : Type) := Prog Call Answer α

section Calls

abbrev os (o : Op) : Files (Except Error (Value o)) := Prog.perform (Call.op o)

abbrev lstatRoot : Files (Except Error Info) := os .lstatRoot
abbrev mkdirAllBackup : Files (Except Error Unit) := os .mkdirAllBackup
abbrev mkdirTemp (namePrefix : String) : Files (Except Error Path) :=
  os (.mkdirTemp namePrefix)
abbrev mkdir (path : Path) : Files (Except Error Unit) := os (.mkdir path)
abbrev chmodDir (path : Path) : Files (Except Error Unit) := os (.chmodDir path)
abbrev remove (path : Path) : Files (Except Error Unit) := os (.remove path)
abbrev removeAll (path : Path) : Files (Except Error Unit) := os (.removeAll path)
abbrev rename (why : Switch) (source target : Path) : Files (Except Error Unit) :=
  os (.rename why source target)
abbrev lstat (path : Path) : Files (Except Error Info) := os (.lstat path)
abbrev lstatIn (path : Path) (name : String) : Files (Except Error Info) :=
  os (.lstatIn path name)
abbrev writeFile (path : Path) (name : String) (content : Content) (mode : FileMode) :
    Files (Except Error Unit) :=
  os (.writeFile path name content mode)
abbrev chmodFile (path : Path) (name : String) (mode : FileMode) : Files (Except Error Unit) :=
  os (.chmodFile path name mode)
abbrev readContent (path : Path) (name : String) : Files (Except Error Content) :=
  os (.readFile path name)
abbrev openFile (path : Path) (name : String) : Files (Except Error Opened) :=
  os (.openFile path name)
abbrev statOpened (handle : Opened) : Files (Except Error Info) :=
  os (.statOpened handle)
abbrev createFile (path : Path) (name : String) (mode : FileMode) : Files (Except Error Unit) :=
  os (.createFile path name mode)
abbrev copyInto (path : Path) (name : String) (handle : Opened) : Files (Except Error Unit) :=
  os (.copyInto path name handle)
abbrev closeFile (path : Path) (name : String) : Files (Except Error Unit) :=
  os (.closeFile path name)
abbrev now : Files Time := Prog.perform Call.now
abbrev range (values : List (String × FileMode)) :
    Files { order : List (String × FileMode) // order.Perm values } :=
  Prog.perform (Call.range values)

end Calls

def allowedFiles : List (String × FileMode) :=
  [("cert.pem", 0o644), ("chain.pem", 0o644), ("fullchain.pem", 0o644),
    ("privkey.pem", 0o600), ("metadata.json", 0o644)]

def marker : String := ".renewed"

structure Payload where
  certPEM : Content
  chainPEM : Content
  fullchainPEM : Content
  privateKeyPEM : Content
  metadataJSON : Content
  createMarker : Bool
  deriving DecidableEq, Repr

def Payload.value (payload : Payload) (name : String) : Content :=
  if name = "cert.pem" then payload.certPEM
  else if name = "chain.pem" then payload.chainPEM
  else if name = "fullchain.pem" then payload.fullchainPEM
  else if name = "privkey.pem" then payload.privateKeyPEM
  else if name = "metadata.json" then payload.metadataJSON
  else .bytes []

structure BackupResult where
  directoryExisted : Bool
  backupCreated : Bool
  deriving DecidableEq, Repr

def isNotExist : Error → Bool
  | .os .notExist _ => true
  | _ => false

/-- The prefix of all names that working on one certificate directory gives to
directories of its own below the root. -/
def hiddenPrefix (safeName : String) : String := "." ++ safeName ++ "."

def stagePrefix (safeName : String) : String := hiddenPrefix safeName ++ "stage-"
def previousPrefix (safeName : String) : String := hiddenPrefix safeName ++ "previous-"

def targetOf (safeName : String) : Path := ⟨.root, safeName⟩

def ensureRoot : Files (Except Error Unit) := do
  match ← lstatRoot with
  | .error err => return .error (.wrap "检查证书根目录" err)
  | .ok info =>
    if info.kind ≠ .dir then return .error (.new "证书根目录必须是非符号链接目录")
    else return .ok ()

def validateTarget (target : Path) : Files (Except Error Unit) := do
  match ← lstat target with
  | .ok info =>
    if info.kind = .link then return .error (.new "证书目录不能是符号链接") else return .ok ()
  | .error statErr => if isNotExist statErr then return .ok () else return .error statErr

def removeManagedDirectory (target : Path) : Files (Except Error Unit) := removeAll target

/-- One round of the loop of `copyManagedDirectory`; closing the input cannot
change anything. -/
def copyFile (source target : Path) (name : String) (mode : FileMode) :
    Files (Except Error Unit) := do
  match ← lstatIn source name with
  | .error err => return .error err
  | .ok info =>
    if info.kind ≠ .regular then
      return .error (.new ("备份源文件 " ++ name ++ " 不是普通文件"))
    else
      match ← openFile source name with
      | .error err => return .error err
      | .ok input =>
        match ← statOpened input with
        | .error _ => return .error (.new ("备份源文件 " ++ name ++ " 在读取前发生变化"))
        | .ok openedInfo =>
          if openedInfo.kind ≠ .regular ∨ openedInfo.serial ≠ info.serial then
            return .error (.new ("备份源文件 " ++ name ++ " 在读取前发生变化"))
          else
            match ← createFile target name mode with
            | .error err => return .error err
            | .ok () =>
              let copied ← copyInto target name input
              let closed ← closeFile target name
              match copied, closed with
              | .error copyErr, _ => return .error copyErr
              | .ok (), .error closeErr => return .error closeErr
              | .ok (), .ok () => return .ok ()

def copyFiles (source target : Path) : List (String × FileMode) → Files (Except Error Unit)
  | [] => return .ok ()
  | (name, mode) :: rest => do
    match ← copyFile source target name mode with
    | .error err => return .error err
    | .ok () => copyFiles source target rest

def copyMarker (source target : Path) : Files (Except Error Unit) := do
  match ← lstatIn source marker with
  | .ok info =>
    if info.kind ≠ .regular then return .error (.new "更新标记不是普通文件")
    else
      match ← readContent source marker with
      | .error readErr => return .error readErr
      | .ok content => writeFile target marker content 0o644
  | .error err => if isNotExist err then return .ok () else return .error err

/-- The body of `copyManagedDirectory` after the directory is made. -/
def copyContents (source target : Path) : Files (Except Error Unit) := do
  let order ← range allowedFiles
  match ← copyFiles source target order.1 with
  | .error err => return .error err
  | .ok () => copyMarker source target

def copyManagedDirectory (source target : Path) : Files (Except Error Unit) := do
  match ← mkdir target with
  | .error err => return .error err
  | .ok () =>
    match ← copyContents source target with
    | .ok () => return .ok ()
    | .error err =>
      -- the deferred clean-up of an incomplete copy
      let _ ← removeManagedDirectory target
      return .error err

/-- The loop of `Publish`. -/
def writeFiles (stage : Path) (payload : Payload) :
    List (String × FileMode) → Files (Except Error Unit)
  | [] => return .ok ()
  | (name, mode) :: rest => do
    if (payload.value name).isEmpty then
      return .error (.new ("待发布文件 " ++ name ++ " 为空"))
    else
      match ← writeFile stage name (payload.value name) mode with
      | .error err => return .error (.wrap ("写入 " ++ name) err)
      | .ok () =>
        match ← chmodFile stage name mode with
        | .error err => return .error (.wrap ("设置 " ++ name ++ " 权限") err)
        | .ok () => writeFiles stage payload rest

def writeMarker (stage : Path) (payload : Payload) : Files (Except Error Unit) := do
  if payload.createMarker then
    let time ← now
    match ← writeFile stage marker (.renewedAt time) 0o644 with
    | .error err => return .error (.wrap "创建更新标记" err)
    | .ok () => return .ok ()
  else return .ok ()

/-- The branch of `Publish` where the target is a directory. -/
def replaceDirectory (safeName : String) (stage : Path) : Files (Except Error Path) := do
  let target := targetOf safeName
  let time ← now
  match ← copyManagedDirectory target ⟨.backup, safeName ++ "-" ++ timestamp time⟩ with
  | .error err => return .error (.wrap "备份现有证书" err)
  | .ok () =>
    match ← mkdirTemp (previousPrefix safeName) with
    | .error err => return .error err
    | .ok swapBackup =>
      match ← remove swapBackup with
      | .error err => return .error err
      | .ok () =>
        match ← rename .retire target swapBackup with
        | .error err => return .error (.wrap "切换旧证书目录" err)
        | .ok () =>
          match ← rename .release stage target with
          | .error err =>
            let _ ← rename .restore swapBackup target
            return .error (.wrap "发布新证书目录" err)
          | .ok () =>
            let _ ← removeManagedDirectory swapBackup
            return .ok target

def switchDirectory (safeName : String) (stage : Path) : Files (Except Error Path) := do
  let target := targetOf safeName
  match ← validateTarget target with
  | .error err => return .error err
  | .ok () =>
    match ← lstat target with
    | .ok info =>
      if info.kind ≠ .dir then return .error (.new "证书输出目标不是目录")
      else replaceDirectory safeName stage
    | .error statErr =>
      if isNotExist statErr then
        match ← rename .release stage target with
        | .error err => return .error (.wrap "发布证书目录" err)
        | .ok () => return .ok target
      else return .error (.wrap "检查证书输出目标" statErr)

/-- The body of `Publish` once the stage directory is there. -/
def publishStaged (safeName : String) (payload : Payload) (stage : Path) :
    Files (Except Error Path) := do
  let order ← range allowedFiles
  match ← writeFiles stage payload order.1 with
  | .error err => return .error err
  | .ok () =>
    match ← writeMarker stage payload with
    | .error err => return .error err
    | .ok () => switchDirectory safeName stage

def publish (safeName : String) (payload : Payload) : Files (Except Error Path) := do
  match validateSafeDirectory safeName with
  | .error err => return .error err
  | .ok () =>
    match ← ensureRoot with
    | .error err => return .error err
    | .ok () =>
      match ← mkdirAllBackup with
      | .error err => return .error (.wrap "创建备份目录" err)
      | .ok () =>
        match ← mkdirTemp (stagePrefix safeName) with
        | .error err => return .error (.wrap "创建发布暂存目录" err)
        | .ok stage =>
          match ← chmodDir stage with
          | .error err =>
            let _ ← remove stage
            return .error (.wrap "设置暂存目录权限" err)
          | .ok () =>
            match ← publishStaged safeName payload stage with
            | .ok target => return .ok target
            | .error err =>
              -- `cleanupStage` is still set
              let _ ← removeManagedDirectory stage
              return .error err

def read (safeName fileName : String) : Files (Except Error (Content × FileMode)) := do
  match validateSafeDirectory safeName with
  | .error err => return .error err
  | .ok () =>
    match allowedFiles.lookup fileName with
    | none => return .error (.new "不支持的证书文件类型")
    | some mode =>
      let target := targetOf safeName
      match ← validateTarget target with
      | .error err => return .error err
      | .ok () =>
        match ← lstatIn target fileName with
        | .error err => return .error err
        | .ok info =>
          if info.kind ≠ .regular then return .error (.new "证书文件不是普通文件")
          else
            match ← readContent target fileName with
            | .error err => return .error err
            | .ok value => return .ok (value, mode)

/-- A backup that fails still says whether the directory was there. -/
def backup (safeName : String) : Files (BackupResult × Except Error Unit) := do
  let nothing : BackupResult := ⟨false, false⟩
  match validateSafeDirectory safeName with
  | .error err => return (nothing, .error err)
  | .ok () =>
    match ← ensureRoot with
    | .error err => return (nothing, .error err)
    | .ok () =>
      let target := targetOf safeName
      match ← validateTarget target with
      | .error err => return (nothing, .error err)
      | .ok () =>
        match ← lstat target with
        | .error err =>
          if isNotExist err then return (nothing, .ok ()) else return (nothing, .error err)
        | .ok info =>
          if info.kind ≠ .dir then return (nothing, .error (.new "证书输出目标不是安全目录"))
          else
            match ← mkdirAllBackup with
            | .error err => return (⟨true, false⟩, .error err)
            | .ok () =>
              let time ← now
              match ← copyManagedDirectory target
                  ⟨.backup, safeName ++ "-deleted-" ++ timestamp time⟩ with
              | .error err => return (⟨true, false⟩, .error err)
              | .ok () => return (⟨true, true⟩, .ok ())

/-- The loop of `Available`; `found` are the files seen. -/
def collectAvailable (target : Path) :
    List (String × FileMode) → List String → Files (Except Error (List String))
  | [], found => return .ok found
  | (name, _) :: rest, found => do
    match ← lstatIn target name with
    | .error statErr =>
      if isNotExist statErr then collectAvailable target rest found else return .error statErr
    | .ok info =>
      if info.kind ≠ .regular then return .error (.new ("证书文件 " ++ name ++ " 不是普通文件"))
      else collectAvailable target rest (found ++ [name])

def available (safeName : String) : Files (Except Error (List String)) := do
  match validateSafeDirectory safeName with
  | .error err => return .error err
  | .ok () =>
    match ← ensureRoot with
    | .error err => return .error err
    | .ok () =>
      let target := targetOf safeName
      match ← validateTarget target with
      | .error err => return .error err
      | .ok () =>
        match ← lstat target with
        | .error err => if isNotExist err then return .ok [] else return .error err
        | .ok info =>
          if info.kind ≠ .dir then return .error (.new "证书输出目标不是安全目录")
          else
            let order ← range allowedFiles
            collectAvailable target order.1 []

def removeDirectory (safeName : String) : Files (Except Error Unit) := do
  match validateSafeDirectory safeName with
  | .error err => return .error err
  | .ok () =>
    let target := targetOf safeName
    match ← validateTarget target with
    | .error err => return .error err
    | .ok () =>
      match ← lstat target with
      | .error err => if isNotExist err then return .ok () else return .error err
      | .ok info =>
        if info.kind ≠ .dir then return .error (.new "证书输出目标不是安全目录")
        else removeManagedDirectory target

end CertificateFiles
