import CertMate.CallTrees
import CertMate.EnvFile
import CertMate.IntegerRanges

/-!
# The deployment script

`scripts/deploy.sh` as programs over the commands it runs. What it prints on its way is
left out, but for the message of a `die`. A text that a command prints is what `$(...)`
gives of it. What `git pull` makes of the script itself is not followed: `update` goes on
with the same `init`.
-/
namespace DeployScript
open CallTrees EnvFile EnvFile.LcCtype

/-- Commands of which the script looks at the exit status only. -/
inductive Command where
  | copyExample
  | protectEnv
  | find (name : String)
  | makeTemp
  | awkValue (key value : Text)
  | awkAdmin (username passwordHash : Text)
  | protectTemp
  | replaceEnv
  | removeTemp
  | terminal
  | buildHelper
  | isLink (path : Text)
  | makeDirectory (path : Text)
  | enterRoot
  | composeVersion
  | composeConfig
  | composeBuild
  | composeUp
  | unstagedChanges
  | stagedChanges
  | pull
  | sleep

/-- Commands whose output counts; none where they fail. -/
inductive Question where
  | readEnv
  | username
  | password
  | passwordConfirmation
  | hashPassword (password : Text)
  | randomSecret
  | realpath (path : Text)
  | stat (format : String) (path : Text)
  | containerId
  | inspect (container : Text)
  | repositoryRoot

/-- What `-L`, `-e` and `-f` tell of a path. -/
inductive Kind where
  | absent
  | regular
  | link
  | other
  deriving DecidableEq

inductive Eff where
  | run (c : Command)
  | output (q : Question)
  | exampleKind
  | envKind

abbrev Ans : Eff → Type
  | .run _ => Bool
  | .output _ => Option Text
  | .exampleKind | .envKind => Kind

/-- A `die`, or a command that fails under `set -e`. -/
inductive Exit where
  | die (message : String)
  | failed

abbrev Script (α : Type) := ExceptT Exit (Prog Eff Ans) α

def ask (e : Eff) : Script (Ans e) := ExceptT.lift (Prog.perform e)

def die {α : Type} (message : String) : Script α := throw (.die message)

def must (condition : Bool) (message : String) : Script Unit :=
  if condition then pure () else die message

/-- `command || die`. -/
def orDie (c : Command) (message : String) : Script Unit := do
  let done ← ask (.run c)
  must done message

/-- `name="$(command)"`. -/
def assigned (q : Question) : Script Text := do
  match ← ask (.output q) with
  | some text => pure text
  | none => throw .failed

/-- `name="$(command)" || die`. -/
def assignedOrDie (q : Question) (message : String) : Script Text := do
  match ← ask (.output q) with
  | some text => pure text
  | none => die message

def requireCommand (name : String) : Script Unit :=
  orDie (.find name) ("缺少命令 " ++ name ++ "，请先安装后重试。")

def envValue (vars : Variables) (key : String) (fallback : Text) : Text :=
  (vars.values key.toList).getD fallback

/-- `env_value` without a fallback. -/
def given (vars : Variables) (key : String) : Text := envValue vars key []

section Scripts
variable [LcCtype]

def parseEnv : Script Variables := do
  let file ← assigned .readEnv
  match parseEnvFile file with
  | .ok vars => pure vars
  | .error message => die message

/-- `write_env_value`, with what it makes of the variables. -/
def writeEnvValue (vars : Variables) (key : String) (value : Text) : Script Variables := do
  orDie .makeTemp "无法在 .env 所在目录创建临时文件。"
  orDie (.awkValue key.toList value) ("更新 " ++ key ++ " 失败。")
  orDie .protectTemp "无法保护临时配置文件权限。"
  orDie .replaceEnv "无法原子替换 .env。"
  pure (EnvFile.writeEnvValue key.toList value ⟨[], vars⟩).vars

def writeAdminCredentials (username passwordHash : Text) : Script Variables := do
  orDie .makeTemp "无法在 .env 所在目录创建临时文件。"
  orDie (.awkAdmin username passwordHash) "更新管理员账户配置失败。"
  orDie .protectTemp "无法保护临时配置文件权限。"
  orDie .replaceEnv "无法原子替换 .env。"
  parseEnv

/-- `^[A-Za-z0-9._@-]{1,64}$`. -/
def usernameShape (username : Text) : Bool :=
  1 ≤ username.length && username.length ≤ 64 && username.all usernameRune

/-- `[./A-Za-z0-9]`. -/
def hashRune (c : Char) : Bool := c = '.' || c = '/' || c.isAlphanum

/-- `^\$2[aby]\$[0-9]{2}\$[./A-Za-z0-9]{53}$`. -/
def bcryptShape : Text → Bool
  | '$' :: '2' :: version :: '$' :: tens :: ones :: '$' :: rest =>
    (version = 'a' || version = 'b' || version = 'y') && IntegerRanges.isDigit tens &&
      IntegerRanges.isDigit ones && rest.length = 53 && rest.all hashRune
  | _ => false

/-- `^[0-9a-f]{64}$`. -/
def secretShape (secret : Text) : Bool :=
  secret.length = 64 && secret.all fun c => IntegerRanges.isDigit c || ('a' ≤ c && c ≤ 'f')

/-- `build_setup_helper`, once it is known whether it has been done. -/
def buildSetupHelper (ready : Bool) : Script Unit :=
  if ready then pure ()
  else do
    requireCommand "docker"
    orDie .buildHelper "构建 Docker 初始化工具失败。"

def chooseUsername (vars : Variables) (requested : Text) : Script Text :=
  if requested ≠ [] then pure requested
  else do
    orDie .terminal
      "当前不是交互终端；请执行 bash scripts/deploy.sh configure-admin <用户名> 并在终端中输入密码。"
    let username ← assigned .username
    pure (if username ≠ [] then username else envValue vars "ADMIN_USERNAME" "admin".toList)

def choosePassword : Script Text := do
  let password ← assignedOrDie .password "读取管理员密码失败。"
  let confirmation ← assignedOrDie .passwordConfirmation "读取确认密码失败。"
  must (password ≠ []) "管理员密码不能为空。"
  must (password = confirmation) "两次输入的管理员密码不一致。"
  pure password

def configureAdminCredentials (vars : Variables) (requested : Text) : Script Variables := do
  let username ← chooseUsername vars requested
  must (usernameShape username)
    "管理员用户名只能包含字母、数字、点、下划线、@ 和连字符，长度为 1-64。"
  buildSetupHelper false
  let password ← choosePassword
  let passwordHash ← assignedOrDie (.hashPassword password) "管理员密码哈希生成失败。"
  must (bcryptShape passwordHash) "Docker 初始化工具未返回有效的 bcrypt 哈希。"
  writeAdminCredentials username passwordHash

def sourceKeys : List String :=
  ["ADMIN_PASSWORD_HASH_FILE", "ADMIN_PASSWORD_HASH", "ADMIN_PASSWORD_FILE", "ADMIN_PASSWORD"]

/-- The sources that are configured, in their order. -/
def configuredSources (vars : Variables) : List String :=
  sourceKeys.filter fun key => given vars key ≠ []

/-- `ensure_admin_config`, with whether the helper has been built on the way. -/
def ensureAdminConfig (vars : Variables) : Script (Variables × Bool) :=
  if configuredSources vars ≠ [] then pure (vars, false)
  else do
    orDie .terminal
      "尚未配置管理员密码。请在交互终端运行 bash scripts/deploy.sh configure-admin <用户名>。"
    let vars ← configureAdminCredentials vars []
    pure (vars, true)

def validateAdminConfig (vars : Variables) : Script Unit := do
  let username := envValue vars "ADMIN_USERNAME" "admin".toList
  must (trimWhitespace username ≠ []) "ADMIN_USERNAME 不能为空。"
  must (!username.any space) "ADMIN_USERNAME 不能包含空白字符。"
  must (configuredSources vars ≠ [])
    "必须配置 ADMIN_PASSWORD_HASH_FILE、ADMIN_PASSWORD_HASH、ADMIN_PASSWORD_FILE 或 ADMIN_PASSWORD 中的一项。"
  must (given vars "ADMIN_PASSWORD_HASH" = [] || bcryptShape (given vars "ADMIN_PASSWORD_HASH"))
    "ADMIN_PASSWORD_HASH 不是有效的 bcrypt 格式。"

def generateSecret : Script Text := do
  let secret ← assignedOrDie .randomSecret "生成随机 Secret 失败。"
  must (secretShape secret) "Docker 初始化工具未返回预期的 32 字节随机值。"
  pure secret

/-- The secret to be stored; for the encryption key one that is not the session secret. -/
def freshSecret (vars : Variables) (valueKey : String) : Script Text := do
  let secret ← generateSecret
  if valueKey = "APP_ENCRYPTION_KEY" ∧ secret = given vars "SESSION_SECRET" then
    let secret ← generateSecret
    must (secret ≠ given vars "SESSION_SECRET") "两个随机 Secret 意外相同，请重新运行。"
    pure secret
  else pure secret

/-- `ensure_secret`, with whether the helper has been built by then. -/
def ensureSecret (vars : Variables) (ready : Bool) (valueKey fileKey : String) :
    Script (Variables × Bool) :=
  if given vars fileKey ≠ [] ∨ given vars valueKey ≠ [] then pure (vars, ready)
  else do
    buildSetupHelper ready
    let secret ← freshSecret vars valueKey
    let vars ← writeEnvValue vars valueKey secret
    pure (vars, true)

/-- The raw text has a `$` that Compose would interpolate. -/
def exposed (vars : Variables) (key : String) : Bool :=
  let raw := (vars.rawValues key.toList).getD []
  raw.any (· = '$') && !quotedBy singleQuote raw

def sensitiveKeys : List String :=
  ["ADMIN_PASSWORD_HASH", "ADMIN_PASSWORD", "SESSION_SECRET", "APP_ENCRYPTION_KEY"]

def validateSensitiveQuoting (vars : Variables) : Script Unit :=
  match sensitiveKeys.find? (exposed vars) with
  | none => pure ()
  | some key => die (key ++ " 包含 $ 时必须使用单引号，例如 " ++ key ++
      "='值'，否则 Docker Compose 会执行变量插值。")

def validateSecretConfig (vars : Variables) : Script Unit := do
  must (given vars "SESSION_SECRET_FILE" ≠ [] || 32 ≤ size (given vars "SESSION_SECRET"))
    "SESSION_SECRET 至少需要 32 字节。"
  must (given vars "APP_ENCRYPTION_KEY_FILE" ≠ [] ||
      32 ≤ size (given vars "APP_ENCRYPTION_KEY"))
    "APP_ENCRYPTION_KEY 至少需要 32 字节。"
  must (given vars "SESSION_SECRET_FILE" ≠ [] || given vars "APP_ENCRYPTION_KEY_FILE" ≠ [] ||
      given vars "SESSION_SECRET" ≠ given vars "APP_ENCRYPTION_KEY")
    "SESSION_SECRET 和 APP_ENCRYPTION_KEY 必须使用不同的值。"

def validateIntegerRange (key : String) (value : Text) (minimum maximum : Nat) : Script Unit :=
  match IntegerRanges.validateIntegerRange key (String.ofList value) minimum maximum with
  | .ok () => pure ()
  | .error message => die message

/-- The patterns of the `case`. -/
def broadPaths (projectRoot : Text) : List Text :=
  ["/".toList, "/bin".toList, "/boot".toList, "/data".toList, "/dev".toList, "/etc".toList,
    "/home".toList, "/lib".toList, "/lib64".toList, "/media".toList, "/mnt".toList, "/opt".toList,
    "/proc".toList, "/root".toList, "/run".toList, "/sbin".toList, "/srv".toList, "/sys".toList,
    "/tmp".toList, "/usr".toList, "/var".toList, "/var/lib".toList, "/var/log".toList, projectRoot]

def resolveHostPath (projectRoot configured : Text) : Script Text := do
  must (configured ≠ []) "宿主机目录不能为空。"
  must (!configured.any (· = '$') && configured.head? ≠ some '~')
    "宿主机目录必须是明确路径，不能包含变量或 ~。"
  let candidate :=
    if configured.head? = some '/' then configured else projectRoot ++ '/' :: configured
  let linked ← ask (.run (.isLink candidate))
  must (!linked) ("宿主机目录不能是符号链接：" ++ String.ofList configured)
  let resolved ← assignedOrDie (.realpath candidate)
    ("无法解析宿主机目录：" ++ String.ofList configured)
  must (!(broadPaths projectRoot).contains resolved)
    ("拒绝使用过于宽泛或危险的宿主机目录：" ++ String.ofList resolved)
  pure resolved

/-- `(( (10#${owner_mode} & 3) == 3 ))` for the third digit from the end. -/
def ownerMayWrite (mode : Text) : Bool :=
  match mode.reverse[2]? with
  | some digit => IntegerRanges.isDigit digit && IntegerRanges.digit digit &&& 3 = 3
  | none => false

def directoryReady (directory uid gid : Text) : Script Bool := do
  match ← ask (.output (.stat "%u" directory)) with
  | none => pure false
  | some owner =>
    match ← ask (.output (.stat "%g" directory)) with
    | none => pure false
    | some group =>
      match ← ask (.output (.stat "%a" directory)) with
      | none => pure false
      | some mode => pure (owner = uid && group = gid && ownerMayWrite mode)

/-- One of the two is the other or contains it. -/
def nested (a b : Text) : Bool := a = b || (b ++ ['/']).isPrefixOf a || (a ++ ['/']).isPrefixOf b

def prepareHostDirectories (projectRoot : Text) (vars : Variables) : Script Unit := do
  let uid := envValue vars "APP_UID" "10001".toList
  let gid := envValue vars "APP_GID" "10001".toList
  validateIntegerRange "APP_UID" uid 1 2147483647
  validateIntegerRange "APP_GID" gid 1 2147483647
  let data ← resolveHostPath projectRoot (envValue vars "DATA_HOST_DIR" "./data".toList)
  let certs ← resolveHostPath projectRoot (envValue vars "CERTS_HOST_DIR" "./certs".toList)
  must (!nested data certs) "DATA_HOST_DIR 与 CERTS_HOST_DIR 必须是彼此独立的目录。"
  let dataMade ← ask (.run (.makeDirectory data))
  let certsMade ← ask (.run (.makeDirectory certs))
  must (dataMade && certsMade) "无法创建宿主机持久化目录。"
  let dataReady ← directoryReady data uid gid
  let certsReady ← directoryReady certs uid gid
  must (dataReady && certsReady) "宿主机目录的所有者或写入权限与 APP_UID/APP_GID 不一致。"

def validateRuntimeConfig (vars : Variables) : Script Unit := do
  validateSensitiveQuoting vars
  validateIntegerRange "APP_PORT" (envValue vars "APP_PORT" "8080".toList) 1 65535
  must (envValue vars "DATA_DIR" "/data".toList = "/data".toList)
    "Compose 部署时 DATA_DIR 必须保持 /data。"
  must (envValue vars "CERT_OUTPUT_DIR" "/certs".toList = "/certs".toList)
    "Compose 部署时 CERT_OUTPUT_DIR 必须保持 /certs。"

def healthTimeoutSeconds : Nat := 120

def healthPollSeconds : Nat := 2

/-- The polls that are left of `wait_for_health`. A failing `docker inspect` prints nothing. -/
def pollHealth (container : Text) : Nat → Script Unit
  | 0 => die ("等待 CertMate 健康检查超时（" ++ toString healthTimeoutSeconds ++ " 秒）。")
  | left + 1 => do
    let state := (← ask (.output (.inspect container))).getD []
    if state = "healthy".toList then pure ()
    else if ["unhealthy".toList, "exited".toList, "dead".toList].contains state then
      die ("CertMate 容器状态为 " ++ String.ofList state ++ "。")
    else do
      let slept ← ask (.run .sleep)
      if slept then pollHealth container left else throw .failed

def waitForHealth : Script Unit := do
  let container ← assigned .containerId
  must (container ≠ []) "未找到 certmate 容器。"
  pollHealth container (healthTimeoutSeconds / healthPollSeconds)

/-- A failing `cd` ends the script. -/
def enterRoot : Script Unit := do
  let done ← ask (.run .enterRoot)
  if done then pure () else throw .failed

def deployCompose : Script Unit := do
  requireCommand "docker"
  orDie .composeVersion "需要 Docker Compose v2（docker compose）。"
  enterRoot
  orDie .composeConfig "Docker Compose 配置校验失败。"
  orDie .composeBuild "Docker Compose 构建失败。"
  orDie .composeUp "Docker Compose 启动失败。"
  waitForHealth

/-- `initialize` once there is a file. -/
def initializeExisting (projectRoot : Text) : Script Unit := do
  orDie .protectEnv "无法保护 .env 文件权限。"
  requireCommand "awk"
  requireCommand "mktemp"
  requireCommand "realpath"
  requireCommand "stat"
  let vars ← parseEnv
  validateSensitiveQuoting vars
  let (vars, ready) ← ensureAdminConfig vars
  validateSensitiveQuoting vars
  validateAdminConfig vars
  validateRuntimeConfig vars
  prepareHostDirectories projectRoot vars
  let (vars, ready) ← ensureSecret vars ready "SESSION_SECRET" "SESSION_SECRET_FILE"
  let (vars, _) ← ensureSecret vars ready "APP_ENCRYPTION_KEY" "APP_ENCRYPTION_KEY_FILE"
  validateSecretConfig vars
  deployCompose

/-- `initialize`. -/
def initializeEnv (projectRoot : Text) : Script Unit := do
  let example_ ← ask .exampleKind
  must (example_ = .regular) "找不到普通配置模板 .env.example。"
  match ← ask .envKind with
  | .link => die ".env 不能是符号链接。"
  | .absent => do
    orDie .copyExample "复制 .env.example 失败。"
    orDie .protectEnv "无法设置 .env 权限。"
  | .other => die ".env 必须是普通文件，不能是目录或符号链接。"
  | .regular => initializeExisting projectRoot

def update (projectRoot : Text) : Script Unit := do
  let env ← ask .envKind
  must (env = .regular) "update 要求已有普通 .env；请先运行 init 并完成配置。"
  requireCommand "git"
  requireCommand "realpath"
  enterRoot
  let root ← assignedOrDie .repositoryRoot "当前目录不是 Git 工作树。"
  let resolved := (← ask (.output (.realpath root))).getD []
  must (resolved = projectRoot) "脚本所在目录不是当前 Git 工作树根目录。"
  orDie .unstagedChanges "存在未提交的 tracked 文件修改，拒绝自动更新。"
  orDie .stagedChanges "存在已暂存但未提交的修改，拒绝自动更新。"
  orDie .pull "git pull --ff-only 失败，未继续部署。"
  initializeEnv projectRoot

def configureAdmin (requested : Text) : Script Unit := do
  let env ← ask .envKind
  must (env = .regular) "请先运行 init 创建 .env。"
  orDie .protectEnv "无法保护 .env 文件权限。"
  requireCommand "awk"
  requireCommand "mktemp"
  let vars ← parseEnv
  validateSensitiveQuoting vars
  let _ ← configureAdminCredentials vars requested
  pure ()

/-- The arguments of `main`. -/
inductive Invocation where
  | init
  | update
  | configureAdmin (username : Text)
  | help
  | unknown (name : String)

def main (projectRoot : Text) : Invocation → Script Unit
  | .init => initializeEnv projectRoot
  | .update => update projectRoot
  | .configureAdmin username => configureAdmin username
  | .help => pure ()
  | .unknown name => die ("未知子命令：" ++ name)

/-- The script with its `trap cleanup EXIT`. -/
def script (projectRoot : Text) (invocation : Invocation) : Prog Eff Ans (Except Exit Unit) := do
  let result ← (main projectRoot invocation).run
  let _ ← Prog.perform (.run .removeTemp)
  return result

end Scripts

inductive Entry where
  | absent
  | file (text : Text)
  | link
  | other

def Entry.kind : Entry → Kind
  | .absent => .absent
  | .file _ => .regular
  | .link => .link
  | .other => .other

/-- `.env`, the template, and the temporary file of the script. -/
structure World where
  env : Entry
  template : Entry
  temp : Option Text
  ticks : Nat

/-- What the commands do by themselves: whether the `n`-th works, what it prints, what it
leaves in a file when it does not work, and what a `cp` or a `git pull` leaves of one. -/
structure Host where
  works : Nat → Bool
  prints : Nat → Option Text
  leaves : Nat → Text
  entries : Nat → Entry

section Execution
variable [LcCtype] (host : Host)

def World.tick (w : World) : World := { w with ticks := w.ticks + 1 }

def World.text (w : World) : Text :=
  match w.env with
  | .file text => text
  | _ => []

/-- A program writes to the temporary file. -/
def World.writeTemp (w : World) (content : Text) : World :=
  { w.tick with temp := some (if host.works w.ticks then content else host.leaves w.ticks) }

def execCommand (c : Command) (w : World) : Bool × World :=
  match c with
  | .copyExample =>
    (host.works w.ticks,
      { w.tick with env := if host.works w.ticks then w.template else host.entries w.ticks })
  | .makeTemp =>
    (host.works w.ticks, if host.works w.ticks then { w.tick with temp := some [] } else w.tick)
  | .awkValue key value => (host.works w.ticks, w.writeTemp host (writtenFile key value w.text))
  | .awkAdmin username passwordHash =>
    (host.works w.ticks, w.writeTemp host (adminFile username passwordHash w.text))
  | .replaceEnv =>
    match host.works w.ticks, w.temp with
    | true, some text => (true, { w.tick with env := .file text, temp := none })
    | _, _ => (false, w.tick)
  | .removeTemp => (true, { w.tick with temp := none })
  | .pull => (host.works w.ticks, { w.tick with template := host.entries w.ticks })
  | _ => (host.works w.ticks, w.tick)

def exec : (e : Eff) → World → Ans e × World
  | .run c, w => execCommand host c w
  | .output .readEnv, w =>
    match w.env with
    | .file text => (if host.works w.ticks then some text else none, w.tick)
    | _ => (none, w.tick)
  | .output _, w => (host.prints w.ticks, w.tick)
  | .exampleKind, w => (w.template.kind, w)
  | .envKind, w => (w.env.kind, w)

end Execution

end DeployScript
