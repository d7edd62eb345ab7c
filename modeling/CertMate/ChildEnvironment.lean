import CertMate.AcmeEngine

/-!
# The environment of `acme.sh`

`run` of `internal/certificate/acmesh/engine.go` puts the variables of a credential
behind four variables of its own, and of two entries for one name `os/exec` keeps the
later one. The names that a credential may not use are listed in the credential package.
-/
namespace ChildEnvironment
open CertificateModel AcmeEngine
open CredentialModel (forbiddenEnvironmentNames processEnvironmentNamePattern
  validateProcessEnvironmentName)
open DomainValidation (sortStrings)

section Entries

def nameOf (kv : String) : String := String.ofList (kv.toList.takeWhile (· ≠ '='))

def valueOf (kv : String) : String := String.ofList ((kv.toList.dropWhile (· ≠ '=')).drop 1)

def entry (name value : String) : String := name ++ "=" ++ value

/-- What `dedupEnv` of `os/exec` keeps. -/
def keepLast : List String → List String
  | [] => []
  | kv :: rest =>
    if rest.any fun later => nameOf later = nameOf kv then keepLast rest else kv :: keepLast rest

def dedupEnv (env : List String) : Except Error (List String) :=
  if env.any fun kv => kv.toList.contains '\x00' then
    .error (.new "exec: environment variable contains NUL")
  else .ok (keepLast env)

def getenv (env : List String) (name : String) : Option String :=
  (env.find? fun kv => nameOf kv = name).map valueOf

/-- The value of the last entry for a name. -/
def lastValue (name : String) : List String → Option String
  | [] => none
  | kv :: rest => (lastValue name rest).or (if nameOf kv = name then some (valueOf kv) else none)

variable {name : String} {env : List String}

theorem lastValue_none : lastValue name env = none ↔ ∀ kv ∈ env, nameOf kv ≠ name := by
  induction env with
  | nil => simp [lastValue]
  | cons kv rest ih =>
    rw [lastValue, Option.or_eq_none_iff, ih, List.forall_mem_cons]
    by_cases own : nameOf kv = name
    · simp [own]
    · simp [own]

/-- Each name is once in what is kept, with its last value. -/
theorem getenv_keepLast : getenv (keepLast env) name = lastValue name env := by
  induction env with
  | nil => rfl
  | cons kv rest ih =>
    rw [keepLast, lastValue]
    split
    · rename_i again
      rw [ih]
      by_cases own : nameOf kv = name
      · obtain ⟨later, there, same⟩ := List.any_eq_true.mp again
        have found : lastValue name rest ≠ none := by
          intro none_
          have other := lastValue_none.mp none_ later there
          exact other ((of_decide_eq_true same).trans own)
        obtain ⟨value, is⟩ := Option.ne_none_iff_exists'.mp found
        simp [is]
      · simp [own]
    · rename_i once
      rw [getenv, List.find?_cons]
      by_cases own : nameOf kv = name
      · have none_ : lastValue name rest = none := by
          apply lastValue_none.mpr
          intro later there same
          apply once
          exact List.any_eq_true.mpr ⟨later, there, decide_eq_true (same.trans own.symm)⟩
        simp [own, none_]
      · simp only [own, decide_false, if_false, Option.or_none]
        exact ih

theorem lastValue_append (first second : List String) :
    lastValue name (first ++ second) = (lastValue name second).or (lastValue name first) := by
  induction first with
  | nil => simp [lastValue]
  | cons kv rest ih => simp only [List.cons_append, lastValue, ih, Option.or_assoc]

theorem entry_parts {name value : String} (plain : '=' ∉ name.toList) :
    nameOf (entry name value) = name ∧ valueOf (entry name value) = value := by
  have whole : (entry name value).toList = name.toList ++ '=' :: value.toList := by
    simp [entry]
  have before : ∀ c ∈ name.toList, decide (c ≠ '=') = true := by
    intro c there
    apply decide_eq_true
    rintro rfl
    exact plain there
  constructor
  · rw [nameOf, whole, List.takeWhile_append_of_pos before]
    simp
  · rw [valueOf, whole, List.dropWhile_append_of_pos before]
    simp

/-- The entries of a list of names, with a value for each. -/
theorem lastValue_entries {names : List String} {valueAt : String → String}
    (plain : ∀ n ∈ names, '=' ∉ n.toList) :
    lastValue name (names.map fun n => entry n (valueAt n)) =
      if name ∈ names then some (valueAt name) else none := by
  induction names with
  | nil => rfl
  | cons n rest ih =>
    obtain ⟨first, later⟩ := List.forall_mem_cons.mp plain
    obtain ⟨named, value⟩ := @entry_parts n (valueAt n) first
    rw [List.map_cons, lastValue, ih later, named, value]
    by_cases own : n = name
    · subst own
      by_cases again : n ∈ rest
      · simp [again]
      · simp [again]
    · have other : name ≠ n := fun same => own same.symm
      simp [own, other]

end Entries

abbrev Vars := AList fun _ : String => String

def pairs (vars : Vars) : List (String × String) := vars.entries.map fun e => (e.1, e.2)

def searchPath : String := "/usr/local/sbin:/usr/local/bin:/usr/sbin:/usr/bin:/sbin:/bin"

def baseEnvironment : List String :=
  ["PATH=" ++ searchPath, "HOME=/nonexistent", "LANG=C", "LC_ALL=C"]

/-- `command.Env`. -/
def commandEnv (vars : Vars) : List String :=
  baseEnvironment ++
    (sortStrings vars.keys).map fun name => entry name ((vars.lookup name).getD "")

/-- What the process gets, if it is started. -/
def childEnvironment (vars : Vars) : Except Error (List String) :=
  match checkVariables (pairs vars) with
  | .error err => .error err
  | .ok () => dedupEnv (commandEnv vars)

def baseValue (name : String) : Option String :=
  if name = "PATH" then some searchPath
  else if name = "HOME" then some "/nonexistent"
  else if name = "LANG" ∨ name = "LC_ALL" then some "C"
  else none

theorem lastValue_base (name : String) : lastValue name baseEnvironment = baseValue name := by
  have path : nameOf ("PATH=" ++ searchPath) = "PATH" ∧
      valueOf ("PATH=" ++ searchPath) = searchPath := by decide +kernel
  have home : nameOf "HOME=/nonexistent" = "HOME" ∧
      valueOf "HOME=/nonexistent" = "/nonexistent" := by decide +kernel
  have lang : nameOf "LANG=C" = "LANG" ∧ valueOf "LANG=C" = "C" := by decide +kernel
  have all : nameOf "LC_ALL=C" = "LC_ALL" ∧ valueOf "LC_ALL=C" = "C" := by decide +kernel
  simp only [baseEnvironment, lastValue, path, home, lang, all, Option.none_or, baseValue,
    eq_comm (b := name)]
  by_cases isPath : name = "PATH"
  · subst isPath
    simp
  · by_cases isHome : name = "HOME"
    · subst isHome
      simp
    · by_cases isAll : name = "LC_ALL"
      · subst isAll
        simp
      · simp [isPath, isHome, isAll]

section Child
variable {vars : Vars} {env : List String} {name value : String}

theorem mem_pairs (there : vars.lookup name = some value) : (name, value) ∈ pairs vars :=
  List.mem_map.mpr ⟨⟨name, value⟩, AList.mem_lookup_iff.mp there, rfl⟩

/-- A name that passes the pattern has no equals sign. -/
theorem plain_name (valid : validateProcessEnvironmentName name = .ok ()) : '=' ∉ name.toList := by
  unfold validateProcessEnvironmentName at valid
  split at valid
  · cases valid
  · rename_i pattern
    intro there
    apply pattern
    unfold processEnvironmentNamePattern
    cases whole : name.toList with
    | nil => rfl
    | cons first rest =>
      rw [whole] at there
      rcases List.mem_cons.mp there with rfl | later
      · simp
      · have refused : (rest.all fun c => ('A' ≤ c && c ≤ 'Z') || ('a' ≤ c && c ≤ 'z') ||
            ('0' ≤ c && c ≤ '9') || c == '_') = false := by
          apply List.all_eq_false.mpr
          exact ⟨'=', later, by decide⟩
        simp [refused]

theorem accepted_of_started (started : childEnvironment vars = .ok env) :
    (∀ e ∈ pairs vars, validateProcessEnvironmentName e.1 = .ok () ∧ e.2 ≠ "") ∧
      env = keepLast (commandEnv vars) := by
  unfold childEnvironment at started
  split at started
  · cases started
  · rename_i checked
    unfold dedupEnv at started
    split at started
    · cases started
    · cases started
      exact ⟨checkVariables_ok_iff.mp checked, rfl⟩

/-- What the process finds under a name. -/
theorem getenv_child (started : childEnvironment vars = .ok env) (name : String) :
    getenv env name = (vars.lookup name).or (baseValue name) := by
  obtain ⟨valid, rfl⟩ := accepted_of_started started
  have found : ∀ n ∈ sortStrings vars.keys, ∃ value, vars.lookup n = some value := by
    intro n there
    have known : n ∈ vars := AList.mem_keys.mpr ((List.mem_insertionSort _).mp there)
    exact Option.isSome_iff_exists.mp (AList.lookup_isSome.mpr known)
  have plain : ∀ n ∈ sortStrings vars.keys, '=' ∉ n.toList := by
    intro n there
    obtain ⟨value, is⟩ := found n there
    exact plain_name (valid _ (mem_pairs is)).1
  rw [getenv_keepLast, commandEnv, lastValue_append, lastValue_base, lastValue_entries plain]
  split
  · rename_i there
    obtain ⟨value, is⟩ := found name there
    rw [is]
    rfl
  · rename_i absent
    have none_ : vars.lookup name = none := by
      apply AList.lookup_eq_none.mpr
      intro known
      exact absent ((List.mem_insertionSort _).mpr (AList.mem_keys.mp known))
    rw [none_]

/-- The variables of the base keep their values, each variable of the credential has its
own, and there is no other. -/
structure Undisturbed (vars : Vars) (env : List String) : Prop where
  base : ∀ name value, baseValue name = some value → getenv env name = some value
  own : ∀ name value, vars.lookup name = some value → getenv env name = some value
  only : ∀ name value, getenv env name = some value →
    baseValue name = some value ∨ vars.lookup name = some value

/-- The names for which a credential may have a value although the base has one. -/
theorem shared_name (started : childEnvironment vars = .ok env) {text : String}
    (own : vars.lookup name = some value) (base : baseValue name = some text) :
    (name = "LANG" ∨ name = "LC_ALL") ∧ text = "C" := by
  have valid : validateProcessEnvironmentName name = .ok () :=
    ((accepted_of_started started).1 _ (mem_pairs own)).1
  unfold baseValue at base
  split at base
  · rename_i path
    subst path
    exact absurd valid (by decide +kernel)
  · split at base
    · rename_i home
      subst home
      exact absurd valid (by decide +kernel)
    · split at base
      · rename_i locale
        cases base
        exact ⟨locale, rfl⟩
      · cases base

/-- The locale is the one thing of the base that a credential can change. -/
theorem undisturbed_iff (started : childEnvironment vars = .ok env) :
    Undisturbed vars env ↔
      ∀ name value, name = "LANG" ∨ name = "LC_ALL" → vars.lookup name = some value →
        value = "C" := by
  constructor
  · intro undisturbed name value locale own
    have fixed : baseValue name = some "C" := by
      rcases locale with rfl | rfl
      · decide +kernel
      · decide +kernel
    have seen := undisturbed.own name value own
    rw [undisturbed.base name "C" fixed] at seen
    cases seen
    rfl
  · intro locale
    constructor
    · intro name text base
      rw [getenv_child started]
      cases own : vars.lookup name with
      | none => exact base
      | some value =>
        obtain ⟨shared, rfl⟩ := shared_name started own base
        rw [locale name value shared own]
        rfl
    · intro name value own
      rw [getenv_child started, own]
      rfl
    · intro name value seen
      rw [getenv_child started] at seen
      cases own : vars.lookup name with
      | none =>
        rw [own] at seen
        exact Or.inl seen
      | some other =>
        rw [own] at seen
        exact Or.inr seen

end Child

def tokenVars : Vars := AList.singleton "CF_Token" "secret"

theorem undisturbed_iff_token : ∃ env, childEnvironment tokenVars = .ok env ∧
    Undisturbed tokenVars env := by
  have started : childEnvironment tokenVars = .ok (baseEnvironment ++ ["CF_Token=secret"]) := by
    decide +kernel
  refine ⟨_, started, (undisturbed_iff started).mpr ?_⟩
  have none_ : tokenVars.lookup "LANG" = none ∧ tokenVars.lookup "LC_ALL" = none := by
    decide +kernel
  intro name value locale own
  rcases locale with rfl | rfl
  · rw [none_.1] at own
    cases own
  · rw [none_.2] at own
    cases own

/-- A credential may set the locale. -/
def localeVars : Vars := AList.singleton "LC_ALL" "zh_CN.UTF-8"

theorem locale_overridden : ∃ env, childEnvironment localeVars = .ok env ∧
    getenv env "LC_ALL" = some "zh_CN.UTF-8" ∧ ¬ Undisturbed localeVars env := by
  refine ⟨["PATH=" ++ searchPath, "HOME=/nonexistent", "LANG=C", "LC_ALL=zh_CN.UTF-8"],
    by decide +kernel, by decide +kernel, ?_⟩
  intro undisturbed
  have fixed := undisturbed.base "LC_ALL" "C" (by decide +kernel)
  exact absurd fixed (by decide +kernel)

end ChildEnvironment
