import CertMate.PublishProtocol

/-!
# What a backup holds

A copy of a certificate directory that has gone well has every managed file of
it, and nothing outside the backup directory has changed meanwhile.
-/
namespace CompleteBackups
open CertificateModel CallTrees FileSystem CertificateFiles
open PublishProtocol (Honest exec_honest Quiet touches_backup)

/-- Both directories have the file, with the same content. -/
def Copied (d d' : Dir) (name : String) : Prop :=
  ∃ f g, d.get name = some (.file f) ∧ d'.get name = some (.file g) ∧ g.content = f.content

/-- Every file that is published is in the copy, and the marker if there is one. -/
structure Complete (d d' : Dir) : Prop where
  files : ∀ file ∈ allowedFiles, Copied d d' file.1
  marked : ∀ entry, d.get marker = some entry → Copied d d' marker

/-- A complete copy that has nothing else in it. -/
structure Snapshot (d d' : Dir) : Prop extends Complete d d' where
  unmarked : d.get marker = none → d'.get marker = none
  nothingElse : ∀ name, name ∉ allowedFiles.map Prod.fst → name ≠ marker → d'.get name = none

/-- There is a complete copy of the directory that was not there before. -/
def BackedUp (s s' : Fs) (safeName : String) : Prop :=
  ∃ d d' p, s.nodes (targetOf safeName) = some (.dir d) ∧ p.area = .backup ∧ s.nodes p = none ∧
    s'.nodes p = some (.dir d') ∧ Complete d d'

/-- Only files; no link and no directory. -/
def Plain (d : Dir) : Prop := ∀ name entry, d.get name = some entry → ∃ f, entry = .file f

section Answers
variable {H : Host} {s s' : Fs} {p : FileSystem.Path} {name : String}

theorem reads_nodes {o : Op} {a : Except Error (Value o)} (still : ∀ q, ¬ Touches o q)
    (made : exec H (.op o) s = (a, s')) : s'.nodes = s.nodes := by
  have after : (exec H (.op o) s).2 = s' := congrArg Prod.snd made
  funext q
  rw [← after]
  exact exec_frame H o s (still q)

theorem made_ok {o : Op} {v : Value o} (made : exec H (.op o) s = (.ok v, s')) :
    (act H o s).1 = .ok v ∧ s' = (act H o s).2.tick := by
  obtain ⟨answer, state⟩ := exec_ok (congrArg Prod.fst made)
  exact ⟨answer, (congrArg Prod.snd made).symm.trans state⟩

theorem lstatIn_ok {info : Info} {d : Dir} (there : s.nodes p = some (.dir d))
    (made : exec H (.op (.lstatIn p name)) s = (.ok info, s')) :
    ∃ entry, d.get name = some entry ∧ info = entry.info := by
  have answer := (made_ok made).1
  simp only [act, Fs.entryAt, dirAt_of_dir there, Option.bind_some] at answer
  split at answer
  · cases answer
  · rename_i entry found
    cases answer
    exact ⟨entry, found, rfl⟩

theorem regular_file {entry : Entry} (regular : entry.info.kind = .regular) :
    ∃ f, entry = .file f := by
  cases entry with
  | file f => exact ⟨f, rfl⟩
  | link outside => cases regular
  | dir => cases regular

theorem openFile_ok {handle : Opened} {d : Dir} {f : File} (there : s.nodes p = some (.dir d))
    (found : d.get name = some (.file f))
    (made : exec H (.op (.openFile p name)) s = (.ok handle, s')) : handle = .file f := by
  have answer := (made_ok made).1
  simp only [act, Fs.entryAt, dirAt_of_dir there, Option.bind_some, found, Entry.reach] at answer
  cases answer
  rfl

theorem readFile_ok {content : Content} {d : Dir} {f : File} (there : s.nodes p = some (.dir d))
    (found : d.get name = some (.file f))
    (made : exec H (.op (.readFile p name)) s = (.ok content, s')) : content = f.content := by
  have answer := (made_ok made).1
  simp only [act, Fs.entryAt, dirAt_of_dir there, Option.bind_some, found, Entry.reach] at answer
  cases answer
  rfl

theorem mkdir_ok (made : exec H (.op (.mkdir p)) s = (.ok (), s')) :
    s.nodes p = none ∧ ∃ mode, s'.nodes p = some (.dir ⟨mode, []⟩) := by
  obtain ⟨answer, rfl⟩ := made_ok made
  simp only [act] at answer ⊢
  split at answer
  · rename_i parent
    rw [if_pos parent]
    split at answer
    · rename_i absent
      rw [absent]
      exact ⟨rfl, H.masked 0o750, Fs.set_self _ _ _⟩
    · cases answer
  · cases answer

theorem putFile_new {content : Content} {mode : FileMode} {d : Dir}
    (there : s.nodes p = some (.dir d)) (absent : d.get name = none) :
    ∃ f, f.content = content ∧
      (putFile H s p name content mode).nodes p = some (.dir (d.put name (.file f))) := by
  simp only [putFile, dirAt_of_dir there, absent]
  exact ⟨_, rfl, setDir_of_dir there⟩

theorem createFile_ok {mode : FileMode} {d : Dir} (there : s.nodes p = some (.dir d))
    (made : exec H (.op (.createFile p name mode)) s = (.ok (), s')) :
    d.get name = none ∧ ∃ f, s'.nodes p = some (.dir (d.put name (.file f))) := by
  obtain ⟨answer, rfl⟩ := made_ok made
  simp only [act, dirAt_of_dir there] at answer ⊢
  split at answer
  · cases answer
  · rename_i absent
    obtain ⟨f, -, held⟩ := @putFile_new H s p name (.bytes []) mode d there absent
    rw [absent]
    exact ⟨rfl, f, held⟩

theorem copyInto_ok {d : Dir} {f g : File} (there : s.nodes p = some (.dir d))
    (found : d.get name = some (.file g))
    (made : exec H (.op (.copyInto p name (.file f))) s = (.ok (), s')) :
    s'.nodes p = some (.dir (d.put name (.file { g with content := f.content }))) := by
  obtain ⟨-, rfl⟩ := made_ok made
  simp only [act, putFile, dirAt_of_dir there, found]
  exact setDir_of_dir there

end Answers

section Copies
variable {H : Host} {s s' : Fs} {source target : FileSystem.Path} {d d' : Dir}

/-- A call on the target alone leaves the source. -/
theorem source_stays {o : Op} {a : Except Error (Value o)} (apart : source ≠ target)
    (there : s.nodes source = some (.dir d)) (only : ∀ q, Touches o q → q = target)
    (made : exec H (.op o) s = (a, s')) : s'.nodes source = some (.dir d) := by
  have after : (exec H (.op o) s).2 = s' := congrArg Prod.snd made
  rw [← after, exec_frame H o s fun touched => apart (only _ touched), there]

/-- One round of the copying loop: a new file, with the content of the old one. -/
theorem copyFile_ok (apart : source ≠ target) (there : s.nodes source = some (.dir d))
    (started : s.nodes target = some (.dir d')) {name : String} {mode : FileMode}
    (ran : run (exec H) (copyFile source target name mode) s = (.ok (), s')) :
    s'.nodes source = some (.dir d) ∧ d'.get name = none ∧
      ∃ f g, d.get name = some (.file f) ∧ g.content = f.content ∧
        ∃ d'', s'.nodes target = some (.dir d'') ∧
          ∀ other, d''.get other = if other = name then some (.file g) else d'.get other := by
  unfold copyFile at ran
  rw [Prog.perform_bind, run_call] at ran
  generalize seen : exec H (.op (.lstatIn source name)) s = r at ran
  obtain ⟨info, s₁⟩ := r
  have nodes₁ := reads_nodes (fun _ => id) seen
  cases info with
  | error err => cases ran
  | ok info =>
    dsimp only at ran
    split at ran
    · cases ran
    rename_i regular
    obtain ⟨entry, found, rfl⟩ := lstatIn_ok there seen
    obtain ⟨f, rfl⟩ := regular_file (not_not.mp regular)
    rw [Prog.perform_bind, run_call] at ran
    generalize opened : exec H (.op (.openFile source name)) s₁ = r at ran
    obtain ⟨input, s₂⟩ := r
    have nodes₂ := (reads_nodes (fun _ => id) opened).trans nodes₁
    cases input with
    | error err => cases ran
    | ok input =>
      have there₁ : s₁.nodes source = some (.dir d) := by rw [nodes₁, there]
      obtain rfl := openFile_ok there₁ found opened
      dsimp only at ran
      rw [Prog.perform_bind, run_call] at ran
      generalize stated : exec H (.op (.statOpened (.file f))) s₂ = r at ran
      obtain ⟨openedInfo, s₃⟩ := r
      have nodes₃ := (reads_nodes (fun _ => id) stated).trans nodes₂
      cases openedInfo with
      | error err => cases ran
      | ok openedInfo =>
        dsimp only at ran
        split at ran
        · cases ran
        have there₃ : s₃.nodes source = some (.dir d) := by rw [nodes₃, there]
        have started₃ : s₃.nodes target = some (.dir d') := by rw [nodes₃, started]
        rw [Prog.perform_bind, run_call] at ran
        generalize created : exec H (.op (.createFile target name mode)) s₃ = r at ran
        obtain ⟨made, s₄⟩ := r
        cases made with
        | error err => cases ran
        | ok _ =>
          obtain ⟨absent, g, started₄⟩ := createFile_ok started₃ created
          have there₄ := source_stays apart there₃ (fun _ => id) created
          dsimp only at ran
          rw [Prog.perform_bind, run_call] at ran
          generalize copied : exec H (.op (.copyInto target name (.file f))) s₄ = r at ran
          obtain ⟨copied', s₅⟩ := r
          have there₅ := source_stays apart there₄ (fun _ => id) copied
          dsimp only at ran
          rw [Prog.perform_bind, run_call] at ran
          generalize shut : exec H (.op (.closeFile target name)) s₅ = r at ran
          obtain ⟨closed, s₆⟩ := r
          have nodes₆ := reads_nodes (fun _ => id) shut
          dsimp only at ran
          cases copied' with
          | error err => cases ran
          | ok _ =>
            cases closed with
            | error err => cases ran
            | ok _ =>
              have final : s' = s₆ := (congrArg Prod.snd ran).symm
              have held := copyInto_ok started₄ (by rw [Dir.get_put, if_pos rfl]) copied
              rw [final, nodes₆]
              refine ⟨there₅, absent, f, { g with content := f.content }, found, rfl, _, held,
                fun other => ?_⟩
              rw [Dir.get_put, Dir.get_put]
              by_cases same : other = name
              · rw [if_pos same, if_pos same]
              · rw [if_neg same, if_neg same, if_neg same]

/-- The files that are there stay, and no link or directory comes. -/
structure Grown (d d' : Dir) : Prop where
  keeps : ∀ name f, d.get name = some (.file f) → d'.get name = some (.file f)
  plain : Plain d → Plain d'

theorem copyFiles_ok (apart : source ≠ target) {order : List (String × FileMode)}
    (there : s.nodes source = some (.dir d)) (started : s.nodes target = some (.dir d'))
    (ran : run (exec H) (copyFiles source target order) s = (.ok (), s')) :
    s'.nodes source = some (.dir d) ∧ ∃ d'', s'.nodes target = some (.dir d'') ∧ Grown d' d'' ∧
      (∀ file ∈ order, Copied d d'' file.1) ∧
      ∀ name, name ∉ order.map Prod.fst → d''.get name = d'.get name := by
  induction order generalizing s d' with
  | nil =>
    cases ran
    exact ⟨there, d', started, ⟨fun _ _ => id, id⟩, (fun _ absent => nomatch absent),
      fun _ _ => rfl⟩
  | cons file rest ih =>
    unfold copyFiles at ran
    rw [run_bind] at ran
    generalize copied : run (exec H) (copyFile source target file.1 file.2) s = r at ran
    obtain ⟨answer, s₁⟩ := r
    cases answer with
    | error err => cases ran
    | ok _ =>
      obtain ⟨there₁, absent, f, g, found, same, d₁, started₁, get⟩ :=
        copyFile_ok apart there started copied
      obtain ⟨there', d'', started', grown, all, others⟩ := ih there₁ started₁ ran
      have held : d₁.get file.1 = some (.file g) := by rw [get, if_pos rfl]
      refine ⟨there', d'', started', ⟨fun name f' before => ?_, fun plain => ?_⟩,
        fun other among => ?_, fun name away => ?_⟩
      · have away : name ≠ file.1 := by
          rintro rfl
          rw [absent] at before
          cases before
        apply grown.keeps
        rw [get, if_neg away, before]
      · apply grown.plain
        intro other entry at_
        rw [get] at at_
        by_cases here : other = file.1
        · rw [if_pos here] at at_
          exact ⟨g, (Option.some.inj at_).symm⟩
        · rw [if_neg here] at at_
          exact plain other entry at_
      · rcases List.mem_cons.mp among with rfl | among
        · exact ⟨f, g, found, grown.keeps _ _ held, same⟩
        · exact all other among
      · rw [List.map_cons, List.mem_cons, not_or] at away
        rw [others name away.2, get, if_neg away.1]

theorem copyMarker_ok (plain : Plain d')
    (there : s.nodes source = some (.dir d)) (started : s.nodes target = some (.dir d'))
    (ran : run (exec H) (copyMarker source target) s = (.ok (), s')) :
    ∃ d'', s'.nodes target = some (.dir d'') ∧ (∀ entry, d.get marker = some entry → Copied d d'' marker) ∧
      (d.get marker = none → d''.get marker = d'.get marker) ∧
      ∀ name, name ≠ marker → d''.get name = d'.get name := by
  unfold copyMarker at ran
  rw [Prog.perform_bind, run_call] at ran
  generalize seen : exec H (.op (.lstatIn source marker)) s = r at ran
  obtain ⟨info, s₁⟩ := r
  have nodes₁ := reads_nodes (fun _ => id) seen
  cases info with
  | error err =>
    dsimp only at ran
    split at ran
    · rename_i missing
      have final : s' = s₁ := (congrArg Prod.snd ran).symm
      refine ⟨d', by rw [final, nodes₁, started], fun entry found => ?_, fun _ => rfl,
        fun _ _ => rfl⟩
      -- The host makes no call fail with this error, so there is no marker.
      rcases exec_error (congrArg Prod.fst seen) with ⟨failed, -⟩ | ⟨answer, -⟩
      · have spurious : err = ioError := by
          have answered := congrArg Prod.fst seen
          simp only [exec, failed, if_true] at answered
          exact (Except.error.inj answered).symm
        rw [spurious] at missing
        cases missing
      · simp only [act, Fs.entryAt, dirAt_of_dir there, Option.bind_some, found] at answer
        cases answer
    · cases ran
  | ok info =>
    dsimp only at ran
    split at ran
    · cases ran
    rename_i regular
    obtain ⟨entry, found, rfl⟩ := lstatIn_ok there seen
    obtain ⟨f, rfl⟩ := regular_file (not_not.mp regular)
    rw [Prog.perform_bind, run_call] at ran
    generalize read : exec H (.op (.readFile source marker)) s₁ = r at ran
    obtain ⟨content, s₂⟩ := r
    have nodes₂ := (reads_nodes (fun _ => id) read).trans nodes₁
    cases content with
    | error err => cases ran
    | ok content =>
      have there₁ : s₁.nodes source = some (.dir d) := by rw [nodes₁, there]
      obtain rfl := readFile_ok there₁ found read
      have started₂ : s₂.nodes target = some (.dir d') := by rw [nodes₂, started]
      have written : exec H (.op (.writeFile target marker f.content 0o644)) s₂ = (.ok (), s') := ran
      obtain ⟨g, same, held⟩ := writeFile_ok started₂ (plain marker) (congrArg Prod.fst written)
      rw [congrArg Prod.snd written] at held
      refine ⟨_, held, fun _ _ => ⟨f, g, found, by rw [Dir.get_put, if_pos rfl], same⟩, ?_, ?_⟩
      · intro absent
        rw [found] at absent
        cases absent
      · intro name away
        rw [Dir.get_put, if_neg away]

/-- A copy that goes well is complete, and new, with nothing else in it. -/
theorem copyManagedDirectory_ok (apart : source ≠ target) (there : s.nodes source = some (.dir d))
    (ran : run (exec H) (copyManagedDirectory source target) s = (.ok (), s')) :
    s.nodes target = none ∧ ∃ d', s'.nodes target = some (.dir d') ∧ Snapshot d d' := by
  unfold copyManagedDirectory at ran
  rw [Prog.perform_bind, run_call] at ran
  generalize made : exec H (.op (.mkdir target)) s = r at ran
  obtain ⟨answer, s₁⟩ := r
  cases answer with
  | error err => cases ran
  | ok _ =>
    obtain ⟨absent, mode, started⟩ := mkdir_ok made
    have there₁ := source_stays apart there (fun _ => id) made
    refine ⟨absent, ?_⟩
    have copied : run (exec H) (copyContents source target) s₁ = (.ok (), s') := by
      dsimp only at ran
      rw [run_bind] at ran
      generalize run (exec H) (copyContents source target) s₁ = r at ran ⊢
      obtain ⟨answer, s₂⟩ := r
      cases answer with
      | error err => cases ran
      | ok _ => exact ran
    unfold copyContents at copied
    rw [Prog.perform_bind, run_call] at copied
    have ordered : ((exec H (.range allowedFiles) s₁).1).1.Perm allowedFiles :=
      (exec H (.range allowedFiles) s₁).1.2
    have nodes : (exec H (.range allowedFiles) s₁).2.nodes = s₁.nodes := rfl
    generalize exec H (.range allowedFiles) s₁ = r at copied ordered nodes
    obtain ⟨order, s₂⟩ := r
    dsimp only at copied ordered nodes
    rw [run_bind] at copied
    generalize files : run (exec H) (copyFiles source target order.1) s₂ = r at copied
    obtain ⟨answer, s₃⟩ := r
    cases answer with
    | error err => cases copied
    | ok _ =>
      obtain ⟨there₃, d₃, started₃, grown, all, others⟩ := copyFiles_ok apart (by rw [nodes, there₁])
        (by rw [nodes, started]) files
      have plain : Plain d₃ := grown.plain fun name entry found => nomatch found
      have named : order.1.map Prod.fst ⊆ allowedFiles.map Prod.fst := (ordered.map _).subset
      have unlisted : marker ∉ allowedFiles.map Prod.fst := by decide
      obtain ⟨d', held, marked, unmarked, rest⟩ := copyMarker_ok plain there₃ started₃ copied
      refine ⟨d', held,
        { files := fun file among => ?_, marked := marked, unmarked := ?_, nothingElse := ?_ }⟩
      · obtain ⟨f, g, found, copy, same⟩ := all file (ordered.mem_iff.mpr among)
        have other : file.1 ≠ marker := by
          have names : ∀ file ∈ allowedFiles, file.1 ≠ marker := by decide
          exact names file among
        exact ⟨f, g, found, by rw [rest _ other, copy], same⟩
      · intro absent
        rw [unmarked absent, others marker fun listed => unlisted (named listed)]
        rfl
      · intro name away other
        rw [rest name other, others name fun listed => away (named listed)]
        rfl

end Copies

section Backups
variable {H : Host} {s s' : Fs} {safeName : String}

/-- A backup leaves the directories of the certificates alone, at every moment. -/
theorem backup_leaves (s : Fs) (name : String) :
    Through (exec H) (fun s' => s'.nodes (targetOf name) = s.nodes (targetOf name))
      (backup safeName) s := by
  refine (PublishProtocol.backup_quiet safeName).through_frame (exec H)
    (fun s => s.nodes (targetOf name)) (exec_honest H) (fun e s quiet => ?_) s
  cases e with
  | op o =>
    refine exec_frame H o s fun touched => ?_
    cases touches_backup quiet touched
  | now => rfl
  | range values => rfl

theorem ensureRoot_nodes (s : Fs) : (run (exec H) ensureRoot s).2.nodes = s.nodes := by
  unfold ensureRoot
  rw [Prog.perform_bind, run_call]
  generalize seen : exec H (.op .lstatRoot) s = r
  obtain ⟨info, s₁⟩ := r
  have nodes := reads_nodes (fun _ => id) seen
  cases info with
  | error err => exact nodes
  | ok info =>
    dsimp only
    split
    · exact nodes
    · exact nodes

theorem validateTarget_nodes (s : Fs) (p : FileSystem.Path) :
    (run (exec H) (validateTarget p) s).2.nodes = s.nodes := by
  unfold validateTarget
  rw [Prog.perform_bind, run_call]
  generalize seen : exec H (.op (.lstat p)) s = r
  obtain ⟨info, s₁⟩ := r
  have nodes := reads_nodes (fun _ => id) seen
  cases info with
  | error err =>
    dsimp only
    split
    · exact nodes
    · exact nodes
  | ok info =>
    dsimp only
    split
    · exact nodes
    · exact nodes

theorem lstat_dir {p : FileSystem.Path} {info : Info} (dir : info.kind = .dir)
    (seen : exec H (.op (.lstat p)) s = (.ok info, s')) : ∃ d, s.nodes p = some (.dir d) := by
  have answer := (made_ok seen).1
  simp only [act] at answer
  split at answer
  · cases answer
  · rename_i node found
    cases answer
    cases node with
    | dir d => exact ⟨d, found⟩
    | link outside => cases dir
    | file => cases dir

/-- After a backup that goes well there is a complete copy, if there is a directory. -/
theorem backup_ok {result : BackupResult}
    (ran : run (exec H) (backup safeName) s = ((result, .ok ()), s')) :
    s.nodes (targetOf safeName) = none ∨ BackedUp s s' safeName := by
  unfold backup at ran
  dsimp only at ran
  split at ran
  · cases ran
  rw [run_bind] at ran
  have nodes₁ := @ensureRoot_nodes H s
  generalize run (exec H) ensureRoot s = r at ran nodes₁
  obtain ⟨rooted, s₁⟩ := r
  cases rooted with
  | error err => cases ran
  | ok _ =>
    dsimp only at ran nodes₁
    rw [run_bind] at ran
    have nodes₂ := (@validateTarget_nodes H s₁ (targetOf safeName)).trans nodes₁
    generalize run (exec H) (validateTarget (targetOf safeName)) s₁ = r at ran nodes₂
    obtain ⟨valid, s₂⟩ := r
    cases valid with
    | error err => cases ran
    | ok _ =>
      dsimp only at ran nodes₂
      rw [Prog.perform_bind, run_call] at ran
      generalize seen : exec H (.op (.lstat (targetOf safeName))) s₂ = r at ran
      obtain ⟨info, s₃⟩ := r
      have nodes₃ := (reads_nodes (fun _ => id) seen).trans nodes₂
      cases info with
      | error err =>
        dsimp only at ran
        split at ran
        · rename_i missing
          rcases lstat_error (congrArg Prod.fst seen) with rfl | absent
          · cases missing
          · exact Or.inl (by rw [← nodes₂, absent])
        · cases ran
      | ok info =>
        dsimp only at ran
        split at ran
        · cases ran
        rename_i dir
        obtain ⟨d, there⟩ := lstat_dir (not_not.mp dir) seen
        rw [Prog.perform_bind, run_call] at ran
        generalize made : exec H (.op .mkdirAllBackup) s₃ = r at ran
        obtain ⟨answer, s₄⟩ := r
        have nodes₄ := (reads_nodes (fun _ => id) made).trans nodes₃
        cases answer with
        | error err => cases ran
        | ok _ =>
          dsimp only at ran
          rw [Prog.perform_bind, run_call, run_bind] at ran
          have nodes₅ : (exec H .now s₄).2.nodes = s.nodes := nodes₄
          generalize exec H .now s₄ = r at ran nodes₅
          obtain ⟨time, s₅⟩ := r
          dsimp only at ran nodes₅
          generalize copied : run (exec H) (copyManagedDirectory (targetOf safeName)
            ⟨.backup, safeName ++ "-deleted-" ++ Timestamps.timestamp time⟩) s₅ = r at ran
          obtain ⟨answer, s₆⟩ := r
          cases answer with
          | error err => cases ran
          | ok _ =>
            have final : s' = s₆ := (congrArg Prod.snd ran).symm
            rw [nodes₂] at there
            have apart : targetOf safeName ≠
                ⟨.backup, safeName ++ "-deleted-" ++ Timestamps.timestamp time⟩ := by
              intro same
              cases congrArg FileSystem.Path.area same
            obtain ⟨absent, d', held, complete⟩ := copyManagedDirectory_ok apart
              (by rw [nodes₅, there]) copied
            rw [nodes₅] at absent
            rw [final]
            exact Or.inr ⟨d, d', _, there, rfl, absent, held, complete.toComplete⟩

/-- What a removal may do: look, and remove the directory of its certificate. -/
def Removes (safeName : String) : Call → Prop
  | .op o => (∀ q, ¬ Touches o q) ∨ o = .removeAll (targetOf safeName)
  | _ => True

theorem removeDirectory_only (safeName : String) :
    Only Honest (Removes safeName) (removeDirectory safeName) := by
  unfold removeDirectory
  split
  · trivial
  refine only_bind (only_call.mpr ⟨Or.inl fun _ => id, fun r _ => ?_⟩) fun valid => ?_
  · cases r with
    | error err => dsimp only; split <;> trivial
    | ok info => dsimp only; split <;> trivial
  · cases valid with
    | error err => trivial
    | ok _ =>
      refine only_call.mpr ⟨Or.inl fun _ => id, fun r _ => ?_⟩
      cases r with
      | error err => dsimp only; split <;> trivial
      | ok info =>
        dsimp only
        split
        · trivial
        · exact only_call.mpr ⟨Or.inr rfl, fun _ _ => trivial⟩

/-- A backup that has been made stays through a removal. -/
theorem removal_leaves_backup {s₀ : Fs} (made : BackedUp s₀ s safeName) :
    Through (exec H) (fun s' => BackedUp s₀ s' safeName) (removeDirectory safeName) s := by
  obtain ⟨d, d', p, there, outside, absent, held, complete⟩ := made
  refine ((removeDirectory_only safeName).through_frame (exec H) (fun s => s.nodes p)
    (exec_honest H) (fun e s removes => ?_) s).mono (exec H) fun s' same => ?_
  · cases e with
    | op o =>
      refine exec_frame H o s fun touched => ?_
      rcases removes with still | rfl
      · exact still p touched
      · rw [show p = targetOf safeName from touched] at outside
        cases outside
    | now => rfl
    | range values => rfl
  · exact ⟨d, d', p, there, outside, absent, same.trans held, complete⟩

/-- Where there is no directory a removal makes none. -/
theorem removal_leaves_nothing (absent : s.nodes (targetOf safeName) = none) :
    Through (exec H) (fun s' => s'.nodes (targetOf safeName) = none) (removeDirectory safeName) s := by
  have kept : ∀ (u : Unit) (e : Call) (s : Fs), Removes safeName e →
      s.nodes (targetOf safeName) = none →
      Honest e (exec H e s).1 ∧ (exec H e s).2.nodes (targetOf safeName) = none := by
    intro u e s removes absent
    refine ⟨exec_honest H e s, ?_⟩
    cases e with
    | op o =>
      rcases removes with still | rfl
      · rw [exec_frame H o s (still _), absent]
      · exact removeAll_none absent
    | now => exact absent
    | range values => exact absent
  have follows := (removeDirectory_only safeName).follows (fun (_ : Unit) _ => id)
    (fun u _ _ _ => (rfl : u = u)) ()
  exact (follows.run_invariant kept absent).1.mono (exec H) fun _ ⟨_, absent⟩ => absent

end Backups

end CompleteBackups
