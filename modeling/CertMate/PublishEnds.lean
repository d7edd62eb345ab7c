import CertMate.AtomicPublish
import CertMate.PublishFailures

/-!
# How a publication ends

What is found below the root and in the backup directory after a publication, whichever
of its calls have failed.
-/
namespace PublishEnds
open CertificateModel DomainValidation CallTrees RunTriples FileSystem CertificateFiles
  CompleteBackups PublishFailures
open PublishProtocol (Hidden hidden_ne_target mkdirTemp_hidden copyManagedDirectory_writes)

/-- The names of the directories in which the old one waits. -/
def Previous (safeName : String) (p : FileSystem.Path) : Prop :=
  p.area = .root ∧ ∃ rest, p.name = previousPrefix safeName ++ rest

/-- There is nothing to publish over, or a directory with all that belongs to it. -/
def Proper (safeName : String) (s : Fs) : Prop :=
  s.nodes (targetOf safeName) = none ∨
    ∃ d, s.nodes (targetOf safeName) = some (.dir d) ∧ Whole d

/-- Apart from the target, the stage and the old directories nothing of what was there
has changed. -/
structure Kept (safeName : String) (stage : FileSystem.Path) (s s' : Fs) : Prop where
  root : ∀ p : FileSystem.Path, p.area = .root → p ≠ targetOf safeName → p ≠ stage →
    ¬ Previous safeName p → s'.nodes p = s.nodes p
  backups : ∀ p : FileSystem.Path, p.area = .backup → s.nodes p ≠ none → s'.nodes p = s.nodes p

/-- A snapshot of the directory that has been published over. -/
def Saved (safeName : String) (s s' : Fs) (p : FileSystem.Path) : Prop :=
  ∃ d d', s.nodes (targetOf safeName) = some (.dir d) ∧ p.area = .backup ∧ s.nodes p = none ∧
    s'.nodes p = some (.dir d') ∧ Snapshot d d'

/-- The stage is gone, and what was at the target is in a new snapshot. -/
structure Moved (H : Host) (safeName : String) (stage : FileSystem.Path) (s s' : Fs) : Prop where
  gone : s'.nodes stage = none
  rest : (s.nodes (targetOf safeName) = none ∧
      ∀ p, p ≠ targetOf safeName → p ≠ stage → s'.nodes p = s.nodes p) ∨
    ∃ backup, Saved safeName s s' backup ∧ ((∀ i, H.fails i = false) →
      ∀ p, p ≠ targetOf safeName → p ≠ stage → p ≠ backup → s'.nodes p = s.nodes p)

/-- The ends of what is done with a stage, with the number of calls that have failed by then;
where `P` holds, an error has a call that failed. -/
inductive SwitchEnd (H : Host) (safeName : String) (stage : FileSystem.Path) (P : Prop) (n : Nat)
    (s : Fs) : Except Error FileSystem.Path → Nat × Fs → Prop
  | refused {err : Error} {m : Nat} {s' : Fs} (failed : P → n < m)
      (target : s'.nodes (targetOf safeName) = s.nodes (targetOf safeName))
      (kept : Kept safeName stage s s') : SwitchEnd H safeName stage P n s (.error err) (m, s')
  | lost {err : Error} {m : Nat} {s' : Fs} (failed : n + 1 < m)
      (saved : ∃ backup, Saved safeName s s' backup)
      (kept : Kept safeName stage s s') : SwitchEnd H safeName stage P n s (.error err) (m, s')
  | done {m : Nat} {s' : Fs} (moved : Moved H safeName stage s s') :
      SwitchEnd H safeName stage P n s (.ok (targetOf safeName)) (m, s')

section Kept
variable {safeName : String} {stage : FileSystem.Path} {s s' s'' : Fs}

theorem Kept.trans (h : Kept safeName stage s s') (h' : Kept safeName stage s' s'') :
    Kept safeName stage s s'' where
  root p inRoot target away previous :=
    (h'.root p inRoot target away previous).trans (h.root p inRoot target away previous)
  backups p outside taken := by
    have before := h.backups p outside taken
    rw [h'.backups p outside (by rw [before]; exact taken), before]

/-- A change of the target, the stage or an old directory. -/
theorem kept_of_frame {q : FileSystem.Path}
    (own : q = targetOf safeName ∨ q = stage ∨ Previous safeName q) (inRoot : q.area = .root)
    (frame : ∀ p, p ≠ q → s'.nodes p = s.nodes p) : Kept safeName stage s s' where
  root p _ target away previous := by
    apply frame
    rintro rfl
    rcases own with rfl | rfl | named
    · exact target rfl
    · exact away rfl
    · exact previous named
  backups p outside _ := by
    apply frame
    rintro rfl
    rw [inRoot] at outside
    cases outside

/-- A rename between two of them. -/
theorem kept_of_rename {q : FileSystem.Path} (named : Previous safeName q)
    (frame : ∀ p, p ≠ targetOf safeName → p ≠ q → s'.nodes p = s.nodes p) :
    Kept safeName stage s s' where
  root p _ target _ previous := by
    apply frame p target
    rintro rfl
    exact previous named
  backups p outside _ := by
    apply frame
    · rintro rfl
      cases outside
    · rintro rfl
      rw [named.1] at outside
      cases outside

theorem kept_of_nodes (same : s'.nodes = s.nodes) : Kept safeName stage s s' where
  root p _ _ _ _ := congrFun same p
  backups p _ _ := congrFun same p

theorem Saved.congr {p : FileSystem.Path} (h : Saved safeName s s' p)
    (same : s''.nodes p = s'.nodes p) : Saved safeName s s'' p := by
  obtain ⟨d, d', there, outside, absent, held, snapshot⟩ := h
  exact ⟨d, d', there, outside, absent, same.trans held, snapshot⟩

end Kept

section Names
variable {safeName : String}

theorem previous_hidden {p : FileSystem.Path} (h : Previous safeName p) : Hidden safeName p := by
  obtain ⟨inRoot, rest, named⟩ := h
  exact ⟨inRoot, "previous-" ++ rest, by rw [named, previousPrefix, String.append_assoc]⟩

/-- A stage has a name of its own kind. -/
theorem stage_not_previous {p : FileSystem.Path} {rest : String}
    (named : p.name = stagePrefix safeName ++ rest) : ¬ Previous safeName p := by
  rintro ⟨-, rest', named'⟩
  have same : (stagePrefix safeName ++ rest).toList = (previousPrefix safeName ++ rest').toList := by
    rw [← named, ← named']
  simp only [stagePrefix, previousPrefix, String.toList_append, List.append_assoc] at same
  have heads := congrArg List.head? (List.append_cancel_left same)
  cases heads

end Names

section Calls
variable {H : Host} {s s' : Fs} {p : FileSystem.Path}

theorem made_frame {o : Op} {a : Except Error (Value o)} (made : exec H (.op o) s = (a, s'))
    (away : ¬ Touches o p) : s'.nodes p = s.nodes p := by
  have after : (exec H (.op o) s).2 = s' := congrArg Prod.snd made
  rw [← after, exec_frame H o s away]

theorem mkdirTemp_made {namePrefix : String}
    (made : exec H (.op (.mkdirTemp namePrefix)) s = (.ok p, s')) :
    (p.area = .root ∧ ∃ rest, p.name = namePrefix ++ rest) ∧ s.nodes p = none ∧
      ∃ mode, s'.nodes = Function.update s.nodes p (some (.dir ⟨mode, []⟩)) := by
  have answered : (exec H (.op (.mkdirTemp namePrefix)) s).1 = .ok p := congrArg Prod.fst made
  have honest := PublishProtocol.exec_honest H (.op (.mkdirTemp namePrefix)) s
  rw [answered] at honest
  obtain ⟨free, mode, state⟩ := mkdirTemp_fresh answered
  have after : (exec H (.op (.mkdirTemp namePrefix)) s).2 = s' := congrArg Prod.snd made
  rw [after] at state
  exact ⟨honest, free, mode, state⟩

theorem lstat_made {info : Info} (made : exec H (.op (.lstat p)) s = (.ok info, s')) :
    ∃ node, s.nodes p = some node ∧ info = node.info := by
  have answer := (made_ok made).1
  simp only [act] at answer
  split at answer
  · cases answer
  · rename_i node found
    cases answer
    exact ⟨node, found, rfl⟩

theorem mkdirTemp_unmade {namePrefix : String} {err : Error}
    (made : exec H (.op (.mkdirTemp namePrefix)) s = (.error err, s')) : s'.nodes = s.nodes := by
  have same := mkdirTemp_error_nodes (congrArg Prod.fst made)
  have after : (exec H (.op (.mkdirTemp namePrefix)) s).2 = s' := congrArg Prod.snd made
  rw [← after, same]

theorem remove_made (made : exec H (.op (.remove p)) s = (.ok (), s')) : s'.nodes p = none := by
  obtain ⟨answer, rfl⟩ := made_ok made
  simp only [act] at answer ⊢
  split at answer
  · cases answer
  · split at answer
    · rename_i empty
      rw [if_pos empty]
      exact Function.update_self _ _ _
    · cases answer
  · exact Function.update_self _ _ _

theorem rename_made {why : Switch} {source target : FileSystem.Path}
    (made : exec H (.op (.rename why source target)) s = (.ok (), s')) :
    ∃ node, s.nodes source = some node ∧ s.nodes target = none ∧
      s'.nodes = Function.update (Function.update s.nodes source none) target (some node) := by
  obtain ⟨node, found, free, state, -⟩ := rename_ok (congrArg Prod.fst made)
  have after : (exec H (.op (.rename why source target)) s).2 = s' := congrArg Prod.snd made
  rw [after] at state
  exact ⟨node, found, free, state⟩

theorem rename_unmade {why : Switch} {source target : FileSystem.Path} {err : Error}
    (made : exec H (.op (.rename why source target)) s = (.error err, s')) : s'.nodes = s.nodes := by
  have same := (rename_error_nodes (congrArg Prod.fst made)).1
  have after : (exec H (.op (.rename why source target)) s).2 = s' := congrArg Prod.snd made
  rw [← after, same]

theorem removeAll_calm {a : Except Error Unit} (calm : ∀ i, H.fails i = false)
    (made : exec H (.op (.removeAll p)) s = (a, s')) : s'.nodes p = none := by
  have after : (exec H (.op (.removeAll p)) s).2 = s' := congrArg Prod.snd made
  rw [← after]
  simp only [exec, calm, Bool.false_eq_true, if_false, act]
  exact Function.update_self _ _ _

/-- A removal fails only where the host makes it fail. -/
theorem removeAll_failed {err : Error}
    (made : exec H (.op (.removeAll p)) s = (.error err, s')) : H.fails (s'.calls - 1) = true := by
  have calls := exec_calls H (.op (.removeAll p)) s
  have after : (exec H (.op (.removeAll p)) s).2 = s' := congrArg Prod.snd made
  rw [after] at calls
  rw [calls]
  rcases exec_error (congrArg Prod.fst made) with ⟨failed, -⟩ | ⟨answer, -⟩
  · exact failed
  · cases answer

end Calls

section Switch
variable {H : Host} {safeName : String} {stage : FileSystem.Path} {n : Nat} {s : Fs}

theorem replaceDirectory_ends (safe : safeDirectory safeName = true) (inRoot : stage.area = .root)
    (apart : stage ≠ targetOf safeName) (own : ¬ Previous safeName stage) {d : Dir}
    (there : s.nodes (targetOf safeName) = some (.dir d)) :
    Yields (counted (exec H) failed) (replaceDirectory safeName stage) (n, s)
      (SwitchEnd H safeName stage (Proper safeName s) n s) := by
  have unhidden : ¬ Previous safeName (targetOf safeName) :=
    fun named => hidden_ne_target (previous_hidden named) safe rfl
  refine yields_now fun time s₁ nodes₁ => ?_
  have outside : ∀ p : FileSystem.Path, p.area = .root →
      p ≠ ⟨.backup, safeName ++ "-" ++ Timestamps.timestamp time⟩ := by
    rintro p root rfl
    cases root
  have area : (⟨.backup, safeName ++ "-" ++ Timestamps.timestamp time⟩ : FileSystem.Path).area =
      .backup := rfl
  have there₁ : s₁.nodes (targetOf safeName) = some (.dir d) := by rw [nodes₁, there]
  refine ((copyManagedDirectory_counts (outside _ rfl) there₁).and (counted_state _ _ _)).bind ?_
  generalize (⟨.backup, safeName ++ "-" ++ Timestamps.timestamp time⟩ : FileSystem.Path) = backup
    at outside area
  rintro r ⟨m, s₂⟩ ⟨counts, ran⟩
  have frame₂ : ∀ p, p ≠ backup → s₂.nodes p = s.nodes p := by
    intro p away
    have frame := @writes_frame H s₁ _ _ _ _ (copyManagedDirectory_writes (targetOf safeName) backup)
      away
    rw [ran, nodes₁] at frame
    exact frame
  have kept₂ : Kept safeName stage s s₂ := by
    constructor
    · exact fun p root _ _ _ => frame₂ p (outside p root)
    · intro p _ taken
      by_cases same : p = backup
      · subst same
        rw [← nodes₁] at taken ⊢
        have occupied := @copyManagedDirectory_occupied H s₁ (targetOf safeName) p taken
        rw [ran] at occupied
        exact occupied
      · exact frame₂ p same
  have target₂ := frame₂ _ (outside (targetOf safeName) rfl)
  cases r with
  | error err =>
    refine .refused (fun proper => counts ?_) target₂ kept₂
    rcases proper with none | ⟨d', there', whole⟩
    · rw [there] at none
      cases none
    · cases there.symm.trans there'
      exact whole
  | ok _ =>
    cases counts
    obtain ⟨absent, d', held, snapshot⟩ := copyManagedDirectory_ok (outside _ rfl) there₁ ran
    rw [nodes₁] at absent
    have saved₂ : Saved safeName s s₂ backup := ⟨d, d', there, area, absent, held, snapshot⟩
    refine yields_op rfl (fun previous s₃ made₃ => ?_) fun err s₃ made₃ => ?_
    case refine_2 =>
      have frame₃ : ∀ p, ¬ Previous safeName p → s₃.nodes p = s₂.nodes p :=
        fun p away => made_frame made₃ away
      refine .refused (fun _ => Nat.lt_succ_self _) ((frame₃ _ unhidden).trans target₂) ?_
      refine kept₂.trans ⟨fun p _ _ _ away => frame₃ p away, fun p outside' _ => frame₃ p ?_⟩
      rintro ⟨root, -⟩
      rw [outside'] at root
      cases root
    obtain ⟨named, free, mode, state₃⟩ := mkdirTemp_made made₃
    have offTarget : targetOf safeName ≠ previous := fun same => unhidden (same ▸ named)
    have offStage : stage ≠ previous := fun same => own (same ▸ named)
    have offBackup : backup ≠ previous := (outside previous named.1).symm
    have frame₃ : ∀ p, p ≠ previous → s₃.nodes p = s₂.nodes p := by
      intro p away
      rw [state₃]
      exact Function.update_of_ne away _ _
    have kept₃ := kept₂.trans (kept_of_frame (Or.inr (Or.inr named)) named.1 frame₃)
    have target₃ := (frame₃ _ offTarget).trans target₂
    refine yields_op rfl (fun _ s₄ made₄ => ?_) fun err s₄ made₄ => ?_
    case refine_2 =>
      have frame₄ : ∀ p, p ≠ previous → s₄.nodes p = s₃.nodes p := fun p away => made_frame made₄ away
      refine .refused (fun _ => Nat.lt_succ_self _) ((frame₄ _ offTarget).trans target₃) ?_
      exact kept₃.trans (kept_of_frame (Or.inr (Or.inr named)) named.1 frame₄)
    have frame₄ : ∀ p, p ≠ previous → s₄.nodes p = s₃.nodes p := fun p away => made_frame made₄ away
    have kept₄ := kept₃.trans (kept_of_frame (Or.inr (Or.inr named)) named.1 frame₄)
    have target₄ := (frame₄ _ offTarget).trans target₃
    refine yields_op rfl (fun _ s₅ made₅ => ?_) fun err s₅ made₅ => ?_
    case refine_2 =>
      have same := rename_unmade made₅
      refine .refused (fun _ => Nat.lt_succ_self _) ((congrFun same _).trans target₄) ?_
      exact kept₄.trans (kept_of_nodes same)
    obtain ⟨node, found, -, state₅⟩ := rename_made made₅
    have old : some node = s.nodes (targetOf safeName) := found.symm.trans target₄
    have frame₅ : ∀ p, p ≠ targetOf safeName → p ≠ previous → s₅.nodes p = s₄.nodes p := by
      intro p target away
      rw [state₅, Function.update_of_ne away, Function.update_of_ne target]
    have gone₅ : s₅.nodes (targetOf safeName) = none := by
      rw [state₅, Function.update_of_ne offTarget, Function.update_self]
    have waiting₅ : s₅.nodes previous = some node := by rw [state₅, Function.update_self]
    have kept₅ := kept₄.trans (kept_of_rename named frame₅)
    have saved₅ : Saved safeName s s₅ backup := by
      apply saved₂.congr
      rw [frame₅ _ (outside _ rfl).symm offBackup, frame₄ _ offBackup, frame₃ _ offBackup]
    refine yields_op rfl (fun _ s₆ made₆ => ?_) fun err s₆ made₆ => ?_
    · obtain ⟨g, -, -, state₆⟩ := rename_made made₆
      have frame₆ : ∀ p, p ≠ targetOf safeName → p ≠ stage → s₆.nodes p = s₅.nodes p := by
        intro p target away
        rw [state₆, Function.update_of_ne target, Function.update_of_ne away]
      have moved : ∀ (a : Except Error Unit) (s₇ : Fs),
          exec H (.op (.removeAll previous)) s₆ = (a, s₇) → Moved H safeName stage s s₇ := by
        intro a s₇ made₇
        have frame₇ : ∀ p, p ≠ previous → s₇.nodes p = s₆.nodes p :=
          fun p away => made_frame made₇ away
        constructor
        · rw [frame₇ _ offStage, state₆, Function.update_of_ne apart, Function.update_self]
        · refine Or.inr ⟨backup, saved₅.congr ?_, fun calm p target away other => ?_⟩
          · rw [frame₇ _ offBackup, frame₆ _ (outside _ rfl).symm (outside _ inRoot).symm]
          · by_cases same : p = previous
            · subst same
              rw [removeAll_calm calm made₇, ← free, frame₂ _ other]
            · rw [frame₇ _ same, frame₆ _ target away, frame₅ _ target same, frame₄ _ same,
                frame₃ _ same, frame₂ _ other]
      exact yields_op rfl (fun _ s₇ made₇ => .done (moved _ s₇ made₇)) fun err s₇ made₇ =>
        .done (moved _ s₇ made₇)
    · have same₆ := rename_unmade made₆
      refine yields_op rfl (fun _ s₇ made₇ => ?_) fun err s₇ made₇ => ?_
      · obtain ⟨node', found', -, state₇⟩ := rename_made made₇
        rw [same₆, waiting₅] at found'
        cases found'
        refine .refused (fun _ => Nat.lt_succ_self _) ?_ ?_
        · rw [state₇, Function.update_self, old]
        · have frame₇ : ∀ p, p ≠ targetOf safeName → p ≠ previous → s₇.nodes p = s₆.nodes p := by
            intro p target away
            rw [state₇, Function.update_of_ne target, Function.update_of_ne away]
          exact kept₅.trans ((kept_of_nodes same₆).trans (kept_of_rename named frame₇))
      · have same₇ := rename_unmade made₇
        refine .lost (Nat.lt_succ_self _) ⟨backup, saved₅.congr ?_⟩ ?_
        · rw [same₇, same₆]
        · exact kept₅.trans (kept_of_nodes (same₇.trans same₆))

theorem SwitchEnd.congr {P P' : Prop} {s₁ : Fs} {r : Except Error FileSystem.Path} {x : Nat × Fs}
    (inRoot : stage.area = .root) (apart : stage ≠ targetOf safeName)
    (frame : ∀ p, p ≠ stage → s₁.nodes p = s.nodes p) (weaker : P' → P)
    (h : SwitchEnd H safeName stage P n s₁ r x) : SwitchEnd H safeName stage P' n s r x := by
  have target := frame _ apart.symm
  have kept : Kept safeName stage s s₁ := kept_of_frame (Or.inr (Or.inl rfl)) inRoot frame
  have backed : ∀ {s' backup}, Saved safeName s₁ s' backup → Saved safeName s s' backup := by
    rintro s' backup ⟨d, d', there, outside, absent, held, snapshot⟩
    have away : backup ≠ stage := by
      rintro rfl
      rw [inRoot] at outside
      cases outside
    exact ⟨d, d', target ▸ there, outside, frame _ away ▸ absent, held, snapshot⟩
  cases h with
  | refused failed target' kept' =>
    exact .refused (failed ∘ weaker) (target'.trans target) (kept.trans kept')
  | lost failed saved kept' =>
    obtain ⟨backup, saved⟩ := saved
    exact .lost failed ⟨backup, backed saved⟩ (kept.trans kept')
  | done moved =>
    refine .done ⟨moved.gone, ?_⟩
    rcases moved.rest with ⟨none, rest⟩ | ⟨backup, saved, rest⟩
    · exact Or.inl ⟨target ▸ none, fun p away other => (rest p away other).trans (frame p other)⟩
    · refine Or.inr ⟨backup, backed saved, fun calm p away other off => ?_⟩
      exact (rest calm p away other off).trans (frame p other)

theorem validateTarget_ends (p : FileSystem.Path) :
    Yields (counted (exec H) failed) (validateTarget p) (n, s) fun r x =>
      x.2.nodes = s.nodes ∧ Counts (∀ outside, s.nodes p ≠ some (.link outside)) n r x.1 := by
  refine yields_lstat (fun info s₁ seen => ?_) (fun err s₁ missing _ nodes => ?_)
    fun err s₁ present nodes => ?_
  · have nodes := reads_nodes (fun _ => id) seen
    obtain ⟨node, found, rfl⟩ := lstat_made seen
    dsimp only
    split
    · refine ⟨nodes, fun unlinked => ?_⟩
      cases node with
      | link outside => exact absurd found (unlinked outside)
      | dir d => contradiction
      | file => contradiction
    · exact ⟨nodes, rfl⟩
  · dsimp only
    rw [if_pos missing]
    exact ⟨nodes, rfl⟩
  · dsimp only
    rw [if_neg (by rw [present]; exact Bool.false_ne_true)]
    exact ⟨nodes, fun _ => Nat.lt_succ_self n⟩

theorem switchDirectory_ends (safe : safeDirectory safeName = true) (inRoot : stage.area = .root)
    (apart : stage ≠ targetOf safeName) (own : ¬ Previous safeName stage) :
    Yields (counted (exec H) failed) (switchDirectory safeName stage) (n, s)
      (SwitchEnd H safeName stage (Proper safeName s) n s) := by
  refine (validateTarget_ends _).bind ?_
  rintro r ⟨m, s₁⟩ ⟨nodes₁, counts⟩
  change s₁.nodes = s.nodes at nodes₁
  cases r with
  | error err =>
    refine .refused (fun proper => counts fun outside linked => ?_) (congrFun nodes₁ _)
      (kept_of_nodes nodes₁)
    rcases proper with none | ⟨d, there, -⟩
    · rw [linked] at none
      cases none
    · rw [linked] at there
      cases there
  | ok _ =>
    cases counts
    refine yields_lstat (fun info s₂ seen => ?_) (fun err s₂ missing absent nodes₂ => ?_)
      fun err s₂ present nodes₂ => ?_
    · have nodes₂ := (reads_nodes (fun _ => id) seen).trans nodes₁
      dsimp only
      split
      · rename_i other
        refine .refused (fun proper => absurd ?_ other) (congrFun nodes₂ _) (kept_of_nodes nodes₂)
        obtain ⟨node, found, rfl⟩ := lstat_made seen
        rw [nodes₁] at found
        rcases proper with none | ⟨d, there, -⟩
        · rw [found] at none
          cases none
        · cases found.symm.trans there
          rfl
      · rename_i dir
        obtain ⟨d, there⟩ := lstat_dir (not_not.mp dir) seen
        rw [nodes₁, ← nodes₂] at there
        refine (replaceDirectory_ends safe inRoot apart own there).mono fun r x h => ?_
        refine h.congr inRoot apart (fun p _ => congrFun nodes₂ p) fun proper => ?_
        unfold Proper at proper ⊢
        rw [nodes₂]
        exact proper
    · dsimp only
      rw [if_pos missing]
      refine yields_op rfl (fun _ s₃ made => ?_) fun err s₃ made => ?_
      · obtain ⟨g, -, -, state⟩ := rename_made made
        refine .done ⟨?_, Or.inl ⟨by rw [← nodes₁, absent], fun p away other => ?_⟩⟩
        · rw [state, Function.update_of_ne apart, Function.update_self]
        · rw [state, Function.update_of_ne away, Function.update_of_ne other, nodes₂, nodes₁]
      · have nodes₃ := (rename_unmade made).trans (nodes₂.trans nodes₁)
        exact .refused (fun _ => Nat.lt_succ_self _) (congrFun nodes₃ _) (kept_of_nodes nodes₃)
    · have nodes₂ := nodes₂.trans nodes₁
      dsimp only
      rw [if_neg (by rw [present]; exact Bool.false_ne_true)]
      exact .refused (fun _ => Nat.lt_succ_self _) (congrFun nodes₂ _) (kept_of_nodes nodes₂)

theorem publishStaged_ends {payload : Payload} (safe : safeDirectory safeName = true)
    (inRoot : stage.area = .root) (apart : stage ≠ targetOf safeName)
    (own : ¬ Previous safeName stage) :
    Yields (counted (exec H) failed) (publishStaged safeName payload stage) (n, s)
      (SwitchEnd H safeName stage (Proper safeName s ∧ Filled payload) n s) := by
  refine yields_range fun order s₁ nodes₁ => ?_
  refine (writeFiles_counts.and (counted_state _ _ _)).bind ?_
  rintro r ⟨m, s₂⟩ ⟨counts, ran₂⟩
  have frame₂ : ∀ p, p ≠ stage → s₂.nodes p = s.nodes p := by
    intro p away
    have frame := @writes_frame H s₁ _ _ _ _ (writeFiles_writes stage payload order.1) away
    rw [ran₂, nodes₁] at frame
    exact frame
  cases r with
  | error err =>
    refine .refused (fun given => counts fun file among => ?_) (frame₂ _ apart.symm)
      (kept_of_frame (Or.inr (Or.inl rfl)) inRoot frame₂)
    exact given.2 file (order.2.mem_iff.mp among)
  | ok _ =>
    cases counts
    refine (writeMarker_counts.and (counted_state _ _ _)).bind ?_
    rintro r ⟨m, s₃⟩ ⟨counts, ran₃⟩
    have frame₃ : ∀ p, p ≠ stage → s₃.nodes p = s.nodes p := by
      intro p away
      have frame := @writes_frame H s₂ _ _ _ _ (writeMarker_writes stage payload) away
      rw [ran₃] at frame
      exact frame.trans (frame₂ p away)
    cases r with
    | error err =>
      exact .refused (fun _ => counts trivial) (frame₃ _ apart.symm)
        (kept_of_frame (Or.inr (Or.inl rfl)) inRoot frame₃)
    | ok _ =>
      cases counts
      refine (switchDirectory_ends safe inRoot apart own).mono fun r x h => ?_
      refine h.congr inRoot apart frame₃ fun given => ?_
      unfold Proper
      rw [frame₃ _ apart.symm]
      exact given.1

end Switch

/-- The root is as it was, apart from the target and what was moved out of its way. -/
def RootKept (safeName : String) (s s' : Fs) : Prop :=
  ∀ p : FileSystem.Path, p.area = .root → p ≠ targetOf safeName → ¬ Previous safeName p →
    s'.nodes p = s.nodes p

/-- The stage is still there: its removal was the last call, and failed. -/
structure StageLeft (H : Host) (safeName : String) (s s' : Fs) (stage : FileSystem.Path) :
    Prop where
  area : stage.area = .root
  named : ∃ rest, stage.name = stagePrefix safeName ++ rest
  free : s.nodes stage = none
  there : s'.nodes stage ≠ none
  removal : ∃ before err, exec H (.op (.removeAll stage)) before = (.error err, s')
  failed : H.fails (s'.calls - 1) = true
  rest : ∀ p : FileSystem.Path, p.area = .root → p ≠ targetOf safeName → p ≠ stage →
    ¬ Previous safeName p → s'.nodes p = s.nodes p

/-- What an error leaves, with the number of calls that failed. -/
structure FailedEnd (H : Host) (safeName : String) (payload : Payload) (s : Fs) (m : Nat)
    (s' : Fs) : Prop where
  target : s'.nodes (targetOf safeName) = s.nodes (targetOf safeName) ∨
    1 < m ∧ ∃ backup, Saved safeName s s' backup
  backups : ∀ p : FileSystem.Path, p.area = .backup → s.nodes p ≠ none → s'.nodes p = s.nodes p
  root : Proper safeName s → m ≤ 1 → RootKept safeName s s' ∨
    ¬ Filled payload ∧ ∃ stage, StageLeft H safeName s s' stage

/-- What a publication that goes well leaves apart from the target. -/
def Settled (H : Host) (safeName : String) (s s' : Fs) : Prop :=
  (s.nodes (targetOf safeName) = none ∧ ∀ p, p ≠ targetOf safeName → s'.nodes p = s.nodes p) ∨
    ∃ backup, Saved safeName s s' backup ∧ ((∀ i, H.fails i = false) →
      ∀ p, p ≠ targetOf safeName → p ≠ backup → s'.nodes p = s.nodes p)

inductive PublishEnd (H : Host) (safeName : String) (payload : Payload) (s : Fs) :
    Except Error FileSystem.Path → Nat × Fs → Prop
  | failed {err : Error} {m : Nat} {s' : Fs} (left : FailedEnd H safeName payload s m s') :
      PublishEnd H safeName payload s (.error err) (m, s')
  | done {m : Nat} {s' : Fs} (settled : Settled H safeName s s') :
      PublishEnd H safeName payload s (.ok (targetOf safeName)) (m, s')

section Publish
variable {H : Host} {safeName : String} {payload : Payload} {s : Fs}

theorem failedEnd_of_nodes {s' : Fs} (m : Nat) (same : s'.nodes = s.nodes) :
    FailedEnd H safeName payload s m s' where
  target := Or.inl (congrFun same _)
  backups p _ _ := congrFun same p
  root _ _ := Or.inl fun p _ _ _ => congrFun same p

/-- The stage is removed, unless the removal fails; then it is the only failure where the
payload lacks a part. -/
theorem failedEnd_of_switch {stage : FileSystem.Path} {s₁ s₂ s₃ : Fs} {m m' : Nat} {err : Error}
    {a : Except Error Unit} (inRoot : stage.area = .root)
    (named : ∃ rest, stage.name = stagePrefix safeName ++ rest) (apart : stage ≠ targetOf safeName)
    (free : s.nodes stage = none) (frame₁ : ∀ p, p ≠ stage → s₁.nodes p = s.nodes p)
    (h : SwitchEnd H safeName stage (Proper safeName s₁ ∧ Filled payload) 0 s₁ (.error err) (m, s₂))
    (made : exec H (.op (.removeAll stage)) s₂ = (a, s₃))
    (more : m' = tally failed m (.op (.removeAll stage)) a) :
    FailedEnd H safeName payload s m' s₃ := by
  have here : SwitchEnd H safeName stage (Proper safeName s ∧ Filled payload) 0 s (.error err)
      (m, s₂) := by
    refine h.congr inRoot apart frame₁ fun given => ?_
    unfold Proper
    rw [frame₁ _ apart.symm]
    exact given
  have frame₃ : ∀ p, p ≠ stage → s₃.nodes p = s₂.nodes p := fun p away => made_frame made away
  have outside : ∀ p : FileSystem.Path, p.area = .backup → p ≠ stage := by
    rintro p backup rfl
    rw [inRoot] at backup
    cases backup
  have grows : m ≤ m' := by
    rw [more, tally]
    split <;> omega
  have ends : ∀ kept : Kept safeName stage s s₂, (m ≤ 1 → Proper safeName s ∧ Filled payload → 0 < m) →
      (∀ p : FileSystem.Path, p.area = .backup → s.nodes p ≠ none → s₃.nodes p = s.nodes p) ∧
      (Proper safeName s → m' ≤ 1 → RootKept safeName s s₃ ∨
        ¬ Filled payload ∧ ∃ stage, StageLeft H safeName s s₃ stage) := by
    intro kept positive
    have rest : ∀ p : FileSystem.Path, p.area = .root → p ≠ targetOf safeName → p ≠ stage →
        ¬ Previous safeName p → s₃.nodes p = s.nodes p :=
      fun p root away off previous => (frame₃ p off).trans (kept.root p root away off previous)
    have removed : s₃.nodes stage = none → RootKept safeName s s₃ := by
      intro gone p root away previous
      by_cases same : p = stage
      · rw [same, gone, free]
      · exact rest p root away same previous
    refine ⟨fun p backup taken => ?_, fun proper few => ?_⟩
    · exact (frame₃ p (outside p backup)).trans (kept.backups p backup taken)
    · cases a with
      | ok _ =>
        have after : (exec H (.op (.removeAll stage)) s₂).2 = s₃ := congrArg Prod.snd made
        exact Or.inl (removed (after ▸ removeAll_ok (congrArg Prod.fst made)))
      | error removeErr =>
        by_cases gone : s₃.nodes stage = none
        · exact Or.inl (removed gone)
        · -- A second failure would be one too many.
          have one : m' = m + 1 := more
          refine Or.inr ⟨fun filled => ?_, stage, inRoot, named, free, gone, ⟨s₂, removeErr, made⟩,
            removeAll_failed made, rest⟩
          have := positive (by omega) ⟨proper, filled⟩
          omega
  cases here with
  | refused failed target kept =>
    obtain ⟨backups, root⟩ := ends kept fun _ => failed
    exact ⟨Or.inl ((frame₃ _ apart.symm).trans target), backups, root⟩
  | lost failed saved kept =>
    obtain ⟨backups, root⟩ := ends kept fun few _ => by omega
    obtain ⟨backup, saved⟩ := saved
    refine ⟨Or.inr ⟨by omega, backup, saved.congr (frame₃ _ (outside _ ?_))⟩, backups, root⟩
    obtain ⟨-, -, -, area, -⟩ := saved
    exact area

theorem ensureRoot_ends (n : Nat) :
    Yields (counted (exec H) failed) ensureRoot (n, s) fun r x =>
      x.2.nodes = s.nodes ∧ Counts False n r x.1 := by
  refine yields_call (fun info s₁ seen => ?_) fun err s₁ seen => ?_
  · have nodes := reads_nodes (fun _ => id) seen
    dsimp only
    split
    · exact ⟨nodes, False.elim⟩
    · exact ⟨nodes, rfl⟩
  · exact ⟨reads_nodes (fun _ => id) seen, False.elim⟩

theorem publish_ends (safe : safeDirectory safeName = true) :
    Yields (counted (exec H) failed) (publish safeName payload) (0, s)
      (PublishEnd H safeName payload s) := by
  unfold publish
  rw [validateSafeDirectory, if_pos safe]
  refine (ensureRoot_ends 0).bind ?_
  rintro r ⟨m, s₁⟩ ⟨nodes₁, counts⟩
  change s₁.nodes = s.nodes at nodes₁
  cases r with
  | error err => exact .failed (failedEnd_of_nodes _ nodes₁)
  | ok _ =>
    cases counts
    refine yields_op rfl (fun _ s₂ made₂ => ?_) fun err s₂ made₂ => ?_
    case refine_2 =>
      exact .failed (failedEnd_of_nodes _ ((reads_nodes (fun _ => id) made₂).trans nodes₁))
    have nodes₂ := (reads_nodes (fun _ => id) made₂).trans nodes₁
    refine yields_op rfl (fun stage s₃ made₃ => ?_) fun err s₃ made₃ => ?_
    case refine_2 => exact .failed (failedEnd_of_nodes _ ((mkdirTemp_unmade made₃).trans nodes₂))
    obtain ⟨⟨inRoot, rest, named⟩, free, mode, state₃⟩ := mkdirTemp_made made₃
    have hidden : Hidden safeName stage :=
      ⟨inRoot, "stage-" ++ rest, by rw [named, stagePrefix, String.append_assoc]⟩
    have apart := hidden_ne_target hidden safe
    have own := stage_not_previous named
    rw [nodes₂] at free
    have frame₃ : ∀ p, p ≠ stage → s₃.nodes p = s.nodes p := by
      intro p away
      rw [state₃, Function.update_of_ne away, nodes₂]
    refine yields_op rfl (fun _ s₄ made₄ => ?_) fun err s₄ made₄ => ?_
    case refine_2 =>
      have frame₄ : ∀ p, p ≠ stage → s₄.nodes p = s.nodes p :=
        fun p away => (made_frame made₄ away).trans (frame₃ p away)
      refine yields_op rfl (fun _ s₅ made₅ => ?_) fun err' s₅ made₅ => ?_
      · have frame₅ : s₅.nodes = s.nodes := by
          funext p
          by_cases same : p = stage
          · subst same
            rw [remove_made made₅, free]
          · exact (made_frame made₅ same).trans (frame₄ p same)
        exact .failed (failedEnd_of_nodes _ frame₅)
      · have frame₅ : ∀ p, p ≠ stage → s₅.nodes p = s.nodes p :=
          fun p away => (made_frame made₅ away).trans (frame₄ p away)
        have kept : Kept safeName stage s s₅ := kept_of_frame (Or.inr (Or.inl rfl)) inRoot frame₅
        exact .failed ⟨Or.inl (frame₅ _ apart.symm), kept.backups, fun _ few => absurd few (by omega)⟩
    have frame₄ : ∀ p, p ≠ stage → s₄.nodes p = s.nodes p :=
      fun p away => (made_frame made₄ away).trans (frame₃ p away)
    refine (publishStaged_ends safe inRoot apart own).bind ?_
    rintro r ⟨m, s₅⟩ ends
    cases r with
    | ok target =>
      cases ends with
      | done moved =>
        refine .done ?_
        have all : ∀ p, p ≠ targetOf safeName → (p ≠ stage → s₅.nodes p = s₄.nodes p) →
            s₅.nodes p = s.nodes p := by
          intro p away same
          by_cases here : p = stage
          · rw [here, moved.gone, free]
          · exact (same here).trans (frame₄ p here)
        rcases moved.rest with
          ⟨none, same⟩ | ⟨backup, ⟨d, d', there, outside, absent, held, snapshot⟩, same⟩
        · exact Or.inl ⟨frame₄ _ apart.symm ▸ none, fun p away => all p away (same p away)⟩
        · have off : backup ≠ stage := by
            rintro rfl
            rw [inRoot] at outside
            cases outside
          refine Or.inr ⟨backup, ⟨d, d', frame₄ _ apart.symm ▸ there, outside,
            frame₄ _ off ▸ absent, held, snapshot⟩, fun calm p away other => ?_⟩
          exact all p away fun here => same calm p away here other
    | error err =>
      refine yields_op rfl (fun _ s₆ made₆ => ?_) fun err' s₆ made₆ => ?_
      · exact .failed (failedEnd_of_switch inRoot ⟨rest, named⟩ apart free frame₄ ends made₆ rfl)
      · exact .failed (failedEnd_of_switch inRoot ⟨rest, named⟩ apart free frame₄ ends made₆ rfl)

end Publish

end PublishEnds
