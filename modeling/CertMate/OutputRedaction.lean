import CertMate.AcmeEngine
import CertMate.PatchedTexts

/-!
# The output of acme.sh

What `CLI.run` of `internal/certificate/acmesh/engine.go` makes of the two output
streams of the process: they are cut at a limit, joined and trimmed, the values of the
variables and of the DNS challenge are blotted out, and the text is cut again.
-/
namespace OutputRedaction
open CertificateModel PatchedTexts
open AcmeEngine (checkVariables)

def maxOutput : Nat := 512 * 1024

/-- With a natural number for the limit, which `BoundedBuffers.write_natural` shows to be
the same. -/
structure BoundedBuffer where
  buffer : Bytes
  limit : Nat

def exceeded : Error := .new "acme.sh 输出超过限制"

def BoundedBuffer.write (b : BoundedBuffer) (value : Bytes) : BoundedBuffer × Nat × Option Error :=
  let remaining := b.limit - b.buffer.length
  if remaining = 0 then (b, 0, some exceeded)
  else if remaining < value.length then
    ({ b with buffer := b.buffer ++ value.take remaining }, remaining, some exceeded)
  else ({ b with buffer := b.buffer ++ value }, value.length, none)

/-- `io.Copy` of what is read of the pipe, until a write fails. -/
def copy (b : BoundedBuffer) : List Bytes → BoundedBuffer × Option Error
  | [] => (b, none)
  | chunk :: rest =>
    match b.write chunk with
    | (b, _, some err) => (b, some err)
    | (b, _, none) => copy b rest

/-- The encodings of the spaces of `unicode.IsSpace`. -/
def unicodeSpaces : List Bytes :=
  ["\t", "\n", "\u000b", "\u000c", "\r", " ", "\u0085", "\u00a0", "\u1680", "\u2000", "\u2001",
    "\u2002", "\u2003", "\u2004", "\u2005", "\u2006", "\u2007", "\u2008", "\u2009", "\u200a",
    "\u2028", "\u2029", "\u202f", "\u205f", "\u3000"].map utf8

/-- Drops as many of the words as the text begins with. -/
def trimWords (words : List Bytes) : Nat → Bytes → Bytes
  | 0, s => s
  | fuel + 1, s =>
    match words.find? fun word => decide (word <+: s) with
    | none => s
    | some word => trimWords words fuel (s.drop word.length)

/-- `strings.TrimSpace`. Every space has a byte. -/
def trimSpace (s : Bytes) : Bytes :=
  let left := trimWords unicodeSpaces s.length s
  (trimWords (unicodeSpaces.map List.reverse) left.length left.reverse).reverse

/-- `[REDACTED]`. -/
def redacted : Mark UInt8 := ⟨91, utf8 "REDACTED", 93⟩

def label : Bytes := utf8 "Adding TXT value:"

/-- `\s` of a regular expression. -/
def space (b : UInt8) : Bool := b ∈ [9, 10, 12, 13, 32]

/-- `(Adding TXT value:\s*)\S+` at the start of a text: the bytes of the group and those
after it. A byte that is part of no valid encoding is not a space. -/
def txtChallengeValuePattern (s : Bytes) : Option (Nat × Nat) :=
  if label <+: s then
    let rest := s.drop label.length
    match (rest.dropWhile space).takeWhile fun b => !space b with
    | [] => none
    | value => some (label.length + (rest.takeWhile space).length, value.length)
  else none

/-- The values that are not empty, with the longer ones first. The map has no order and
the sort is not stable. -/
structure Secrets (values : List (String × String)) where
  list : List Bytes
  perm : list.Perm ((values.map fun e => utf8 e.2).filter fun secret => secret ≠ [])
  sorted : list.Pairwise fun first second => second.length ≤ first.length

def redactOutput (secrets : List Bytes) (value : Bytes) : Bytes :=
  replace redacted txtChallengeValuePattern 0
    (secrets.foldl (fun value secret => replaceAll redacted secret value) value)

def truncate (output : Bytes) : Bytes :=
  if 8192 < output.length then output.take 8192 ++ utf8 "…" else output

inductive RunError where
  | refused (err : Error)
  | deadlineExceeded
  | notStarted
  | copy (err : Error)
  | exit (code : Int)
  deriving DecidableEq, Repr

/-- How the process ended: what was read of its output, whether that was after the
deadline, and its exit code, if it was started. -/
structure Finished where
  stdout : List Bytes
  stderr : List Bytes
  deadline : Bool
  exitCode : Option Int

structure Ran where
  exitCode : Int
  output : Bytes
  err : Option RunError
  deriving DecidableEq, Repr

def run (values : List (String × String)) (secrets : Secrets values) (process : Finished) : Ran :=
  match checkVariables values with
  | .error err => ⟨-1, [], some (.refused err)⟩
  | .ok () =>
    let stdout := copy ⟨[], maxOutput⟩ process.stdout
    let stderr := copy ⟨[], maxOutput⟩ process.stderr
    let output := truncate (redactOutput secrets.list
      (trimSpace (stdout.1.buffer ++ [10] ++ stderr.1.buffer)))
    if process.deadline then ⟨-1, output, some .deadlineExceeded⟩
    else
      match process.exitCode, stdout.2.or stderr.2 with
      | none, _ => ⟨-1, output, some .notStarted⟩
      | some 0, none => ⟨0, output, none⟩
      | some 0, some err => ⟨-1, output, some (.copy err)⟩
      | some code, _ => ⟨code, output, some (.exit code)⟩

example : trimSpace (utf8 " \u00a0a b\u3000\n") = utf8 "a b" := by decide

/-- A value of printable ASCII characters without brackets that is no part of the
mark's word. -/
structure Plain (value : String) : Prop where
  printable : ∀ b ∈ utf8 value, 33 ≤ b ∧ b ≤ 126
  left : 91 ∉ utf8 value
  right : 93 ∉ utf8 value
  fresh : ¬ utf8 value <:+: utf8 "REDACTED"

theorem Plain.clear {value : String} (plain : Plain value) : redacted.Clear (utf8 value) where
  nonempty := by
    intro empty
    apply plain.fresh
    rw [empty]
    exact List.nil_infix
  left := plain.left
  right := plain.right
  inner := plain.fresh

section Values
variable {secrets : List Bytes}

theorem infix_foldl (clear : ∀ secret ∈ secrets, redacted.Clear secret) {x : Bytes}
    (fresh : redacted.Clear x) {s : Bytes}
    (inside : x <:+: secrets.foldl (fun value secret => replaceAll redacted secret value) s) :
    x <:+: s := by
  induction secrets generalizing s with
  | nil => exact inside
  | cons secret rest ih =>
    obtain ⟨first, later⟩ := List.forall_mem_cons.mp clear
    have before := ih later inside
    exact (patched_replaceAll first.nonempty s).of_inside fresh before

/-- No replacement brings back what an earlier one has blotted out. -/
theorem foldl_absent (clear : ∀ secret ∈ secrets, redacted.Clear secret) {x : Bytes}
    (there : x ∈ secrets) (s : Bytes) :
    ¬ x <:+: secrets.foldl (fun value secret => replaceAll redacted secret value) s := by
  induction secrets generalizing s with
  | nil => cases there
  | cons secret rest ih =>
    obtain ⟨first, later⟩ := List.forall_mem_cons.mp clear
    intro inside
    rcases List.mem_cons.mp there with rfl | there
    · exact replaceAll_absent first s (infix_foldl later first inside)
    · exact ih later there _ inside

end Values

theorem label_clear : redacted.Clear label where
  nonempty := by decide
  left := by decide
  right := by decide
  inner := by decide

theorem label_eq : label = 65 :: label.tail := by decide

theorem head_once : (65 : UInt8) ∉ label.tail := by decide

theorem pattern_some {s : Bytes} {kept dropped : Nat}
    (found : txtChallengeValuePattern s = some (kept, dropped)) :
    ∃ spaces value rest, s = label ++ spaces ++ value ++ rest ∧ (∀ b ∈ spaces, space b) ∧
      kept = (label ++ spaces).length ∧ dropped = value.length ∧ value ≠ [] := by
  unfold txtChallengeValuePattern at found
  split at found
  · rename_i front
    obtain ⟨tail, rfl⟩ := front
    rw [List.drop_left] at found
    dsimp only at found
    split at found
    · cases found
    · rename_i value some_
      cases found
      refine ⟨tail.takeWhile space, _, (tail.dropWhile space).dropWhile fun b => !space b, ?_, ?_,
        ?_, rfl, some_⟩
      · rw [List.append_assoc, List.takeWhile_append_dropWhile, List.append_assoc,
          List.takeWhile_append_dropWhile]
      · intro b there
        exact List.mem_takeWhile_imp there
      · rw [List.length_append]
  · cases found

theorem pattern_none {rest : Bytes} (missed : txtChallengeValuePattern (label ++ rest) = none) :
    ∀ b ∈ rest, space b := by
  unfold txtChallengeValuePattern at missed
  rw [if_pos (List.prefix_append label rest), List.drop_left] at missed
  dsimp only at missed
  split at missed
  · rename_i empty
    cases left : rest.dropWhile space with
    | nil => exact List.dropWhile_eq_nil_iff.mp left
    | cons b tail =>
      have head := List.head?_dropWhile_not space rest
      rw [left, List.takeWhile_cons] at empty
      rw [left] at head
      simp_all
  · cases missed

theorem pattern_fits : Fits txtChallengeValuePattern := by
  intro s kept dropped found
  obtain ⟨spaces, value, rest, rfl, -, rfl, rfl, some_⟩ := pattern_some found
  constructor
  · exact List.length_pos_iff.mpr some_
  · simp only [List.length_append]
    omega

/-- After the label come spaces and then the mark or the end. -/
def Follows (t : Bytes) : Prop :=
  ∀ u, label ++ u <:+ t → ∃ spaces rest, u = spaces ++ rest ∧ (∀ b ∈ spaces, space b) ∧
    (redacted.text <+: rest ∨ rest = [])

section Suffixes
variable {u t w : Bytes}

theorem label_beyond (h : label ++ u <:+ w ++ t) (free : 65 ∉ w) : label ++ u <:+ t := by
  induction w with
  | nil => exact h
  | cons b w ih =>
    rw [List.cons_append, List.suffix_cons_iff] at h
    rcases h with whole | h
    · rw [label_eq, List.cons_append] at whole
      obtain ⟨rfl, -⟩ := List.cons.inj whole
      exact absurd List.mem_cons_self free
    · exact ih h fun there => free (List.mem_cons_of_mem b there)

theorem label_after_mark (h : label ++ u <:+ w ++ t) (part : w <:+ redacted.text) :
    label ++ u <:+ t := by
  induction w with
  | nil => exact h
  | cons b w ih =>
    rw [List.cons_append, List.suffix_cons_iff] at h
    rcases h with whole | h
    · have front : label <+: b :: w ++ t := ⟨u, whole⟩
      exact (label_clear.beyond part (List.cons_ne_nil b w) front).elim
    · exact ih h ((List.suffix_cons b w).trans part)

theorem label_again {spaces : Bytes} (blank : ∀ b ∈ spaces, space b)
    (h : label ++ u <:+ label ++ (spaces ++ (redacted.text ++ t))) :
    u = spaces ++ (redacted.text ++ t) ∨ label ++ u <:+ t := by
  have whole_or := h
  rw [label_eq, List.cons_append, List.cons_append, List.suffix_cons_iff] at whole_or
  rcases whole_or with whole | h
  · left
    exact List.append_cancel_left (List.cons.inj whole).2
  · right
    rw [← List.cons_append, ← label_eq] at h
    have later := label_beyond h head_once
    have later := label_beyond later fun there => absurd (blank 65 there) (by decide)
    exact label_after_mark later (List.suffix_refl _)

end Suffixes

theorem follows_pattern (s : Bytes) : Follows (replace redacted txtChallengeValuePattern 0 s) := by
  apply replace_induction (P := fun _ t => Follows t) pattern_fits
  · intro u h
    have empty := List.suffix_nil.mp h
    rw [label_eq] at empty
    cases empty
  · intro b s missed ih u h
    rcases List.suffix_cons_iff.mp h with whole | h
    · have front : label <+: b :: replace redacted txtChallengeValuePattern 0 s := ⟨u, whole⟩
      obtain ⟨rest, parts⟩ :=
        ((patched_replace pattern_fits s).keep b).of_front label_clear.left front
      rw [← parts] at missed
      have spaces := pattern_none missed
      -- the rest of the text has no label
      have tail : s = label.tail ++ rest := by
        rw [label_eq, List.cons_append] at parts
        exact (List.cons.inj parts).2.symm
      have free : 65 ∉ s := by
        rw [tail]
        intro there
        rcases List.mem_append.mp there with there | there
        · exact head_once there
        · exact absurd (spaces 65 there) (by decide)
      have stays : replace redacted txtChallengeValuePattern 0 s = s := by
        apply replace_nothing
        intro u part
        cases search : txtChallengeValuePattern u with
        | none => rfl
        | some bounds =>
          obtain ⟨_, _, _, rfl, -⟩ := pattern_some search
          apply absurd (part.subset _) free
          rw [label_eq]
          exact List.mem_cons_self
      rw [stays, ← parts] at whole
      cases List.append_cancel_left whole
      exact ⟨u, [], (List.append_nil u).symm, spaces, Or.inr rfl⟩
    · exact ih u h
  · intro s kept dropped found ih u h
    obtain ⟨spaces, value, rest, rfl, blank, rfl, rfl, -⟩ := pattern_some found
    rw [List.append_assoc (label ++ spaces) value rest, List.take_left, List.append_assoc,
      List.append_assoc, ← List.append_assoc (label ++ spaces) value rest] at h
    rcases label_again blank h with rfl | later
    · exact ⟨spaces, _, rfl, blank, Or.inl (List.prefix_append _ _)⟩
    · exact ih u later

/-- What the label is followed by in the whole output. -/
def Hidden (output : Bytes) : Prop :=
  ∀ before after, output = before ++ label ++ after →
    ∃ spaces rest, after = spaces ++ rest ∧ (∀ b ∈ spaces, space b) ∧
      (redacted.text <+: rest ∨ rest = [] ∨
        ∃ part, part <+: redacted.text ∧ rest = part ++ utf8 "…" ∧
          (before ++ label ++ spaces ++ part).length = 8192)

theorem infix_truncate {x t : Bytes} (nonempty : x ≠ []) (ascii : ∀ b ∈ x, b ≤ 126)
    (inside : x <:+: truncate t) : x <:+: t := by
  unfold truncate at inside
  split at inside
  · have apart : ∀ b ∈ x, b ∉ utf8 "…" := by
      intro b there last
      have high : ∀ b ∈ utf8 "…", ¬ b ≤ 126 := by decide +kernel
      exact high b last (ascii b there)
    exact (infix_of_apart nonempty apart inside).trans (List.take_prefix _ _).isInfix
  · exact inside

/-- The cut takes away the end of a mark and of the spaces before one. -/
theorem hidden_truncate {t : Bytes} (follows : Follows t) : Hidden (truncate t) := by
  intro before after parts
  unfold truncate at parts
  split at parts
  · rename_i long
    have apart : ∀ b ∈ label, b ∉ utf8 "…" := by decide +kernel
    have front : before ++ label <+: t.take 8192 :=
      prefix_of_apart label_clear.nonempty apart ⟨after, parts.symm⟩
    obtain ⟨cut, start⟩ := front
    have whole : t = before ++ (label ++ (cut ++ t.drop 8192)) := by
      rw [← List.append_assoc, ← List.append_assoc, start, List.take_append_drop]
    have size : (before ++ label ++ cut).length = 8192 := by
      rw [start, List.length_take]
      omega
    rw [← start, List.append_assoc (before ++ label)] at parts
    cases List.append_cancel_left parts
    obtain ⟨spaces, rest, more, blank, marked⟩ := follows _ ⟨before, whole.symm⟩
    rcases List.append_eq_append_iff.mp more with ⟨late, rfl, -⟩ | ⟨early, rfl, rfl⟩
    · refine ⟨cut, utf8 "…", rfl, ?_, Or.inr (Or.inr ⟨[], List.nil_prefix, rfl, ?_⟩)⟩
      · intro b there
        exact blank b (List.mem_append_left late there)
      · rwa [List.append_nil]
    · refine ⟨spaces, early ++ utf8 "…", List.append_assoc _ _ _, blank, ?_⟩
      have here : early <+: early ++ t.drop 8192 := List.prefix_append _ _
      rcases marked with marked | ends
      · rcases List.prefix_or_prefix_of_prefix marked here with full | part
        · left
          exact full.trans (List.prefix_append _ _)
        · right
          right
          exact ⟨early, part, rfl, by rwa [← List.append_assoc] at size⟩
      · right
        right
        obtain ⟨rfl, -⟩ := List.append_eq_nil_iff.mp ends
        exact ⟨[], List.nil_prefix, rfl, by rwa [← List.append_assoc] at size⟩
  · obtain ⟨spaces, rest, more, blank, marked⟩ :=
      follows after ⟨before, by rw [parts, List.append_assoc]⟩
    refine ⟨spaces, rest, more, blank, ?_⟩
    rcases marked with marked | ends
    · exact Or.inl marked
    · exact Or.inr (Or.inl ends)

theorem redactOutput_absent {secrets : List Bytes}
    (clear : ∀ secret ∈ secrets, redacted.Clear secret) {x : Bytes} (there : x ∈ secrets)
    (s : Bytes) : ¬ x <:+: redactOutput secrets s := by
  intro inside
  have before := (patched_replace pattern_fits _).of_inside (clear x there) inside
  exact foldl_absent clear there s before

section Run
variable {values : List (String × String)}

theorem Secrets.mem_iff (secrets : Secrets values) {x : Bytes} :
    x ∈ secrets.list ↔ (∃ e ∈ values, utf8 e.2 = x) ∧ x ≠ [] := by
  rw [secrets.perm.mem_iff, List.mem_filter, List.mem_map, decide_eq_true_iff]

theorem Secrets.clear (secrets : Secrets values) (plain : ∀ e ∈ values, Plain e.2) :
    ∀ secret ∈ secrets.list, redacted.Clear secret := by
  intro secret there
  obtain ⟨⟨e, mem, rfl⟩, -⟩ := secrets.mem_iff.mp there
  exact (plain e mem).clear

/-- The output is empty or was redacted and then cut. -/
theorem run_output (secrets : Secrets values) (process : Finished) :
    (run values secrets process).output = [] ∨
      ∃ text, (run values secrets process).output = truncate (redactOutput secrets.list text) := by
  unfold run
  split
  · exact Or.inl rfl
  · right
    refine ⟨trimSpace ((copy ⟨[], maxOutput⟩ process.stdout).1.buffer ++ [10] ++
      (copy ⟨[], maxOutput⟩ process.stderr).1.buffer), ?_⟩
    dsimp only
    split
    · rfl
    · split <;> rfl

/-- The output has no value of a variable in it, and after every label of a challenge
there are spaces, which may be none, and the mark, if the output does not end before. -/
theorem run_redacted (plain : ∀ e ∈ values, Plain e.2) (secrets : Secrets values)
    (process : Finished) :
    (∀ e ∈ values, ¬ utf8 e.2 <:+: (run values secrets process).output) ∧
      Hidden (run values secrets process).output := by
  rcases run_output secrets process with empty | ⟨text, made⟩
  · rw [empty]
    constructor
    · intro e there inside
      exact (plain e there).clear.nonempty (List.infix_nil.mp inside)
    · intro before after parts
      have none_ := congrArg List.length parts
      rw [List.length_nil, List.length_append, List.length_append] at none_
      have some_ : 0 < label.length := by decide
      omega
  · rw [made]
    constructor
    · intro e there inside
      have clear := (plain e there).clear
      have ascii : ∀ b ∈ utf8 e.2, b ≤ 126 := fun b mem => ((plain e there).printable b mem).2
      have mem : utf8 e.2 ∈ secrets.list := secrets.mem_iff.mpr ⟨⟨e, there, rfl⟩, clear.nonempty⟩
      exact redactOutput_absent (secrets.clear plain) mem text
        (infix_truncate clear.nonempty ascii inside)
    · exact hidden_truncate (follows_pattern _)

end Run

def sampleValues : List (String × String) := [("CF_Key", "s3cret"), ("CF_Token", "s3cret-t0ken")]

def sampleSecrets : Secrets sampleValues where
  list := [utf8 "s3cret-t0ken", utf8 "s3cret"]
  perm := by decide
  sorted := by decide

def sampleProcess : Finished where
  stdout := [utf8 "with s3cret and s3cret-", utf8 "t0ken\n"]
  stderr := [utf8 "Adding TXT value: abc "]
  deadline := false
  exitCode := some 0

theorem sample_plain : ∀ e ∈ sampleValues, Plain e.2 := by
  intro e there
  constructor
  · exact (by decide +kernel : ∀ e ∈ sampleValues, ∀ b ∈ utf8 e.2, 33 ≤ b ∧ b ≤ 126) e there
  · exact (by decide +kernel : ∀ e ∈ sampleValues, 91 ∉ utf8 e.2) e there
  · exact (by decide +kernel : ∀ e ∈ sampleValues, 93 ∉ utf8 e.2) e there
  · exact (by decide +kernel : ∀ e ∈ sampleValues, ¬ utf8 e.2 <:+: utf8 "REDACTED") e there

theorem run_redacted_sample :
    run sampleValues sampleSecrets sampleProcess =
        ⟨0, utf8 "with [REDACTED] and [REDACTED]\n\nAdding TXT value: [REDACTED]", none⟩ ∧
      (∀ e ∈ sampleValues, ¬ utf8 e.2 <:+: (run sampleValues sampleSecrets sampleProcess).output) ∧
      Hidden (run sampleValues sampleSecrets sampleProcess).output :=
  ⟨by decide +kernel, run_redacted sample_plain sampleSecrets sampleProcess⟩

/-- A process without variables that prints a challenge without a space before it. -/
def tightProcess : Finished where
  stdout := [utf8 "Adding TXT value:abc"]
  stderr := []
  deadline := false
  exitCode := some 0

/-- There need be no space after the label. -/
theorem run_no_space :
    ¬ ∀ (values : List (String × String)) (_ : ∀ e ∈ values, Plain e.2) (secrets : Secrets values)
      (process : Finished),
      (∀ e ∈ values, ¬ utf8 e.2 <:+: (run values secrets process).output) ∧
        ∀ before after, (run values secrets process).output = before ++ label ++ after →
          ∃ spaces rest, after = spaces ++ rest ∧ spaces ≠ [] ∧ (∀ b ∈ spaces, space b) ∧
            (redacted.text <+: rest ∨ rest = [] ∨
              ∃ part, part <+: redacted.text ∧ rest = part ++ utf8 "…" ∧
                (before ++ label ++ spaces ++ part).length = 8192) := by
  intro always
  obtain ⟨-, followed⟩ := always [] (fun _ h => nomatch h) ⟨[], .refl [], .nil⟩ tightProcess
  obtain ⟨spaces, rest, parts, some_, blank, -⟩ := followed [] redacted.text (by decide)
  cases spaces with
  | nil => exact some_ rfl
  | cons b spaces =>
    -- What follows the label begins with the bracket of the mark.
    have bracket : (91 : UInt8) = b := congrArg (fun bytes => bytes.headD 0) parts
    exact absurd (blank b List.mem_cons_self) (bracket ▸ by decide)

end OutputRedaction
