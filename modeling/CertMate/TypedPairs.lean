import CertMate.FormDomains

/-!
# The pairs of a custom provider

`parsePairs` and the text field over it, of `web/src/DNSCredentialsPage.tsx`. The field
shows what the map renders to, and every change replaces the map by what is read of the
text in the field.
-/
namespace TypedPairs
open FormDomains (trim)

/-- An object of strings, its own properties in the order they were made. -/
structure Record where
  properties : List (String × String)
  distinct : (properties.map Prod.fst).Nodup
  plain : "__proto__" ∉ properties.map Prod.fst

namespace Record

def empty : Record := ⟨[], List.nodup_nil, List.not_mem_nil⟩

/-- A property that is there keeps its place. -/
def set (key value : String) (properties : List (String × String)) : List (String × String) :=
  if key ∈ properties.map Prod.fst then
    properties.map fun p => if p.1 = key then (key, value) else p
  else properties ++ [(key, value)]

theorem keys_set (key value : String) (properties : List (String × String)) :
    (set key value properties).map Prod.fst =
      if key ∈ properties.map Prod.fst then properties.map Prod.fst
      else properties.map Prod.fst ++ [key] := by
  unfold set
  split
  · rw [List.map_map]
    apply List.map_congr_left
    intro p _
    dsimp only [Function.comp]
    split
    · rename_i same
      exact same.symm
    · rfl
  · rw [List.map_append, List.map_singleton]

/-- `result[key] = value`. A string that is assigned to `__proto__` changes nothing. -/
def assign (o : Record) (key value : String) : Record :=
  if proto : key = "__proto__" then o
  else {
    properties := set key value o.properties
    distinct := by
      rw [keys_set]
      split
      · exact o.distinct
      · rename_i absent
        exact List.nodup_append.mpr ⟨o.distinct, List.nodup_singleton _, fun k hk k' hk' same =>
          absent (List.mem_singleton.mp hk' ▸ same ▸ hk)⟩
    plain := by
      rw [keys_set]
      split
      · exact o.plain
      · intro there
        rcases List.mem_append.mp there with there | there
        · exact o.plain there
        · exact proto (List.mem_singleton.mp there).symm }

/-- The number of an array index. -/
def arrayIndex (key : String) : Option Nat :=
  key.toNat?.filter fun n => toString n = key ∧ n < 4294967295

/-- Array indices come first and in their order. -/
def precedes (p q : String × String) : Bool :=
  match arrayIndex p.1, arrayIndex q.1 with
  | some m, some n => m ≤ n
  | none, some _ => false
  | _, none => true

/-- `Object.entries`. -/
def entries (o : Record) : List (String × String) := o.properties.mergeSort precedes

end Record

def line (p : String × String) : List Char := p.1.toList ++ '=' :: p.2.toList

def joined (lines : List (List Char)) : String := String.ofList (['\n'].intercalate lines)

def parseLine (result : Record) (line : List Char) : Record :=
  match line.findIdx? (· = '=') with
  | some index =>
    if 0 < index then
      result.assign (trim (String.ofList (line.take index)))
        (trim (String.ofList (line.drop (index + 1))))
    else result
  | none => result

def parsePairs (value : String) : Record :=
  (value.toList.splitOn '\n').foldl parseLine Record.empty

/-- The `value` of the field. -/
def shown (values : Record) : String := joined (values.entries.map line)

/-- `onChange` after one more character at the end of the field. -/
def typeCharacter (values : Record) (c : Char) : Record :=
  parsePairs (shown values ++ String.singleton c)

def typed (text : String) : Record := text.toList.foldl typeCharacter Record.empty

/-- A pair that a line stands for. -/
structure Readable (p : String × String) : Prop where
  key : p.1 ≠ ""
  keySign : '=' ∉ p.1.toList
  keyLine : '\n' ∉ p.1.toList
  keyTrimmed : trim p.1 = p.1
  valueLine : '\n' ∉ p.2.toList
  valueTrimmed : trim p.2 = p.2

structure Pairs (pairs : List (String × String)) : Prop where
  readable : ∀ p ∈ pairs, Readable p
  distinct : (pairs.map Prod.fst).Nodup

def textOf (pairs : List (String × String)) : String := joined (pairs.map line)

/-- The same properties, and in the same order when they are listed. -/
def SameMap (o o' : Record) : Prop := o.entries = o'.entries

/-- Entered at the end of the field the text comes to its map, and the map to itself when it
is shown and read. -/
structure Works (text : String) : Prop where
  typing : SameMap (typed text) (parsePairs text)
  again : SameMap (parsePairs (shown (parsePairs text))) (parsePairs text)

section Reading
variable {p : String × String} {pairs : List (String × String)}

theorem line_nonl (h : Readable p) : '\n' ∉ line p := by
  intro there
  rcases List.mem_append.mp there with there | there
  · exact h.keyLine there
  · rcases List.mem_cons.mp there with same | there
    · cases same
    · exact h.valueLine there

theorem parseLine_line (h : Readable p) (o : Record) : parseLine o (line p) = o.assign p.1 p.2 := by
  have found : (line p).findIdx? (· = '=') = some p.1.toList.length := by
    rw [line, List.findIdx?_append, List.findIdx?_eq_none_iff.mpr, List.findIdx?_cons]
    · simp
    · intro c there
      have other : c ≠ '=' := by
        rintro rfl
        exact h.keySign there
      simpa using other
  have some_ : 0 < p.1.toList.length := by
    refine List.length_pos_of_ne_nil fun none => h.key ?_
    exact String.toList_eq_nil_iff.mp none
  have before : (line p).take p.1.toList.length = p.1.toList := by
    rw [line, List.take_left']
    rfl
  have after : (line p).drop (p.1.toList.length + 1) = p.2.toList := by
    rw [line, ← List.drop_drop, List.drop_left']
    · rfl
    · rfl
  unfold parseLine
  rw [found]
  dsimp only
  rw [if_pos some_, before, after, String.ofList_toList, String.ofList_toList, h.keyTrimmed,
    h.valueTrimmed]

theorem lines_joined (h : ∀ p ∈ pairs, Readable p) (some_ : pairs ≠ []) :
    (joined (pairs.map line)).toList.splitOn '\n' = pairs.map line := by
  rw [joined, String.toList_ofList]
  apply List.splitOn_intercalate
  · intro l hl
    obtain ⟨p, hp, rfl⟩ := List.mem_map.mp hl
    exact line_nonl (h p hp)
  · intro none
    exact some_ (List.map_eq_nil_iff.mp none)

theorem foldl_assign (distinct : (pairs.map Prod.fst).Nodup) {o : Record}
    (apart : ∀ p ∈ pairs, p.1 ∉ o.properties.map Prod.fst) :
    (pairs.foldl (fun o p => o.assign p.1 p.2) o).properties =
      o.properties ++ pairs.filter fun p => p.1 ≠ "__proto__" := by
  induction pairs generalizing o with
  | nil => simp
  | cons p rest ih =>
    rw [List.map_cons, List.nodup_cons] at distinct
    have first := apart p List.mem_cons_self
    rw [List.foldl_cons]
    by_cases proto : p.1 = "__proto__"
    · have same : o.assign p.1 p.2 = o := dif_pos proto
      rw [same, ih distinct.2 fun q hq => apart q (List.mem_cons_of_mem _ hq)]
      simp [proto]
    · have added : (o.assign p.1 p.2).properties = o.properties ++ [p] := by
        rw [Record.assign, dif_neg proto]
        exact if_neg first
      rw [ih distinct.2, added]
      · simp [proto]
      · intro q hq there
        rw [added, List.map_append] at there
        rcases List.mem_append.mp there with there | there
        · exact apart q (List.mem_cons_of_mem _ hq) there
        · apply distinct.1
          rw [← List.mem_singleton.mp there]
          exact List.mem_map_of_mem hq

/-- What is read of a text of pairs. -/
theorem parsePairs_textOf (h : Pairs pairs) :
    (parsePairs (textOf pairs)).properties = pairs.filter fun p => p.1 ≠ "__proto__" := by
  have folded : parsePairs (textOf pairs) =
      pairs.foldl (fun o p => o.assign p.1 p.2) Record.empty := by
    by_cases none : pairs = []
    · subst none
      rfl
    · rw [parsePairs, textOf, lines_joined h.readable none, List.foldl_map]
      apply List.foldl_ext
      intro o p hp
      exact parseLine_line (h.readable p hp) o
  rw [folded, foldl_assign h.distinct fun _ _ => List.not_mem_nil]
  rfl

end Reading

section Again

theorem precedes_trans (p q r : String × String) (h : Record.precedes p q)
    (h' : Record.precedes q r) : Record.precedes p r := by
  unfold Record.precedes at h h' ⊢
  cases hp : Record.arrayIndex p.1 with
  | none =>
    cases hr : Record.arrayIndex r.1 with
    | none => rfl
    | some n =>
      cases hq : Record.arrayIndex q.1 with
      | none => simp [hq, hr] at h'
      | some m => simp [hp, hq] at h
  | some k =>
    cases hr : Record.arrayIndex r.1 with
    | none => rfl
    | some n =>
      cases hq : Record.arrayIndex q.1 with
      | none => simp [hq, hr] at h'
      | some m =>
        simp only [hp, hq, hr, decide_eq_true_eq] at h h' ⊢
        omega

theorem precedes_total (p q : String × String) :
    (Record.precedes p q || Record.precedes q p) = true := by
  unfold Record.precedes
  cases Record.arrayIndex p.1 with
  | none => cases Record.arrayIndex q.1 <;> rfl
  | some m =>
    cases Record.arrayIndex q.1 with
    | none => rfl
    | some n =>
      simp only [Bool.or_eq_true, decide_eq_true_eq]
      omega

theorem entries_perm (o : Record) : o.entries.Perm o.properties :=
  List.mergeSort_perm _ _

theorem entries_ordered (o : Record) : o.entries.Pairwise fun p q => Record.precedes p q :=
  List.pairwise_mergeSort precedes_trans precedes_total _

/-- The properties of an object are what its listing is read to. -/
theorem shown_again {o : Record} (readable : ∀ p ∈ o.properties, Readable p) :
    SameMap (parsePairs (shown o)) o := by
  have pairs : Pairs o.entries :=
    ⟨fun p hp => readable p ((entries_perm o).mem_iff.mp hp),
      ((entries_perm o).map Prod.fst).nodup_iff.mpr o.distinct⟩
  have kept : (parsePairs (shown o)).properties = o.entries := by
    apply (parsePairs_textOf pairs).trans
    apply List.filter_eq_self.mpr
    intro p hp
    have there := List.mem_map_of_mem (f := Prod.fst) ((entries_perm o).mem_iff.mp hp)
    have plain : p.1 ≠ "__proto__" := by
      intro same
      rw [same] at there
      exact o.plain there
    exact decide_eq_true plain
  change (parsePairs (shown o)).properties.mergeSort _ = _
  rw [kept]
  exact List.mergeSort_of_pairwise (entries_ordered o)

/-- A single character is never a pair. -/
theorem typeCharacter_empty (c : Char) : typeCharacter Record.empty c = Record.empty := by
  have text : (shown Record.empty ++ String.singleton c).toList = [c] := by
    simp [shown, joined, Record.entries, Record.empty]
  rw [typeCharacter, parsePairs, text]
  by_cases newline : c = '\n'
  · subst newline
    rfl
  · have whole : [c].splitOn '\n' = [[c]] := by
      apply List.splitOn_eq_singleton
      simpa using Ne.symm newline
    rw [whole]
    change parseLine Record.empty [c] = _
    unfold parseLine
    by_cases sign : c = '='
    · subst sign
      rfl
    · simp [List.findIdx?_cons, sign]

/-- What is typed character by character never comes to anything. -/
theorem typed_empty (text : String) : typed text = Record.empty := by
  unfold typed
  induction text.toList with
  | nil => rfl
  | cons c rest ih =>
    rw [List.foldl_cons, typeCharacter_empty]
    exact ih

end Again

/-- Typing works for the texts without a pair that `parsePairs` makes a property of; what has
been read shows and reads as itself. -/
theorem typing_works_iff {pairs : List (String × String)} (h : Pairs pairs) :
    (Works (textOf pairs) ↔ ∀ p ∈ pairs, p.1 = "__proto__") ∧
      SameMap (parsePairs (shown (parsePairs (textOf pairs)))) (parsePairs (textOf pairs)) := by
  have properties := parsePairs_textOf h
  have again : SameMap (parsePairs (shown (parsePairs (textOf pairs))))
      (parsePairs (textOf pairs)) := by
    apply shown_again
    intro p hp
    rw [properties] at hp
    exact h.readable p (List.mem_of_mem_filter hp)
  refine ⟨?_, again⟩
  constructor
  · intro works p hp
    by_contra plain
    have listed := works.typing
    rw [typed_empty] at listed
    have there : p ∈ (parsePairs (textOf pairs)).entries := by
      rw [(entries_perm _).mem_iff, properties]
      exact List.mem_filter.mpr ⟨hp, decide_eq_true plain⟩
    rw [← listed, (entries_perm _).mem_iff] at there
    cases there
  · intro proto
    refine ⟨?_, again⟩
    have none : (parsePairs (textOf pairs)).properties = [] := by
      rw [properties, List.filter_eq_nil_iff]
      intro p hp
      simp [proto p hp]
    rw [typed_empty, SameMap, Record.entries, Record.entries, none]
    rfl

theorem samplePairs : Pairs [("CF_Token", "secret")] := by
  constructor
  · intro p hp
    rw [List.mem_singleton.mp hp]
    constructor
    all_goals decide +kernel
  · decide

theorem sample_typing_fails : ¬ Works (textOf [("CF_Token", "secret")]) := by
  intro works
  have proto := (typing_works_iff samplePairs).1.mp works ("CF_Token", "secret") List.mem_cons_self
  exact absurd proto (by decide)

/-- The pair is read from the text as a whole, and typed it is lost. -/
theorem typed_pair_lost :
    Pairs [("CF_Token", "secret")] ∧ textOf [("CF_Token", "secret")] = "CF_Token=secret" ∧
      (typed "CF_Token=secret").entries = [] ∧
      (parsePairs "CF_Token=secret").entries = [("CF_Token", "secret")] :=
  ⟨samplePairs, by decide +kernel⟩

end TypedPairs
