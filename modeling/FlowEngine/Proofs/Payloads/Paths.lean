import FlowEngine.Value.Path
import Mathlib.Data.List.Forall2

/-!
# What dotted paths lead to

A path is a text, and what it means is said by texts: where it is cut, which pieces are left out, what
a piece stands for. A position inside a value is something else, a list of steps that are indexes of
arrays or keys of objects. This file ties the two together.

One segment can name two steps, since the digits that name an index may also be a key. Which of the two
is meant depends on what stands there: an array has no keys and an object no indexes. An index has many
names, with zeros and a plus sign in front, and a key only one. So a path leads to at most one value, and
every position has a path if it can be reached by keys that are not empty and hold no dot.

## Main definitions

* `Text.Cut`: the parts of a text between its dots.
* `Value.Step`, `Value.locate?`: positions inside a value.
* `Value.Step.NamedBy`: what a segment may stand for.
* `Value.Step.IsPlain`, `Value.path`: steps that can be written down, and the path of a position.

## Main results

* `Value.at?_append_dot`: paths compose.
* `Value.child?_eq_some_iff`, `Value.descend?_eq_some_iff`: what segments lead to.
* `Value.paths_lead`: all of it together.
-/

namespace FlowEngine

namespace Text

/-! ## Cutting texts -/

theorem pieces_ne_nil (separator : Char) (cs : List Char) : pieces separator cs ≠ [] := by
  cases cs with
  | nil => exact List.cons_ne_nil _ _
  | cons c cs =>
    rw [pieces]
    split
    · exact List.cons_ne_nil _ _
    · split <;> exact List.cons_ne_nil _ _

theorem pieces_eq_splitOn (separator : Char) (cs : List Char) :
    pieces separator cs = cs.splitOn separator := by
  induction cs with
  | nil => rfl
  | cons c cs ih =>
    rw [pieces, List.splitOn, List.splitOnP_cons_eq_if_modifyHead, ← List.splitOn, ← ih]
    by_cases hc : c = separator
    · simp [hc]
    · obtain ⟨piece, rest, hpieces⟩ := List.exists_cons_of_ne_nil (pieces_ne_nil separator cs)
      simp [hc, hpieces]

theorem separator_not_mem {separator : Char} {cs : List Char} :
    ∀ piece ∈ pieces separator cs, separator ∉ piece := by
  induction cs with
  | nil => simp [pieces]
  | cons c cs ih =>
    obtain ⟨piece, rest, hpieces⟩ := List.exists_cons_of_ne_nil (pieces_ne_nil separator cs)
    rw [hpieces, List.forall_mem_cons] at ih
    rw [pieces, hpieces]
    split
    · exact List.forall_mem_cons.mpr ⟨List.not_mem_nil, List.forall_mem_cons.mpr ih⟩
    · rename_i hc
      refine List.forall_mem_cons.mpr ⟨?_, ih.2⟩
      rw [List.mem_cons, not_or]
      exact ⟨fun h => hc h.symm, ih.1⟩

/-- A text has these parts between its dots. -/
structure Cut (text : String) (parts : List String) : Prop where
  join : ".".intercalate parts = text
  undotted : ∀ part ∈ parts, '.' ∉ part.toList

theorem exists_cut (text : String) : ∃ parts, Cut text parts := by
  refine ⟨(pieces '.' text.toList).map String.ofList, ?_, ?_⟩
  · rw [← String.toList_inj, String.toList_intercalate, List.map_map]
    simp [Function.comp_def, pieces_eq_splitOn]
  · rw [List.forall_mem_map]
    intro piece hpiece
    rw [String.toList_ofList]
    exact separator_not_mem piece hpiece

/-! ## Indexes as texts -/

theorem isDigit_of_digits? {cs : List Char} {value n : Nat} (h : digits? value cs = some n) :
    ∀ c ∈ cs, c.isDigit := by
  induction cs generalizing value with
  | nil => exact List.forall_mem_nil _
  | cons c cs ih =>
    obtain ⟨d, hd, hcs⟩ := Option.bind_eq_some_iff.mp h
    rw [digitValue?] at hd
    split at hd
    · rename_i hc
      refine List.forall_mem_cons.mpr ⟨?_, ih hcs⟩
      rw [Char.isDigit, Bool.and_eq_true, decide_eq_true_eq, decide_eq_true_eq]
      exact hc
    · cases hd

/-- Digits are read as the number that they denote. -/
theorem digits?_eq_some_iff {cs : List Char} {n : Nat} :
    digits? 0 cs = some n ↔ (∀ c ∈ cs, c.isDigit) ∧ Nat.ofDigitChars 10 cs 0 = n := by
  constructor
  · intro h
    have hdigits := isDigit_of_digits? h
    rw [digits?_of_isDigit hdigits] at h
    exact ⟨hdigits, Option.some.inj h⟩
  · rintro ⟨hdigits, rfl⟩
    exact digits?_of_isDigit hdigits 0

theorem exists_sign (cs : List Char) :
    ∃ sign, (sign = [] ∨ sign = ['+']) ∧ cs = sign ++ withoutPlus cs := by
  unfold withoutPlus
  split
  · exact ⟨['+'], .inr rfl, rfl⟩
  · exact ⟨[], .inl rfl, rfl⟩

/-- A text is read as a number of 64 bits if it is digits that denote one, after at most one plus
sign. -/
theorem word?_eq_some_iff {text : String} {n : Nat} :
    word? text = some n ↔ n < UInt64.size ∧ ∃ sign digits, text.toList = sign ++ digits ∧
      (sign = [] ∨ sign = ['+']) ∧ digits ≠ [] ∧ (∀ c ∈ digits, c.isDigit) ∧
      Nat.ofDigitChars 10 digits 0 = n := by
  constructor
  · intro h
    refine ⟨lt_of_natural? h, ?_⟩
    simp only [word?, natural?, bounded?] at h
    split at h
    · cases h
    · rename_i hne
      obtain ⟨sign, hsign, heq⟩ := exists_sign text.toList
      obtain ⟨hdigits, hvalue⟩ := digits?_eq_some_iff.mp (Option.filter_eq_some_iff.mp h).1
      exact ⟨sign, _, heq, hsign, by simpa using hne, hdigits, hvalue⟩
  · rintro ⟨hlt, sign, digits, heq, hsign, hne, hdigits, hvalue⟩
    have hplus : withoutPlus text.toList = digits := by
      rw [heq]
      rcases hsign with rfl | rfl
      · exact withoutPlus_of_isDigit hdigits
      · rfl
    rw [word?, natural?, hplus, bounded?, if_neg (by simpa using hne),
      digits?_eq_some_iff.mpr ⟨hdigits, hvalue⟩]
    simpa using hlt

end Text

namespace Value

/-! ## Positions -/

/-- A step into a value: to an item of an array, whose index is a size, or to a member of an object. -/
inductive Step where
  | index (i : UInt64)
  | key (k : String)
  deriving DecidableEq

/-- The value that a step leads to. -/
def step? : Value → Step → Option Value
  | .array items, .index i => items[i.toNat]?
  | .object members, .key k => Entries.find? members k
  | _, _ => none

/-- The value at a position. -/
def locate? (v : Value) (steps : List Step) : Option Value := steps.foldlM step? v

@[simp] theorem locate?_nil (v : Value) : v.locate? [] = some v := rfl

@[simp] theorem locate?_cons (v : Value) (step : Step) (rest : List Step) :
    v.locate? (step :: rest) = (v.step? step).bind fun w => w.locate? rest := rfl

namespace Step

/-- A segment may stand for a step: for the key that it is, and for the index that its digits denote,
of which there may be any number, after at most one plus sign. -/
def NamedBy (segment : String) : Step → Prop
  | .index i => ∃ sign digits, segment.toList = sign ++ digits ∧ (sign = [] ∨ sign = ['+']) ∧
    digits ≠ [] ∧ (∀ c ∈ digits, c.isDigit) ∧ Nat.ofDigitChars 10 digits 0 = i.toNat
  | .key k => segment = k

/-- What a step is written as. -/
def text : Step → String
  | .index i => toString i.toNat
  | .key k => k

/-- The step can be written as a segment. -/
def IsPlain : Step → Prop
  | .index _ => True
  | .key k => k ≠ "" ∧ '.' ∉ k.toList

theorem namedBy_index_iff {segment : String} {i : UInt64} :
    NamedBy segment (.index i) ↔ Text.word? segment = some i.toNat := by
  rw [Text.word?_eq_some_iff]
  exact (and_iff_right i.toNat_lt).symm

theorem namedBy_text (step : Step) : step.NamedBy step.text := by
  cases step with
  | index i => exact namedBy_index_iff.mpr (Text.natural?_toString i.toNat_lt)
  | key k => rfl

theorem dot_not_mem_text {step : Step} (h : step.IsPlain) : '.' ∉ step.text.toList := by
  cases step with
  | index i => exact fun hdot => absurd (Text.isDigit_toString i.toNat '.' hdot) (by decide)
  | key k => exact h.2

theorem text_ne_empty {step : Step} (h : step.IsPlain) : step.text ≠ "" := by
  cases step with
  | index i =>
    rw [text, Nat.toString_eq_repr, ne_eq, ← String.toList_inj, Nat.toList_repr]
    exact Nat.toDigits_ne_nil
  | key k => exact h.1

end Step

/-- The path of a position. -/
def path (steps : List Step) : String := ".".intercalate (steps.map Step.text)

/-! ## Segments -/

theorem segments_append_dot (p q : String) : segments (p ++ "." ++ q) = segments p ++ segments q := by
  have hdot : ".".toList = ['.'] := rfl
  rw [segments, String.toList_append, String.toList_append, hdot, List.append_assoc,
    List.singleton_append, Text.pieces_eq_splitOn, List.splitOn_append_cons_self, List.filter_append,
    List.map_append, ← Text.pieces_eq_splitOn, ← Text.pieces_eq_splitOn]
  rfl

/-- The segments of a path are those of its parts that are not empty. -/
theorem segments_of_cut {p : String} {parts : List String} (h : Text.Cut p parts) :
    segments p = parts.filter (· ≠ "") := by
  obtain ⟨rfl, hundotted⟩ := h
  cases parts with
  | nil => rfl
  | cons part rest =>
    have hpieces : Text.pieces '.' (".".intercalate (part :: rest)).toList =
        (part :: rest).map String.toList := by
      rw [Text.pieces_eq_splitOn, String.toList_intercalate]
      exact List.splitOn_intercalate '.' (by simpa using hundotted) (by simp)
    rw [segments, hpieces, List.filter_map, List.map_map]
    simp only [Function.comp_def, String.ofList_toList, List.map_id']
    refine List.filter_congr fun part _ => ?_
    by_cases hpart : part = "" <;> simp [hpart]

theorem segments_path {steps : List Step} (h : ∀ step ∈ steps, step.IsPlain) :
    segments (path steps) = steps.map Step.text := by
  have hcut : Text.Cut (path steps) (steps.map Step.text) :=
    ⟨rfl, List.forall_mem_map.mpr fun step hstep => Step.dot_not_mem_text (h step hstep)⟩
  rw [segments_of_cut hcut, List.filter_eq_self]
  simpa using fun step hstep => Step.text_ne_empty (h step hstep)

/-! ## What segments lead to -/

theorem descend?_append (v : Value) (segments rest : List String) :
    v.descend? (segments ++ rest) = (v.descend? segments).bind fun w => w.descend? rest :=
  List.foldlM_append

/-- **Paths compose.** -/
theorem at?_append_dot (v : Value) (p q : String) :
    v.at? (p ++ "." ++ q) = (v.at? p).bind fun w => w.at? q := by
  rw [at?, segments_append_dot, descend?_append]
  rfl

/-- One segment leads to where a step leads that it may stand for. -/
theorem child?_eq_some_iff {v w : Value} {segment : String} :
    v.child? segment = some w ↔ ∃ step : Step, step.NamedBy segment ∧ v.step? step = some w := by
  constructor
  · intro h
    cases v with
    | array items =>
      obtain ⟨n, hn, hitem⟩ := Option.bind_eq_some_iff.mp h
      have hi : (UInt64.ofNat n).toNat = n := UInt64.toNat_ofNat_of_lt' (Text.lt_of_natural? hn)
      exact ⟨.index (.ofNat n), Step.namedBy_index_iff.mpr (by rwa [hi]), by rwa [step?, hi]⟩
    | object members => exact ⟨.key segment, rfl, h⟩
    | _ => cases h
  · rintro ⟨step, hname, hstep⟩
    cases v with
    | array items =>
      cases step with
      | index i => rw [child?, Step.namedBy_index_iff.mp hname]; exact hstep
      | key k => cases hstep
    | object members =>
      cases step with
      | index i => cases hstep
      | key k => obtain rfl : segment = k := hname; exact hstep
    | _ => cases step <;> cases hstep

/-- Segments lead to the value at a position whose steps they may stand for. -/
theorem descend?_eq_some_iff {v w : Value} {segments : List String} :
    v.descend? segments = some w ↔
      ∃ steps, List.Forall₂ Step.NamedBy segments steps ∧
        v.locate? steps = some w := by
  induction segments generalizing v with
  | nil => simp
  | cons segment rest ih =>
    rw [descend?_cons, Option.bind_eq_some_iff]
    constructor
    · rintro ⟨u, hu, hw⟩
      obtain ⟨step, hname, hstep⟩ := child?_eq_some_iff.mp hu
      obtain ⟨steps, hnames, hsteps⟩ := ih.mp hw
      refine ⟨step :: steps, .cons hname hnames, ?_⟩
      rw [locate?_cons, hstep]
      exact hsteps
    · rintro ⟨_, hnames, hlocate⟩
      obtain _ | ⟨hname, hnames⟩ := hnames
      obtain ⟨u, hu, hw⟩ := Option.bind_eq_some_iff.mp hlocate
      exact ⟨u, child?_eq_some_iff.mpr ⟨_, hname, hu⟩, ih.mpr ⟨_, hnames, hw⟩⟩

/-- What a path leads to, said of the parts between its dots. -/
theorem at?_eq_some_iff {v w : Value} {p : String} {parts : List String} (h : Text.Cut p parts) :
    v.at? p = some w ↔ ∃ steps, List.Forall₂ Step.NamedBy (parts.filter (· ≠ "")) steps ∧
      v.locate? steps = some w := by
  rw [at?, descend?_eq_some_iff, segments_of_cut h]

/-- The path of a position leads to what is there. -/
theorem at?_path {v w : Value} {steps : List Step} (h : ∀ step ∈ steps, step.IsPlain)
    (hw : v.locate? steps = some w) : v.at? (path steps) = some w := by
  rw [at?, segments_path h, descend?_eq_some_iff]
  refine ⟨steps, ?_, hw⟩
  rw [List.forall₂_map_left_iff, List.forall₂_same]
  exact fun step _ => step.namedBy_text

/-- **What paths lead to.** What is under two paths with a dot between them is what the second one leads
to from where the first one leads, so dots in front, at the end and in a row make no difference. Every
position that can be written down has a path, which leads to exactly what is there. And whatever a path
leads to is the value at a position each of whose steps is named by one part of the path, where the parts
that are empty do not count; all such positions that there are hold this value. -/
theorem paths_lead (v : Value) :
    (∀ p q, v.at? (p ++ "." ++ q) = (v.at? p).bind fun w => w.at? q) ∧
      (∀ p, v.at? ("." ++ p) = v.at? p ∧ v.at? (p ++ ".") = v.at? p) ∧
      (∀ p q, v.at? (p ++ ".." ++ q) = v.at? (p ++ "." ++ q)) ∧
      (∀ steps w, (∀ step ∈ steps, step.IsPlain) → v.locate? steps = some w →
        v.at? (path steps) = some w) ∧
      ∀ p, (∃ parts, Text.Cut p parts) ∧ ∀ parts w, Text.Cut p parts →
        (v.at? p = some w ↔ ∃ steps, List.Forall₂ Step.NamedBy (parts.filter (· ≠ "")) steps ∧
          v.locate? steps = some w) := by
  have hempty (u : Value) : u.at? "" = some u := rfl
  have hlast (u : Value) (p : String) : u.at? (p ++ ".") = u.at? p := by
    rw [← String.append_empty (s := p ++ "."), u.at?_append_dot]
    exact Option.bind_fun_some _
  refine ⟨v.at?_append_dot, fun p => ⟨?_, hlast v p⟩, fun p q => ?_, fun _ _ => at?_path,
    fun p => ⟨Text.exists_cut p, fun _ _ => at?_eq_some_iff⟩⟩
  · have h := v.at?_append_dot "" p
    rwa [String.empty_append] at h
  · have htwo : ".." = "." ++ "." := rfl
    rw [htwo, ← String.append_assoc, v.at?_append_dot, hlast, v.at?_append_dot]

/-- Tables by number, the last of which has a key with a dot in it. -/
def numbered : Value :=
  .object [("0", .array [.string "first", .object [("7", .bool true), ("a.b", .null)]]), ("1", .array [])]

/-- The first segment is a key and the second one an index, in whatever way they are written. -/
theorem paths_lead_numbered :
    path [.key "0", .index 1, .key "7"] = "0.1.7" ∧ numbered.at? "0.1.7" = some (.bool true) ∧
      Text.Cut ".0..+01.7" ["", "0", "", "+01", "7"] ∧ numbered.at? ".0..+01.7" = some (.bool true) ∧
      numbered.at? "0.1.a.b" = none := by
  have hlocate : numbered.locate? [.key "0", .index 1, .key "7"] = some (.bool true) := rfl
  have hplain : ∀ step ∈ [Step.key "0", .index 1, .key "7"], step.IsPlain := by
    simp [Step.IsPlain]
  have hcut : Text.Cut ".0..+01.7" ["", "0", "", "+01", "7"] := ⟨by decide, by decide⟩
  obtain ⟨-, -, -, hpath, hparts⟩ := paths_lead numbered
  have hwritten : path [.key "0", .index 1, .key "7"] = "0.1.7" := by decide
  refine ⟨hwritten, ?_, hcut, ?_, by decide⟩
  · rw [← hwritten]
    exact hpath _ _ hplain hlocate
  · rw [(hparts _).2 _ _ hcut]
    have hindex : Step.NamedBy "+01" (.index 1) :=
      ⟨['+'], ['0', '1'], by decide, .inr rfl, by decide, List.all_eq_true.mp rfl, by decide⟩
    have hnames : List.Forall₂ Step.NamedBy ["0", "+01", "7"] [.key "0", .index 1, .key "7"] :=
      .cons (Eq.refl "0") (.cons hindex (.cons (Eq.refl "7") .nil))
    exact ⟨_, hnames, hlocate⟩

end Value

end FlowEngine
