import FlowEngine.Nodes.Batch
import FlowEngine.Proofs.Numbers.Integral
import FlowEngine.Proofs.Said
import Mathlib.Algebra.Order.Floor.Div

/-!
# Windows tile a sequence

A sequence is cut into windows of one size. How many there are is a division with rounding, and where it is
off by one, the last window is lost or an empty one is added. All of it comes from one equivalence: there is
a window with an index if and only if it begins before the end of the sequence.

A node emits all windows or a single one. Both ways lead to the same windows, so a caller who asks for one
window after the other, until there is none, has seen the sequence.

## Main definitions

* `Tiles`: parts of a list that make up the list, all of one size but the last.
* `Batch.Cuts`: a node that cuts a payload.
* `Batch.Selects`: a node that emits one of the windows that are emitted at once.
* `Batch.Collects`: what a caller sees who asks for one window after the other.

## Main results

* `Batch.lt_count_iff`: which windows there are.
* `Batch.tiles_slices`: windows tile the sequence.
* `Batch.windows_tile`: what the node emits in either way.
-/

namespace FlowEngine

/-- The parts tile a list. One after the other they are the list, and there are as many as are needed. All
are of the full size but the last, which has at most that size and is not empty. -/
structure Tiles {α : Type} (size : Nat) (items : List α) (parts : List (List α)) : Prop where
  flatten : parts.flatten = items
  length : parts.length = items.length ⌈/⌉ size
  full : ∀ part ∈ parts.dropLast, part.length = size
  last : ∀ part ∈ parts.getLast?, 1 ≤ part.length ∧ part.length ≤ size

/-! ## Configured numbers -/

/-- A natural number that is a double is seen as itself. -/
theorem Value.asNatural?_ofNat {n : Nat} (h : n ≤ 2 ^ 53) : (Value.ofNat n).asNatural? = some n := by
  have hword : n ≤ greatestWord := Nat.le_trans h (by decide)
  rw [ofNat, asNatural?, Binary.int?_ofNat h, Option.bind_some, if_pos (Int.natCast_nonneg n),
    Int.toNat_natCast, Nat.min_eq_left hword]

namespace NodeConfig

theorem get?_withConfig_self (node : NodeConfig) (key : String) (value : Value) :
    (node.withConfig key value).config.get? key = some value :=
  Dict.get?_insert_self node.config key value

theorem get?_withConfig_of_ne (node : NodeConfig) {key other : String} (value : Value) (h : other ≠ key) :
    (node.withConfig key value).config.get? other = node.config.get? other := by
  rw [withConfig, Dict.get?_insert, if_neg h]

/-- A natural number that is a double can be configured. -/
theorem natural?_withConfig_self (node : NodeConfig) (key : String) {n : Nat} (h : n ≤ 2 ^ 53) :
    (node.withConfig key (.ofNat n)).natural? key = .ok (some n) := by
  have hvalue := Value.asNatural?_ofNat h
  rw [natural?, get?_withConfig_self]
  rw [Value.ofNat] at hvalue ⊢
  simp only [hvalue]

/-- Where a number is not as it should be, the configuration is at fault. -/
theorem exists_of_natural?_error {node : NodeConfig} {key : String} {e : NodeError}
    (h : node.natural? key = .error e) : ∃ message, e = .configuration message := by
  rw [natural?] at h
  split at h
  · cases h
  · cases h
  · split at h
    · cases h
    · cases h
      exact ⟨_, rfl⟩

end NodeConfig

namespace Batch

/-! ## Slices -/

section Slices

variable {α : Type} {size : Nat}

theorem count_eq_ceilDiv (size length : Nat) : count size length = length ⌈/⌉ size :=
  (Nat.ceilDiv_eq_add_pred_div _ _).symm

/-- There are those windows that begin before the end. -/
theorem lt_count_iff (h : 0 < size) {index length : Nat} :
    index < count size length ↔ index * size < length := by
  rw [count_eq_ceilDiv, ← Nat.not_le, ceilDiv_le_iff_le_mul h, Nat.not_le, Nat.mul_comm]

theorem length_slice (size index : Nat) (items : List α) :
    (slice size index items).length = min size (items.length - index * size) := by
  rw [slice, List.length_take, List.length_drop]

/-- A window and what comes after it. -/
theorem slice_append_drop (size index : Nat) (items : List α) :
    slice size index items ++ items.drop ((index + 1) * size) = items.drop (index * size) := by
  rw [slice, Nat.succ_mul, ← List.drop_drop, List.take_append_drop]

/-- The first windows are what stands before the next one. -/
theorem flatten_slices (size k : Nat) (items : List α) :
    ((List.range k).map fun index => slice size index items).flatten = items.take (k * size) := by
  induction k with
  | zero => simp
  | succ k ih =>
    rw [List.range_succ, List.map_append, List.flatten_append, ih, Nat.succ_mul, List.take_add]
    simp [slice]

theorem succ_lt_of_mem_dropLast {total index : Nat} (h : index ∈ (List.range total).dropLast) :
    index + 1 < total := by
  cases total with
  | zero => cases h
  | succ total =>
    rw [List.range_succ, List.dropLast_concat, List.mem_range] at h
    exact Nat.succ_lt_succ h

/-- **Windows tile the sequence.** -/
theorem tiles_slices (h : 0 < size) (items : List α) :
    Tiles size items ((List.range (count size items.length)).map fun index => slice size index items) := by
  have hend : items.length ≤ count size items.length * size :=
    Nat.not_lt.mp (mt (lt_count_iff h).mpr (Nat.lt_irrefl _))
  constructor
  · rw [flatten_slices, List.take_of_length_le hend]
  · rw [List.length_map, List.length_range, count_eq_ceilDiv]
  · intro part hpart
    rw [← List.map_dropLast] at hpart
    obtain ⟨index, hindex, rfl⟩ := List.mem_map.mp hpart
    have hnext := (lt_count_iff h).mp (succ_lt_of_mem_dropLast hindex)
    rw [Nat.succ_mul] at hnext
    rw [length_slice]
    omega
  · intro part hpart
    have hmem := List.mem_of_getLast? hpart
    obtain ⟨index, hindex, rfl⟩ := List.mem_map.mp hmem
    have hbegin := (lt_count_iff h).mp (List.mem_range.mp hindex)
    rw [length_slice]
    omega

end Slices

/-! ## The node -/

/-- The node cuts the payload into windows of a size, and the sequence that it cuts is not empty. -/
structure Cuts (node : NodeConfig) (payload : Value) (size : Nat) (items : List Value) : Prop where
  configured : node.natural? "batch_size" = .ok (some size)
  pos : 0 < size
  sequence : node.sequence payload = .ok items
  nonempty : items ≠ []

section Run

variable {node : NodeConfig} {input : Envelope Value} {size : Nat} {items : List Value}

theorem Cuts.size_eq (h : Cuts node input.data size items) : Batch.size node = .ok size := by
  obtain ⟨n, rfl⟩ := Nat.exists_eq_add_of_lt h.pos
  rw [Batch.size, h.configured, Nat.zero_add]
  rfl

/-- What the envelope of the window with an index says, at a place of the run. -/
def windowOf (size : Nat) (items : List Value) (input : Message Value) (index : Nat) (trace : Trace) :
    Message Value :=
  (input.derive (Value.array (slice size index items)) trace).withMeta MetaKey.batchIndex (toString index)
    |>.withMeta MetaKey.totalBatches (toString (count size items.length))
    |>.withMeta MetaKey.batchSize (toString size)

theorem toMessage_window (size : Nat) (items : List Value) (input : Envelope Value) (index : Nat)
    (trace : Trace) (supply : Supply) :
    (window size (count size items.length) items input index trace supply).1.toMessage =
      windowOf size items input.toMessage index trace :=
  rfl

/-- A window says which one it is, and how many there are. -/
theorem get?_metadata_windowOf (size : Nat) (items : List Value) (input : Message Value) (index : Nat)
    (trace : Trace) :
    (windowOf size items input index trace).metadata.get? MetaKey.batchIndex = some (toString index) ∧
      (windowOf size items input index trace).metadata.get? MetaKey.totalBatches =
        some (toString (count size items.length)) := by
  have hsize : MetaKey.batchIndex ≠ MetaKey.batchSize ∧ MetaKey.totalBatches ≠ MetaKey.batchSize := by decide
  have htotal : MetaKey.batchIndex ≠ MetaKey.totalBatches := by decide
  rw [windowOf]
  simp only [Message.withMeta, Dict.get?_insert, if_neg hsize.1, if_neg hsize.2, if_neg htotal]
  exact ⟨rfl, rfl⟩

/-- What comes after the size and the sequence have been found. -/
theorem Cuts.says_run (h : Cuts node input.data size items) :
    Says (run node input) <| if (node.flag? "emit_all").getD false then
        .ok (.many ((List.range (count size items.length)).map fun index =>
          windowOf size items input.toMessage index ((input.trace.next node.id).child node.id index)))
      else node.natural? "batch_index" >>= fun index =>
        if index.getD 0 < count size items.length then
          .ok (.single (windowOf size items input.toMessage (index.getD 0) (input.trace.next node.id)))
        else .error (.configuration ("batch_index " ++ toString (index.getD 0) ++
          " out of range, input has " ++ toString (count size items.length) ++ " batches")) := by
  rw [run, h.size_eq]
  change Says (node.sequence input.data >>= _) _
  rw [h.sequence]
  change Says (if items.isEmpty then _ else _) _
  rw [if_neg (by simpa using h.nonempty)]
  change Says (if _ then _ else _) _
  split
  · refine says_ok fun supply => congrArg Said.many ?_
    exact Issuing.map_each (fun index => toMessage_window size items input index _) _ supply
  · refine .bind fun index => ?_
    change Says (if _ then _ else _) _
    split
    · exact says_ok fun supply => rfl
    · exact says_error _

/-- A node emits all windows. -/
theorem Cuts.says_all (h : Cuts node input.data size items) (hall : node.flag? "emit_all" = some true) :
    Says (run node input) (.ok (.many ((List.range (count size items.length)).map fun index =>
      windowOf size items input.toMessage index ((input.trace.next node.id).child node.id index)))) := by
  have hsays := h.says_run
  rwa [hall, Option.getD_some, if_pos rfl] at hsays

/-- A node that does not emit all windows looks for the window with its index. -/
theorem Cuts.says_index (h : Cuts node input.data size items) (hsingle : node.flag? "emit_all" ≠ some true) :
    Says (run node input) (node.natural? "batch_index" >>= fun index =>
      if index.getD 0 < count size items.length then
        .ok (.single (windowOf size items input.toMessage (index.getD 0) (input.trace.next node.id)))
      else .error (.configuration ("batch_index " ++ toString (index.getD 0) ++
        " out of range, input has " ++ toString (count size items.length) ++ " batches"))) := by
  have hflag : ¬ (node.flag? "emit_all").getD false = true := by
    cases hf : node.flag? "emit_all" with
    | none => nofun
    | some flag =>
      rintro rfl
      exact hsingle hf
  have hsays := h.says_run
  rwa [if_neg hflag] at hsays

/-- A node emits the window with its index, if there is one. -/
theorem Cuts.says_single (h : Cuts node input.data size items) (hsingle : node.flag? "emit_all" ≠ some true)
    {index : Option Nat} (hindex : node.natural? "batch_index" = .ok index) :
    Says (run node input) <|
      if index.getD 0 < count size items.length then
        .ok (.single (windowOf size items input.toMessage (index.getD 0) (input.trace.next node.id)))
      else .error (.configuration ("batch_index " ++ toString (index.getD 0) ++
        " out of range, input has " ++ toString (count size items.length) ++ " batches")) := by
  have hsays := h.says_index hsingle
  rwa [hindex] at hsays

/-- A node fails if its index is not a number. -/
theorem Cuts.says_error (h : Cuts node input.data size items) (hsingle : node.flag? "emit_all" ≠ some true)
    {e : NodeError} (hindex : node.natural? "batch_index" = .error e) :
    Says (run node input) (.error e) := by
  have hsays := h.says_index hsingle
  rwa [hindex] at hsays

end Run

/-! ## One window after the other -/

/-- What a caller sees that runs nodes with increasing indices, from `index` on, until one fails. -/
inductive Collects (nodes : Nat → NodeConfig) (input : Envelope Value) : Nat → List Value → Prop
  | stop {index : Nat} {e : NodeError} (h : Says (run (nodes index) input) (.error e)) :
    Collects nodes input index []
  | next {index : Nat} {m : Message Value} {part seen : List Value}
    (h : Says (run (nodes index) input) (.ok (.single m))) (hdata : m.data = .array part)
    (hrest : Collects nodes input (index + 1) seen) : Collects nodes input index (part ++ seen)

/-- Nodes that cut the same sequence. Each emits the window whose index is its number. -/
structure Numbered (nodes : Nat → NodeConfig) (payload : Value) (size : Nat) (items : List Value) : Prop where
  cuts : ∀ index ≤ count size items.length, Cuts (nodes index) payload size items
  single : ∀ index ≤ count size items.length, (nodes index).flag? "emit_all" ≠ some true
  index : ∀ index ≤ count size items.length, (nodes index).natural? "batch_index" = .ok (some index)

/-- The index of a node can be configured, and this leaves the rest as it is. -/
theorem Cuts.numbered {node : NodeConfig} {payload : Value} {size : Nat} {items : List Value}
    (h : Cuts node payload size items) (hsingle : node.flag? "emit_all" ≠ some true)
    (hcount : count size items.length ≤ 2 ^ 53) :
    Numbered (fun index => node.withConfig "batch_index" (.ofNat index)) payload size items := by
  have hother (index : Nat) {key : String} (hkey : key ≠ "batch_index") :
      (node.withConfig "batch_index" (.ofNat index)).config.get? key = node.config.get? key :=
    node.get?_withConfig_of_ne _ hkey
  constructor
  · intro index _
    constructor
    · rw [NodeConfig.natural?, hother index (by decide)]
      exact h.configured
    · exact h.pos
    · rw [NodeConfig.sequence, NodeConfig.nonemptyText?, NodeConfig.text?, hother index (by decide)]
      exact h.sequence
    · exact h.nonempty
  · intro index _
    rw [NodeConfig.flag?, hother index (by decide)]
    exact hsingle
  · intro index hle
    exact node.natural?_withConfig_self "batch_index" (Nat.le_trans hle hcount)

/-- The caller sees what is left of the sequence, and nothing else. -/
theorem Numbered.collects_iff {nodes : Nat → NodeConfig} {input : Envelope Value} {size : Nat}
    {items : List Value} (h : Numbered nodes input.data size items) {index : Nat}
    (hle : index ≤ count size items.length) {seen : List Value} :
    Collects nodes input index seen ↔ seen = items.drop (index * size) := by
  have hpos : 0 < size := (h.cuts index hle).pos
  obtain ⟨left, hleft⟩ := Nat.exists_eq_add_of_le hle
  induction left generalizing index seen with
  | zero =>
    have hend : ¬ index < count size items.length := Nat.not_lt.mpr (Nat.le_of_eq hleft)
    have hrun := (h.cuts index hle).says_single (h.single index hle) (h.index index hle)
    rw [Option.getD_some, if_neg hend] at hrun
    have hnil : items.drop (index * size) = [] :=
      List.drop_eq_nil_of_le (Nat.not_lt.mp (mt (lt_count_iff hpos).mpr hend))
    rw [hnil]
    constructor
    · rintro (_ | ⟨hnext, -, -⟩)
      · rfl
      · cases hrun.unique hnext
    · rintro rfl
      exact .stop hrun
  | succ left ih =>
    have hlt : index < count size items.length := by omega
    have hrun := (h.cuts index hle).says_single (h.single index hle) (h.index index hle)
    rw [Option.getD_some, if_pos hlt] at hrun
    have hrest {seen : List Value} :
        Collects nodes input (index + 1) seen ↔ seen = items.drop ((index + 1) * size) :=
      ih hlt (by omega)
    rw [← slice_append_drop]
    constructor
    · rintro (hstop | ⟨hnext, hdata, hseen⟩)
      · cases hrun.unique hstop
      · cases hrun.unique hnext
        cases hdata
        rw [hrest.mp hseen]
    · rintro rfl
      exact .next hrun rfl (hrest.mpr rfl)

/-! ## Both ways -/

/-- A node emits the window with its index. It succeeds if there is one, with the same payload and metadata,
and otherwise the configuration is at fault. -/
structure Selects (node : NodeConfig) (input : Envelope Value) (windows : List (Message Value)) : Prop where
  within : ∀ index, node.natural? "batch_index" = .ok index → index.getD 0 < windows.length →
    ∃ m m', windows[index.getD 0]? = some m ∧ Says (run node input) (.ok (.single m')) ∧
      m'.data = m.data ∧ m'.metadata = m.metadata
  beyond : (∀ index, node.natural? "batch_index" = .ok index → windows.length ≤ index.getD 0) →
    ∃ message, Says (run node input) (.error (.configuration message))

/-- A node that emits a single window selects it among those that are emitted at once. -/
theorem Cuts.selects {node : NodeConfig} {input : Envelope Value} {size : Nat} {items : List Value}
    (h : Cuts node input.data size items) (hsingle : node.flag? "emit_all" ≠ some true) (trace : Nat → Trace) :
    Selects node input ((List.range (count size items.length)).map fun index =>
      windowOf size items input.toMessage index (trace index)) := by
  constructor
  · intro index hindex hlt
    rw [List.length_map, List.length_range] at hlt
    have hsays := h.says_single hsingle hindex
    rw [if_pos hlt] at hsays
    rw [List.getElem?_map, List.getElem?_range hlt]
    exact ⟨_, _, rfl, hsays, rfl, rfl⟩
  · intro hbeyond
    cases hindex : node.natural? "batch_index" with
    | error e =>
      obtain ⟨message, rfl⟩ := NodeConfig.exists_of_natural?_error hindex
      exact ⟨message, h.says_error hsingle hindex⟩
    | ok index =>
      have hle := hbeyond index hindex
      rw [List.length_map, List.length_range] at hle
      have hsays := h.says_single hsingle hindex
      rw [if_neg (Nat.not_lt.mpr hle)] at hsays
      exact ⟨_, hsays⟩

/-- **Windows tile the sequence, and both ways agree.** A node that emits all windows emits one for each part
of a tiling, with its index and with the number of all of them. A node that emits a single one selects it
among these. So a caller who asks for one window after the other, until there is none, sees every element
once, in order. -/
theorem windows_tile {all : NodeConfig} {input : Envelope Value} {size : Nat} {items : List Value}
    (h : Cuts all input.data size items) (hall : all.flag? "emit_all" = some true) :
    ∃ (windows : List (Message Value)) (parts : List (List Value)),
      Says (run all input) (.ok (.many windows)) ∧
      Tiles size items parts ∧ windows.map Message.data = parts.map Value.array ∧
      (∀ (index : Nat) (m : Message Value), windows[index]? = some m →
        m.metadata.get? MetaKey.batchIndex = some (toString index) ∧
          m.metadata.get? MetaKey.totalBatches = some (toString parts.length)) ∧
      (∀ node : NodeConfig, Cuts node input.data size items → node.flag? "emit_all" ≠ some true →
        Selects node input windows) ∧
      ∀ nodes : Nat → NodeConfig, Numbered nodes input.data size items →
        ∀ seen, Collects nodes input 0 seen ↔ seen = items := by
  refine ⟨_, _, h.says_all hall, tiles_slices h.pos items, ?_, ?_, ?_, ?_⟩
  · rw [List.map_map, List.map_map]
    rfl
  · intro index m hm
    rw [List.getElem?_map, Option.map_eq_some_iff] at hm
    obtain ⟨i, hi, rfl⟩ := hm
    obtain ⟨-, rfl⟩ := List.getElem?_eq_some_iff.mp hi
    rw [List.getElem_range, List.length_map, List.length_range]
    exact get?_metadata_windowOf size items input.toMessage index _
  · intro node hcuts hsingle
    exact hcuts.selects hsingle _
  · intro nodes hnodes seen
    rw [hnodes.collects_iff (Nat.zero_le _), Nat.zero_mul, List.drop_zero]

/-- Seven texts. -/
def seven : List Value :=
  ["a", "b", "c", "d", "e", "f", "g"].map Value.string

/-- A message with seven texts. -/
def sevenTexts : Envelope Value :=
  { Message.new (.array seven) (.start "orders" "run-1" "input") with
    id := .ofNat 0
    issuedAt := default }

/-- A node that cuts into windows of three. -/
def threes : NodeConfig :=
  ({ id := "batch", nodeType := "flow.batch" } : NodeConfig).withConfig "batch_size" (.ofNat 3)

theorem cuts_threes : Cuts threes sevenTexts.data 3 seven where
  configured := NodeConfig.natural?_withConfig_self _ _ (by decide)
  pos := by decide
  sequence := rfl
  nonempty := by simp [seven]

theorem windows_tile_seven :
    ∃ (windows : List (Message Value)) (parts : List (List Value)),
      Says (run (threes.withConfig "emit_all" (.bool true)) sevenTexts) (.ok (.many windows)) ∧
      Tiles 3 seven parts ∧ parts.length = 3 ∧ windows.map Message.data = parts.map Value.array ∧
      (∃ message, Says (run (threes.withConfig "batch_index" (.ofNat 3)) sevenTexts)
        (.error (.configuration message))) ∧
      Collects (fun index => threes.withConfig "batch_index" (.ofNat index)) sevenTexts 0 seven := by
  have hall : Cuts (threes.withConfig "emit_all" (.bool true)) sevenTexts.data 3 seven :=
    ⟨cuts_threes.configured, by decide, rfl, cuts_threes.nonempty⟩
  have hsingle : threes.flag? "emit_all" = none := rfl
  have hnumbered := cuts_threes.numbered (by rw [hsingle]; nofun) (by decide)
  obtain ⟨windows, parts, hrun, htiles, hdata, -, hselects, hcollects⟩ := windows_tile hall rfl
  have hlength : parts.length = 3 := htiles.length
  have hwindows : windows.length = 3 := by
    simpa [hlength] using congrArg List.length hdata
  have hthird : 3 ≤ count 3 seven.length := by decide
  refine ⟨windows, parts, hrun, htiles, hlength, hdata, ?_, (hcollects _ hnumbered seven).mpr rfl⟩
  refine (hselects _ (hnumbered.cuts 3 hthird) (hnumbered.single 3 hthird)).beyond ?_
  intro index hindex
  rw [hnumbered.index 3 hthird] at hindex
  cases hindex
  exact Nat.le_of_eq hwindows

end Batch

end FlowEngine
