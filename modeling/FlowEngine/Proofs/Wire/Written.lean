import FlowEngine.Proofs.Wire.Scanned

/-!
# Reading what has been written

A document that starts with a printed tree is read back by a reader of that tree, whatever the layout
is, however deeply it stands in other trees, and whatever follows it. Some trees cannot be read back,
since they nest too deeply or hold what has no JSON form. So `ReadsBack` says when a reader succeeds as
well: exactly if a proposition holds, and it fails otherwise. Both halves go through sequences of
readers alike, by `OkIff.bind`.

## Main definitions

* `Json.OkIff`: succeeds with a result exactly if a proposition holds.
* `Json.written`, `Json.writtenItems`, `Json.writtenMembers`: a document that starts with a tree.
* `Json.ReadsBack`: a reader gives back a value exactly if a proposition holds.

## Main results

* `Json.readItems_written`, `Json.readMembers_written`: lists and objects are read back if their items
  and members are.
-/

namespace FlowEngine

namespace Json

variable {α β : Type}

/-! ## Success and failure -/

/-- Succeeds with `a` if `p` holds, and fails otherwise. -/
structure OkIff (r : Except Fault α) (p : Prop) (a : α) : Prop where
  ok : p → r = .ok a
  fault : ¬ p → ∃ fault, r = .error fault

namespace OkIff

variable {r : Except Fault α} {p q : Prop} {a : α} {b : β}

theorem of_ok (h : r = .ok a) : OkIff r True a := ⟨fun _ => h, fun hn => absurd trivial hn⟩

theorem of_error {fault : Fault} (h : r = .error fault) (hp : ¬ p) : OkIff r p a :=
  ⟨fun h => absurd h hp, fun _ => ⟨fault, h⟩⟩

theorem congr (h : OkIff r p a) (hpq : p ↔ q) : OkIff r q a :=
  ⟨fun hq => h.ok (hpq.mpr hq), fun hq => h.fault fun hp => hq (hpq.mp hp)⟩

/-- One step after another. -/
theorem bind {next : α → Except Fault β} (h : OkIff r p a) (hnext : p → OkIff (next a) q b) :
    OkIff (r >>= next) (p ∧ q) b := by
  constructor
  · rintro ⟨hp, hq⟩
    rw [h.ok hp]
    exact (hnext hp).ok hq
  · intro hn
    by_cases hp : p
    · rw [h.ok hp]
      exact (hnext hp).fault fun hq => hn ⟨hp, hq⟩
    · obtain ⟨fault, hfault⟩ := h.fault hp
      rw [hfault]
      exact ⟨fault, rfl⟩

/-- A step that cannot fail. -/
theorem bind_ok {next : α → Except Fault β} (h : OkIff r p a) (hnext : next a = .ok b) :
    OkIff (r >>= next) p b :=
  (h.bind fun _ => of_ok hnext).congr (iff_of_eq (and_true p))

theorem map (h : OkIff r p a) (f : α → β) : OkIff (r.map f) p (f a) := by
  constructor
  · intro hp
    rw [h.ok hp]
    rfl
  · intro hn
    obtain ⟨fault, hfault⟩ := h.fault hn
    rw [hfault]
    exact ⟨fault, rfl⟩

/-- Success and failure as others see them, who have errors of their own. -/
theorem mapError {ε : Type} (h : OkIff r p a) (f : Fault → ε) :
    (r.mapError f = .ok a ↔ p) ∧ (r.mapError f ≠ .ok a → ∃ fault, r.mapError f = .error (f fault)) := by
  by_cases hp : p
  · rw [h.ok hp]
    exact ⟨iff_of_true rfl hp, fun hne => absurd rfl hne⟩
  · obtain ⟨fault, hfault⟩ := h.fault hp
    rw [hfault]
    refine ⟨iff_of_false ?_ hp, fun _ => ⟨fault, rfl⟩⟩
    rintro ⟨⟩

end OkIff

/-! ## Documents -/

/-- A document that starts with a tree. -/
def written (layout : Layout) (level : Nat) (json : Json) (rest : Glyphs) : Glyphs :=
  (print layout level json).map some ++ rest

/-- What stands before an item or a member. -/
def lead (layout : Layout) (level : Nat) (first : Bool) (rest : Glyphs) : Glyphs :=
  (if first then [] else [some ',']) ++ ((layout.gap level).map some ++ rest)

/-- Items up to what closes their list. -/
def writtenItems (layout : Layout) (level : Nat) : Bool → List Json → Glyphs → Glyphs
  | _, [], rest => rest
  | first, item :: items, rest =>
    lead layout level first (written layout level item (writtenItems layout level false items rest))

/-- The content of a string and its closing quote. -/
def writtenText (text : String) (rest : Glyphs) : Glyphs :=
  (text.toList.flatMap escapedChar).map some ++ some '"' :: rest

/-- Members up to what closes their object. -/
def writtenMembers (layout : Layout) (level : Nat) : Bool → List (String × Json) → Glyphs → Glyphs
  | _, [], rest => rest
  | first, (key, value) :: members, rest =>
    lead layout level first (some '"' :: writtenText key (layout.colon.map some ++
      written layout level value (writtenMembers layout level false members rest)))

/-- What closes a list or an object. -/
def closing (layout : Layout) (level : Nat) (empty : Bool) (c : Char) (rest : Glyphs) : Glyphs :=
  (if empty then [] else (layout.gap level).map some) ++ some c :: rest

section Written

variable (layout : Layout) (level : Nat) {rest : Glyphs}

theorem written_items (items : List Json) :
    (printItems layout level items).map some ++ rest = writtenItems layout level false items rest := by
  induction items with
  | nil => rfl
  | cons item items ih => simp [printItems, writtenItems, lead, written, ← ih]

theorem written_members (members : List (String × Json)) :
    (printMembers layout level members).map some ++ rest =
      writtenMembers layout level false members rest := by
  induction members with
  | nil => rfl
  | cons member members ih =>
    simp [printMembers, writtenMembers, lead, written, writtenText, printString, ← ih]

theorem written_array (items : List Json) :
    written layout level (.array items) rest =
      some '[' :: writtenItems layout (level + 1) true items
        (closing layout level items.isEmpty ']' rest) := by
  cases items with
  | nil => rfl
  | cons item items => simp [written, print, writtenItems, lead, closing, ← written_items]

theorem written_object (members : List (String × Json)) :
    written layout level (.object members) rest =
      some '\x7b' :: writtenMembers layout (level + 1) true members
        (closing layout level members.isEmpty '\x7d' rest) := by
  cases members with
  | nil => rfl
  | cons member members =>
    simp [written, print, writtenMembers, lead, closing, writtenText, printString, ← written_members]

theorem written_string (text : String) :
    written layout level (.string text) rest = some '"' :: writtenText text rest := by
  simp [written, print, writtenText, printString]

/-- A document that starts with a tree has no blanks before it. -/
theorem exists_start_written (json : Json) (rest : Glyphs) :
    ∃ c s, written layout level json rest = some c :: s ∧ isStart c := by
  obtain ⟨c, cs, hcs, hc⟩ := exists_start_print layout level json
  exact ⟨c, cs.map some ++ rest, by rw [written, hcs, List.map_cons, List.cons_append], hc⟩

theorem skipBlanks_written (json : Json) :
    skipBlanks (written layout level json rest) = written layout level json rest := by
  obtain ⟨c, s, hs, hc⟩ := exists_start_written layout level json rest
  rw [hs, skipBlanks_of_isStart hc]

theorem skipBlanks_colon (json : Json) :
    skipBlanks ((layout.colon.drop 1).map some ++ written layout level json rest) =
      written layout level json rest := by
  cases layout with
  | compact => exact skipBlanks_written _ level json
  | indented => exact skipBlanks_written _ level json

theorem skipBlanks_closing (empty : Bool) {c : Char} (hc : skipBlanks (some c :: rest) = some c :: rest) :
    skipBlanks (closing layout level empty c rest) = some c :: rest := by
  cases empty with
  | false => rw [closing, if_neg (by simp), skipBlanks_gap, hc]
  | true => exact hc

/-! ## Between items and members -/

theorem ended_lead (s : Glyphs) : Ended (lead layout level false s) :=
  ended_cons (by simp) _

theorem ended_closing (empty : Bool) {c : Char} (hc : c ∈ [']', '\x7d']) :
    Ended (closing layout level empty c rest) := by
  have hended : Ended (some c :: rest) := ended_cons (List.mem_cons_of_mem _ (List.mem_append_left _ hc)) rest
  cases empty with
  | false =>
    cases layout with
    | compact => exact hended
    | indented => exact ended_cons (by simp) _
  | true => exact hended

theorem ended_writtenItems (items : List Json) (h : Ended rest) :
    Ended (writtenItems layout level false items rest) := by
  cases items with
  | nil => exact h
  | cons item items => exact ended_lead layout level _

theorem ended_writtenMembers (members : List (String × Json)) (h : Ended rest) :
    Ended (writtenMembers layout level false members rest) := by
  cases members with
  | nil => exact h
  | cons member members => exact ended_lead layout level _

/-- Another item is found. -/
theorem nextItem_lead (first : Bool) (json : Json) :
    nextItem first (lead layout level first (written layout level json rest)) =
      .ok (.more (written layout level json rest)) := by
  obtain ⟨c, s, hs, hc⟩ := exists_start_written layout level json rest
  have hblanks : skipBlanks ((layout.gap level).map some ++ written layout level json rest) =
      some c :: s := by
    rw [skipBlanks_gap, skipBlanks_written, hs]
  have hbracket : c ≠ ']' := by
    rintro rfl
    exact absurd hc (by decide)
  cases first with
  | true =>
    rw [lead, if_pos rfl, List.nil_append, nextItem, hblanks, hs]
    simp [hbracket]
  | false =>
    have hcomma : skipBlanks (some ',' :: ((layout.gap level).map some ++
        written layout level json rest)) = some ',' :: ((layout.gap level).map some ++
          written layout level json rest) := rfl
    rw [lead, if_neg (by simp), List.singleton_append, nextItem, hcomma]
    rw [hs] at hblanks ⊢
    simp [hblanks, hbracket]

/-- The end of a list is found. -/
theorem nextItem_of_skipBlanks {first : Bool} {s : Glyphs} (h : skipBlanks s = some ']' :: rest) :
    nextItem first s = .ok (.done (some ']' :: rest)) := by
  rw [nextItem, h]
  rfl

/-- Another key is found. -/
theorem nextKey_lead (first : Bool) (s : Glyphs) :
    nextKey first (lead layout level first (some '"' :: s)) = .ok (.more s) := by
  have hblanks : skipBlanks ((layout.gap level).map some ++ some '"' :: s) = some '"' :: s :=
    skipBlanks_gap layout level _
  cases first with
  | true =>
    rw [lead, if_pos rfl, List.nil_append, nextKey, hblanks]
    rfl
  | false =>
    have hcomma : skipBlanks (some ',' :: ((layout.gap level).map some ++ some '"' :: s)) =
      some ',' :: ((layout.gap level).map some ++ some '"' :: s) := rfl
    rw [lead, if_neg (by simp), List.singleton_append, nextKey, hcomma]
    simp [hblanks]

/-- The end of an object is found. -/
theorem nextKey_of_skipBlanks {first : Bool} {s : Glyphs} (h : skipBlanks s = some '\x7d' :: rest) :
    nextKey first s = .ok (.done (some '\x7d' :: rest)) := by
  rw [nextKey, h]
  rfl

theorem readString_writtenText (text : String) (s : Glyphs) :
    readString (writtenText text s) = .ok (text, s) :=
  readString_printed text s

theorem readColon_colon (s : Glyphs) :
    readColon (layout.colon.map some ++ s) = .ok ((layout.colon.drop 1).map some ++ s) := by
  cases layout with
  | compact => rfl
  | indented => rfl

end Written

/-! ## Readers -/

/-- The reader gives back `a` from documents that start with the tree, if `p` holds, and fails
otherwise. -/
def ReadsBack (read : Glyphs → Except Fault (α × Glyphs)) (json : Json) (p : Prop) (a : α) : Prop :=
  ∀ (layout : Layout) (level : Nat) (rest s : Glyphs), Ended rest →
    skipBlanks s = written layout level json rest → OkIff (read s) p (a, rest)

theorem ReadsBack.congr {read : Glyphs → Except Fault (α × Glyphs)} {json : Json} {p q : Prop} {a : α}
    (h : ReadsBack read json p a) (hpq : p ↔ q) : ReadsBack read json q a :=
  fun layout level rest s hrest hs => (h layout level rest s hrest hs).congr hpq

section Containers

variable (layout : Layout) (level : Nat) {rest : Glyphs} {read : Glyphs → Except Fault (α × Glyphs)}
  {ι : Type} {key : ι → String} {tree : ι → Json} {value : ι → α} {p : ι → Prop}

theorem readItemsFrom_written {items : List ι} (h : ∀ i ∈ items, ReadsBack read (tree i) (p i) (value i))
    {fuel : Nat} (hfuel : items.length < fuel) (first : Bool) {s : Glyphs} (hended : Ended s)
    (hs : skipBlanks s = some ']' :: rest) :
    OkIff (readItemsFrom read fuel first (writtenItems layout level first (items.map tree) s))
      (∀ i ∈ items, p i) (items.map value, some ']' :: rest) := by
  induction items generalizing fuel first with
  | nil =>
    obtain ⟨fuel, rfl⟩ := Nat.exists_eq_add_of_lt hfuel
    refine (OkIff.of_ok ?_).congr (by simp)
    rw [List.map_nil, writtenItems, readItemsFrom, nextItem_of_skipBlanks hs]
    rfl
  | cons i items ih =>
    obtain ⟨fuel, rfl⟩ := Nat.exists_eq_add_of_lt hfuel
    rw [List.map_cons, writtenItems, readItemsFrom, nextItem_lead]
    have hitem := h i (by simp) layout level _ _
      (ended_writtenItems layout level (items.map tree) hended) (skipBlanks_written layout level _)
    have hfuel : items.length < (i :: items).length + fuel := by
      rw [List.length_cons]
      omega
    have hitems := ih (fun i hi => h i (by simp [hi])) hfuel false
    refine (hitem.bind (q := ∀ i ∈ items, p i) fun _ => ?_).congr List.forall_mem_cons.symm
    dsimp only
    exact hitems.bind_ok rfl

theorem length_le_writtenItems (first : Bool) (items : List Json) (s : Glyphs) :
    items.length + s.length ≤ (writtenItems layout level first items s).length := by
  induction items generalizing first with
  | nil => simp [writtenItems]
  | cons item items ih =>
    obtain ⟨c, cs, hcs, -⟩ := exists_start_print layout level item
    have := ih false
    simp only [writtenItems, lead, written, hcs, List.length_append, List.length_map,
      List.length_cons]
    omega

/-- Lists are read back if their items are. -/
theorem readItems_written (outer : Nat) (empty : Bool) {items : List ι}
    (h : ∀ i ∈ items, ReadsBack read (tree i) (p i) (value i)) :
    OkIff (readItems read (writtenItems layout level true (items.map tree)
        (closing layout outer empty ']' rest)))
      (∀ i ∈ items, p i) (items.map value, some ']' :: rest) := by
  refine readItemsFrom_written layout level h ?_ true (ended_closing layout outer empty (by simp))
    (skipBlanks_closing layout outer empty rfl)
  have := length_le_writtenItems layout level true (items.map tree)
    (closing layout outer empty ']' rest)
  rw [List.length_map] at this
  omega

theorem readMembersFrom_written {members : List ι}
    (h : ∀ i ∈ members, ReadsBack read (tree i) (p i) (value i)) {fuel : Nat}
    (hfuel : members.length < fuel) (first : Bool) {s : Glyphs} (hended : Ended s)
    (hs : skipBlanks s = some '\x7d' :: rest) :
    OkIff (readMembersFrom read fuel first
        (writtenMembers layout level first (members.map fun i => (key i, tree i)) s))
      (∀ i ∈ members, p i) (members.map fun i => (key i, value i), some '\x7d' :: rest) := by
  induction members generalizing fuel first with
  | nil =>
    obtain ⟨fuel, rfl⟩ := Nat.exists_eq_add_of_lt hfuel
    refine (OkIff.of_ok ?_).congr (by simp)
    rw [List.map_nil, writtenMembers, readMembersFrom, nextKey_of_skipBlanks hs]
    rfl
  | cons i members ih =>
    obtain ⟨fuel, rfl⟩ := Nat.exists_eq_add_of_lt hfuel
    rw [List.map_cons, writtenMembers, readMembersFrom, nextKey_lead]
    have hvalue := h i (by simp) layout level _ _
      (ended_writtenMembers layout level (members.map fun i => (key i, tree i)) hended)
      (skipBlanks_colon layout level (tree i))
    have hfuel : members.length < (i :: members).length + fuel := by
      rw [List.length_cons]
      omega
    have hmembers := ih (fun i hi => h i (by simp [hi])) hfuel false
    change OkIff (readString (writtenText (key i) _) >>= _) _ _
    rw [readString_writtenText]
    change OkIff (readColon _ >>= _) _ _
    rw [readColon_colon]
    change OkIff (read _ >>= _) _ _
    refine (hvalue.bind (q := ∀ i ∈ members, p i) fun _ => ?_).congr (by rw [List.forall_mem_cons])
    exact hmembers.bind_ok rfl

theorem length_le_writtenMembers (first : Bool) (members : List (String × Json)) (s : Glyphs) :
    members.length + s.length ≤ (writtenMembers layout level first members s).length := by
  induction members generalizing first with
  | nil => simp [writtenMembers]
  | cons member members ih =>
    have := ih false
    simp only [writtenMembers, lead, written, writtenText, List.length_append, List.length_map,
      List.length_cons]
    omega

/-- Objects are read back if their members are. -/
theorem readMembers_written (outer : Nat) (empty : Bool) {members : List ι}
    (h : ∀ i ∈ members, ReadsBack read (tree i) (p i) (value i)) :
    OkIff (readMembers read (writtenMembers layout level true (members.map fun i => (key i, tree i))
        (closing layout outer empty '\x7d' rest)))
      (∀ i ∈ members, p i) (members.map fun i => (key i, value i), some '\x7d' :: rest) := by
  refine readMembersFrom_written layout level h ?_ true
    (ended_closing layout outer empty (by simp)) (skipBlanks_closing layout outer empty rfl)
  have := length_le_writtenMembers layout level true (members.map fun i => (key i, tree i))
    (closing layout outer empty '\x7d' rest)
  rw [List.length_map] at this
  omega

end Containers

/-! ## Strings and numbers -/

theorem readWith_written_string (nested : Option (Glyphs → Except Fault (Json × Glyphs)))
    (layout : Layout) (level : Nat) (text : String) (rest : Glyphs) :
    readWith nested (written layout level (.string text) rest) = .ok (.string text, rest) := by
  rw [written_string]
  change (readString (writtenText text rest)).map _ = _
  rw [readString_writtenText]
  rfl

/-- The text of a number is read as a number. -/
def Number.ReadsAs (n m : Number) : Prop := readNumber ((printNumber n).map some) = .ok (m, [])

instance (n m : Number) : Decidable (n.ReadsAs m) :=
  inferInstanceAs (Decidable (readNumber ((printNumber n).map some) = .ok (m, [])))

theorem readsAs_natural {n : Nat} (h : n < UInt64.size) : (Number.whole n).ReadsAs (.whole n) :=
  readNumber_natural h

/-- Integers are read back as integers. -/
theorem readsAs_whole {n : Int} (h : n.natAbs < UInt64.size / 2) : (Number.whole n).ReadsAs (.whole n) := by
  obtain ⟨k, rfl | rfl⟩ := n.eq_nat_or_neg
  · rw [Int.natAbs_natCast] at h
    exact readsAs_natural (Nat.lt_of_lt_of_le h (by decide))
  · rw [Int.natAbs_neg, Int.natAbs_natCast] at h
    rcases Nat.eq_zero_or_pos k with rfl | hpos
    · exact readsAs_natural (by decide)
    · exact readNumber_negative hpos (Nat.le_of_lt h)

theorem Number.ReadsAs.exists_start {n m : Number} (h : n.ReadsAs m) :
    ∃ c cs, printNumber n = c :: cs ∧ startsNumber (some c) := by
  obtain ⟨g, t, ht, hg⟩ := startsNumber_of_readNumber h
  obtain ⟨c, cs, hcs, rfl, -⟩ := List.map_eq_cons_iff.mp ht
  exact ⟨c, cs, hcs, hg⟩

theorem readWith_written_number {n m : Number} (h : n.ReadsAs m)
    (nested : Option (Glyphs → Except Fault (Json × Glyphs))) (layout : Layout) (level : Nat)
    {rest : Glyphs} (hrest : Ended rest) :
    readWith nested (written layout level (.number n) rest) = .ok (.number m, rest) := by
  have hread : readNumber (written layout level (.number n) rest) = .ok (m, rest) :=
    local_readNumber _ m [] h rest hrest
  obtain ⟨c, cs, hcs, hc⟩ := h.exists_start
  have hwritten : written layout level (.number n) rest = some c :: (cs.map some ++ rest) := by
    rw [written, print, hcs, List.map_cons, List.cons_append]
  rw [readWith, skipBlanks_written, hwritten]
  rw [hwritten] at hread
  -- No other value starts like a number.
  split
  case h_1 heq => cases heq
  case h_8 =>
    rename_i heq
    obtain ⟨rfl, rfl⟩ := List.cons.inj heq
    rw [if_pos hc, hread]
    rfl
  all_goals
    rename_i heq
    obtain ⟨heq, -⟩ := List.cons.inj heq
    rw [heq] at hc
    cases hc

end Json

end FlowEngine
