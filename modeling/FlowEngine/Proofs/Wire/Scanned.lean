import FlowEngine.Json.Printer
import FlowEngine.Json.Reader
import Mathlib.Data.List.Induction

/-!
# Scanning what has been printed

The pieces of printed text are read back piece by piece: bytes as characters, blanks, the content of
strings, and numbers. A scanner of a number goes on for as long as it can, so what follows the number
must not look like more of it. `Ended` says so, and holds of all that follows a value in a document.

## Main definitions

* `Json.Ended`: what follows cannot belong to a number before it.
* `Json.isStart`: the characters that a printed value starts with.

## Main results

* `Json.Glyphs.ofBytes_toUTF8`: the bytes of a text are its characters again.
* `Json.readString_printed`: the content of a string is read back, whatever its characters are.
* `Json.local_readNumber`: a number is read to its end and no further.
* `Json.readNumber_natural`, `Json.readNumber_negative`: integers are read back.
* `Json.readNumber_real_ne_whole`: the text of a double is never read as an integer.
-/

namespace FlowEngine

open Text (isDigit_toDigits)

namespace Json

/-! ## Characters -/

theorem size_utf8Encode_singleton (c : Char) : [c].utf8Encode.size = c.utf8Size := by
  rw [List.utf8Encode_singleton, List.size_toByteArray, String.length_utf8EncodeChar]

theorem length_le_size_utf8Encode (cs : List Char) : cs.length ≤ cs.utf8Encode.size := by
  induction cs with
  | nil => exact Nat.zero_le _
  | cons c cs ih =>
    have hpos := c.utf8Size_pos
    rw [List.utf8Encode_cons, ByteArray.size_append, size_utf8Encode_singleton, List.length_cons]
    omega

theorem ofBytesFrom_utf8Encode (before cs : List Char) {fuel : Nat} (h : cs.length ≤ fuel) :
    Glyphs.ofBytesFrom (before ++ cs).utf8Encode fuel before.utf8Encode.size = cs.map some := by
  induction cs generalizing before fuel with
  | nil =>
    cases fuel with
    | zero => rfl
    | succ fuel => simp [Glyphs.ofBytesFrom]
  | cons c cs ih =>
    obtain ⟨fuel, rfl⟩ := Nat.exists_eq_add_of_le' (Nat.lt_of_lt_of_le (Nat.zero_lt_succ _) h)
    have hlt : before.utf8Encode.size < (before ++ c :: cs).utf8Encode.size := by
      have hpos := c.utf8Size_pos
      rw [List.utf8Encode_append, List.utf8Encode_cons, ByteArray.size_append, ByteArray.size_append,
        size_utf8Encode_singleton]
      omega
    have hdecode :
        (before ++ c :: cs).utf8Encode.utf8DecodeChar? before.utf8Encode.size = some c := by
      rw [ByteArray.utf8DecodeChar?_eq_utf8DecodeChar?_extract, List.utf8Encode_append,
        ByteArray.size_append, ByteArray.extract_append_eq_right rfl rfl]
      exact List.utf8DecodeChar?_utf8Encode_cons
    have hnext := ih (before ++ [c]) (Nat.le_of_succ_le_succ h)
    have hsize : (before ++ [c]).utf8Encode.size = before.utf8Encode.size + c.utf8Size := by
      rw [List.utf8Encode_append, ByteArray.size_append, size_utf8Encode_singleton]
    rw [List.append_assoc, List.singleton_append, hsize] at hnext
    rw [Glyphs.ofBytesFrom, if_pos hlt, hdecode]
    exact congrArg _ hnext

/-- The bytes of a text are its characters again. -/
theorem Glyphs.ofBytes_toUTF8 (s : String) : ofBytes s.toUTF8 = ofString s := by
  have h := ofBytesFrom_utf8Encode [] s.toList (length_le_size_utf8Encode s.toList)
  rw [List.nil_append, String.utf8Encode_toList] at h
  exact h

/-! ## Blanks -/

/-- The characters that a printed value starts with. -/
def isStart (c : Char) : Bool := c ∈ ['n', 't', 'f', '"', '[', '\x7b', '-'] || c.isDigit

theorem skipBlanks_of_isStart {c : Char} (h : isStart c) (s : Glyphs) :
    skipBlanks (some c :: s) = some c :: s := by
  rw [skipBlanks]
  all_goals
    rintro s' heq
    obtain rfl := Option.some.inj (List.cons.inj heq).1
    exact absurd h (by decide)

theorem skipBlanks_gap (layout : Layout) (level : Nat) (s : Glyphs) :
    skipBlanks ((layout.gap level).map some ++ s) = skipBlanks s := by
  cases layout with
  | compact => rfl
  | indented =>
    rw [Layout.gap, List.map_cons, List.cons_append, skipBlanks]
    induction 2 * level with
    | zero => rfl
    | succ n ih => rw [List.replicate_succ, List.map_cons, List.cons_append, skipBlanks, ih]

/-! ## Strings -/

theorem hexGlyph?_digitChar {d : Nat} (h : d < 16) : hexGlyph? (some (Nat.digitChar d)) = some d :=
  Text.hexValue?_digitChar h

theorem readHex_hexDigits {n : Nat} (h : n < 65536) (s : Glyphs) :
    readHex ((Text.hexDigits 4 n).map some ++ s) = .ok (n, s) := by
  have hdigits : Text.hexDigits 4 n = [Nat.digitChar (n / 4096 % 16), Nat.digitChar (n / 256 % 16),
    Nat.digitChar (n / 16 % 16), Nat.digitChar (n / 1 % 16)] := rfl
  have hlt (m : Nat) : m % 16 < 16 := Nat.mod_lt m (by decide)
  simp only [hdigits, List.map_cons, List.map_nil, List.cons_append, List.nil_append, readHex,
    hexGlyph?_digitChar (hlt _)]
  congr 2
  omega

theorem readEscape_hexDigits {c : Char} (h : c.toNat < 32) (s : Glyphs) :
    readEscape (some 'u' :: ((Text.hexDigits 4 c.toNat).map some ++ s)) = .ok (c, s) := by
  rw [readEscape, readHex_hexDigits (by omega)]
  change (if _ then _ else if _ then _ else _) = _
  rw [if_neg (by omega), if_neg (by omega), Char.ofNat_toNat]
  rfl

/-- An escape is read as the character that it stands for. -/
theorem readStringFrom_escapedChar (c : Char) (fuel : Nat) (before : List Char) (s : Glyphs) :
    readStringFrom (fuel + 1) before false ((escapedChar c).map some ++ s) =
      readStringFrom fuel (c :: before) false s := by
  fun_cases escapedChar c with
  | case1 | case2 | case3 | case4 | case5 => rfl
  | case6 c _ _ _ _ _ h =>
    obtain rfl : c = '\x08' := Char.toNat_inj.mp h
    rfl
  | case7 c _ _ _ _ _ _ h =>
    obtain rfl : c = '\x0c' := Char.toNat_inj.mp h
    rfl
  | case8 c _ _ _ _ _ _ _ h =>
    rw [List.map_cons, List.cons_append, readStringFrom, List.map_cons, List.cons_append,
      readEscape_hexDigits h]
    rfl
  | case9 c hquote hbackslash _ _ _ _ _ hle =>
    rw [List.map_singleton, List.singleton_append, readStringFrom, if_neg hle]
    · exact hquote
    · exact hbackslash

theorem readStringFrom_printed (cs : List Char) {fuel : Nat} (h : cs.length < fuel)
    (before : List Char) (s : Glyphs) :
    readStringFrom fuel before false ((cs.flatMap escapedChar).map some ++ some '"' :: s) =
      .ok (String.ofList (before.reverse ++ cs), s) := by
  induction cs generalizing fuel before with
  | nil =>
    obtain ⟨fuel, rfl⟩ := Nat.exists_eq_add_of_lt h
    simp [readStringFrom]
  | cons c cs ih =>
    obtain ⟨fuel, rfl⟩ := Nat.exists_eq_add_of_lt h
    rw [List.flatMap_cons, List.map_append, List.append_assoc, readStringFrom_escapedChar,
      ih (by simp only [List.length_cons] at h ⊢; omega)]
    simp

theorem length_le_flatMap_escapedChar (cs : List Char) :
    cs.length ≤ (cs.flatMap escapedChar).length := by
  have hpos (c : Char) : 0 < (escapedChar c).length := by
    fun_cases escapedChar c <;> simp
  induction cs with
  | nil => exact Nat.zero_le _
  | cons c cs ih =>
    have := hpos c
    rw [List.flatMap_cons, List.length_append, List.length_cons]
    omega

/-- The content of a string is read back, whatever its characters are. -/
theorem readString_printed (text : String) (s : Glyphs) :
    readString ((text.toList.flatMap escapedChar).map some ++ some '"' :: s) = .ok (text, s) := by
  have hle := length_le_flatMap_escapedChar text.toList
  rw [readString, readStringFrom_printed]
  · rw [List.reverse_nil, List.nil_append, String.ofList_toList]
  · rw [List.length_append, List.length_map, List.length_cons]
    omega

/-! ## Numbers -/

/-- What follows cannot belong to a number before it. -/
def Ended : Glyphs → Prop
  | [] => True
  | g :: _ => digitGlyph? g = none ∧ ∀ c ∈ ['.', 'e', 'E', '+', '-'], g ≠ some c

/-- The characters that may follow a printed value cannot belong to a number. -/
theorem ended_cons {c : Char} (hc : c ∈ [',', ']', '\x7d', '\n']) (s : Glyphs) : Ended (some c :: s) := by
  simp only [List.mem_cons, List.not_mem_nil, or_false] at hc
  rcases hc with rfl | rfl | rfl | rfl <;> exact ⟨rfl, by simp⟩

theorem Ended.append_ne_cons {rest : Glyphs} (h : Ended rest) {c : Char}
    (hc : c ∈ ['.', 'e', 'E', '+', '-']) {s : Glyphs} (hs : ∀ t, s ≠ some c :: t) (t : Glyphs) :
    s ++ rest ≠ some c :: t := by
  rintro heq
  cases s with
  | nil =>
    rw [List.nil_append] at heq
    subst heq
    exact h.2 c hc rfl
  | cons g s => exact hs s (congrArg (· :: s) (List.cons.inj heq).1)

/-- A scanner that stops at the end of the number does not look at what follows. -/
def Local {α : Type} (scan : Glyphs → Except Fault (α × Glyphs)) : Prop :=
  ∀ s a t, scan s = .ok (a, t) → ∀ rest, Ended rest → scan (s ++ rest) = .ok (a, t ++ rest)

section Local

variable {α β : Type}

theorem Local.bind {scan : Glyphs → Except Fault (α × Glyphs)}
    {next : α × Glyphs → Except Fault (β × Glyphs)} (h : Local scan)
    (hnext : ∀ a, Local fun s => next (a, s)) : Local fun s => scan s >>= next := by
  intro s b u hs rest hrest
  beta_reduce at hs ⊢
  cases ha : scan s with
  | error fault =>
    rw [ha] at hs
    cases hs
  | ok x =>
    rw [ha] at hs
    rw [h s x.1 x.2 ha rest hrest]
    exact hnext x.1 x.2 b u hs rest hrest

theorem Local.pure (a : α) : Local fun s => .ok (a, s) := by
  intro s a' t hs rest _
  obtain ⟨rfl, rfl⟩ := Prod.mk.inj (Except.ok.inj hs)
  rfl

theorem Local.map {scan : Glyphs → Except Fault (α × Glyphs)} (h : Local scan)
    {f : α × Glyphs → β × Glyphs} (g : α → β) (hf : ∀ a s, f (a, s) = (g a, s)) :
    Local fun s => (scan s).map f :=
  h.bind fun a => by
    simp only [hf]
    exact .pure (g a)

end Local

theorem spanDigits_append {rest : Glyphs} (h : Ended rest) (s : Glyphs) :
    spanDigits (s ++ rest) = ((spanDigits s).1, (spanDigits s).2 ++ rest) := by
  induction s with
  | nil =>
    cases rest with
    | nil => rfl
    | cons g rest => simp [spanDigits, h.1]
  | cons g s ih =>
    cases hg : digitGlyph? g with
    | none => simp [spanDigits, hg]
    | some d => simp [spanDigits, hg, ih]

theorem readDigits_eq_ok_iff {atEnd : TextFault} {s : Glyphs} {x : List Nat × Glyphs} :
    readDigits atEnd s = .ok x ↔ spanDigits s = x ∧ x.1 ≠ [] := by
  rw [readDigits]
  split
  · rename_i h
    simp [h]
    rintro rfl
    simp
  · rename_i h
    simp [h]
    rintro rfl
    simp
  · rename_i digits t _ h' h
    rw [h, Except.ok.injEq]
    refine ⟨?_, And.left⟩
    rintro rfl
    exact ⟨rfl, h'⟩

theorem local_readDigits (atEnd : TextFault) : Local (readDigits atEnd) := by
  intro s digits t hs rest hrest
  obtain ⟨hspan, hne⟩ := readDigits_eq_ok_iff.mp hs
  rw [readDigits_eq_ok_iff, spanDigits_append hrest, hspan]
  exact ⟨rfl, hne⟩

theorem readWhole_of_readDigits {atEnd : TextFault} {s t : Glyphs} {digits : List Nat}
    (h : readDigits atEnd s = .ok (digits, t)) (hzero : ∀ d ds, digits ≠ 0 :: d :: ds) :
    readWhole atEnd s = .ok (digits, t) := by
  simp only [readWhole, h, bind, Except.bind]
  rfl

theorem local_readWhole (atEnd : TextFault) : Local (readWhole atEnd) := by
  refine (local_readDigits atEnd).bind fun digits => ?_
  dsimp only
  split
  · rintro s a t ⟨⟩
  · exact .pure _

theorem local_readFraction (atEnd : TextFault) : Local (readFraction atEnd) := by
  intro s fraction t hs rest hrest
  fun_cases readFraction atEnd s with
  | case1 s => exact (local_readDigits atEnd).map some (fun _ _ => rfl) s fraction t hs rest hrest
  | case2 _ hpoint =>
    rw [readFraction] at hs ⊢
    · obtain ⟨rfl, rfl⟩ := Prod.mk.inj (Except.ok.inj hs)
      rfl
    · exact hrest.append_ne_cons (by simp) hpoint
    · exact hpoint

theorem local_readPower (atEnd : TextFault) : Local (readPower atEnd) := by
  intro s power t hs rest hrest
  fun_cases readPower atEnd s with
  | case1 s =>
    exact (local_readDigits atEnd).map (true, ·) (fun _ _ => rfl) s power t hs rest hrest
  | case2 s =>
    exact (local_readDigits atEnd).map (false, ·) (fun _ _ => rfl) s power t hs rest hrest
  | case3 _ hminus hplus =>
    rw [readPower] at hs ⊢
    · exact (local_readDigits atEnd).map (false, ·) (fun _ _ => rfl) s power t hs rest hrest
    · exact hrest.append_ne_cons (by simp) hminus
    · exact hrest.append_ne_cons (by simp) hplus
    · exact hminus
    · exact hplus

theorem local_readExponent (atEnd : TextFault) : Local (readExponent atEnd) := by
  intro s exponent t hs rest hrest
  fun_cases readExponent atEnd s with
  | case1 s => exact (local_readPower atEnd).map some (fun _ _ => rfl) s exponent t hs rest hrest
  | case2 s => exact (local_readPower atEnd).map some (fun _ _ => rfl) s exponent t hs rest hrest
  | case3 _ hsmall hcapital =>
    rw [readExponent] at hs ⊢
    · obtain ⟨rfl, rfl⟩ := Prod.mk.inj (Except.ok.inj hs)
      rfl
    · exact hrest.append_ne_cons (by simp) hsmall
    · exact hrest.append_ne_cons (by simp) hcapital
    · exact hsmall
    · exact hcapital

theorem local_readNumeral (atEnd : TextFault) : Local (readNumeral atEnd) := by
  have hunsigned (negative : Bool) : Local fun s =>
      readWhole atEnd s >>= fun whole => readFraction atEnd whole.2 >>= fun fraction =>
        readExponent atEnd fraction.2 >>= fun exponent =>
          .ok ((⟨negative, whole.1, fraction.1, exponent.1⟩ : Numeral), exponent.2) := by
    refine (local_readWhole atEnd).bind fun whole => ?_
    dsimp only
    refine (local_readFraction atEnd).bind fun fraction => ?_
    dsimp only
    exact (local_readExponent atEnd).bind fun exponent =>
      .pure (⟨negative, whole, fraction, exponent⟩ : Numeral)
  intro s numeral t hs rest hrest
  by_cases hminus : ∃ s', s = some '-' :: s'
  · obtain ⟨s, rfl⟩ := hminus
    exact hunsigned true s numeral t hs rest hrest
  · have hne : ∀ s', s ≠ some '-' :: s' := fun s' h => hminus ⟨s', h⟩
    rw [readNumeral] at hs ⊢
    · exact hunsigned false s numeral t hs rest hrest
    · exact hrest.append_ne_cons (by simp) hne
    · exact hne

/-- A number is read to its end and no further. -/
theorem local_readNumber : Local readNumber := by
  refine (local_readNumeral .endInValue).bind fun numeral => ?_
  dsimp only
  split
  · exact .pure _
  · rintro s a t ⟨⟩

theorem exists_of_spanDigits_ne_nil {s : Glyphs} (h : (spanDigits s).1 ≠ []) :
    ∃ g t, s = g :: t ∧ (digitGlyph? g).isSome := by
  cases s with
  | nil => exact absurd rfl h
  | cons g t =>
    refine ⟨g, t, rfl, ?_⟩
    cases hg : digitGlyph? g with
    | none => simp [spanDigits, hg] at h
    | some d => rfl

/-- What is read as a number starts as one. -/
theorem startsNumber_of_readNumber {s : Glyphs} {x : Number × Glyphs} (h : readNumber s = .ok x) :
    ∃ g t, s = g :: t ∧ startsNumber g := by
  by_cases hminus : ∃ t, s = some '-' :: t
  · obtain ⟨t, rfl⟩ := hminus
    exact ⟨some '-', t, rfl, rfl⟩
  · have hne : ∀ t, s ≠ some '-' :: t := fun t ht => hminus ⟨t, ht⟩
    have hdigits : (spanDigits s).1 ≠ [] := by
      intro hnil
      have hread : ∃ fault, readDigits .endInValue s = .error fault := by
        cases hd : readDigits .endInValue s with
        | error fault => exact ⟨fault, rfl⟩
        | ok y =>
          obtain ⟨rfl, hy⟩ := readDigits_eq_ok_iff.mp hd
          exact absurd hnil hy
      obtain ⟨fault, hfault⟩ := hread
      rw [readNumber, readNumeral, readWhole, hfault] at h
      · cases h
      · exact hne
    obtain ⟨g, t, hs, hg⟩ := exists_of_spanDigits_ne_nil hdigits
    exact ⟨g, t, hs, by rw [startsNumber, hg, Bool.or_true]⟩

/-! ### Natural numbers -/

theorem exists_head_toDigits {n : Nat} (h : 0 < n) :
    ∃ c cs, Nat.toDigits 10 n = c :: cs ∧ c ≠ '0' := by
  induction n using Nat.strongRecOn with
  | ind n ih =>
    by_cases hlt : n < 10
    · have hne : ∀ d : Fin 10, 0 < d.val → Nat.digitChar d ≠ '0' := by decide
      exact ⟨_, [], Nat.toDigits_of_lt_base hlt, hne ⟨n, hlt⟩ h⟩
    · obtain ⟨c, cs, hcs, hc⟩ := ih (n / 10) (by omega) (by omega)
      refine ⟨c, cs ++ [Nat.digitChar (n % 10)], ?_, hc⟩
      rw [Nat.toDigits_of_base_le (by decide) (by omega), hcs, List.cons_append]

theorem spanDigits_of_isDigit {cs : List Char} (h : ∀ c ∈ cs, c.isDigit) :
    spanDigits (cs.map some) = (cs.map fun c => c.toNat - 48, []) := by
  induction cs with
  | nil => rfl
  | cons c cs ih =>
    have hc : digitGlyph? (some c) = some (c.toNat - 48) := Text.digitValue?_of_isDigit (h c (by simp))
    rw [List.map_cons, spanDigits, hc, ih fun c hc => h c (by simp [hc])]
    rfl

theorem le_ofDigits (value : Nat) (digits : List Nat) :
    value ≤ digits.foldl (fun n d => 10 * n + d) value := by
  induction digits generalizing value with
  | nil => exact Nat.le_refl _
  | cons d digits ih =>
    have := ih (10 * value + d)
    rw [List.foldl_cons]
    omega

theorem significand_of_lt {value : Nat} {digits : List Nat}
    (h : digits.foldl (fun n d => 10 * n + d) value < UInt64.size) :
    significand value digits = (digits.foldl (fun n d => 10 * n + d) value, []) := by
  induction digits generalizing value with
  | nil => rfl
  | cons d digits ih =>
    have hlt : 10 * value + d < UInt64.size := Nat.lt_of_le_of_lt (le_ofDigits _ digits) h
    rw [significand, if_pos hlt, ih h, List.foldl_cons]

theorem printNumber_natural (n : Nat) : printNumber (.whole n) = Nat.toDigits 10 n := by
  change (toString n).toList = _
  rw [Nat.toString_eq_repr, Nat.toList_repr]

/-- The values of the digits of a natural number. -/
def naturalDigits (n : Nat) : List Nat := (Nat.toDigits 10 n).map fun c => c.toNat - 48

theorem significand_naturalDigits {n : Nat} (h : n < UInt64.size) :
    significand 0 (naturalDigits n) = (n, []) := by
  have hfold : (naturalDigits n).foldl (fun n d => 10 * n + d) 0 = n := by
    rw [naturalDigits, List.foldl_map]
    exact Nat.ofDigitChars_ten_toDigits
  rw [significand_of_lt (by rw [hfold]; exact h), hfold]

/-- The digits of a natural number have no needless zero in front. -/
theorem readWhole_natural (atEnd : TextFault) (n : Nat) :
    readWhole atEnd ((Nat.toDigits 10 n).map some) = .ok (naturalDigits n, []) := by
  have hread : readDigits atEnd ((Nat.toDigits 10 n).map some) = .ok (naturalDigits n, []) :=
    readDigits_eq_ok_iff.mpr ⟨spanDigits_of_isDigit isDigit_toDigits, by simp [naturalDigits]⟩
  refine readWhole_of_readDigits hread fun d ds heq => ?_
  rcases Nat.eq_zero_or_pos n with rfl | hpos
  · simp [naturalDigits, Nat.toDigits_zero] at heq
  · obtain ⟨c, cs, hcs, hc⟩ := exists_head_toDigits hpos
    have hge : 48 ≤ c.toNat := (Char.isDigit_iff_toNat.mp (isDigit_toDigits c (hcs ▸ List.mem_cons_self))).1
    have hle : c.toNat - 48 = 0 := by
      simp only [naturalDigits, hcs, List.map_cons] at heq
      exact (List.cons.inj heq).1
    exact hc (Char.toNat_inj.mp (Nat.le_antisymm (Nat.sub_eq_zero_iff_le.mp hle) hge))

/-- Natural numbers are read back. -/
theorem readNumber_natural {n : Nat} (h : n < UInt64.size) :
    readNumber ((printNumber (.whole n)).map some) = .ok (.whole n, []) := by
  rw [printNumber_natural]
  have hnumeral : readNumeral .endInValue ((Nat.toDigits 10 n).map some) =
      .ok (⟨false, naturalDigits n, none, none⟩, []) := by
    rw [readNumeral, readWhole_natural]
    · rfl
    · intro t heq
      obtain ⟨c, hc, hminus⟩ := List.mem_map.mp (heq ▸ List.mem_cons_self : some '-' ∈ _)
      obtain rfl := Option.some.inj hminus
      exact absurd (isDigit_toDigits '-' hc) (by decide)
  have hvalue : (⟨false, naturalDigits n, none, none⟩ : Numeral).value? = some (.whole n) := by
    rw [Numeral.value?, significand_naturalDigits h]
    rfl
  simp only [readNumber, hnumeral, bind, Except.bind, hvalue]
  rfl

theorem printNumber_negative {n : Nat} (hpos : 0 < n) :
    printNumber (.whole (-n)) = '-' :: Nat.toDigits 10 n := by
  obtain ⟨n, rfl⟩ := Nat.exists_eq_add_of_lt hpos
  rw [Nat.zero_add]
  change ("-" ++ toString (n + 1)).toList = _
  rw [String.toList_append, Nat.toString_eq_repr, Nat.toList_repr]
  rfl

/-- Negative numbers are read back, as long as they have 64 bits with their sign. -/
theorem readNumber_negative {n : Nat} (hpos : 0 < n) (h : n ≤ UInt64.size / 2) :
    readNumber ((printNumber (.whole (-n))).map some) = .ok (.whole (-n), []) := by
  rw [printNumber_negative hpos, List.map_cons]
  have hnumeral : readNumeral .endInValue (some '-' :: (Nat.toDigits 10 n).map some) =
      .ok (⟨true, naturalDigits n, none, none⟩, []) := by
    rw [readNumeral, readWhole_natural]
    rfl
  have hvalue : (⟨true, naturalDigits n, none, none⟩ : Numeral).value? = some (.whole (-n)) := by
    have hlt : n < UInt64.size := Nat.lt_of_le_of_lt h (by decide)
    simp [Numeral.value?, significand_naturalDigits hlt, hpos, h]
  simp only [readNumber, hnumeral, bind, Except.bind, hvalue]
  rfl

/-! ### Integers and others -/

theorem isDigit_of_digitGlyph? {c : Char} {d : Nat} (h : digitGlyph? (some c) = some d) : c.isDigit := by
  change (if '0' ≤ c ∧ c ≤ '9' then _ else none) = _ at h
  split at h
  · rename_i hc
    rw [Char.isDigit, Bool.and_eq_true, decide_eq_true_eq, decide_eq_true_eq]
    exact hc
  · cases h

theorem isDigit_of_spanDigits {cs : List Char} (h : (spanDigits (cs.map some)).2 = []) :
    ∀ c ∈ cs, c.isDigit := by
  induction cs with
  | nil => exact fun c hc => absurd hc List.not_mem_nil
  | cons c cs ih =>
    rw [List.map_cons, spanDigits] at h
    split at h
    · rename_i d hd
      rw [List.forall_mem_cons]
      exact ⟨isDigit_of_digitGlyph? hd, ih h⟩
    · cases h

theorem exists_of_bind {α β : Type} {r : Except Fault α} {next : α → Except Fault β} {b : β}
    (h : r >>= next = .ok b) : ∃ a, r = .ok a ∧ next a = .ok b := by
  cases r with
  | error fault => cases h
  | ok a => exact ⟨a, rfl, h⟩

theorem spanDigits_of_readWhole {atEnd : TextFault} {s t : Glyphs} {digits : List Nat}
    (h : readWhole atEnd s = .ok (digits, t)) : spanDigits s = (digits, t) := by
  obtain ⟨⟨digits', t'⟩, hread, h⟩ := exists_of_bind h
  obtain ⟨hspan, -⟩ := readDigits_eq_ok_iff.mp hread
  dsimp only at h
  split at h
  · cases h
  · exact hspan.trans (Except.ok.inj h)

theorem eq_of_readFraction_none {atEnd : TextFault} {s t : Glyphs}
    (h : readFraction atEnd s = .ok (none, t)) : t = s := by
  fun_cases readFraction atEnd s with
  | case1 s =>
    rw [readFraction] at h
    obtain ⟨x, -, hx⟩ := exists_of_bind h
    cases hx
  | case2 _ hpoint =>
    rw [readFraction] at h
    · exact (Prod.mk.inj (Except.ok.inj h)).2.symm
    · exact hpoint

theorem eq_of_readExponent_none {atEnd : TextFault} {s t : Glyphs}
    (h : readExponent atEnd s = .ok (none, t)) : t = s := by
  fun_cases readExponent atEnd s with
  | case1 s | case2 s =>
    rw [readExponent] at h
    obtain ⟨x, -, hx⟩ := exists_of_bind h
    cases hx
  | case3 _ hsmall hcapital =>
    rw [readExponent] at h
    · exact (Prod.mk.inj (Except.ok.inj h)).2.symm
    · exact hsmall
    · exact hcapital

/-- A numeral without point and exponent is a sign and digits. -/
theorem isDigit_of_readNumeral {atEnd : TextFault} {cs : List Char} {numeral : Numeral}
    (h : readNumeral atEnd (cs.map some) = .ok (numeral, [])) (hfraction : numeral.fraction = none)
    (hexponent : numeral.exponent = none) : ∀ c ∈ cs, c = '-' ∨ c.isDigit := by
  have hunsigned (negative : Bool) {cs : List Char}
      (h : (readWhole atEnd (cs.map some) >>= fun whole => readFraction atEnd whole.2 >>= fun fraction =>
        readExponent atEnd fraction.2 >>= fun exponent =>
          .ok ((⟨negative, whole.1, fraction.1, exponent.1⟩ : Numeral), exponent.2)) = .ok (numeral, [])) :
      ∀ c ∈ cs, c.isDigit := by
    obtain ⟨⟨digits, s⟩, hwhole, h⟩ := exists_of_bind h
    obtain ⟨⟨fraction, t⟩, hread, h⟩ := exists_of_bind h
    obtain ⟨⟨exponent, u⟩, hread', h⟩ := exists_of_bind h
    obtain ⟨rfl, rfl⟩ := Prod.mk.inj (Except.ok.inj h)
    obtain rfl : fraction = none := hfraction
    obtain rfl : exponent = none := hexponent
    obtain rfl := eq_of_readFraction_none hread
    obtain rfl := eq_of_readExponent_none hread'
    exact isDigit_of_spanDigits (congrArg Prod.snd (spanDigits_of_readWhole hwhole))
  by_cases hminus : ∃ t, cs = '-' :: t
  · obtain ⟨t, rfl⟩ := hminus
    rw [List.forall_mem_cons]
    exact ⟨.inl rfl, fun c hc => .inr (hunsigned true h c hc)⟩
  · rw [readNumeral] at h
    · exact fun c hc => .inr (hunsigned false h c hc)
    · intro t ht
      obtain ⟨c, cs, rfl, hc, -⟩ := List.map_eq_cons_iff.mp ht
      obtain rfl := Option.some.inj hc
      exact hminus ⟨cs, rfl⟩

theorem Numeral.of_value?_eq_whole {numeral : Numeral} {n : Int} (h : numeral.value? = some (.whole n)) :
    numeral.fraction = none ∧ numeral.exponent = none := by
  obtain ⟨negative, whole, fraction, exponent⟩ := numeral
  cases fraction with
  | some digits => simp [Numeral.value?] at h
  | none => cases exponent with
    | some power => simp [Numeral.value?] at h
    | none => exact ⟨rfl, rfl⟩

/-- What is read as an integer has nothing but digits after its sign. -/
theorem isDigit_of_readNumber_whole {cs : List Char} {n : Int}
    (h : readNumber (cs.map some) = .ok (.whole n, [])) : ∀ c ∈ cs, c = '-' ∨ c.isDigit := by
  obtain ⟨⟨numeral, s⟩, hread, h⟩ := exists_of_bind h
  dsimp only at h
  split at h
  · rename_i m hm
    obtain ⟨rfl, rfl⟩ := Prod.mk.inj (Except.ok.inj h)
    obtain ⟨hfraction, hexponent⟩ := Numeral.of_value?_eq_whole hm
    exact isDigit_of_readNumeral hread hfraction hexponent
  · cases h

end Json

/-! ### Decimals -/

namespace Decimal

theorem exists_head_of_isDigit {cs : List Char} (h : ∀ c ∈ cs, c.isDigit) (hne : cs ≠ [])
    (rest : List Char) : ∃ c t, cs ++ rest = c :: t ∧ c.isDigit := by
  obtain ⟨c, t, rfl⟩ := List.exists_cons_of_ne_nil hne
  exact ⟨c, t ++ rest, rfl, h c (by simp)⟩

/-- The notation of a decimal starts with a digit. -/
theorem exists_head_text (d : Decimal) : ∃ c cs, d.text = c :: cs ∧ c.isDigit := by
  rw [text]
  split
  · rw [positional]
    dsimp only
    split
    · rw [List.append_assoc]
      exact exists_head_of_isDigit isDigit_toDigits Nat.toDigits_ne_nil _
    · let places := (-d.exponent).toNat
      let digits := Nat.toDigits 10 d.coefficient
      let padded := List.replicate (places + 1 - digits.length) '0' ++ digits
      have hpadded : ∀ c ∈ padded, c.isDigit := by
        intro c hc
        rcases List.mem_append.mp hc with hc | hc
        · rw [List.eq_of_mem_replicate hc]
          rfl
        · exact isDigit_toDigits c hc
      have hlength : places < padded.length := by
        simp only [padded, List.length_append, List.length_replicate]
        omega
      have hne : padded.take (padded.length - places) ≠ [] := by
        rw [← List.length_pos_iff, List.length_take]
        omega
      exact exists_head_of_isDigit (fun c hc => hpadded c (List.mem_of_mem_take hc)) hne _
  · rw [scientific]
    split
    · rename_i first second more heq
      exact ⟨first, _, rfl, isDigit_toDigits first (heq ▸ List.mem_cons_self)⟩
    · exact exists_head_of_isDigit isDigit_toDigits Nat.toDigits_ne_nil _

/-- The notation of a decimal has a point or an exponent. -/
theorem exists_mark_text (d : Decimal) : '.' ∈ d.text ∨ 'e' ∈ d.text := by
  rw [text]
  split
  · left
    rw [positional]
    dsimp only
    split
    · exact List.mem_append_right _ List.mem_cons_self
    · exact List.mem_append_right _ List.mem_cons_self
  · right
    rw [scientific]
    split
    · exact List.mem_append_right _ List.mem_cons_self
    · exact List.mem_append_right _ List.mem_cons_self

end Decimal

namespace Json

/-- The text of a double does not look like an integer. -/
theorem readNumber_real_ne_whole (x : Float) (n : Int) :
    readNumber ((printNumber (.real x)).map some) ≠ .ok (.whole n, []) := by
  intro h
  have hdigits := isDigit_of_readNumber_whole h
  have hother {c : Char} (hc : c ∈ printNumber (.real x)) (hminus : c ≠ '-') : c.isDigit :=
    (hdigits c hc).resolve_left hminus
  rw [printNumber, Decimal.textOfFloat?] at hother
  cases hd : Decimal.ofFloat? x with
  | none =>
    rw [hd, Option.map_none, Option.getD_none] at hother
    exact absurd (hother (c := 'n') (by decide) (by decide)) (by decide)
  | some d =>
    rw [hd, Option.map_some, Option.getD_some, String.toList_ofList] at hother
    have hmem {c : Char} (hc : c ∈ d.text) :
        c ∈ if Binary.isNegative x then '-' :: d.text else d.text := by
      split
      · exact List.mem_cons_of_mem _ hc
      · exact hc
    rcases d.exists_mark_text with hpoint | hexponent
    · exact absurd (hother (hmem hpoint) (by decide)) (by decide)
    · exact absurd (hother (hmem hexponent) (by decide)) (by decide)

theorem exists_start_printNumber (n : Number) : ∃ c cs, printNumber n = c :: cs ∧ isStart c := by
  have hdigit {c : Char} (h : c.isDigit) : isStart c := by
    rw [isStart, h, Bool.or_true]
  rcases n with n | x
  · cases n with
    | ofNat n =>
      obtain ⟨c, cs, hcs⟩ := List.exists_cons_of_ne_nil (Nat.toDigits_ne_nil (n := n) (b := 10))
      exact ⟨c, cs, (printNumber_natural n).trans hcs,
        hdigit (isDigit_toDigits c (hcs ▸ List.mem_cons_self))⟩
    | negSucc n =>
      refine ⟨'-', (toString (n + 1)).toList, ?_, rfl⟩
      change ("-" ++ toString (n + 1)).toList = _
      rw [String.toList_append]
      rfl
  · rw [printNumber, Decimal.textOfFloat?]
    cases Decimal.ofFloat? x with
    | none =>
      rw [Option.map_none, Option.getD_none]
      exact ⟨'n', _, rfl, rfl⟩
    | some d =>
      obtain ⟨c, cs, hcs, hc⟩ := d.exists_head_text
      rw [Option.map_some, Option.getD_some, String.toList_ofList]
      split
      · exact ⟨'-', _, rfl, rfl⟩
      · exact ⟨c, cs, hcs, hdigit hc⟩

/-- A printed value starts with one of these characters. -/
theorem exists_start_print (layout : Layout) (level : Nat) (json : Json) :
    ∃ c cs, print layout level json = c :: cs ∧ isStart c := by
  cases json with
  | null => exact ⟨'n', _, rfl, rfl⟩
  | bool b => cases b <;> exact ⟨_, _, rfl, rfl⟩
  | number n => exact exists_start_printNumber n
  | string s => exact ⟨'"', _, rfl, rfl⟩
  | array items => cases items <;> exact ⟨'[', _, rfl, rfl⟩
  | object members => cases members <;> exact ⟨'\x7b', _, rfl, rfl⟩

end Json

end FlowEngine
