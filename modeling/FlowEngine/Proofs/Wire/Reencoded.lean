import FlowEngine.Proofs.Wire.Envelopes
import FlowEngine.Proofs.Wire.Tagged

/-!
# Envelopes that are written again

An envelope that was read from any accepted document, in whatever spelling, can be written and read
again, as often as one likes, in either layout and with the members of its dictionaries in any order, and
stays the same in every part. `Envelopes` says what
may be lost on the wire: numbers that are not finite, and trees that are too deep. Neither comes out of a
reader, since it fits what it reads into the depth that it was allowed, and this is the depth up to which
what it has read is read back.

What is left to show here concerns times. An offset from universal time is a whole number of minutes, so a
leap second stays at the end of a minute when the offset is taken off.

## Main definitions

* `Timestamp.OnClock`: a moment whose time of day exists.
* `ConverterSet.convert`, `ConverterSet.Converts`: a document in the format of another converter.

## Main results

* `Timestamp.gives_ofText`: the times that are read exist.
* `Codec.yields_envelope`: what is known of an envelope that was read.
* `ConverterSet.convertAll_of_unmarshal`: conversions keep the envelope of an accepted document.
-/

namespace FlowEngine

open Json

/-! ## Times -/

namespace Timestamp

/-- The time of day exists: it is before the end of the day, and a second runs on only at the end of a
minute. -/
structure OnClock (t : Timestamp) : Prop where
  second : t.second < secondsPerDay
  nano : t.nano < nanosPerSecond ∨ t.nano < 2 * nanosPerSecond ∧ t.second % 60 = 59

/-- The value of digits has no more digits than were read. -/
theorem digits_lt (most value : Nat) (cs : List Char) :
    (digits most value cs).2.1 ≤ most ∧
      (digits most value cs).1 < (value + 1) * 10 ^ (digits most value cs).2.1 := by
  fun_induction digits most value cs with
  | case1 most value => simp
  | case2 value c cs most d hd value' count rest heq ih =>
    obtain ⟨hcount, hvalue⟩ := ih
    rw [heq] at hcount hvalue
    have hdigit : d ≤ 9 := Text.digitValue?_le hd
    refine ⟨Nat.succ_le_succ hcount, Nat.lt_of_lt_of_le hvalue ?_⟩
    dsimp only
    rw [Nat.pow_succ', ← Nat.mul_assoc]
    exact Nat.mul_le_mul_right _ (by omega)
  | case3 => simp

theorem gives_number (most : Nat) (cs : List Char) :
    Gives (number most cs) fun x => x.2.1 ≤ most ∧ x.1 < 10 ^ x.2.1 := by
  have hdigits := digits_lt most 0 cs
  rw [Nat.zero_add, Nat.one_mul] at hdigits
  unfold number
  split
  · exact .of_error _
  · split
    · exact .of_error _
    · rename_i heq
      rw [heq] at hdigits
      split
      · exact .of_ok hdigits
      · exact .of_error _

/-- A fraction of a second is less than a second. -/
theorem gives_fraction (cs : List Char) : Gives (fraction cs) fun x => x.1 < nanosPerSecond := by
  unfold fraction
  split
  · refine .bind (gives_number 9 _) fun (value, count, rest) hx => .of_ok ?_
    obtain ⟨hcount, hvalue⟩ := hx
    calc value * 10 ^ (9 - count) < 10 ^ count * 10 ^ (9 - count) :=
        Nat.mul_lt_mul_of_pos_right hvalue (Nat.pow_pos (by decide))
      _ = nanosPerSecond := by rw [← Nat.pow_add, Nat.add_sub_cancel' hcount]; rfl
  · exact .of_ok (Nat.zero_lt_succ _)

/-- An offset is a whole number of minutes. -/
theorem gives_offset (cs : List Char) : Gives (offset cs) fun x => x.1 % 60 = 0 := by
  have hsize (cs : List Char) : Gives (offsetSize cs) fun x => x.1 % 60 = 0 := by
    refine .skip fun (h, h', cs) => .skip fun (m, m', cs) => ?_
    dsimp only
    split
    · exact .of_error _
    · refine .of_ok ?_
      dsimp only
      omega
  unfold offset
  split
  · exact .of_ok rfl
  · split
    · exact .of_error _
    · exact .of_ok rfl
    · exact .of_ok rfl
    · exact .map ((hsize _).imp fun x hx => by dsimp only; omega)
    · exact .map ((hsize _).imp fun x hx => by dsimp only; omega)
    · exact .map ((hsize _).imp fun x hx => by dsimp only; omega)
    · exact .of_error _

/-- Taking off a whole number of minutes leaves the seconds as they are. -/
theorem gives_ofLocal (date : Date) (second nano : Nat) {ahead : Int} (h : ahead % 60 = 0) :
    Gives (ofLocal date second nano ahead) fun t =>
      t.second < secondsPerDay ∧ t.second % 60 = second % 60 ∧ t.nano = nano := by
  unfold ofLocal
  split
  · exact .of_error _
  · split
    · exact .of_error _
    · dsimp only
      split
      · have htotal : (secondsPerDay : Int) = 86400 := rfl
        refine .of_ok ⟨?_, ?_, rfl⟩
        · simp only [htotal]
          omega
        · simp only [htotal]
          omega
      · exact .of_error _

/-- A second that is read as the sixty-first of a minute becomes a leap second. -/
theorem gives_ofLocal_onClock (date : Date) (hour minute second : Nat) {nano : Nat} {ahead : Int}
    (hnano : nano < nanosPerSecond) (h : ahead % 60 = 0) :
    Gives (ofLocal date (hour * 3600 + minute * 60 + min second 59)
      (nano + if second = 60 then nanosPerSecond else 0) ahead) OnClock := by
  refine (gives_ofLocal date _ _ h).imp fun t ht => ⟨ht.1, ?_⟩
  obtain ⟨-, hlast, hsum⟩ := ht
  split at hsum <;> omega

/-- The times that are read exist. -/
theorem gives_ofText (s : String) : Gives (ofText s) OnClock := by
  refine .skip fun (year, cs) => .skip fun cs => .skip fun (month, cs) => .skip fun cs => ?_
  refine .skip fun (day, cs) => ?_
  dsimp only
  -- Whatever stands between date and time, the time follows.
  split
  case h_1 => exact .of_error _
  case h_5 => exact .of_error _
  all_goals
    refine .skip fun cs => .skip fun (hour, cs) => .skip fun cs => .skip fun (minute, cs) => .skip fun cs => ?_
    refine .skip fun (second, cs) => .bind (gives_fraction cs) fun (nano, cs) hnano => ?_
    refine .bind (gives_offset _) fun (ahead, cs) hahead => ?_
    dsimp only
    split
    · exact .of_error _
    · exact gives_ofLocal_onClock ⟨year, month, day⟩ hour minute second hnano hahead

end Timestamp

/-! ## Envelopes -/

namespace Codec

variable {budget : Nat}

theorem yields_timestamp : timestamp.Yields budget Timestamp.OnClock :=
  yields_formatted fun s => .mapError (Timestamp.gives_ofText s)

theorem yields_uint8 : uint8.Yields budget fun _ => True :=
  yields_of_depth (by rintro _ _ rfl; rfl)

theorem yields_uint32 : uint32.Yields budget fun _ => True :=
  yields_of_depth (by rintro _ _ rfl; rfl)

/-- A text that is missing is written as null. -/
theorem shallow_none : (Codec.optional text).Shallow budget none := by
  refine shallow_of_depth ?_
  rintro _ rfl
  rfl

theorem yields_optional_text : (Codec.optional text).Yields budget fun _ => True :=
  yields_text.optional.imp fun _ _ => trivial

theorem yields_trace : trace.Yields (budget + 1) fun _ => True := by
  refine (yields_record (.cons yields_text nofun <| .cons yields_text nofun <|
    .cons yields_optional_text ?_ <| .cons yields_text nofun <| .cons yields_text nofun <|
    .cons yields_uint32 nofun .nil) fun _ => rfl).imp fun _ _ => trivial
  rintro _ ⟨⟩
  exact ⟨shallow_none, trivial⟩

/-- The time of an error is one that exists. -/
theorem yields_executionError :
    executionError.Yields (budget + 1) fun error => error.time.OnClock := by
  have hnone : ∀ a ∈ (some none : Option (Option String)).or (some none),
      (Codec.optional text).Shallow budget a ∧ True := by
    rintro _ ⟨⟩
    exact ⟨shallow_none, trivial⟩
  exact (yields_record (.cons yields_timestamp nofun <| .cons yields_text nofun <|
    .cons yields_text nofun <| .cons yields_optional_text hnone <|
    .cons yields_optional_text hnone .nil) fun _ => rfl).imp fun _ h => h.1.2

/-- What is known of an envelope that was read: its payload and its variables can be written again and are
read back, and its times exist. -/
theorem yields_envelope : (envelope value).Yields depthLimit fun e =>
    e.data.Fits 126 ∧ (∀ m ∈ e.vars.entries, m.2.Fits 125) ∧ ∀ t ∈ e.moments, t.OnClock := by
  have hdataType : dataType.Yields 126 fun _ => True := yields_of_depth (by rintro _ _ rfl; rfl)
  have hid : uuid.Yields 126 fun _ => True := yields_of_depth (by rintro _ _ rfl; rfl)
  have hbinary : (dict (list uint8)).Yields 126 fun d => ∀ m ∈ d.entries, ∀ b ∈ m.2, True :=
    yields_dict (yields_list yields_uint8)
  have hmeta : (dict text).Yields 126 fun d => ∀ m ∈ d.entries, True := yields_dict yields_text
  have hvars : (dict value).Yields 126 fun d => ∀ m ∈ d.entries, m.2.Fits 125 :=
    yields_dict (yields_value 125)
  have herrors : (list executionError).Yields 126 fun errors => ∀ error ∈ errors, error.time.OnClock :=
    yields_list yields_executionError
  refine (yields_record (.cons hid nofun <| .cons yields_timestamp nofun <| .cons yields_uint32 nofun <|
    .cons hdataType nofun <| .cons (yields_value 126) nofun <| .cons hbinary ?_ <| .cons hmeta ?_ <|
    .cons hvars ?_ <| .cons yields_trace nofun <| .cons herrors ?_ .nil) fun _ => rfl).imp ?_
  · rintro _ ⟨⟩
    exact ⟨shallow_dict nofun, nofun⟩
  · rintro _ ⟨⟩
    exact ⟨shallow_dict nofun, nofun⟩
  · rintro _ ⟨⟩
    exact ⟨shallow_dict nofun, nofun⟩
  · rintro _ ⟨⟩
    exact ⟨shallow_list nofun, nofun⟩
  · rintro e ⟨-, ⟨-, hissued⟩, -, -, ⟨-, hdata⟩, -, -, ⟨-, hvars⟩, -, ⟨-, herrors⟩, -⟩
    exact ⟨hdata, hvars, List.forall_mem_cons.mpr ⟨hissued, List.forall_mem_map.mpr herrors⟩⟩

end Codec

namespace ConverterSet

/-- The document in the format of `target` of the envelope that a document in the format of `source` holds. -/
def convert (set : ConverterSet) (source target : String) (bytes : ByteArray) :
    Except ConvertError ByteArray := do
  let e ← set.unmarshal source (Glyphs.ofBytes bytes)
  return (← set.marshal target e).toUTF8

/-- Conversions one after another, each from a content type to another. -/
def convertAll (set : ConverterSet) : List (String × String) → ByteArray → Except ConvertError ByteArray
  | [], bytes => .ok bytes
  | (source, target) :: chain, bytes => do set.convertAll chain (← set.convert source target bytes)

/-- What that document may be, since members of dictionaries are written in any order. -/
def Converts (set : ConverterSet) (source target : String) (bytes next : ByteArray) : Prop :=
  ∃ e document, set.unmarshal source (Glyphs.ofBytes bytes) = .ok e ∧ set.Marshals target e document ∧
    next = document.toUTF8

/-- What the last document may be after conversions one after another. -/
inductive ConvertsAll (set : ConverterSet) : List (String × String) → ByteArray → ByteArray → Prop
  | nil (bytes : ByteArray) : ConvertsAll set [] bytes bytes
  | cons {source target : String} {chain : List (String × String)} {bytes next last : ByteArray}
    (h : set.Converts source target bytes next) (hchain : set.ConvertsAll chain next last) :
    ConvertsAll set ((source, target) :: chain) bytes last

end ConverterSet

namespace Codec

/-- An envelope that was read is read back when it is written again. -/
theorem parse_writes_of_parse {s : Glyphs} {e : Envelope Value} (h : (envelope value).parse s = .ok e)
    (hyears : ∀ t ∈ e.moments, 0 ≤ (Date.ofDay t.day).year ∧ (Date.ofDay t.day).year ≤ 9999)
    (hreal : ∀ x ∈ e.numbers, Binary.isFinite x → RealReadsBack x) (layout : Layout) {tree : Json}
    (htree : (envelope value).Writes e tree) :
    (envelope value).parse (Glyphs.ofBytes (tree.render layout).toUTF8) = .ok e := by
  have hknown : Gives ((envelope value).parse s) fun e => (envelope value).Shallow depthLimit e ∧
      e.data.Fits 126 ∧ (∀ m ∈ e.vars.entries, m.2.Fits 125) ∧ ∀ t ∈ e.moments, t.OnClock :=
    .bind (yields_envelope s) fun x hx => .skip fun _ => .of_ok hx
  obtain ⟨hshallow, hdata, hvars, hmoments⟩ := hknown e h
  rw [Envelope.forall_mem_numbers] at hreal
  have hregular : ∀ t ∈ e.moments, t.Regular := fun t ht =>
    ⟨hyears t ht, (hmoments t ht).second, (hmoments t ht).nano⟩
  have henvelope := faithful_envelope (q := fun v => ∀ x ∈ v.numbers, Binary.isFinite x) hregular
    (faithful_value hdata.canonical hreal.1)
    fun m hm => faithful_value (hvars m hm).canonical (hreal.2 m hm)
  exact (henvelope.parse_renders layout htree).ok
    ⟨⟨hdata.finite, fun m hm => (hvars m hm).finite⟩, hshallow tree htree⟩

end Codec

namespace ConverterSet

/-- A document is accepted by both readers or by none. -/
theorem unmarshal_eq_ok_iff {reader : Converter} {s : Glyphs} {e : Envelope Value} :
    standard.unmarshal reader.contentType s = .ok e ↔ (Codec.envelope Codec.value).parse s = .ok e := by
  rw [unmarshal_standard]
  cases (Codec.envelope Codec.value).parse s with
  | error fault => exact iff_of_false nofun nofun
  | ok e' => simp [Except.mapError]

/-- What is converted is one of the documents. -/
theorem converts_of_convert {set : ConverterSet} {source target : String} {bytes next : ByteArray}
    (h : set.convert source target bytes = .ok next) : set.Converts source target bytes next := by
  rw [convert] at h
  cases he : set.unmarshal source (Glyphs.ofBytes bytes) with
  | error error =>
    rw [he] at h
    cases h
  | ok e =>
    rw [he] at h
    change (set.marshal target e >>= _) = _ at h
    cases hdocument : set.marshal target e with
    | error error =>
      rw [hdocument] at h
      cases h
    | ok document =>
      rw [hdocument] at h
      exact ⟨e, document, he, marshals_of_marshal hdocument, (Except.ok.inj h).symm⟩

section Convert

variable {bytes : ByteArray} {e : Envelope Value}
  (hyears : ∀ t ∈ e.moments, 0 ≤ (Date.ofDay t.day).year ∧ (Date.ofDay t.day).year ≤ 9999)
  (hreal : ∀ x ∈ e.numbers, Binary.isFinite x → Codec.RealReadsBack x)

/-- A conversion goes through. -/
theorem exists_convert (h : (Codec.envelope Codec.value).parse (Glyphs.ofBytes bytes) = .ok e)
    (source target : Converter) :
    ∃ next, standard.convert source.contentType target.contentType bytes = .ok next := by
  refine ⟨((Codec.envelope Codec.value).render target.layout e).toUTF8, ?_⟩
  rw [convert, unmarshal_eq_ok_iff.mpr h]
  change (standard.marshal target.contentType e >>= _) = _
  rw [marshal_standard]
  rfl

include hyears hreal

/-- One conversion keeps the envelope. -/
theorem parse_of_converts (h : (Codec.envelope Codec.value).parse (Glyphs.ofBytes bytes) = .ok e)
    {source target : Converter} {next : ByteArray}
    (hnext : standard.Converts source.contentType target.contentType bytes next) :
    (Codec.envelope Codec.value).parse (Glyphs.ofBytes next) = .ok e := by
  obtain ⟨e', document, he', hdocument, rfl⟩ := hnext
  obtain rfl := Except.ok.inj ((unmarshal_eq_ok_iff.mp he').symm.trans h)
  obtain ⟨tree, htree, rfl⟩ := marshals_standard_iff.mp hdocument
  exact Codec.parse_writes_of_parse h hyears hreal target.layout htree

/-- Any number of conversions keep the envelope. -/
theorem parse_of_convertsAll (h : (Codec.envelope Codec.value).parse (Glyphs.ofBytes bytes) = .ok e)
    (chain : List (Converter × Converter)) {last : ByteArray}
    (hlast : standard.ConvertsAll (chain.map fun step => (step.1.contentType, step.2.contentType))
      bytes last) :
    (Codec.envelope Codec.value).parse (Glyphs.ofBytes last) = .ok e := by
  induction chain generalizing bytes with
  | nil =>
    cases hlast
    exact h
  | cons step chain ih =>
    obtain _ | ⟨hnext, hchain⟩ := hlast
    exact ih (parse_of_converts hyears hreal h hnext) hchain

/-- Any number of conversions go through. -/
theorem exists_convertAll (h : (Codec.envelope Codec.value).parse (Glyphs.ofBytes bytes) = .ok e)
    (chain : List (Converter × Converter)) :
    ∃ last, standard.convertAll (chain.map fun step => (step.1.contentType, step.2.contentType)) bytes =
        .ok last ∧
      standard.ConvertsAll (chain.map fun step => (step.1.contentType, step.2.contentType)) bytes last := by
  induction chain generalizing bytes with
  | nil => exact ⟨bytes, rfl, .nil bytes⟩
  | cons step chain ih =>
    obtain ⟨next, hnext⟩ := exists_convert h step.1 step.2
    have hconverts := converts_of_convert hnext
    obtain ⟨last, hlast, hchain⟩ := ih (parse_of_converts hyears hreal h hconverts)
    refine ⟨last, ?_, .cons hconverts hchain⟩
    rw [List.map_cons, convertAll, hnext]
    exact hlast

end Convert

/-- **Conversion keeps envelopes.** Whatever document is accepted, and however it is spelled, its envelope
is written by both converters, and both read it back from whatever document they may write, in whatever
order the members of dictionaries stand. So any chain of conversions succeeds, and whatever documents it
goes through, it ends with a document of the same envelope. Years have four digits, and of the text of a
finite double it is assumed that it is read as that double. -/
theorem convertAll_of_unmarshal {bytes : ByteArray} {source : Converter} {e : Envelope Value}
    (haccepted : standard.unmarshal source.contentType (Glyphs.ofBytes bytes) = .ok e)
    (hyears : ∀ t ∈ e.moments, 0 ≤ (Date.ofDay t.day).year ∧ (Date.ofDay t.day).year ≤ 9999)
    (hreal : ∀ x ∈ e.numbers, Binary.isFinite x → Codec.RealReadsBack x) :
    (∀ writer reader : Converter,
      (∃ document, standard.marshal writer.contentType e = .ok document ∧
        standard.Marshals writer.contentType e document) ∧
      ∀ document, standard.Marshals writer.contentType e document →
        standard.unmarshal reader.contentType (Glyphs.ofBytes document.toUTF8) = .ok e) ∧
    ∀ (chain : List (Converter × Converter)) (reader : Converter),
      let steps := chain.map fun step => (step.1.contentType, step.2.contentType)
      (∃ last, standard.convertAll steps bytes = .ok last ∧ standard.ConvertsAll steps bytes last) ∧
      ∀ last, standard.ConvertsAll steps bytes last →
        standard.unmarshal reader.contentType (Glyphs.ofBytes last) = .ok e := by
  rw [unmarshal_eq_ok_iff] at haccepted
  constructor
  · intro writer reader
    refine ⟨⟨_, marshal_standard writer e, marshals_of_marshal (marshal_standard writer e)⟩, ?_⟩
    intro document hdocument
    obtain ⟨tree, htree, rfl⟩ := marshals_standard_iff.mp hdocument
    rw [unmarshal_eq_ok_iff]
    exact Codec.parse_writes_of_parse haccepted hyears hreal writer.layout htree
  · intro chain reader
    refine ⟨exists_convertAll hyears hreal haccepted chain, fun last hlast => ?_⟩
    exact unmarshal_eq_ok_iff.mpr (parse_of_convertsAll hyears hreal haccepted chain hlast)

/-- A document with the envelope and its trace in sequences, a content before its kind, null in a sequence,
an unknown member, a repeated key, a number with an exponent, a leap second with an offset, and without
errors. -/
def unusual : String :=
  "[\"00000000000000000000000000000007\", \"2024-10-04T14:30:60.5+02:00\", 1, \"array\", " ++
  "\x7b\"value\": [\x7b\"value\": 15.0e-1, \"note\": [], \"type\": \"Number\"\x7d, [\"Null\", null]], " ++
  "\"type\": \"Array\"\x7d, \x7b\x7d, \x7b\"unit\": \"K\", \"unit\": \"C\"\x7d, \x7b\x7d, " ++
  "[\"agent\", \"run\", null, \"probe\", \"probe\", 1]]"

theorem convertAll_unusual :
    ∃ e, standard.unmarshal Converter.compact.contentType (Glyphs.ofBytes unusual.toUTF8) = .ok e ∧
      e.numbers = [1.5] ∧ e.moments = [⟨20000, 45059, 1500000000⟩] ∧
      ∃ last, standard.convertAll [(Converter.compact.contentType, Converter.pretty.contentType),
          (Converter.pretty.contentType, Converter.compact.contentType)] unusual.toUTF8 = .ok last ∧
        standard.unmarshal Converter.pretty.contentType (Glyphs.ofBytes last) = .ok e := by
  have hseen : (standard.unmarshal Converter.compact.contentType (Glyphs.ofString unusual)).toOption.map
      (fun e => (e.numbers, e.moments)) = some ([1.5], [⟨20000, 45059, 1500000000⟩]) := by
    decide +kernel
  rw [← Glyphs.ofBytes_toUTF8] at hseen
  cases haccepted : standard.unmarshal Converter.compact.contentType (Glyphs.ofBytes unusual.toUTF8) with
  | error error =>
    rw [haccepted] at hseen
    cases hseen
  | ok e =>
    rw [haccepted] at hseen
    obtain ⟨hnumbers, hmoments⟩ := Prod.mk.inj (Option.some.inj hseen)
    have hyears : ∀ t ∈ e.moments, 0 ≤ (Date.ofDay t.day).year ∧ (Date.ofDay t.day).year ≤ 9999 := by
      rw [hmoments]
      decide
    have hreal : ∀ x ∈ e.numbers, Binary.isFinite x → Codec.RealReadsBack x := by
      have htext : (Number.real 1.5).ReadsAs (.real 1.5) := by decide +kernel
      rw [hnumbers, List.forall_mem_singleton]
      exact fun _ => ⟨_, htext, rfl⟩
    refine ⟨e, rfl, hnumbers, hmoments, ?_⟩
    obtain ⟨⟨last, hlast, hsteps⟩, hread⟩ :=
      (convertAll_of_unmarshal haccepted hyears hreal).2 [(.compact, .pretty), (.pretty, .compact)] .pretty
    exact ⟨last, hlast, hread last hsteps⟩

end ConverterSet

end FlowEngine
