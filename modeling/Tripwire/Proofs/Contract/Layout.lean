import Tripwire.Proofs.Contract.Argument

/-!
# The layout of call data

The head has a word for each parameter. What a dynamic one denotes stands in the tail, at the offset that
its word tells, and the parts of the tail follow each other without a gap. So the data can be read back.
-/
namespace Tripwire.Contract

/-! ## Decoding -/

def wordAt? (data : List UInt8) (offset : Nat) : Option Word :=
  if h : ((data.drop offset).take 32).length = 32 then some ⟨(data.drop offset).take 32, h⟩ else none

def contentAt? (data : List UInt8) (offset : Nat) : Option (List UInt8) :=
  (wordAt? data offset).bind fun length =>
    let rest := data.drop (offset + 32)
    let content := rest.take length.toNat
    let padding := (32 - length.toNat % 32) % 32
    if content.length = length.toNat ∧
        (rest.drop length.toNat).take padding = List.replicate padding 0 then some content
    else none

def decodeParam? (data : List UInt8) (index : Nat) (type : ParamType) : Option Datum :=
  (wordAt? data (32 * index)).bind fun head =>
    if type.isDynamic then (contentAt? data head.toNat).bind (decodeContent? type)
    else decodeWord? type head

def decodeFrom? (data : List UInt8) : Nat → List ParamType → Option (List Datum)
  | _, [] => some []
  | index, type :: types =>
      (decodeParam? data index type).bind fun d =>
        (decodeFrom? data (index + 1) types).map (d :: ·)

def decode? (types : List ParamType) (data : List UInt8) : Option (List Datum) :=
  decodeFrom? data 0 types

/-! ## Layout -/

inductive Placed (offset : Nat) : ParamType → Datum → List UInt8 → List UInt8 → Prop
  | static {type d} {w : Word} : type.isDynamic = false → decodeWord? type w = some d →
      Placed offset type d w.bytes []
  | dynamic {type d padding} : type.isDynamic = true → decodeContent? type d.content = some d →
      padding < 32 → 32 ∣ d.content.length + padding →
      Placed offset type d (Bytes.bigEndian 32 offset)
        (Bytes.bigEndian 32 d.content.length ++ d.content ++ List.replicate padding 0)

inductive Laid : Nat → List ParamType → List Datum → List (List UInt8) → List (List UInt8) → Prop
  | nil {offset} : Laid offset [] [] [] []
  | cons {offset type types d values head heads tail tails} : Placed offset type d head tail →
      Laid (offset + tail.length) types values heads tails →
      Laid offset (type :: types) (d :: values) (head :: heads) (tail :: tails)

inductive Denoted : List ParamType → List Value → List Datum → Prop
  | nil : Denoted [] [] []
  | cons {type types arg args d values} : Denotes type arg d → Denoted types args values →
      Denoted (type :: types) (arg :: args) (d :: values)

variable {type : ParamType} {types : List ParamType} {arg : Value} {args : List Value}
variable {d : Datum} {values : List Datum} {head tail data content : List UInt8}
variable {heads tails : List (List UInt8)} {offset index headSize : Nat} {e : Encoding}

theorem length_head (placed : Placed offset type d head tail) : head.length = 32 := by
  cases placed with
  | static => exact Word.length_bytes _
  | dynamic => exact Bytes.length_bigEndian 32 offset

theorem length_heads (laid : Laid offset types values heads tails) :
    heads.flatten.length = 32 * types.length := by
  induction laid with
  | nil => rfl
  | cons placed _ ih =>
      rw [List.flatten_cons, List.length_append, ih, length_head placed, List.length_cons]
      omega

/-! ## Decoding what is laid out -/

theorem wordAt?_append (before : List UInt8) (w : Word) (after : List UInt8) :
    wordAt? (before ++ (w.bytes ++ after)) before.length = some w := by
  have found : ((before ++ (w.bytes ++ after)).drop before.length).take 32 = w.bytes := by
    rw [List.drop_left, List.take_left' w.length_bytes]
  rw [wordAt?, dif_pos (by rw [found, w.length_bytes])]
  simp only [found]

theorem contentAt?_append (before : List UInt8) {padding : Nat} (small : content.length < 2 ^ 256)
    (fills : padding < 32) (whole : 32 ∣ content.length + padding) (after : List UInt8) :
    contentAt? (before ++ (Bytes.bigEndian 32 content.length ++ content ++
      List.replicate padding 0 ++ after)) before.length = some content := by
  have length : wordAt? (before ++ (Bytes.bigEndian 32 content.length ++ content ++
      List.replicate padding 0 ++ after)) before.length = some (Word.ofNat content.length) := by
    rw [List.append_assoc, List.append_assoc]
    exact wordAt?_append before (Word.ofNat content.length) _
  have rest : (before ++ (Bytes.bigEndian 32 content.length ++ content ++
      List.replicate padding 0 ++ after)).drop (before.length + 32) =
        content ++ (List.replicate padding 0 ++ after) := by
    rw [← List.drop_drop, List.drop_left, List.append_assoc, List.append_assoc]
    exact List.drop_left' (Bytes.length_bigEndian 32 content.length)
  have filled : (32 - content.length % 32) % 32 = padding := by omega
  have zeros : (List.replicate padding 0 ++ after).take padding = List.replicate padding (0 : UInt8) :=
    List.take_left' List.length_replicate
  rw [contentAt?, length, Option.bind_some]
  dsimp only
  rw [rest, Word.toNat_ofNat small, List.take_left, List.drop_left, filled, if_pos ⟨rfl, zeros⟩]

theorem decodeParam?_of_placed (placed : Placed offset type d head tail)
    {before between rest : List UInt8} (start : before.length = 32 * index)
    (reach : (before ++ (head ++ between)).length = offset)
    (small : (before ++ (head ++ between) ++ (tail ++ rest)).length < 2 ^ 256) :
    decodeParam? (before ++ (head ++ between) ++ (tail ++ rest)) index type = some d := by
  have found (w : Word) (same : head = w.bytes) :
      wordAt? (before ++ (head ++ between) ++ (tail ++ rest)) (32 * index) = some w := by
    rw [same, ← start, List.append_assoc, List.append_assoc]
    exact wordAt?_append before w _
  cases placed with
  | static fixed decodes =>
      rw [decodeParam?, found _ rfl, Option.bind_some, fixed, if_neg Bool.false_ne_true, decodes]
  | @dynamic padding dynamic decodes fills whole =>
      simp only [List.length_append, Bytes.length_bigEndian, List.length_replicate] at reach small
      have worth : (Word.ofNat offset).toNat = offset := Word.toNat_ofNat (by omega)
      have content : contentAt? (before ++ (Bytes.bigEndian 32 offset ++ between) ++
          (Bytes.bigEndian 32 d.content.length ++ d.content ++ List.replicate padding 0 ++ rest))
            offset = some d.content := by
        have length : (before ++ (Bytes.bigEndian 32 offset ++ between)).length = offset := by
          simpa only [List.length_append, Bytes.length_bigEndian] using reach
        have there := contentAt?_append (before ++ (Bytes.bigEndian 32 offset ++ between))
          (show d.content.length < 2 ^ 256 by omega) fills whole rest
        rwa [length] at there
      rw [decodeParam?, found (Word.ofNat offset) rfl, Option.bind_some, dynamic, if_pos rfl, worth,
        content, Option.bind_some, decodes]

theorem decodeFrom?_of_laid (laid : Laid offset types values heads tails)
    {before between : List UInt8} (start : before.length = 32 * index)
    (reach : (before ++ (heads.flatten ++ between)).length = offset)
    (small : (before ++ (heads.flatten ++ between) ++ tails.flatten).length < 2 ^ 256) :
    decodeFrom? (before ++ (heads.flatten ++ between) ++ tails.flatten) index types = some values := by
  induction laid generalizing before between index with
  | nil => rfl
  | @cons offset type types d values head heads tail tails placed laid ih =>
      have here : before ++ ((head :: heads).flatten ++ between) ++ (tail :: tails).flatten =
          before ++ (head ++ (heads.flatten ++ between)) ++ (tail ++ tails.flatten) := by
        simp only [List.flatten_cons, List.append_assoc]
      have next : before ++ ((head :: heads).flatten ++ between) ++ (tail :: tails).flatten =
          before ++ head ++ (heads.flatten ++ (between ++ tail)) ++ tails.flatten := by
        simp only [List.flatten_cons, List.append_assoc]
      have first : decodeParam? (before ++ (head ++ (heads.flatten ++ between)) ++
          (tail ++ tails.flatten)) index type = some d := by
        apply decodeParam?_of_placed placed start
        · rw [← reach, List.flatten_cons, List.append_assoc]
        · rwa [← here]
      have later : decodeFrom? (before ++ head ++ (heads.flatten ++ (between ++ tail)) ++
          tails.flatten) (index + 1) types = some values := by
        apply ih
        · rw [List.length_append, start, length_head placed]
          omega
        · simp only [← reach, List.flatten_cons, List.length_append]
          omega
        · rwa [← next]
      rw [← here] at first
      rw [← next] at later
      rw [decodeFrom?, first, Option.bind_some, later, Option.map_some]

theorem decode?_of_laid (laid : Laid (32 * types.length) types values heads tails)
    (small : (heads.flatten ++ tails.flatten).length < 2 ^ 256) :
    decode? types (heads.flatten ++ tails.flatten) = some values := by
  have whole : heads.flatten ++ tails.flatten = [] ++ (heads.flatten ++ []) ++ tails.flatten := by simp
  rw [whole] at small ⊢
  apply decodeFrom?_of_laid laid rfl _ small
  simpa using length_heads laid

/-! ## Encoding lays out -/

theorem add_of_denotes (supported : type.Supported) (held : Held arg)
    (denotes : Denotes type arg d) :
    ∃ head tail, e.add headSize type arg = .ok ⟨e.head ++ head, e.tail ++ tail⟩ ∧
      Placed (headSize + e.tail.length) type d head tail := by
  rw [Encoding.add]
  split
  case isTrue dynamic =>
    have read := (dynamicBytes_eq_ok_iff dynamic).mpr ⟨d, denotes, rfl⟩
    have decodes := decodeContent?_content dynamic denotes
    have fills : (d.content.length + 31) / 32 * 32 - d.content.length < 32 := by omega
    refine ⟨_, _, ?_, .dynamic dynamic decodes fills (by omega)⟩
    rw [read, List.append_assoc, ← List.append_assoc e.tail]
    rfl
  case isFalse fixed =>
    have fixed : type.isDynamic = false := Bool.eq_false_iff.mpr fixed
    obtain ⟨w, encoded, decodes⟩ := encodeStatic_of_denotes supported held fixed denotes
    refine ⟨w.bytes, [], ?_, .static fixed decodes⟩
    rw [encoded, List.append_nil]
    rfl

theorem denotes_of_add {e' : Encoding} (supported : type.Supported) (held : Held arg)
    (ok : e.add headSize type arg = .ok e') : ∃ d, Denotes type arg d := by
  rw [Encoding.add] at ok
  split at ok
  case isTrue dynamic =>
    obtain ⟨content, read, -⟩ := map_eq_ok_iff.mp ok
    obtain ⟨d, denotes, -⟩ := (dynamicBytes_eq_ok_iff dynamic).mp read
    exact ⟨d, denotes⟩
  case isFalse =>
    obtain ⟨w, encoded, -⟩ := map_eq_ok_iff.mp ok
    exact denotes_of_encodeStatic supported held encoded

theorem encodeFrom_of_denoted (supported : ∀ type ∈ types, type.Supported)
    (held : ∀ arg ∈ args, Held arg) (denoted : Denoted types args values) :
    ∃ heads tails, encodeFrom headSize index e (types.zip args) =
        .ok ⟨e.head ++ heads.flatten, e.tail ++ tails.flatten⟩ ∧
      Laid (headSize + e.tail.length) types values heads tails := by
  induction denoted generalizing index e with
  | nil => exact ⟨[], [], by simp [encodeFrom], .nil⟩
  | @cons type types arg args d values denotes _ ih =>
      obtain ⟨supports, supported⟩ := List.forall_mem_cons.mp supported
      obtain ⟨holds, held⟩ := List.forall_mem_cons.mp held
      obtain ⟨head, tail, added, placed⟩ := add_of_denotes supports holds denotes
      obtain ⟨heads, tails, encoded, laid⟩ := ih supported held
      refine ⟨head :: heads, tail :: tails, ?_, .cons placed ?_⟩
      · rw [List.zip_cons_cons, encodeFrom, added]
        dsimp only
        rw [encoded, List.flatten_cons, List.flatten_cons, List.append_assoc, List.append_assoc]
      · rwa [List.length_append, ← Nat.add_assoc] at laid

theorem denoted_of_encodeFrom {e' : Encoding} (supported : ∀ type ∈ types, type.Supported)
    (held : ∀ arg ∈ args, Held arg) (same : args.length = types.length)
    (ok : encodeFrom headSize index e (types.zip args) = .ok e') :
    ∃ values, Denoted types args values := by
  induction types generalizing args index e with
  | nil =>
      rw [List.length_eq_zero_iff.mp same]
      exact ⟨[], .nil⟩
  | cons type types ih =>
      cases args with
      | nil => cases same
      | cons arg args =>
          obtain ⟨supports, supported⟩ := List.forall_mem_cons.mp supported
          obtain ⟨holds, held⟩ := List.forall_mem_cons.mp held
          rw [List.zip_cons_cons, encodeFrom] at ok
          split at ok
          case h_1 next added =>
            obtain ⟨d, denotes⟩ := denotes_of_add supports holds added
            obtain ⟨values, denoted⟩ := ih supported held (Nat.succ.inj same) ok
            exact ⟨d :: values, .cons denotes denoted⟩
          case h_2 => cases ok

theorem encodeParams_of_denoted (supported : ∀ type ∈ types, type.Supported)
    (held : ∀ arg ∈ args, Held arg) (denoted : Denoted types args values) :
    ∃ heads tails, encodeParams types args = .ok (heads.flatten ++ tails.flatten) ∧
      Laid (32 * types.length) types values heads tails := by
  have encoding : ∃ heads tails, encodeFrom (32 * types.length) 0 ⟨[], []⟩ (types.zip args) =
        .ok ⟨[] ++ heads.flatten, [] ++ tails.flatten⟩ ∧
      Laid (32 * types.length + 0) types values heads tails :=
    encodeFrom_of_denoted supported held denoted
  obtain ⟨heads, tails, encoded, laid⟩ := encoding
  refine ⟨heads, tails, ?_, laid⟩
  rw [encodeParams, encoded]
  rfl

theorem denoted_of_encodeParams (supported : ∀ type ∈ types, type.Supported)
    (held : ∀ arg ∈ args, Held arg) (same : args.length = types.length)
    (ok : encodeParams types args = .ok data) : ∃ values, Denoted types args values := by
  obtain ⟨e, encoded, -⟩ := map_eq_ok_iff.mp ok
  exact denoted_of_encodeFrom supported held same encoded

/-! ## Arguments that do not fit -/

/-- The lowest index whose argument denotes nothing of its parameter's type. -/
structure FirstMisfit (types : List ParamType) (args : List Value) (i : Nat) (type : ParamType) :
    Prop where
  param : types[i]? = some type
  misfit : ∃ arg, args[i]? = some arg ∧ ∀ d, ¬Denotes type arg d
  fits : ∀ j < i, ∀ type arg, types[j]? = some type → args[j]? = some arg → ∃ d, Denotes type arg d

theorem exists_firstMisfit (same : args.length = types.length)
    (none : ¬∃ values, Denoted types args values) : ∃ i type, FirstMisfit types args i type := by
  induction types generalizing args with
  | nil =>
      rw [List.length_eq_zero_iff.mp same] at none
      exact absurd ⟨[], .nil⟩ none
  | cons type types ih =>
      cases args with
      | nil => cases same
      | cons arg args =>
          by_cases fits : ∃ d, Denotes type arg d
          · obtain ⟨d, denotes⟩ := fits
            have later : ¬∃ values, Denoted types args values := fun ⟨values, denoted⟩ =>
              none ⟨d :: values, .cons denotes denoted⟩
            obtain ⟨i, other, first⟩ := ih (Nat.succ.inj same) later
            refine ⟨i + 1, other, first.param, first.misfit, ?_⟩
            intro j less
            cases j with
            | zero =>
                rintro _ _ ⟨⟩ ⟨⟩
                exact ⟨d, denotes⟩
            | succ j => exact first.fits j (Nat.lt_of_succ_lt_succ less)
          · refine ⟨0, type, rfl, ⟨arg, rfl, fun d denotes => fits ⟨d, denotes⟩⟩, ?_⟩
            intro j less
            cases less

theorem encodeFrom_misfit (supported : ∀ type ∈ types, type.Supported)
    (held : ∀ arg ∈ args, Held arg) {i : Nat} (first : FirstMisfit types args i type) :
    ∃ reason, encodeFrom headSize index e (types.zip args) =
      .error (.invalidArgument (index + i) type reason) := by
  induction types generalizing args index e i with
  | nil => cases first.param
  | cons leading types ih =>
      obtain ⟨param, ⟨arg, given, misfit⟩, fits⟩ := first
      cases args with
      | nil => cases given
      | cons start args =>
          obtain ⟨supports, supported⟩ := List.forall_mem_cons.mp supported
          obtain ⟨holds, held⟩ := List.forall_mem_cons.mp held
          rw [List.zip_cons_cons, encodeFrom]
          cases i with
          | zero =>
              cases param
              cases given
              cases added : e.add headSize type arg with
              | ok next =>
                  obtain ⟨d, denotes⟩ := denotes_of_add supports holds added
                  exact absurd denotes (misfit d)
              | error reason => exact ⟨reason, rfl⟩
          | succ i =>
              obtain ⟨d, denotes⟩ := fits 0 (Nat.succ_pos i) leading start rfl rfl
              obtain ⟨head, tail, added, -⟩ := add_of_denotes supports holds denotes
              rw [added, ← Nat.add_assoc, Nat.add_right_comm]
              exact ih supported held ⟨param, ⟨arg, given, misfit⟩,
                fun j less => fits (j + 1) (Nat.succ_lt_succ less)⟩

theorem encodeParams_misfit (supported : ∀ type ∈ types, type.Supported)
    (held : ∀ arg ∈ args, Held arg) {i : Nat} (first : FirstMisfit types args i type) :
    ∃ reason, encodeParams types args = .error (.invalidArgument i type reason) := by
  have failing : ∃ reason, encodeFrom (32 * types.length) 0 ⟨[], []⟩ (types.zip args) =
      .error (.invalidArgument (0 + i) type reason) := encodeFrom_misfit supported held first
  obtain ⟨reason, failed⟩ := failing
  refine ⟨reason, ?_⟩
  rw [encodeParams, failed, Nat.zero_add]
  rfl

/-! ## Call data is decodable -/

/-- Encoded data are the words of the head and the parts of the tail, and a decoder takes what the
arguments denote from them, so nothing else encodes to the same data. The bound is where a word no longer
has room for an offset. If an argument does not fit its type, the first one that does not is named. -/
theorem encoded_params_decode (supported : ∀ type ∈ types, type.Supported)
    (held : ∀ arg ∈ args, Held arg) (same : args.length = types.length) :
    (∀ data, encodeParams types args = .ok data →
      ∃ values heads tails, Denoted types args values ∧ data = heads.flatten ++ tails.flatten ∧
        heads.flatten.length = 32 * types.length ∧
        Laid (32 * types.length) types values heads tails ∧
        (data.length < 2 ^ 256 → decode? types data = some values ∧
          ∀ others values', (∀ arg ∈ others, Held arg) → Denoted types others values' →
            encodeParams types others = .ok data → values' = values)) ∧
    ((∃ data, encodeParams types args = .ok data) ↔ ∃ values, Denoted types args values) ∧
    ((¬∃ values, Denoted types args values) → ∃ i type reason, FirstMisfit types args i type ∧
      encodeParams types args = .error (.invalidArgument i type reason)) := by
  have laidOut {args : List Value} {values : List Datum} {data : List UInt8}
      (held : ∀ arg ∈ args, Held arg) (denoted : Denoted types args values)
      (ok : encodeParams types args = .ok data) :
      ∃ heads tails, data = heads.flatten ++ tails.flatten ∧
        Laid (32 * types.length) types values heads tails := by
    obtain ⟨heads, tails, encoded, laid⟩ := encodeParams_of_denoted supported held denoted
    exact ⟨heads, tails, Except.ok.inj (ok.symm.trans encoded), laid⟩
  refine ⟨?_, ⟨?_, ?_⟩, ?_⟩
  · intro data ok
    obtain ⟨values, denoted⟩ := denoted_of_encodeParams supported held same ok
    obtain ⟨heads, tails, rfl, laid⟩ := laidOut held denoted ok
    refine ⟨values, heads, tails, denoted, rfl, length_heads laid, laid, ?_⟩
    intro small
    have decodes := decode?_of_laid laid small
    refine ⟨decodes, ?_⟩
    intro others values' held' denoted' ok'
    obtain ⟨heads', tails', same, laid'⟩ := laidOut held' denoted' ok'
    rw [same] at small decodes
    exact Option.some.inj ((decode?_of_laid laid' small).symm.trans decodes)
  · rintro ⟨data, ok⟩
    exact denoted_of_encodeParams supported held same ok
  · rintro ⟨values, denoted⟩
    obtain ⟨heads, tails, encoded, -⟩ := encodeParams_of_denoted supported held denoted
    exact ⟨_, encoded⟩
  · intro none
    obtain ⟨i, type, first⟩ := exists_firstMisfit same none
    obtain ⟨reason, failed⟩ := encodeParams_misfit supported held first
    exact ⟨i, type, reason, first, failed⟩

def sampleTypes : List ParamType := [.uint 8, .string, .bytes, .int 16]

def sampleArgs : List Value := [.int 7, .str "hi", .str "0xfF", .str "-2"]

def sampleValues : List Datum := [.number 7, .text "hi", .bytes [255], .number (-2)]

def sampleData : List UInt8 :=
  [7, 128, 192, Nat.pow 2 256 - 2, 2].flatMap (Bytes.bigEndian 32) ++ [104, 105] ++
    List.replicate 30 0 ++ Bytes.bigEndian 32 1 ++ [255] ++ List.replicate 31 0

def sampleMisfits : List Value := [.int 7, .str "hi", .str "0xf", .int 32768]

theorem sampleTypes_supported : ∀ type ∈ sampleTypes, type.Supported := by
  have named : sampleTypes = ["uint8", "string", "bytes", "int16"].filterMap ParamType.read? := by decide
  intro type among
  rw [named] at among
  obtain ⟨name, -, read⟩ := List.mem_filterMap.mp among
  exact ⟨name, read⟩

theorem sampleArgs_denoted : Denoted sampleTypes sampleArgs sampleValues := by
  have mark : "0xfF".toList = '0' :: 'x' :: ['f', 'F'] := by decide
  have hex : HexText (.str "0xfF") [255] := .marked mark (by decide)
  have sign : "-2".toList = '-' :: ['2'] := by decide
  have two : Magnitude ['2'] 2 := .decimal (by decide) ⟨[2], by decide, by decide, rfl⟩
  have minus : Integer (.str "-2") (-2) := .minus sign two
  exact .cons (.uint .number (by decide) (by decide)) (.cons .string (.cons (.bytes hex)
    (.cons (.int minus (by decide) (by decide)) .nil)))

theorem sampleCall_decodes :
    encodeParams sampleTypes sampleArgs = .ok sampleData ∧
      decode? sampleTypes sampleData = some sampleValues ∧
      FirstMisfit sampleTypes sampleMisfits 2 .bytes := by
  have encoded : encodeParams sampleTypes sampleArgs = .ok sampleData := by decide +kernel
  have small : sampleData.length < 2 ^ 256 := by
    have length : sampleData.length = 256 := by decide +kernel
    omega
  have refused : encodeParams sampleTypes sampleMisfits =
      .error (.invalidArgument 2 .bytes (.hex .oddLength)) := by decide +kernel
  have held : ∀ arg ∈ sampleArgs, Held arg := by
    simp [sampleArgs, Held]
  have held' : ∀ arg ∈ sampleMisfits, Held arg := by
    simp [sampleMisfits, Held]
  obtain ⟨decodes, -⟩ := encoded_params_decode sampleTypes_supported held rfl
  obtain ⟨values, -, -, -, -, -, -, decoding⟩ := decodes sampleData encoded
  obtain ⟨found, only⟩ := decoding small
  have same := only sampleArgs sampleValues held sampleArgs_denoted encoded
  obtain ⟨-, succeeds, misfit⟩ := encoded_params_decode sampleTypes_supported held' rfl
  have none : ¬∃ values, Denoted sampleTypes sampleMisfits values := fun denoted => by
    obtain ⟨data, ok⟩ := succeeds.mpr denoted
    cases refused.symm.trans ok
  obtain ⟨i, type, reason, first, failed⟩ := misfit none
  cases refused.symm.trans failed
  exact ⟨encoded, same ▸ found, first⟩

end Tripwire.Contract
