/-
  The wallet's signature on its way to the API (apps/web/lib/wallet-auth.ts).

  `toBase64Signature` takes what the wallet returned, of whatever shape, and gives the base64
  text that the API reads. Bytes come out of every shape as the same text, from which they are
  read back (`bytesToBase64_eq`, `toBase64Signature_ofBytes`). Arrays also hold other values,
  and those that pass the tests are silently cut to a byte: `faithful_own` and
  `faithful_array` say for which arrays the text still stands for their elements.

  What `Number` reads in a string is a parameter. The two zeros are one number, as for `===`.
-/
import PovDeposit.Lib.Base64
import PovDeposit.Lib.Outcome

namespace PovDeposit.Web

open PovDeposit.Lib PovDeposit.Lib.Outcome

/-! ## JavaScript values -/

inductive Num where
  | nan
  | infinity (negative : Bool)
  | finite (q : Rat)
  deriving DecidableEq

/-- `Number.isInteger` -/
def Num.isInteger : Num → Bool
  | .finite q => q.den = 1
  | _ => false

/-- The element a `Uint8Array` stores: without its fraction, modulo 256. -/
def Num.toUint8 : Num → UInt8
  | .finite q => UInt8.ofInt (q.num.tdiv q.den)
  | _ => 0

/-- An object comes with the result of converting it to a number. -/
inductive Value where
  | undefined
  | null
  | boolean (b : Bool)
  | number (n : Num)
  | bigint (n : Int)
  | string (text : String)
  | symbol
  | object (converted : Except String Num)

def Value.isInteger : Value → Bool
  | .number n => n.isInteger
  | _ => false

def Value.toNumber (stringToNumber : String → Num) : Value → Except String Num
  | .undefined => .ok .nan
  | .null => .ok (.finite 0)
  | .boolean b => .ok (.finite (if b then 1 else 0))
  | .number n => .ok n
  | .bigint _ => .error "Cannot convert a BigInt value to a number"
  | .string text => .ok (stringToNumber text)
  | .symbol => .error "Cannot convert a Symbol value to a number"
  | .object converted => converted

/-- The elements of an array; a hole is `none`. -/
abbrev Elements := List (Option Value)

/-- `every` leaves holes out. -/
def Elements.every (test : Value → Bool) (elements : Elements) : Bool :=
  elements.all fun element => element.all test

/-- The property `data` of an object. -/
inductive Data where
  | absent
  | array (elements : Elements)
  | other

/-- What the wallet can return: `other` is a function, or neither a string nor an object. -/
inductive Signed where
  | string (text : String)
  | uint8Array (bytes : List UInt8)
  | arrayBuffer (bytes : List UInt8)
  | array (elements : Elements) (data : Data)
  | object (data : Data)
  | other

/-! ## toBase64Signature -/

/-- `btoa`, on a string of code units. -/
def btoa (binary : List Char) : Except String String :=
  if binary.all fun c => c.toNat < 256 then
    .ok (String.ofList (Base64.encode (binary.map Char.toUInt8)))
  else .error "The string contains invalid characters"

def bytesToBase64 (bytes : List UInt8) : Except String String :=
  btoa (bytes.foldl (fun binary byte => binary ++ [Char.ofUInt8 byte]) [])

section

variable (stringToNumber : String → Num)

/-- `Uint8Array.from`, which reads a hole as `undefined`. -/
def uint8ArrayFrom : Elements → Except String (List UInt8)
  | [] => .ok []
  | element :: rest => do
      let n ← (element.getD .undefined).toNumber stringToNumber
      let bytes ← uint8ArrayFrom rest
      return n.toUint8 :: bytes

/-- `bytesToBase64(Uint8Array.from(elements))` -/
def fromElements (elements : Elements) : Except String String := do
  bytesToBase64 (← uint8ArrayFrom stringToNumber elements)

def unsupported : String := "Freighter returned a signature in an unsupported format"

/-- The branch of serialized Buffers, which tests neither the `type` nor the elements. -/
def fromData : Data → Except String String
  | .array elements => fromElements stringToNumber elements
  | _ => .error unsupported

def toBase64Signature : Signed → Except String String
  | .string text => .ok text
  | .uint8Array bytes => bytesToBase64 bytes
  | .arrayBuffer bytes => bytesToBase64 bytes
  | .array elements data =>
      if elements.every Value.isInteger then fromElements stringToNumber elements
      else fromData stringToNumber data
  | .object data => fromData stringToNumber data
  | .other => .error unsupported

end

/-! ## Bytes -/

theorem fold_binary (bytes : List UInt8) (binary : List Char) :
    bytes.foldl (fun binary byte => binary ++ [Char.ofUInt8 byte]) binary
      = binary ++ bytes.map Char.ofUInt8 := by
  induction bytes generalizing binary with
  | nil => rw [List.foldl_nil, List.map_nil, List.append_nil]
  | cons byte bytes ih =>
    rw [List.foldl_cons, ih, List.map_cons, List.append_assoc, List.singleton_append]

theorem bytesToBase64_eq (bytes : List UInt8) :
    bytesToBase64 bytes = .ok (String.ofList (Base64.encode bytes)) := by
  have hunits : ∀ c ∈ bytes.map Char.ofUInt8, c.toNat < 256 := by
    intro c hc
    obtain ⟨byte, _, rfl⟩ := List.mem_map.mp hc
    exact byte.toNat_lt
  have hback : (bytes.map Char.ofUInt8).map Char.toUInt8 = bytes := by
    have hbyte : Char.toUInt8 ∘ Char.ofUInt8 = id := funext fun byte => UInt8.toUInt8_toUInt32 byte
    rw [List.map_map, hbyte, List.map_id]
  unfold bytesToBase64 btoa
  rw [fold_binary, List.nil_append, if_pos (by simpa using hunits), hback]

theorem decode_bytesToBase64 {bytes : List UInt8} {text : String}
    (h : bytesToBase64 bytes = .ok text) : Base64.decode text.toList = some bytes := by
  rw [bytesToBase64_eq] at h
  cases h
  rw [String.toList_ofList, Base64.decode_encode]

/-! ## Arrays -/

def ofByte (byte : UInt8) : Option Value := some (.number (.finite byte.toNat))

/-- A present element that is an integer from 0 to 255. -/
def IsByte (element : Option Value) : Prop :=
  ∃ n : Nat, n < 256 ∧ element = some (.number (.finite n))

/-- An element that cannot be converted to a number. -/
def Throws : Option Value → Prop
  | some (.bigint _) => True
  | some .symbol => True
  | some (.object converted) => ∃ e, converted = .error e
  | _ => False

/-- Nothing is sent, or a text that decodes to the elements themselves. -/
def Faithful (sent : Except String String) (elements : Elements) : Prop :=
  ∀ text, sent = .ok text →
    ∃ bytes, Base64.decode text.toList = some bytes ∧ elements = bytes.map ofByte

theorem isByte_iff {element : Option Value} : IsByte element ↔ ∃ byte, ofByte byte = element := by
  constructor
  · intro h
    obtain ⟨n, hn, rfl⟩ := h
    refine ⟨UInt8.ofNat n, ?_⟩
    rw [ofByte, UInt8.toNat_ofNat', Nat.mod_eq_of_lt hn]
  · intro h
    obtain ⟨byte, rfl⟩ := h
    exact ⟨byte.toNat, byte.toNat_lt, rfl⟩

theorem forall_isByte_iff {elements : Elements} :
    (∀ element ∈ elements, IsByte element) ↔ ∃ bytes : List UInt8, elements = bytes.map ofByte := by
  constructor
  · intro h
    induction elements with
    | nil => exact ⟨[], rfl⟩
    | cons element rest ih =>
      obtain ⟨byte, rfl⟩ := isByte_iff.mp (h element List.mem_cons_self)
      obtain ⟨bytes, rfl⟩ := ih fun other hother => h other (List.mem_cons_of_mem _ hother)
      exact ⟨byte :: bytes, rfl⟩
  · intro h
    obtain ⟨bytes, rfl⟩ := h
    intro element helement
    obtain ⟨byte, _, hbyte⟩ := List.mem_map.mp helement
    exact isByte_iff.mpr ⟨byte, hbyte⟩

theorem toUint8_byte (byte : UInt8) : (Num.finite byte.toNat).toUint8 = byte := by
  show UInt8.ofNat (((byte.toNat : Int).tdiv 1) % 2 ^ 8).toNat = byte
  have hlt := byte.toNat_lt
  have hsame : (((byte.toNat : Int).tdiv 1) % 2 ^ 8).toNat = byte.toNat := by
    rw [Int.tdiv_one]
    omega
  rw [hsame, UInt8.ofNat_toNat]

section

variable (stringToNumber : String → Num)

theorem toNumber_ok_iff (element : Option Value) :
    (∃ n, (element.getD .undefined).toNumber stringToNumber = .ok n) ↔ ¬ Throws element := by
  cases element with
  | none => exact ⟨fun _ h => h, fun _ => ⟨_, rfl⟩⟩
  | some v =>
    cases v with
    | bigint n => simp [Value.toNumber, Throws]
    | symbol => simp [Value.toNumber, Throws]
    | object converted => cases converted <;> simp [Value.toNumber, Throws]
    | _ => simp [Value.toNumber, Throws]

theorem uint8ArrayFrom_ok_iff (elements : Elements) :
    (∃ bytes, uint8ArrayFrom stringToNumber elements = .ok bytes) ↔
      ∀ element ∈ elements, ¬ Throws element := by
  induction elements with
  | nil => exact ⟨fun _ => List.forall_mem_nil _, fun _ => ⟨[], rfl⟩⟩
  | cons element rest ih =>
    rw [List.forall_mem_cons, ← ih, ← toNumber_ok_iff stringToNumber]
    simp only [uint8ArrayFrom, bind_eq_ok, pure_eq_ok]
    constructor
    · intro h
      obtain ⟨_, n, hn, bytes, hbytes, _⟩ := h
      exact ⟨⟨n, hn⟩, bytes, hbytes⟩
    · intro h
      obtain ⟨⟨n, hn⟩, bytes, hbytes⟩ := h
      exact ⟨_, n, hn, bytes, hbytes, rfl⟩

theorem uint8ArrayFrom_ofBytes (bytes : List UInt8) :
    uint8ArrayFrom stringToNumber (bytes.map ofByte) = .ok bytes := by
  induction bytes with
  | nil => rfl
  | cons byte bytes ih =>
    rw [List.map_cons, uint8ArrayFrom, ih]
    show Except.ok ((Num.finite byte.toNat).toUint8 :: bytes) = .ok (byte :: bytes)
    rw [toUint8_byte]

theorem fromElements_ofBytes (bytes : List UInt8) :
    fromElements stringToNumber (bytes.map ofByte) = bytesToBase64 bytes := by
  unfold fromElements
  rw [uint8ArrayFrom_ofBytes]
  rfl

/-- The elements that are encoded, against those the text is to stand for. -/
theorem faithful_fromElements (sent elements : Elements) :
    Faithful (fromElements stringToNumber sent) elements ↔
      (∃ element ∈ sent, Throws element) ∨
        ∃ bytes, uint8ArrayFrom stringToNumber sent = .ok bytes ∧ elements = bytes.map ofByte := by
  constructor
  · intro h
    by_cases hthrows : ∃ element ∈ sent, Throws element
    · exact Or.inl hthrows
    obtain ⟨bytes, hbytes⟩ := (uint8ArrayFrom_ok_iff stringToNumber sent).mpr
      fun element helement ht => hthrows ⟨element, helement, ht⟩
    have htext : fromElements stringToNumber sent = bytesToBase64 bytes := by
      unfold fromElements
      rw [hbytes]
      rfl
    rw [htext, bytesToBase64_eq] at h
    obtain ⟨read, hread, helements⟩ := h _ rfl
    rw [decode_bytesToBase64 (bytesToBase64_eq bytes)] at hread
    cases hread
    exact Or.inr ⟨bytes, hbytes, helements⟩
  · intro h text htext
    obtain ⟨bytes, hbytes, hencode⟩ := bind_eq_ok.mp htext
    rcases h with ⟨element, helement, ht⟩ | ⟨bytes', hbytes', helements⟩
    · exact absurd ht ((uint8ArrayFrom_ok_iff stringToNumber sent).mp ⟨bytes, hbytes⟩ _ helement)
    · rw [hbytes] at hbytes'
      cases hbytes'
      exact ⟨bytes, decode_bytesToBase64 hencode, helements⟩

/-- Elements that are encoded as they are have to be bytes. -/
theorem faithful_own (elements : Elements) :
    Faithful (fromElements stringToNumber elements) elements ↔
      (∀ element ∈ elements, IsByte element) ∨ ∃ element ∈ elements, Throws element := by
  have hown : (∃ bytes, uint8ArrayFrom stringToNumber elements = .ok bytes ∧
      elements = bytes.map ofByte) ↔ ∀ element ∈ elements, IsByte element := by
    rw [forall_isByte_iff]
    constructor
    · intro h
      obtain ⟨bytes, _, helements⟩ := h
      exact ⟨bytes, helements⟩
    · intro h
      obtain ⟨bytes, rfl⟩ := h
      exact ⟨bytes, uint8ArrayFrom_ofBytes stringToNumber bytes, rfl⟩
  rw [faithful_fromElements, hown, or_comm]

end

/-! ## The two array branches -/

theorem every_iff {elements : Elements} :
    elements.every Value.isInteger ↔ ∀ v, some v ∈ elements → v.isInteger := by
  simp only [Elements.every, List.all_eq_true]
  constructor
  · intro h v hv
    exact h (some v) hv
  · intro h element helement
    cases element with
    | none => rfl
    | some v => exact h v helement

theorem not_every_iff {elements : Elements} :
    ¬ elements.every Value.isInteger ↔ ∃ v, some v ∈ elements ∧ ¬ v.isInteger := by
  simp only [every_iff, not_forall, exists_prop]

theorem isInteger_of_isByte {v : Value} (h : IsByte (some v)) : v.isInteger := by
  obtain ⟨n, _, hv⟩ := h
  cases hv
  rfl

theorem not_throws_of_isInteger {v : Value} (h : v.isInteger) : ¬ Throws (some v) := by
  cases v with
  | number n => exact id
  | _ => cases h

section

variable (stringToNumber : String → Num)

/-- An array is tested for integers, but not for their range. If the test fails, its own
    property `data` is sent in its place. -/
theorem faithful_array (elements : Elements) (data : Data) :
    Faithful (toBase64Signature stringToNumber (.array elements data)) elements ↔
      (∀ element ∈ elements, IsByte element) ∨
        (∃ v, some v ∈ elements ∧ ¬ v.isInteger) ∧
          ∀ sent, data = .array sent → ∃ element ∈ sent, Throws element := by
  rw [toBase64Signature]
  by_cases hevery : elements.every Value.isInteger
  · have hintegers := every_iff.mp hevery
    have hthrows : ¬ ∃ element ∈ elements, Throws element := by
      rintro ⟨element, helement, ht⟩
      cases element with
      | none => exact ht
      | some v => exact not_throws_of_isInteger (hintegers v helement) ht
    have hsome : ¬ ∃ v, some v ∈ elements ∧ ¬ v.isInteger := fun h => not_every_iff.mpr h hevery
    rw [if_pos hevery, faithful_own]
    simp only [hthrows, hsome, false_and]
  · have hsome := not_every_iff.mp hevery
    have hbytes : ¬ ∀ element ∈ elements, IsByte element := by
      intro h
      obtain ⟨v, hv, hn⟩ := hsome
      exact hn (isInteger_of_isByte (h _ hv))
    rw [if_neg hevery]
    simp only [hbytes, hsome, false_or, true_and]
    cases data with
    | array sent =>
      have hother : ¬ ∃ bytes, uint8ArrayFrom stringToNumber sent = .ok bytes ∧
          elements = bytes.map ofByte := fun ⟨bytes, _, h⟩ => hbytes (forall_isByte_iff.mpr ⟨bytes, h⟩)
      show Faithful (fromElements stringToNumber sent) elements ↔ _
      rw [faithful_fromElements]
      simp only [hother, or_false, Data.array.injEq, forall_eq']
    | absent => exact ⟨fun _ sent h => (by cases h), fun _ text h => (by cases h)⟩
    | other => exact ⟨fun _ sent h => (by cases h), fun _ text h => (by cases h)⟩

/-- An array of bytes passes the test. -/
theorem toBase64Signature_ofBytes (bytes : List UInt8) (data : Data) :
    toBase64Signature stringToNumber (.array (bytes.map ofByte) data) = bytesToBase64 bytes := by
  have hevery : Elements.every Value.isInteger (bytes.map ofByte) := by
    have hbytes := forall_isByte_iff.mpr ⟨bytes, rfl⟩
    exact every_iff.mpr fun v hv => isInteger_of_isByte (hbytes _ hv)
  rw [toBase64Signature, if_pos hevery, fromElements_ofBytes]

/-- Bytes are one text in all four shapes, from which they are read back. An array is sent
    for what it holds, or refused, exactly when it is one of bytes or

    * given directly: has an element that is no integer, and no array of its own as `data`
      whose elements all convert to numbers;
    * given as `data`: has an element that does not convert to a number. -/
theorem signature_faithful_iff :
    (∀ bytes data, ∃ text, toBase64Signature stringToNumber (.uint8Array bytes) = .ok text ∧
      toBase64Signature stringToNumber (.arrayBuffer bytes) = .ok text ∧
      toBase64Signature stringToNumber (.array (bytes.map ofByte) data) = .ok text ∧
      toBase64Signature stringToNumber (.object (.array (bytes.map ofByte))) = .ok text ∧
      Base64.decode text.toList = some bytes) ∧
    ∀ elements,
      (∀ data, Faithful (toBase64Signature stringToNumber (.array elements data)) elements ↔
        (∀ element ∈ elements, IsByte element) ∨
          (∃ v, some v ∈ elements ∧ ¬ v.isInteger) ∧
            ∀ sent, data = .array sent → ∃ element ∈ sent, Throws element) ∧
      (Faithful (toBase64Signature stringToNumber (.object (.array elements))) elements ↔
        (∀ element ∈ elements, IsByte element) ∨ ∃ element ∈ elements, Throws element) := by
  constructor
  · intro bytes data
    have htext := bytesToBase64_eq bytes
    refine ⟨_, htext, htext, ?_, ?_, decode_bytesToBase64 htext⟩
    · rw [toBase64Signature_ofBytes, htext]
    · show fromElements stringToNumber (bytes.map ofByte) = _
      rw [fromElements_ofBytes, htext]
  · intro elements
    exact ⟨faithful_array stringToNumber elements, faithful_own stringToNumber elements⟩

end

/-- An integer above 255 passes the test of the array branch and wraps around. As `data` of a
    serialized Buffer nothing is tested: a word is 0 and a fraction is cut off. -/
theorem out_of_range_wraps :
    toBase64Signature (fun _ => .nan) (.array [some (.number (.finite 256))] .absent)
      = .ok "AA==" ∧
    Base64.decode "AA==".toList = some [0] ∧
    ¬ Faithful (toBase64Signature (fun _ => .nan)
      (.array [some (.number (.finite 256))] .absent)) [some (.number (.finite 256))] ∧
    toBase64Signature (fun _ => .nan) (.object (.array
      [some (.string "x"), some (.number (.finite (mkRat 3 2))), some (.number (.finite 300))]))
      = .ok "AAEs" ∧
    Base64.decode "AAEs".toList = some [0, 1, 44] := by
  refine ⟨rfl, by decide, ?_, rfl, by decide⟩
  intro h
  obtain ⟨bytes, hread, helements⟩ := h "AA==" rfl
  have hzero : bytes = [0] := Option.some.inj (hread.symm.trans (by decide))
  rw [hzero] at helements
  cases helements

end PovDeposit.Web
