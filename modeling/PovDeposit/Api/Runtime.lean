/-
  What the API takes from its JavaScript runtime, from zod and from Postgres.

  The functions of node:crypto, `Date` and `JSON` are parameters, collected in `Runtime`;
  what a result needs of them is a hypothesis of that result. The string tests of the code
  are modelled as they are: the hash pattern `/^[a-f0-9]{64}$/i` and the string lengths,
  which JavaScript counts in UTF-16 code units.

  The database reads a text as a UUID wherever a `@db.Uuid` column is compared with it or
  written from it. It compares by value and gives a UUID back in one spelling, which is also
  that of `randomUUID`; a text that is no UUID fails the statement.
-/
import Mathlib.Algebra.GroupWithZero.Nat

namespace PovDeposit.Api

/-- The payload of a check-in token. `expiresAt` is the instant its ISO string names, in
    milliseconds, `none` for a string that names none. -/
structure CheckInPayload where
  version : Int
  bookingId : String
  renter : String
  nonce : String
  expiresAt : Option Int
  deriving DecidableEq, Repr

/-- What a token's first part decodes to. -/
inductive Decoded where
  /-- `JSON.parse` throws -/
  | malformed
  /-- a JSON value that is not a payload of this shape -/
  | foreign
  | payload (payload : CheckInPayload)
  deriving DecidableEq, Repr

structure Runtime where
  /-- `new Date(s)`, in milliseconds; `none` is an invalid date -/
  date : String → Option Int
  date_range : ∀ s t, date s = some t → t.natAbs ≤ 8640000000000000
  /-- whether `z.iso.datetime()` accepts a string -/
  isoDatetime : String → Bool
  /-- the hexadecimal SHA-256 digest of a string -/
  sha256 : String → String
  /-- the base64url HMAC-SHA256 of a string under the check-in secret -/
  sign : String → String
  /-- `Buffer.from(JSON.stringify(payload)).toString("base64url")` -/
  encode : CheckInPayload → String
  /-- `JSON.parse(Buffer.from(encoded, "base64url").toString("utf8"))` -/
  decode : String → Decoded
  /-- whether `z.uuid()` accepts a string -/
  isUuid : String → Bool
  /-- how a `uuid` column gives back what it reads in a text; `none` if that is no UUID -/
  uuid : String → Option String
  uuid_idem : ∀ s t, uuid s = some t → uuid t = some t
  /-- whether a `text` column can hold a string; Postgres has no U+0000 -/
  storable : String → Bool
  storable_of : ∀ s : String, (∀ c ∈ s.toList, c.toNat ≠ 0) → storable s = true

/-- The text is a UUID as the database spells it. -/
def Runtime.Canonical (R : Runtime) (id : String) : Prop := R.uuid id = some id

instance (R : Runtime) (id : String) : Decidable (R.Canonical id) :=
  inferInstanceAs (Decidable (R.uuid id = some id))

/-- The id that a statement compares or writes for a text. -/
def Runtime.readUuid (R : Runtime) (s : String) : Except String String :=
  match R.uuid s with
  | some id => .ok id
  | none => .error "Inconsistent column data: Error creating UUID"

theorem readUuid_eq_ok {R : Runtime} {s id : String} : R.readUuid s = .ok id ↔ R.uuid s = some id := by
  unfold Runtime.readUuid
  cases R.uuid s <;> simp

/-- `[a-f0-9]`, in either case -/
def isHexDigit (c : Char) : Bool :=
  c.isDigit || ('a'.toNat ≤ c.toNat && c.toNat ≤ 'f'.toNat) ||
    ('A'.toNat ≤ c.toNat && c.toNat ≤ 'F'.toNat)

/-- `/^[a-f0-9]{64}$/i` -/
def isHash (s : String) : Bool :=
  s.toList.length = 64 && s.toList.all isHexDigit

/-- The character at place `i` of hyphenated groups of 8, 4, 4, 4 and 12 hexadecimal digits. -/
def isUuidChar (i : Nat) (c : Char) : Bool :=
  if i ∈ [8, 13, 18, 23] then c = '-' else isHexDigit c

/-- What a `uuid` column makes of the hyphenated spelling, in either case. -/
def readHyphenated (s : String) : Option String :=
  if s.toList.length = 36 ∧ s.toList.zipIdx.all (fun x => isUuidChar x.2 x.1) then
    some (if s.toList.any Char.isUpper then String.ofList (s.toList.map Char.toLower) else s)
  else none

theorem toLower_hexDigit {c : Char} (h : isHexDigit c = true) :
    isHexDigit c.toLower = true ∧ c.toLower.isUpper = false := by
  have hall : ∀ n < 128, isHexDigit (Char.ofNat n) = true →
      isHexDigit (Char.ofNat n).toLower = true ∧ (Char.ofNat n).toLower.isUpper = false := by
    decide +kernel
  have hlt : c.toNat < 128 := by
    have hle : ∀ d : Char, c.val ≤ d.val → c.toNat ≤ d.toNat := fun d hd => hd
    simp only [isHexDigit, Char.isDigit, Bool.or_eq_true, Bool.and_eq_true, decide_eq_true_eq] at h
    rcases h with (⟨-, h⟩ | ⟨-, h⟩) | ⟨-, h⟩
    · exact Nat.lt_of_le_of_lt (hle '9' h) (by decide)
    · exact Nat.lt_of_le_of_lt h (by decide)
    · exact Nat.lt_of_le_of_lt h (by decide)
  have hc := hall c.toNat hlt
  rw [Char.ofNat_toNat] at hc
  exact hc h

theorem toLower_uuidChar {i : Nat} {c : Char} (h : isUuidChar i c = true) :
    isUuidChar i c.toLower = true ∧ c.toLower.isUpper = false := by
  unfold isUuidChar at h ⊢
  split
  · rename_i hi
    rw [if_pos hi, decide_eq_true_eq] at h
    subst h
    exact ⟨rfl, rfl⟩
  · rename_i hi
    rw [if_neg hi] at h
    exact toLower_hexDigit h

theorem readHyphenated_idem (s t : String) (h : readHyphenated s = some t) :
    readHyphenated t = some t := by
  unfold readHyphenated at h
  split at h
  · rename_i hs
    obtain rfl := Option.some.inj h
    split
    · -- in lower case there is nothing left to change
      obtain ⟨hlength, hchars⟩ := hs
      rw [List.all_eq_true] at hchars
      have hlower : ∀ x ∈ s.toList.zipIdx, isUuidChar x.2 x.1.toLower = true ∧
          x.1.toLower.isUpper = false := fun x hx => toLower_uuidChar (hchars x hx)
      have hupper : ¬ (s.toList.map Char.toLower).any Char.isUpper = true := by
        rw [List.any_map, List.any_eq_true]
        rintro ⟨c, hc, hcase⟩
        obtain ⟨i, hi⟩ := List.mem_iff_getElem?.mp hc
        have hnone := (hlower (c, i) (List.mem_zipIdx_iff_getElem?.mpr hi)).2
        exact absurd (hnone.symm.trans hcase) Bool.false_ne_true
      rw [readHyphenated, String.toList_ofList, if_pos, if_neg hupper]
      refine ⟨by rw [List.length_map, hlength], ?_⟩
      rw [List.zipIdx_map, List.all_map, List.all_eq_true]
      exact fun x hx => (hlower x hx).1
    · rename_i hupper
      rw [readHyphenated, if_pos hs, if_neg hupper]
  · cases h

/-- The value of a hexadecimal digit. -/
def hexValue (c : Char) : Option Nat :=
  if c.isDigit then some (c.toNat - '0'.toNat)
  else if 'a'.toNat ≤ c.toNat ∧ c.toNat ≤ 'f'.toNat then some (c.toNat - 'a'.toNat + 10)
  else if 'A'.toNat ≤ c.toNat ∧ c.toNat ≤ 'F'.toNat then some (c.toNat - 'A'.toNat + 10)
  else none

/-- The number written by hexadecimal digits after those read so far. -/
def parseHex : List Char → Nat → Option Nat
  | [], n => some n
  | c :: cs, n => (hexValue c).bind fun v => parseHex cs (16 * n + v)

/-- ``BigInt(`0x${id.replaceAll("-", "").slice(0, 16)}`).toString()``, `none` where `BigInt`
    throws. -/
def onChainBookingId (id : String) : Option String :=
  match (id.toList.filter fun c => c ≠ '-').take 16 with
  | [] => none
  | c :: cs => (parseHex (c :: cs) 0).map toString

/-- `s.length` -/
def utf16Length (s : String) : Nat :=
  (s.toList.map fun c => if c.toNat < 0x10000 then 1 else 2).sum

theorem utf16Length_append (a b : String) :
    utf16Length (a ++ b) = utf16Length a + utf16Length b := by
  have h : (a ++ b).toList = a.toList ++ b.toList := String.toList_append
  simp only [utf16Length, h, List.map_append, List.sum_append]

/-- `z.string().min(1).max(limit)` -/
def isText (limit : Nat) (s : String) : Bool := 1 ≤ utf16Length s && utf16Length s ≤ limit

theorem ne_empty_of_isText {limit : Nat} {s : String} (h : isText limit s = true) : s ≠ "" := by
  rintro rfl
  simp [isText, utf16Length] at h

/-- `s.split(".")` -/
def splitDots (s : String) : List String :=
  (s.toList.splitOn '.').map String.ofList

example : readHyphenated "3B241101-E2BB-4255-8CAF-4136C566A962" =
    some "3b241101-e2bb-4255-8caf-4136c566a962" := by decide

example : onChainBookingId "00000000-0000-002a-8000-000000000000" = some "42" := by decide

end PovDeposit.Api
