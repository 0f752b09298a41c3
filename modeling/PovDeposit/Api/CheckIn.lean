/-
  `CheckInChallengeService` on its database
  (apps/api/src/checkin/check-in-challenge.service.ts, the branches with a `prisma`).

  Each method is cut at its database statements: `issue` is `findBooking` and then
  `storeChallenge`, `consume` is `readToken` and `findChallenge`, and then `spendChallenge`,
  the update that its transaction commits with. Who runs them, and in what order, is in
  `Api.Server`.

  The payload keeps the booking id as the caller spells it. The column of the challenge's row
  gives it back as the database does, and it is this text that `consume` compares.
-/
import PovDeposit.Api.Schema
import PovDeposit.Api.Runtime
import PovDeposit.Lib.KeyedSum
import PovDeposit.Lib.Outcome

namespace PovDeposit.Api.CheckIn

open PovDeposit.Lib PovDeposit.Lib.Outcome

/-! ## issue -/

/-- The payload of `issue` at time `now`, with the nonce `randomBytes` gave. -/
def newPayload (bookingId renter nonce : String) (now : Int) : CheckInPayload where
  version := 1
  bookingId := bookingId
  renter := renter
  nonce := nonce
  expiresAt := some (now + 2 * 60000)

def hashNonce (R : Runtime) (nonce : String) : String := R.sha256 nonce

/-- `booking.findFirst` -/
def findBooking (R : Runtime) (db : Db) (payload : CheckInPayload) : Except String Unit := do
  let bookingId ← R.readUuid payload.bookingId
  match db.bookings.lookup bookingId with
  | some row =>
      if row.renter ≠ payload.renter then .error "Booking not found for renter" else .ok ()
  | none => .error "Booking not found for renter"

/-- `checkInChallenge.create` -/
def storeChallenge (R : Runtime) (db : Db) (payload : CheckInPayload) : Except String Db :=
  match payload.expiresAt with
  | some expiresAt => do
      let bookingId ← R.readUuid payload.bookingId
      db.insertChallenge ⟨bookingId, hashNonce R payload.nonce, expiresAt, none⟩
  | none => .error "Invalid Date"

def token (R : Runtime) (payload : CheckInPayload) : String :=
  R.encode payload ++ "." ++ R.sign (R.encode payload)

/-! ## consume -/

def validSignature (R : Runtime) (encoded signature : String) : Bool := R.sign encoded = signature

/-- `consume` up to its transaction. -/
def readToken (R : Runtime) (token bookingId renter : String) (now : Int) :
    Except String CheckInPayload :=
  match splitDots token with
  | encoded :: signature :: rest =>
      -- `extra` is the third part, and falsy also where it is empty
      if encoded = "" ∨ signature = "" ∨ rest.headD "" ≠ "" ∨ ¬ validSignature R encoded signature then
        .error "Invalid check-in token"
      else match R.decode encoded with
        | .malformed => .error "Invalid check-in token"
        -- a value of another shape fails a comparison below, or has no such field
        | .foreign => .error "Check-in challenge mismatch"
        | .payload payload =>
            if payload.version ≠ 1 ∨ payload.bookingId ≠ bookingId ∨ payload.renter ≠ renter then
              .error "Check-in challenge mismatch"
            else if payload.expiresAt.any fun t => t ≤ now then
              .error "Check-in challenge expired"
            else .ok payload
  | _ => .error "Invalid check-in token"

/-- `checkInChallenge.findUnique` in the transaction, and the checks on what it found. -/
def findChallenge (R : Runtime) (db : Db) (payload : CheckInPayload) (bookingId : String)
    (now : Int) : Except String Unit :=
  match db.challenges.lookup (hashNonce R payload.nonce) with
  | none => .error "Check-in challenge mismatch"
  | some challenge =>
      if challenge.bookingId ≠ bookingId then .error "Check-in challenge mismatch"
      else if challenge.consumedAt.isSome then .error "Check-in challenge already used"
      else if challenge.expiresAt ≤ now then .error "Check-in challenge expired"
      else .ok ()

/-- `checkInChallenge.updateMany` and the commit. -/
def spendChallenge (R : Runtime) (db : Db) (payload : CheckInPayload) (now : Int) :
    Except String Db :=
  match db.challenges.lookup (hashNonce R payload.nonce) with
  | none => .error "Check-in challenge already used"
  | some challenge =>
      if challenge.consumedAt.isSome then .error "Check-in challenge already used"
      else .ok { db with challenges :=
        db.challenges.insert (hashNonce R payload.nonce) { challenge with consumedAt := some now } }

/-! ## Inversion -/

section Inversion

variable {R : Runtime} {db db' : Db} {payload : CheckInPayload} {bookingId renter : String}
  {now : Int}

theorem findBooking_eq_ok {u : Unit} : findBooking R db payload = .ok u ↔
    ∃ row, db.Names R payload.bookingId row ∧ row.renter = payload.renter := by
  unfold findBooking Db.Names
  rw [bind_eq_ok]
  simp only [readUuid_eq_ok]
  constructor
  · rintro ⟨id, hid, h⟩
    split at h
    · rename_i row hrow
      exact ⟨row, ⟨id, hid, hrow⟩, not_not.mp (guard_eq_ok.mp h).1⟩
    · cases h
  · rintro ⟨row, ⟨id, hid, hrow⟩, hrenter⟩
    refine ⟨id, hid, ?_⟩
    simp [hrow, hrenter]

theorem storeChallenge_eq_ok : storeChallenge R db payload = .ok db' ↔
    ∃ t id, payload.expiresAt = some t ∧ R.uuid payload.bookingId = some id ∧
      db.challenges.lookup (hashNonce R payload.nonce) = none ∧
      db' = { db with
        challenges := db.challenges.insert (hashNonce R payload.nonce)
          ⟨id, hashNonce R payload.nonce, t, none⟩ } := by
  unfold storeChallenge
  split
  · rename_i t h
    rw [bind_eq_ok]
    simp only [readUuid_eq_ok, Db.insertChallenge, guard_eq_ok, Option.not_isSome_iff_eq_none, h,
      Option.some.injEq, exists_and_left, exists_eq_left', Except.ok.injEq, eq_comm (a := db')]
  · rename_i h
    simp [h]

/-- What `readToken` has checked: the first two parts of the text are a payload and its
    signature, a third part is missing or empty, and the payload is for this booking and
    renter and has not expired. -/
theorem readToken_eq_ok {token : String} :
    readToken R token bookingId renter now = .ok payload ↔
      ∃ encoded rest, splitDots token = encoded :: R.sign encoded :: rest ∧ encoded ≠ "" ∧
        R.sign encoded ≠ "" ∧ rest.headD "" = "" ∧ R.decode encoded = .payload payload ∧
        payload.version = 1 ∧ payload.bookingId = bookingId ∧ payload.renter = renter ∧
        ∀ t, payload.expiresAt = some t → now < t := by
  unfold readToken
  split
  · rename_i encoded signature rest hsplit
    rw [hsplit]
    simp only [guard_eq_ok, not_or, not_not, validSignature, decide_eq_true_eq, List.cons.injEq]
    constructor
    · rintro ⟨⟨hencoded, hsign, hrest, rfl⟩, h⟩
      refine ⟨encoded, rest, ⟨rfl, rfl, rfl⟩, hencoded, hsign, hrest, ?_⟩
      split at h
      · cases h
      · cases h
      · rename_i p hdecode
        simp only [guard_eq_ok, not_or, not_not, Except.ok.injEq] at h
        obtain ⟨⟨hversion, hbooking, hrenter⟩, htime, rfl⟩ := h
        refine ⟨hdecode, hversion, hbooking, hrenter, fun t ht => ?_⟩
        simpa [ht] using htime
    · rintro ⟨_, _, ⟨rfl, rfl, rfl⟩, hencoded, hsign, hrest, hdecode, hversion, hbooking, hrenter,
        htime⟩
      refine ⟨⟨hencoded, hsign, hrest, rfl⟩, ?_⟩
      rw [hdecode]
      simp only [guard_eq_ok, not_or, not_not]
      refine ⟨⟨hversion, hbooking, hrenter⟩, ?_, trivial⟩
      cases ht : payload.expiresAt with
      | none => simp
      | some t => simpa using htime t ht
  · rename_i hsplit
    constructor
    · intro h
      cases h
    · rintro ⟨encoded, rest, h, -⟩
      exact absurd h (hsplit encoded _ rest)

theorem findChallenge_eq_ok {u : Unit} : findChallenge R db payload bookingId now = .ok u ↔
    ∃ c, db.challenges.lookup (hashNonce R payload.nonce) = some c ∧ c.bookingId = bookingId ∧
      c.consumedAt = none ∧ now < c.expiresAt := by
  unfold findChallenge
  split
  · rename_i h
    simp [h]
  · rename_i c h
    simp only [guard_eq_ok, h, Option.some.injEq, exists_eq_left', not_not, Option.not_isSome_iff_eq_none,
      Int.not_le, and_true]

theorem findChallenge_mismatch {c : CheckInChallenge}
    (hc : db.challenges.lookup (hashNonce R payload.nonce) = some c) (hb : c.bookingId ≠ bookingId) :
    findChallenge R db payload bookingId now = .error "Check-in challenge mismatch" := by
  unfold findChallenge
  rw [hc]
  exact if_pos hb

theorem spendChallenge_eq_ok : spendChallenge R db payload now = .ok db' ↔
    ∃ c, db.challenges.lookup (hashNonce R payload.nonce) = some c ∧ c.consumedAt = none ∧
      db' = { db with
        challenges := db.challenges.insert (hashNonce R payload.nonce)
          { c with consumedAt := some now } } := by
  unfold spendChallenge
  split
  · rename_i h
    simp [h]
  · rename_i c h
    simp [guard_eq_ok, h, eq_comm (a := db')]

end Inversion

/-! ## The table of challenges -/

/-- What happens to a challenge: it may be spent, once and for all. -/
structure Ages (c c' : CheckInChallenge) : Prop where
  bookingId : c'.bookingId = c.bookingId
  nonceHash : c'.nonceHash = c.nonceHash
  expiresAt : c'.expiresAt = c.expiresAt
  consumedAt : c.consumedAt.isSome → c'.consumedAt.isSome

theorem ages_refl (c : CheckInChallenge) : Ages c c := ⟨rfl, rfl, rfl, id⟩

theorem ages_spent (c : CheckInChallenge) (now : Int) : Ages c { c with consumedAt := some now } :=
  ⟨rfl, rfl, rfl, fun _ => rfl⟩

/-! ## A token that was just issued -/

/-- What the code relies on for one payload: base64url text has no dots and is not empty, the
    payload is decoded as it was encoded, the token fits the request schema, and the nonce has
    a SHA-256 digest. -/
structure Carries (R : Runtime) (payload : CheckInPayload) : Prop where
  encoded : R.encode payload ≠ "" ∧ '.' ∉ (R.encode payload).toList
  signature : R.sign (R.encode payload) ≠ "" ∧ '.' ∉ (R.sign (R.encode payload)).toList
  decoded : R.decode (R.encode payload) = .payload payload
  length : isText 2048 (token R payload) = true
  digest : isHash (hashNonce R payload.nonce) = true

/-- The part of it that the service itself relies on. -/
structure Encodes (R : Runtime) (payload : CheckInPayload) : Prop where
  encoded : R.encode payload ≠ "" ∧ '.' ∉ (R.encode payload).toList
  signature : R.sign (R.encode payload) ≠ "" ∧ '.' ∉ (R.sign (R.encode payload)).toList
  decoded : R.decode (R.encode payload) = .payload payload

theorem Carries.encodes {R : Runtime} {payload : CheckInPayload} (h : Carries R payload) :
    Encodes R payload := ⟨h.encoded, h.signature, h.decoded⟩

/-- A text is its dot-separated parts with dots between them. -/
theorem eq_of_splitDots {s a b : String} (h : splitDots s = [a, b]) : s = a ++ "." ++ b := by
  have hparts : s.toList.splitOn '.' = [a.toList, b.toList] := by
    have hlists := congrArg (List.map String.toList) h
    simpa [splitDots, Function.comp_def] using hlists
  have hjoin : List.intercalate ['.'] (s.toList.splitOn '.') = s.toList :=
    List.intercalate_splitOn '.'
  rw [hparts] at hjoin
  refine String.toList_inj.mp ?_
  rw [← hjoin, String.toList_append, String.toList_append]
  simp

theorem splitDots_join {parts : List String} (hne : parts ≠ [])
    (hparts : ∀ p ∈ parts, '.' ∉ p.toList) {s : String}
    (hs : s.toList = ['.'].intercalate (parts.map String.toList)) : splitDots s = parts := by
  have hsplit : s.toList.splitOn '.' = parts.map String.toList := by
    rw [hs]
    refine List.splitOn_intercalate '.' ?_ (by simpa using hne)
    intro l hl
    obtain ⟨p, hp, rfl⟩ := List.mem_map.mp hl
    exact hparts p hp
  simp [splitDots, hsplit, Function.comp_def]

theorem splitDots_token {R : Runtime} {payload : CheckInPayload} (h : Encodes R payload) :
    splitDots (token R payload) = [R.encode payload, R.sign (R.encode payload)] := by
  refine splitDots_join (by simp) ?_ ?_
  · simp [h.encoded.2, h.signature.2]
  · rw [token, String.toList_append, String.toList_append]
    simp

/-- `consume` reads the token that `issue` returned, until its two minutes are over. -/
theorem readToken_token {R : Runtime} {bookingId renter nonce : String} {now now' : Int}
    (h : Encodes R (newPayload bookingId renter nonce now)) (hnow : now' < now + 120000) :
    readToken R (token R (newPayload bookingId renter nonce now)) bookingId renter now' =
      .ok (newPayload bookingId renter nonce now) := by
  rw [readToken_eq_ok]
  refine ⟨_, [], splitDots_token h, h.encoded.1, h.signature.1, rfl, h.decoded, rfl, rfl, rfl, ?_⟩
  intro t ht
  cases ht
  exact hnow

end PovDeposit.Api.CheckIn
