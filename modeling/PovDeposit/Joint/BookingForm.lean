/-
  The booking form (apps/web/components/booking-form.tsx, apps/web/lib/contract.ts) between
  the API and the contract.

  The form posts a booking to the API and then calls `create_booking` with the id the API
  answered and the terms it posted. Three layers check those terms, each with bounds of its
  own: the API (`postBooking`), the conversion to contract values (`bookingArguments`) and
  the contract. `accepted_booking_iff` says on which of the API's bookings the contract
  agrees.

  `nativeToScVal` is a parameter, `Sdk`. Which texts it takes for an address is left open. It
  also takes some that name neither an account nor a contract, such as a muxed account, and
  these no contract accepts for an `Address`: `isAddress` says of a text that it names one of
  the two.
-/
import PovDeposit.Api.Memory
import PovDeposit.Api.Properties
import PovDeposit.Api.Server
import PovDeposit.Contract.Effect

namespace PovDeposit.Joint

open PovDeposit.Lib PovDeposit.Lib.Outcome
open PovDeposit.Api
open PovDeposit.Contract (Address Escrow Env minDeposit maxDeposit)

/-! ## The API's answer -/

/-- `POST /api/bookings` at time `now`, on the map of a service in memory or on a database: the
    `onChainBookingId` of the answer. -/
def postBooking (R : Runtime) (network : String) (store : Memory.Bookings ⊕ Db) (now : Int)
    (uuid : String) (body : CreateInput) : Except String String :=
  match body.parse R with
  | none => .error "Invalid booking request"
  | some input =>
    match store with
    | .inl bookings => (Memory.create R bookings now uuid input).map fun r => r.2.onChainBookingId
    | .inr db => (Workflow.create R network db now uuid input).map fun r => r.2.onChainBookingId

/-! ## The form's call -/

/-- `BigInt(s)` of decimal digits, the only texts it is given here. -/
def bigInt (s : String) : Option Int :=
  if s.toList.all Char.isDigit then some (readAmount s) else none

/-- The contract values the form makes. -/
inductive ScVal where
  | u64 (n : UInt64)
  | address (a : Address)
  | i128 (n : Int)
  deriving DecidableEq, Repr

/-- `nativeToScVal` of @stellar/stellar-sdk for the three types, `none` where it throws. Of a
    number that the type does not hold nothing is assumed but that a negative one is no `u64`. -/
structure Sdk where
  /-- the text names an account or a contract -/
  isAddress : String → Bool
  u64 : Int → Option UInt64
  i128 : Int → Option Int
  u64_toNat : ∀ n : UInt64, u64 n.toNat = some n
  u64_neg : ∀ n < 0, u64 n = none
  i128_of_range : ∀ n, -2 ^ 127 ≤ n → n < 2 ^ 127 → i128 n = some n

/-- `nativeToScVal(n, { type: "u64" })` -/
def u64ToScVal (sdk : Sdk) (n : Int) : Option ScVal := (sdk.u64 n).map .u64

/-- `nativeToScVal(n, { type: "i128" })` -/
def i128ToScVal (sdk : Sdk) (n : Int) : Option ScVal := (sdk.i128 n).map .i128

/-- `nativeToScVal(s, { type: "address" })` -/
def addressToScVal (sdk : Sdk) (s : String) : Option ScVal :=
  if sdk.isAddress s then some (.address s) else none

/-- The input of `bookingArguments`; a `visitTime` of `none` is `NaN`. -/
structure BookingInput where
  bookingId : String
  renter : String
  host : String
  depositAmount : String
  visitTime : Option Int
  deriving DecidableEq, Repr

def bookingArguments (sdk : Sdk) (input : BookingInput) : Option (List ScVal) := do
  let bookingId ← (bigInt input.bookingId).bind (u64ToScVal sdk)
  let renter ← addressToScVal sdk input.renter
  let host ← addressToScVal sdk input.host
  let depositAmount ← (bigInt input.depositAmount).bind (i128ToScVal sdk)
  let visitTime ← input.visitTime.bind (u64ToScVal sdk)
  return [bookingId, renter, host, depositAmount, visitTime]

/-- `create_booking` with these arguments, if they have its types. -/
def createCall : List ScVal → Option Contract.Call
  | [.u64 bookingId, .address renter, .address host, .i128 depositAmount, .u64 visitTime] =>
      some (.createBooking bookingId renter host depositAmount visitTime)
  | _ => none

/-- What the form puts together from the request it posted and the id it was answered; the
    visit time is `Math.floor(new Date(startsAt).getTime() / 1_000)`. -/
def formInput (R : Runtime) (body : CreateInput) (onChainBookingId : String) : BookingInput where
  bookingId := onChainBookingId
  renter := body.renter
  host := body.host
  depositAmount := body.depositAmount
  visitTime := (R.date body.visitTime).map fun t => t / 1000

def formCall (R : Runtime) (sdk : Sdk) (body : CreateInput) (onChainBookingId : String) :
    Option Contract.Call :=
  (bookingArguments sdk (formInput R body onChainBookingId)).bind createCall

/-! ## Numbers as text -/

theorem readAmount_eq (s : String) : readAmount s = (Nat.ofDigitChars 10 s.toList 0 : Nat) := by
  have hfold : ∀ (l : List Char) (n : Nat),
      l.foldl (fun (n : Int) c => 10 * n + (c.toNat - '0'.toNat : Nat)) (n : Int) =
        (Nat.ofDigitChars 10 l n : Nat) := by
    intro l
    induction l with
    | nil => exact fun n => rfl
    | cons c l ih =>
      intro n
      rw [List.foldl_cons, Nat.ofDigitChars_cons, ← ih]
      rfl
  exact hfold s.toList 0

theorem bigInt_toString (n : Nat) : bigInt (toString n) = some (n : Int) := by
  have htext : (toString n).toList = Nat.toDigits 10 n := Nat.toList_repr
  have hdigits : (toString n).toList.all Char.isDigit = true := by
    rw [htext, List.all_eq_true]
    intro c hc
    exact Nat.isDigit_of_mem_toDigits (by decide) (by decide) hc
  rw [bigInt, if_pos hdigits, readAmount_eq, htext, Nat.ofDigitChars_ten_toDigits]

/-- The text of a `u64` is converted back to it. -/
theorem u64ToScVal_toString (sdk : Sdk) (n : UInt64) :
    (bigInt (toString n.toNat)).bind (u64ToScVal sdk) = some (.u64 n) := by
  rw [bigInt_toString, Option.bind_some, u64ToScVal, sdk.u64_toNat]
  rfl

theorem bigInt_of_isAmount {s : String} (h : isAmount s = true) : bigInt s = some (readAmount s) := by
  unfold isAmount at h
  split at h
  · cases h
  · rename_i c cs hs
    simp only [Bool.and_eq_true] at h
    have hdigits : s.toList.all Char.isDigit = true := by
      rw [hs, List.all_cons, h.1.1.1, h.2]
      rfl
    rw [bigInt, if_pos hdigits]

theorem hexValue_lt {c : Char} {v : Nat} (h : hexValue c = some v) : v < 16 := by
  have hdigit : c.isDigit = true → c.toNat ≤ 57 := by
    intro hc
    simp only [Char.isDigit, Bool.and_eq_true, decide_eq_true_eq] at hc
    exact UInt32.le_iff_toNat_le.mp hc.2
  have hcodes : '0'.toNat = 48 ∧ 'a'.toNat = 97 ∧ 'f'.toNat = 102 ∧ 'A'.toNat = 65 ∧ 'F'.toNat = 70 := by
    decide
  unfold hexValue at h
  split at h
  · rename_i hc
    have := hdigit hc
    cases h
    omega
  · split at h
    · cases h
      omega
    · split at h
      · cases h
        omega
      · cases h

theorem parseHex_lt {cs : List Char} {n v : Nat} (h : parseHex cs n = some v) :
    v < (n + 1) * 16 ^ cs.length := by
  induction cs generalizing n with
  | nil =>
    cases h
    simp
  | cons c cs ih =>
    obtain ⟨d, hd, h⟩ := Option.bind_eq_some_iff.mp h
    have hlt := hexValue_lt hd
    calc v < (16 * n + d + 1) * 16 ^ cs.length := ih h
      _ ≤ (16 * (n + 1)) * 16 ^ cs.length := Nat.mul_le_mul_right _ (by omega)
      _ = (n + 1) * 16 ^ (c :: cs).length := by rw [List.length_cons, Nat.pow_succ]; grind

/-- The on-chain id is the decimal text of a `u64`. -/
theorem onChainBookingId_lt {uuid id : String} (h : onChainBookingId uuid = some id) :
    ∃ n : Nat, n < 2 ^ 64 ∧ id = toString n := by
  unfold onChainBookingId at h
  split at h
  · cases h
  · rename_i c cs hdigits
    obtain ⟨n, hn, rfl⟩ := Option.map_eq_some_iff.mp h
    have hlen : (c :: cs).length ≤ 16 := by
      rw [← hdigits]
      exact List.length_take_le _ _
    have hpow : 16 ^ (c :: cs).length ≤ 16 ^ 16 := Nat.pow_le_pow_right (by decide) hlen
    have hlt := parseHex_lt hn
    exact ⟨n, by omega, rfl⟩

/-! ## The three layers -/

theorem create_answer {R : Runtime} {network : String} {db db' : Db} {now : Int} {uuid : String}
    {input : Workflow.CreateBooking} {b : Workflow.Booking}
    (h : Workflow.create R network db now uuid input = .ok (db', b)) :
    input.renter ≠ input.host ∧ (0 < input.depositAmount ∧ input.depositAmount ≤ 100000000000) ∧
      onChainBookingId uuid = some b.onChainBookingId := by
  obtain ⟨onChain, visitTime, honChain, hvalid, htransaction⟩ := Properties.create_eq_ok.mp h
  obtain ⟨p, slot, -, -, -, hbooked⟩ := Properties.createTransaction_eq_ok.mp htransaction
  cases hbooked
  exact ⟨hvalid.parties, ⟨hvalid.positive, hvalid.bounded⟩, honChain⟩

theorem memory_answer {R : Runtime} {bookings : Memory.Bookings} {now : Int} {uuid : String}
    {input : Workflow.CreateBooking} {r : Memory.Bookings × Memory.Booking}
    (h : Memory.create R bookings now uuid input = .ok r) :
    input.renter ≠ input.host ∧ (0 < input.depositAmount ∧ input.depositAmount ≤ 100000000000) ∧
      onChainBookingId uuid = some r.2.onChainBookingId := by
  simp only [Memory.create, guard_eq_ok, not_or, Int.not_le, Int.not_lt] at h
  obtain ⟨hparties, hbounds, -, -, h⟩ := h
  split at h
  · cases h
  · rename_i onChain honChain
    cases h
    exact ⟨hparties, hbounds, honChain⟩

/-- What the API has checked of a booking it answers. -/
theorem postBooking_ok {R : Runtime} {network : String} {store : Memory.Bookings ⊕ Db} {now : Int}
    {uuid id : String} {body : CreateInput} (h : postBooking R network store now uuid body = .ok id) :
    body.renter ≠ body.host ∧ isAmount body.depositAmount = true ∧
      (0 < readAmount body.depositAmount ∧ readAmount body.depositAmount ≤ 100000000000) ∧
      onChainBookingId uuid = some id := by
  unfold postBooking at h
  split at h
  · cases h
  · rename_i input hparse
    simp only [CreateInput.parse, Option.ite_none_right_eq_some, Bool.and_eq_true,
      Option.some.injEq] at hparse
    obtain ⟨hvalid, rfl⟩ := hparse
    have hamount := hvalid.1.1.2
    split at h
    · obtain ⟨r, hcreate, rfl⟩ := map_eq_ok.mp h
      obtain ⟨hparties, hbounds, honChain⟩ := memory_answer hcreate
      exact ⟨hparties, hamount, hbounds, honChain⟩
    · obtain ⟨⟨db', b⟩, hcreate, rfl⟩ := map_eq_ok.mp h
      obtain ⟨hparties, hbounds, honChain⟩ := create_answer hcreate
      exact ⟨hparties, hamount, hbounds, honChain⟩

/-- A number below 2^64 is converted to itself, and a negative one is not converted. -/
theorem u64ToScVal_eq_some {sdk : Sdk} {n : Int} (hn : n < 2 ^ 64) {v : ScVal} :
    u64ToScVal sdk n = some v ↔ 0 ≤ n ∧ v = .u64 (UInt64.ofNat n.toNat) := by
  unfold u64ToScVal
  by_cases hneg : n < 0
  · simp [sdk.u64_neg n hneg, Int.not_le.mpr hneg]
  · have hlt : n.toNat < 2 ^ 64 := by omega
    have hnat : ((UInt64.ofNat n.toNat).toNat : Int) = n := by
      rw [UInt64.toNat_ofNat_of_lt' hlt, Int.toNat_of_nonneg (Int.not_lt.mp hneg)]
    have hsome := sdk.u64_toNat (UInt64.ofNat n.toNat)
    rw [hnat] at hsome
    simp [hsome, Int.not_lt.mp hneg, eq_comm (a := v)]

theorem seconds_lt {R : Runtime} {s : String} {t : Int} (h : R.date s = some t) :
    t / 1000 < 2 ^ 64 := by
  have hrange := R.date_range s t h
  omega

/-- The conversion succeeds exactly on addresses and a time that is not negative. -/
theorem formCall_eq_some {R : Runtime} {sdk : Sdk} {body : CreateInput} {n : Nat}
    (hn : n < 2 ^ 64) (hamount : isAmount body.depositAmount = true)
    (hrange : -2 ^ 127 ≤ readAmount body.depositAmount ∧ readAmount body.depositAmount < 2 ^ 127)
    {call : Contract.Call} :
    formCall R sdk body (toString n) = some call ↔
      sdk.isAddress body.renter = true ∧ sdk.isAddress body.host = true ∧
      ∃ t, R.date body.visitTime = some t ∧ 0 ≤ t / 1000 ∧
        call = .createBooking (UInt64.ofNat n) body.renter body.host (readAmount body.depositAmount)
          (UInt64.ofNat (t / 1000).toNat) := by
  have hid : (bigInt (toString n)).bind (u64ToScVal sdk) = some (.u64 (UInt64.ofNat n)) := by
    rw [← UInt64.toNat_ofNat_of_lt' hn, u64ToScVal_toString, UInt64.ofNat_toNat]
  have hdeposit : i128ToScVal sdk (readAmount body.depositAmount) =
      some (.i128 (readAmount body.depositAmount)) := by
    rw [i128ToScVal, sdk.i128_of_range _ hrange.1 hrange.2]
    rfl
  unfold formCall bookingArguments formInput
  simp only [hid, bigInt_of_isAmount hamount, hdeposit, Option.bind_eq_bind, Option.bind_some,
    Option.bind_assoc]
  cases ht : R.date body.visitTime with
  | none => simp
  | some t =>
    have hseconds := seconds_lt ht
    simp [addressToScVal, u64ToScVal_eq_some hseconds, Option.bind_eq_some_iff, createCall,
      eq_comm (a := call)]

/-- On an unused id, in a live and initialised escrow, `create_booking` checks the parties, the
    amount and the time. -/
theorem createBooking_succeeds_iff {env : Env} {σ : Escrow} {a : Address} (hasset : σ.asset = some a)
    (hlive : env.sequence ≤ σ.instanceLiveUntil) {n : UInt64} (hunused : σ.booking? n = none)
    {renter host : Address} (hauth : renter ∈ env.auths) (amount : Int) (visitTime : UInt64) :
    (∃ σ', Contract.invoke env σ (.createBooking n renter host amount visitTime) = .ok σ') ↔
      renter ≠ host ∧ (minDeposit ≤ amount ∧ amount ≤ maxDeposit) ∧ env.timestamp < visitTime := by
  have hasset' : Contract.asset σ = .ok a := Contract.asset_eq_ok.mpr hasset
  have hknown : Contract.hasBooking env σ n = .ok false := Contract.hasBooking_eq_ok_false.mpr hunused
  have hrequire : Contract.requireAuth env renter = .ok () := Contract.requireAuth_eq_ok.mpr hauth
  unfold Contract.invoke Contract.createBooking
  rw [if_neg (Nat.not_lt.mpr hlive)]
  simp only [bind_eq_ok, hasset', hknown, hrequire, Except.ok.injEq, exists_eq_left', guard_eq_ok,
    Bool.false_eq_true, not_false_eq_true, true_and, not_or, not_not, UInt64.not_le, pure_eq_ok,
    ne_eq]
  constructor
  · rintro ⟨_, hchecks, -⟩
    exact hchecks
  · intro hchecks
    exact ⟨_, hchecks, (), rfl⟩

/-- **Which accepted bookings the contract accepts.** Let the API answer `POST /api/bookings`
    with an on-chain id, with or without a database, and let that id be unused in an escrow
    that is initialised and live. The call the form makes of the request and the answer,
    authorised by the renter, is well formed and succeeds exactly if both parties are
    addresses, the deposit is within the contract's bounds, and the visit's whole second is
    after the ledger's. -/
theorem accepted_booking_iff (R : Runtime) (sdk : Sdk) (network : String)
    (store : Memory.Bookings ⊕ Db) (now : Int) (uuid id : String) (body : CreateInput)
    (hpost : postBooking R network store now uuid body = .ok id)
    (env : Env) (σ : Escrow) (a : Address) (hasset : σ.asset = some a)
    (hlive : env.sequence ≤ σ.instanceLiveUntil)
    (hunused : ∀ n : UInt64, toString n.toNat = id → σ.booking? n = none)
    (hauth : body.renter ∈ env.auths) :
    (∃ call σ', formCall R sdk body id = some call ∧ Contract.invoke env σ call = .ok σ') ↔
      sdk.isAddress body.renter = true ∧ sdk.isAddress body.host = true ∧
      (minDeposit ≤ readAmount body.depositAmount ∧ readAmount body.depositAmount ≤ maxDeposit) ∧
      ∃ t, R.date body.visitTime = some t ∧ (env.timestamp.toNat : Int) < t / 1000 := by
  obtain ⟨hparties, hamount, hstored, honChain⟩ := postBooking_ok hpost
  obtain ⟨n, hn, rfl⟩ := onChainBookingId_lt honChain
  have htoNat : ∀ k, k < 2 ^ 64 → (UInt64.ofNat k).toNat = k :=
    fun k hk => UInt64.toNat_ofNat_of_lt' hk
  have hid : σ.booking? (UInt64.ofNat n) = none := by
    refine hunused _ ?_
    rw [htoNat n hn]
  simp only [formCall_eq_some hn hamount (by omega)]
  constructor
  · rintro ⟨call, σ', ⟨hrenter, hhost, t, ht, hpos, rfl⟩, hok⟩
    obtain ⟨-, hbounds, htime⟩ := (createBooking_succeeds_iff hasset hlive hid hauth _ _).mp ⟨σ', hok⟩
    have hlt := seconds_lt ht
    refine ⟨hrenter, hhost, hbounds, t, ht, ?_⟩
    rw [UInt64.lt_iff_toNat_lt, htoNat _ (by omega)] at htime
    omega
  · rintro ⟨hrenter, hhost, hbounds, t, ht, htime⟩
    have hlt := seconds_lt ht
    have hvisit : env.timestamp < UInt64.ofNat (t / 1000).toNat := by
      rw [UInt64.lt_iff_toNat_lt, htoNat _ (by omega)]
      omega
    obtain ⟨σ', hok⟩ := (createBooking_succeeds_iff hasset hlive hid hauth _ _).mpr
      ⟨hparties, hbounds, hvisit⟩
    exact ⟨_, σ', ⟨hrenter, hhost, t, ht, by omega, rfl⟩, hok⟩

section Sample

open Workflow (sampleRuntime listed)

def sampleRenter : String := "GCKJEORLGORT3BOUME2DQJQPKRSKST55BIZOSDZTNJ7FIGIV4KQMDDPX"
def sampleHost : String := "GAAAAAAAAAAAAAAAAAAAAAAAAAAAAAAAAAAAAAAAAAAAAAAAAAAAAWHF"

/-- The conversion of @stellar/stellar-sdk 14.5.0, which wraps a number that is too large. -/
def wrappingSdk (isAddress : String → Bool) : Sdk where
  isAddress := isAddress
  u64 n := if n < 0 then none else some (UInt64.ofNat n.toNat)
  i128 n := some ((n + 2 ^ 127) % 2 ^ 128 - 2 ^ 127)
  u64_toNat n := by
    rw [if_neg (by omega), Int.toNat_natCast, UInt64.ofNat_toNat]
  u64_neg n hn := if_pos hn
  i128_of_range n hmin hmax := by
    rw [Int.emod_eq_of_lt (by omega) (by omega), Int.add_sub_cancel]

def sampleSdk : Sdk := wrappingSdk fun s => s = sampleRenter ∨ s = sampleHost

/-- For samples whose parties are words. -/
def openSdk : Sdk := wrappingSdk fun _ => true

/-- A listed property of this host. -/
def sampleListing : Db := { listed.db with properties := [⟨"property", "loft", sampleHost, true⟩] }

def sampleBody (depositAmount : String) : CreateInput where
  listingId := "loft"
  renter := sampleRenter
  host := sampleHost
  depositAmount := depositAmount
  visitTime := "2030-01-01T10:00:00.000Z"
  evidenceHash := "6c86c6aac5fb24bcf5d9939cb7d7d5645ce39418f449e03b262dd4fa14b4b92b"

/-- The escrow after its initialisation. -/
def sampleEscrow : Escrow where
  asset := some "XLM"
  instanceLiveUntil := 500000
  bookings := ∅
  balances := fun _ _ => 0
  transfers := []
  events := []

def sampleEnv : Env where
  timestamp := 1892808000
  sequence := 7
  txHash := "2514e1475addffb378fdb07e9a1092176c09dbfbd129ebcaacd0099818d2534c"
  contract := "escrow"
  auths := [sampleRenter]
  minPersistentTtl := 300000
  tokenAccepts := fun _ _ _ _ => true

theorem accepted_booking_iff_one_xlm :
    ∃ call σ', formCall sampleRuntime sampleSdk (sampleBody "10000000") "4261549847195894357" =
        some call ∧
      Contract.invoke sampleEnv sampleEscrow call = .ok σ' := by
  have hpost : postBooking sampleRuntime "TESTNET" (.inr sampleListing) 1892808000000
      "3b241101-e2bb-4255-8caf-4136c566a962" (sampleBody "10000000") = .ok "4261549847195894357" := by
    rfl
  refine (accepted_booking_iff sampleRuntime sampleSdk "TESTNET" _ 1892808000000 _ _ _ hpost
    sampleEnv sampleEscrow "XLM" rfl (by decide) (fun _ _ => rfl) List.mem_cons_self).mpr ?_
  exact ⟨by decide, by decide, by decide, 1893492000000, rfl, by decide⟩

/-- The API accepts a deposit of one stroop, and the contract refuses the form's call. -/
theorem accepted_booking_refused :
    postBooking sampleRuntime "TESTNET" (.inr sampleListing) 1892808000000
        "3b241101-e2bb-4255-8caf-4136c566a962" (sampleBody "1") = .ok "4261549847195894357" ∧
    ∃ call, formCall sampleRuntime sampleSdk (sampleBody "1") "4261549847195894357" = some call ∧
      Contract.invoke sampleEnv sampleEscrow call = .error (.error .invalidBooking) := by
  exact ⟨rfl, _, rfl, rfl⟩

end Sample

end PovDeposit.Joint
