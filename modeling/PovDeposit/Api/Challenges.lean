/-
  `CheckInChallengeService` under any number of concurrent calls
  (apps/api/src/checkin/check-in-challenge.service.ts).

  With a database the instances share everything that matters, the secret and the tables, so
  a state is the database and the calls, whichever instances run them. A call moves from one
  database statement to the next; the transaction of `consume` is its lookup and then its
  conditional update with the commit. Without a database a call is over at once, and the
  service is one instance with its set of spent strings.

  A check-in token cannot be made without the secret: a text whose second part signs its first
  was put together from what `issue` returned. That is `Trusted`, a condition on the texts
  that are presented in a run.
-/
import PovDeposit.Api.CheckIn
import PovDeposit.Lib.Machine
import PovDeposit.Lib.Slots

namespace PovDeposit.Api.Challenges

open PovDeposit.Lib PovDeposit.Lib.Outcome
open CheckIn (newPayload hashNonce findBooking storeChallenge readToken findChallenge
  spendChallenge Encodes)

inductive Request where
  | issue (now : Int) (bookingId renter : String)
  | consume (now : Int) (token bookingId renter : String)
  deriving DecidableEq, Repr

/-- Where a call stands. -/
inductive Stage where
  /-- `issue` has drawn its nonce -/
  | drawn (payload : CheckInPayload)
  /-- `issue` has found the booking -/
  | found (payload : CheckInPayload)
  | issued (payload : CheckInPayload)
  /-- `consume` has read its token -/
  | read (payload : CheckInPayload)
  /-- `consume` has found the challenge good, in its transaction -/
  | checked (payload : CheckInPayload) (checkedAt : Int)
  | consumed (payload : CheckInPayload) (checkedAt : Int)
  | threw (error : String)
  deriving DecidableEq, Repr

structure Call where
  request : Request
  stage : Stage
  deriving DecidableEq, Repr

structure State where
  db : Db
  /-- the spent strings of a service without a database -/
  used : List String
  calls : List Call

def State.call? (s : State) (k : Nat) : Option Call := s.calls[k]?

/-- A new call. -/
def State.add (s : State) (c : Call) : State := { s with calls := s.calls ++ [c] }

/-- Call `k` becomes `c`. -/
def State.turn (s : State) (k : Nat) (c : Call) : State := { s with calls := s.calls.set k c }

inductive Action where
  | issue (now : Int) (nonce bookingId renter : String)
  | consume (now : Int) (token bookingId renter : String)
  /-- call `k` runs its next statement -/
  | advance (k : Nat) (now : Int)
  /-- a statement of call `k` fails, and the call throws -/
  | fail (k : Nat) (error : String)
  /-- the rest of the system writes other tables -/
  | others (db : Db)

def Stage.inFlight : Stage → Bool
  | .drawn _ | .found _ | .read _ | .checked _ _ => true
  | _ => false

/-- The call after a statement that gave a result or an error. -/
def settle {α : Type} (next : α → Stage) : Except String α → Stage
  | .ok a => next a
  | .error e => .threw e

def step (R : Runtime) (prisma : Bool) (s : State) : Action → Option State
  | .issue now nonce bookingId renter =>
      let payload := newPayload bookingId renter nonce now
      let stage := if prisma then .drawn payload else .issued payload
      some (s.add ⟨.issue now bookingId renter, stage⟩)
  | .consume now token bookingId renter =>
      let request := .consume now token bookingId renter
      match readToken R token bookingId renter now with
      | .error e => some (s.add ⟨request, .threw e⟩)
      | .ok payload =>
          if prisma then some (s.add ⟨request, .read payload⟩)
          else if token ∈ s.used then
            some (s.add ⟨request, .threw "Check-in challenge already used"⟩)
          else some ({ s with used := token :: s.used }.add ⟨request, .consumed payload now⟩)
  | .advance k now => (s.call? k).bind fun c =>
      match c.request, c.stage with
      | _, .drawn payload =>
          let stage := settle (fun _ => .found payload) (findBooking R s.db payload)
          some (s.turn k ⟨c.request, stage⟩)
      | _, .found payload =>
          match storeChallenge R s.db payload with
          | .ok db => some ({ s with db := db }.turn k ⟨c.request, .issued payload⟩)
          | .error e => some (s.turn k ⟨c.request, .threw e⟩)
      | .consume _ _ bookingId _, .read payload =>
          let stage := settle (fun _ => .checked payload now) (findChallenge R s.db payload bookingId now)
          some (s.turn k ⟨c.request, stage⟩)
      | .consume _ _ _ _, .checked payload checkedAt =>
          match spendChallenge R s.db payload now with
          | .ok db => some ({ s with db := db }.turn k ⟨c.request, .consumed payload checkedAt⟩)
          | .error e => some (s.turn k ⟨c.request, .threw e⟩)
      | _, _ => none
  | .fail k error => (s.call? k).bind fun c =>
      if c.stage.inFlight then some (s.turn k ⟨c.request, .threw error⟩) else none
  | .others db => some { s with db := { db with challenges := s.db.challenges } }

/-- No challenge was ever issued. The bookings may be anything. -/
structure Fresh (s : State) : Prop where
  challenges : s.db.challenges = ∅
  used : s.used = []
  calls : s.calls = []

def machine (R : Runtime) (prisma : Bool) : Machine State Action where
  init := Fresh
  step := step R prisma

/-- Call `j` is an `issue` that returned the token of `payload`. -/
def State.Issued (s : State) (j : Nat) (now : Int) (bookingId renter : String)
    (payload : CheckInPayload) : Prop :=
  s.call? j = some ⟨.issue now bookingId renter, .issued payload⟩

/-- Call `i` is a `consume` that returned `payload`. -/
def State.Consumed (s : State) (i : Nat) (now : Int) (token bookingId renter : String)
    (payload : CheckInPayload) (checkedAt : Int) : Prop :=
  s.call? i = some ⟨.consume now token bookingId renter, .consumed payload checkedAt⟩

/-- What the run relies on: payloads survive their encoding, and a text that is presented with
    a good signature on its first part got that part from a token that `issue` had returned. -/
def Trusted (R : Runtime) (s : State) : Action → Prop
  | .issue now nonce bookingId renter => Encodes R (newPayload bookingId renter nonce now)
  | .consume _ token _ _ => ∀ encoded rest, splitDots token = encoded :: R.sign encoded :: rest →
      encoded ≠ "" → R.sign encoded ≠ "" →
      ∃ j now bookingId renter payload, s.Issued j now bookingId renter payload ∧
        encoded = R.encode payload
  | _ => True

/-! ## What a step does -/

/-- The call that an action moves. -/
def Action.target : Action → Option Nat
  | .advance k _ => some k
  | .fail k _ => some k
  | _ => none

inductive Change (R : Runtime) (prisma : Bool) (s : State) : Action → State → Prop where
  | draw (now : Int) (nonce b r : String) (hmode : prisma = true) :
      Change R prisma s (.issue now nonce b r)
        (s.add ⟨.issue now b r, .drawn (newPayload b r nonce now)⟩)
  | issueInMemory (now : Int) (nonce b r : String) (hmode : prisma = false) :
      Change R prisma s (.issue now nonce b r)
        (s.add ⟨.issue now b r, .issued (newPayload b r nonce now)⟩)
  | refuse (now : Int) (token b r e : String) :
      Change R prisma s (.consume now token b r) (s.add ⟨.consume now token b r, .threw e⟩)
  | read (now : Int) (token b r : String) (p : CheckInPayload) (hmode : prisma = true)
      (hread : readToken R token b r now = .ok p) :
      Change R prisma s (.consume now token b r) (s.add ⟨.consume now token b r, .read p⟩)
  | consumeInMemory (now : Int) (token b r : String) (p : CheckInPayload) (hmode : prisma = false)
      (hread : readToken R token b r now = .ok p) (hused : token ∉ s.used) :
      Change R prisma s (.consume now token b r)
        ({ s with used := token :: s.used }.add ⟨.consume now token b r, .consumed p now⟩)
  | throw (a : Action) (k : Nat) (c : Call) (e : String) (ha : a.target = some k)
      (hc : s.call? k = some c) (hflight : c.stage.inFlight = true) :
      Change R prisma s a (s.turn k ⟨c.request, .threw e⟩)
  | find (k : Nat) (now : Int) (q : Request) (p : CheckInPayload)
      (hc : s.call? k = some ⟨q, .drawn p⟩) (hfound : findBooking R s.db p = .ok ()) :
      Change R prisma s (.advance k now) (s.turn k ⟨q, .found p⟩)
  | store (k : Nat) (now : Int) (q : Request) (p : CheckInPayload) (db : Db)
      (hc : s.call? k = some ⟨q, .found p⟩) (hstore : storeChallenge R s.db p = .ok db) :
      Change R prisma s (.advance k now) ({ s with db := db }.turn k ⟨q, .issued p⟩)
  | check (k : Nat) (now t : Int) (token b r : String) (p : CheckInPayload)
      (hc : s.call? k = some ⟨.consume t token b r, .read p⟩)
      (hfound : findChallenge R s.db p b now = .ok ()) :
      Change R prisma s (.advance k now) (s.turn k ⟨.consume t token b r, .checked p now⟩)
  | spend (k : Nat) (now t t' : Int) (token b r : String) (p : CheckInPayload) (db : Db)
      (hc : s.call? k = some ⟨.consume t token b r, .checked p t'⟩)
      (hspend : spendChallenge R s.db p now = .ok db) :
      Change R prisma s (.advance k now)
        ({ s with db := db }.turn k ⟨.consume t token b r, .consumed p t'⟩)
  | others (db : Db) :
      Change R prisma s (.others db) { s with db := { db with challenges := s.db.challenges } }

theorem change_of_step {R : Runtime} {prisma : Bool} {s s' : State} {a : Action}
    (h : step R prisma s a = some s') : Change R prisma s a s' := by
  cases a with
  | issue now nonce b r =>
    simp only [step, Option.some.injEq] at h
    subst h
    cases prisma with
    | false => exact .issueInMemory now nonce b r rfl
    | true => exact .draw now nonce b r rfl
  | consume now token b r =>
    simp only [step] at h
    split at h
    · rename_i e he
      cases h
      exact .refuse now token b r e
    · rename_i p hread
      cases prisma with
      | true =>
        cases h
        exact .read now token b r p rfl hread
      | false =>
        simp only [Bool.false_eq_true, if_false] at h
        split at h
        · cases h
          exact .refuse now token b r _
        · rename_i hused
          cases h
          exact .consumeInMemory now token b r p rfl hread hused
  | advance k now =>
    simp only [step, Option.bind_eq_some_iff] at h
    obtain ⟨⟨q, stage⟩, hc, h⟩ := h
    cases stage with
    | drawn p =>
      simp only [Option.some.injEq] at h
      subst h
      cases hfound : findBooking R s.db p with
      | ok u => exact .find k now q p hc hfound
      | error e => exact .throw _ k _ e rfl hc rfl
    | found p =>
      simp only at h
      split at h
      · rename_i db hstore
        cases h
        exact .store k now q p db hc hstore
      · rename_i e he
        cases h
        exact .throw _ k _ e rfl hc rfl
    | read p =>
      cases q with
      | issue t b r => cases h
      | consume t token b r =>
        simp only [Option.some.injEq] at h
        subst h
        cases hfound : findChallenge R s.db p b now with
        | ok u => exact .check k now t token b r p hc hfound
        | error e => exact .throw _ k _ e rfl hc rfl
    | checked p t' =>
      cases q with
      | issue t b r => cases h
      | consume t token b r =>
        simp only at h
        split at h
        · rename_i db hspend
          cases h
          exact .spend k now t t' token b r p db hc hspend
        · rename_i e he
          cases h
          exact .throw _ k _ e rfl hc rfl
    | issued p => cases q <;> cases h
    | consumed p t => cases q <;> cases h
    | threw e => cases q <;> cases h
  | fail k e =>
    simp only [step, Option.bind_eq_some_iff, Option.ite_none_right_eq_some, Option.some.injEq] at h
    obtain ⟨c, hc, hflight, rfl⟩ := h
    exact .throw _ k c e rfl hc hflight
  | others db =>
    cases h
    exact .others db

/-! ## Calls and their payloads -/

/-- The payload that `issue` made. -/
def Stage.minted? : Stage → Option CheckInPayload
  | .drawn p | .found p | .issued p => some p
  | _ => none

/-- The payload that `consume` has read. -/
def Stage.taken? : Stage → Option CheckInPayload
  | .read p | .checked p _ | .consumed p _ => some p
  | _ => none

theorem call?_of_add {s : State} {c x : Call} {i : Nat} (h : (s.add c).call? i = some x) :
    s.call? i = some x ∨ i = s.calls.length ∧ x = c := getElem?_of_concat h

theorem call?_of_turn {s : State} {c c' x : Call} {k i : Nat} (hk : s.call? k = some c')
    (h : (s.turn k c).call? i = some x) : i = k ∧ x = c ∨ i ≠ k ∧ s.call? i = some x := by
  obtain ⟨hlt, -⟩ := List.getElem?_eq_some_iff.mp hk
  exact getElem?_of_set hlt h

theorem call?_turn_self {s : State} {c c' : Call} {k : Nat} (hk : s.call? k = some c') :
    (s.turn k c).call? k = some c := by
  obtain ⟨hlt, -⟩ := List.getElem?_eq_some_iff.mp hk
  exact List.getElem?_set_self hlt

theorem call?_turn_ne {s : State} {c : Call} {k i : Nat} (h : i ≠ k) :
    (s.turn k c).call? i = s.call? i := List.getElem?_set_ne h.symm

section Change

variable {R : Runtime} {prisma : Bool} {s s' : State} {a : Action}

/-- A call that is over stays as it is. -/
theorem Change.keep (h : Change R prisma s a s') {i : Nat} {c : Call} (hc : s.call? i = some c)
    (hdone : c.stage.inFlight = false) : s'.call? i = some c := by
  -- the call that moves is another one
  have hturn : ∀ k x y (s : State), s.call? i = some c → s.call? k = some x →
      x.stage.inFlight = true → (s.turn k y).call? i = some c := by
    intro k x y s hc hx hflight
    have hne : i ≠ k := by
      rintro rfl
      obtain rfl : c = x := Option.some.inj (hc.symm.trans hx)
      rw [hdone] at hflight
      cases hflight
    rw [call?_turn_ne hne]
    exact hc
  cases h with
  | draw | issueInMemory | refuse | read | consumeInMemory => exact getElem?_concat_keep hc
  | throw _ k x e ha hx hflight => exact hturn k x _ s hc hx hflight
  | find k now q p hx => exact hturn k _ _ s hc hx rfl
  | store k now q p db hx => exact hturn k _ _ { s with db := db } hc hx rfl
  | check k now t token b r p hx => exact hturn k _ _ s hc hx rfl
  | spend k now t t' token b r p db hx => exact hturn k _ _ { s with db := db } hc hx rfl
  | others db => exact hc

theorem Change.issued (h : Change R prisma s a s') {j : Nat} {now : Int} {b r : String}
    {p : CheckInPayload} (hj : s.Issued j now b r p) : s'.Issued j now b r p := h.keep hj rfl

theorem Change.consumed (h : Change R prisma s a s') {i : Nat} {t t' : Int} {token b r : String}
    {p : CheckInPayload} (hi : s.Consumed i t token b r p t') : s'.Consumed i t token b r p t' :=
  h.keep hi rfl

/-- A call stays where it is until an action moves it. -/
theorem Change.untouched (h : Change R prisma s a s') {k : Nat} {c : Call}
    (hc : s.call? k = some c) (ha : a.target ≠ some k) : s'.call? k = some c := by
  have hturn : ∀ k' c' (u : State), u.call? k = some c → a.target = some k' →
      (u.turn k' c').call? k = some c := by
    intro k' c' u hu hk'
    have hne : k ≠ k' := fun heq => ha (heq ▸ hk')
    rw [call?_turn_ne hne]
    exact hu
  cases h with
  | draw | issueInMemory | refuse | read | consumeInMemory => exact getElem?_concat_keep hc
  | throw _ k' x e hk' => exact hturn k' _ s hc hk'
  | find k' now q p => exact hturn k' _ s hc rfl
  | store k' now q p db => exact hturn k' _ { s with db := db } hc rfl
  | check k' now t token b r p => exact hturn k' _ s hc rfl
  | spend k' now t t' token b r p db => exact hturn k' _ { s with db := db } hc rfl
  | others db => exact hc

/-- Where a call comes from: it was there, with its payload, or it is the call the action
    makes. -/
theorem Change.origin (h : Change R prisma s a s') {i : Nat} {c' : Call}
    (hc' : s'.call? i = some c') :
    (∃ c, s.call? i = some c ∧ c.request = c'.request ∧
      (∀ p, c'.stage.minted? = some p → c.stage.minted? = some p) ∧
      (∀ p, c'.stage.taken? = some p → c.stage.taken? = some p)) ∨
    (i = s.calls.length ∧ ∃ now nonce b r, a = .issue now nonce b r ∧ c'.request = .issue now b r ∧
      c'.stage.minted? = some (newPayload b r nonce now) ∧ c'.stage.taken? = none) ∨
    (i = s.calls.length ∧ ∃ now token b r, a = .consume now token b r ∧
      c'.request = .consume now token b r ∧ c'.stage.minted? = none ∧
      ∀ p, c'.stage.taken? = some p → readToken R token b r now = .ok p) := by
  have hsame : s.call? i = some c' → ∃ c, s.call? i = some c ∧ c.request = c'.request ∧
      (∀ p, c'.stage.minted? = some p → c.stage.minted? = some p) ∧
      (∀ p, c'.stage.taken? = some p → c.stage.taken? = some p) :=
    fun hc => ⟨c', hc, rfl, fun _ h => h, fun _ h => h⟩
  have hturn : ∀ k x y (s : State), s.call? k = some x →
      (s.turn k y).call? i = some c' → x.request = y.request →
      (∀ p, y.stage.minted? = some p → x.stage.minted? = some p) →
      (∀ p, y.stage.taken? = some p → x.stage.taken? = some p) →
      ∃ c, s.call? i = some c ∧ c.request = c'.request ∧
        (∀ p, c'.stage.minted? = some p → c.stage.minted? = some p) ∧
        (∀ p, c'.stage.taken? = some p → c.stage.taken? = some p) := by
    intro k x y s hx hc' hq hminted htaken
    rcases call?_of_turn hx hc' with ⟨rfl, rfl⟩ | ⟨-, hc⟩
    · exact ⟨x, hx, hq, hminted, htaken⟩
    · exact ⟨c', hc, rfl, fun _ h => h, fun _ h => h⟩
  cases h with
  | draw now nonce b r =>
    rcases call?_of_add hc' with hc | ⟨hi, rfl⟩
    · exact .inl (hsame hc)
    · exact .inr (.inl ⟨hi, now, nonce, b, r, rfl, rfl, rfl, rfl⟩)
  | issueInMemory now nonce b r =>
    rcases call?_of_add hc' with hc | ⟨hi, rfl⟩
    · exact .inl (hsame hc)
    · exact .inr (.inl ⟨hi, now, nonce, b, r, rfl, rfl, rfl, rfl⟩)
  | refuse now token b r e =>
    rcases call?_of_add hc' with hc | ⟨hi, rfl⟩
    · exact .inl (hsame hc)
    · exact .inr (.inr ⟨hi, now, token, b, r, rfl, rfl, rfl, fun p hp => by cases hp⟩)
  | read now token b r p hmode hread =>
    rcases call?_of_add hc' with hc | ⟨hi, rfl⟩
    · exact .inl (hsame hc)
    · refine .inr (.inr ⟨hi, now, token, b, r, rfl, rfl, rfl, fun p' hp => ?_⟩)
      cases hp
      exact hread
  | consumeInMemory now token b r p hmode hread hused =>
    rcases call?_of_add hc' with hc | ⟨hi, rfl⟩
    · exact .inl (hsame hc)
    · refine .inr (.inr ⟨hi, now, token, b, r, rfl, rfl, rfl, fun p' hp => ?_⟩)
      cases hp
      exact hread
  | throw _ k x e ha hx =>
    exact .inl (hturn k x _ s hx hc' rfl (fun p hp => by cases hp) fun p hp => by cases hp)
  | find k now q p hx => exact .inl (hturn k _ _ s hx hc' rfl (fun _ h => h) fun _ h => h)
  | store k now q p db hx =>
    exact .inl (hturn k _ _ { s with db := db } hx hc' rfl (fun _ h => h) fun _ h => h)
  | check k now t token b r p hx =>
    exact .inl (hturn k _ _ s hx hc' rfl (fun _ h => h) fun _ h => h)
  | spend k now t t' token b r p db hx =>
    exact .inl (hturn k _ _ { s with db := db } hx hc' rfl (fun _ h => h) fun _ h => h)
  | others db => exact .inl (hsame hc')

end Change

/-! ## Every token that is taken was issued -/

/-- The invariant of trusted runs. -/
structure Backed (R : Runtime) (s : State) : Prop where
  minted : ∀ k c p, s.call? k = some c → c.stage.minted? = some p →
    ∃ now b r nonce, c.request = .issue now b r ∧ p = newPayload b r nonce now ∧ Encodes R p
  taken : ∀ i c p, s.call? i = some c → c.stage.taken? = some p →
    ∃ t token b r rest j now, c.request = .consume t token b r ∧ j < i ∧ s.Issued j now b r p ∧
      t < now + 120000 ∧
      splitDots token = R.encode p :: R.sign (R.encode p) :: rest ∧ rest.headD "" = ""

theorem Backed.issued {R : Runtime} {s : State} (h : Backed R s) {j : Nat} {now : Int} {b r : String}
    {p : CheckInPayload} (hj : s.Issued j now b r p) :
    Encodes R p ∧ ∃ nonce, p = newPayload b r nonce now := by
  obtain ⟨now', b', r', nonce, hq, hp, hencodes⟩ := h.minted j _ p hj rfl
  cases hq
  exact ⟨hencodes, nonce, hp⟩

theorem backed_of_fresh {R : Runtime} {s : State} (h : Fresh s) : Backed R s := by
  have hnone : ∀ k c, s.call? k ≠ some c := by
    intro k c hc
    rw [State.call?, h.calls] at hc
    cases hc
  exact ⟨fun k c p hc => absurd hc (hnone k c), fun k c p hc => absurd hc (hnone k c)⟩

/-- A text that is read from is an issued token, perhaps with a tail. -/
theorem Backed.read {R : Runtime} {s : State} (h : Backed R s) {now : Int} {token b r : String}
    {p : CheckInPayload} (htrusted : Trusted R s (.consume now token b r))
    (hread : readToken R token b r now = .ok p) :
    ∃ rest j now', s.Issued j now' b r p ∧ now < now' + 120000 ∧
      splitDots token = R.encode p :: R.sign (R.encode p) :: rest ∧ rest.headD "" = "" := by
  obtain ⟨encoded, rest, hsplit, hencoded, hsign, hrest, hdecode, -, hb, hr, htime⟩ :=
    CheckIn.readToken_eq_ok.mp hread
  obtain ⟨j, now', b', r', p', hj, rfl⟩ := htrusted encoded rest hsplit hencoded hsign
  obtain ⟨hencodes, nonce, hp'⟩ := h.issued hj
  obtain rfl : p' = p := by
    have hsame : Decoded.payload p' = .payload p := hencodes.decoded.symm.trans hdecode
    exact Decoded.payload.inj hsame
  subst hp'
  obtain rfl : b' = b := hb
  obtain rfl : r' = r := hr
  exact ⟨rest, j, now', hj, htime _ rfl, hsplit, hrest⟩

theorem backed_step {R : Runtime} {prisma : Bool} (s : State) (a : Action) (s' : State)
    (h : Backed R s) (htrusted : Trusted R s a) (hstep : step R prisma s a = some s') :
    Backed R s' := by
  have hchange := change_of_step hstep
  constructor
  · intro k c' p hc' hp
    rcases hchange.origin hc' with ⟨c, hc, hq, hminted, -⟩ |
      ⟨-, now, nonce, b, r, rfl, hq, hminted, -⟩ | ⟨-, now, token, b, r, -, -, hminted, -⟩
    · rw [← hq]
      exact h.minted k c p hc (hminted p hp)
    · obtain rfl : newPayload b r nonce now = p := Option.some.inj (hminted.symm.trans hp)
      exact ⟨now, b, r, nonce, hq, rfl, htrusted⟩
    · rw [hminted] at hp
      cases hp
  · intro i c' p hc' hp
    rcases hchange.origin hc' with ⟨c, hc, hq, -, htaken⟩ |
      ⟨-, now, nonce, b, r, rfl, -, -, htaken⟩ | ⟨hi, now, token, b, r, rfl, hq, -, htaken⟩
    · obtain ⟨t, token, b, r, rest, j, now, hreq, hj, hissued, htime, hsplit⟩ :=
        h.taken i c p hc (htaken p hp)
      exact ⟨t, token, b, r, rest, j, now, hq ▸ hreq, hj, hchange.issued hissued, htime, hsplit⟩
    · rw [htaken] at hp
      cases hp
    · obtain ⟨rest, j, now', hissued, htime, hsplit⟩ := h.read htrusted (htaken p hp)
      have hj : j < i := by
        obtain ⟨hlt, -⟩ := List.getElem?_eq_some_iff.mp hissued
        omega
      exact ⟨now, token, b, r, rest, j, now', hq, hj, hchange.issued hissued, htime, hsplit⟩

theorem backed_of_exec {R : Runtime} {prisma : Bool} {s₀ s : State} {as : List Action}
    (h₀ : Fresh s₀) (hrun : (machine R prisma).exec s₀ as = some s)
    (htrusted : (machine R prisma).Along (Trusted R) s₀ as) : Backed R s :=
  (machine R prisma).exec_invariant_along backed_step hrun htrusted (backed_of_fresh h₀)

end PovDeposit.Api.Challenges
