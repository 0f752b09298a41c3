/-
  Who holds a viewing slot, and until when.

  `Timed` is the service with a clock that never goes back, and with a log of the reservations
  and confirmations that succeeded, the latest first. A reservation is logged at the reading of
  the clock that its lock is counted from.

  A slot keeps one holder and one lock. `Held` ties them to the log: an open slot has the lock
  of its latest reservation and, while that lasts, its renter. A `reserve` that throws at the
  very end of the time that a `Date` can name has changed the holder already, but it comes only
  when the lock is over.
-/
import PovDeposit.Api.ViewingSlots

namespace PovDeposit.Api.ViewingSlots

open PovDeposit.Lib
open PovDeposit.Lib.IsoDate (Dates before before_some notAfter notAfter_some isoText ofTime
  toISOString maxTime)

/-- A call at the clock readings it makes. -/
inductive Call where
  | create (now : Int) (uuid propertyId host startsAt endsAt : String)
  | reserve (now now' : Int) (id renter : String)
  | confirm (now : Int) (id renter bookingId : String)
  deriving DecidableEq, Repr

def Call.action : Call → Action
  | .create now uuid propertyId host startsAt endsAt =>
      .create (some now) uuid propertyId host startsAt endsAt
  | .reserve now now' id renter => .reserve (some now) (some now') id renter
  | .confirm now id renter bookingId => .confirm (some now) id renter bookingId

/-- The slot that a call is about. -/
def Call.slot : Call → String
  | .create _ uuid _ _ _ _ => uuid
  | .reserve _ _ id _ => id
  | .confirm _ id _ _ => id

/-- The last reading of a call. -/
def Call.ends : Call → Int
  | .create now _ _ _ _ _ => now
  | .reserve _ now' _ _ => now'
  | .confirm now _ _ _ => now

/-- The readings do not go back, and the id of a booking is not empty: it is a UUID. -/
def Call.allowed (clock : Int) : Call → Bool
  | .create now _ _ _ _ _ => clock ≤ now
  | .reserve now now' _ _ => clock ≤ now && now ≤ now'
  | .confirm now _ _ bookingId => clock ≤ now && bookingId ≠ ""

inductive Event where
  | reserved (id renter : String) (since : Int)
  | confirmed (id renter bookingId : String)
  deriving DecidableEq, Repr

structure Timed where
  service : State
  clock : Int
  log : List Event

section Timed

variable (D : Dates)

/-- What a call adds to the log. -/
def Call.events (s : State) : Call → List Event
  | .create _ _ _ _ _ _ => []
  | .reserve now now' id renter =>
      if (ViewingSlots.reserve D (some now) (some now') s id renter).2.isOk then
        [.reserved id renter now']
      else []
  | .confirm now id renter bookingId =>
      if (ViewingSlots.confirm D (some now) s id renter bookingId).2.isOk then
        [.confirmed id renter bookingId]
      else []

def timedStep (t : Timed) (c : Call) : Option Timed :=
  if c.allowed t.clock then
    (step D t.service c.action).map fun s => ⟨s, c.ends, c.events D t.service ++ t.log⟩
  else none

def FreshTimed (t : Timed) : Prop := Fresh t.service ∧ t.log = []

def timed : Machine Timed Call where
  init := FreshTimed
  step := timedStep D

end Timed

/-- The latest reservation of a slot. -/
def holder (log : List Event) (id : String) : Option (String × Int) :=
  log.findSome? fun
    | .reserved i renter since => if i = id then some (renter, since) else none
    | .confirmed _ _ _ => none

def isConfirmed (log : List Event) (id : String) : Bool :=
  log.any fun
    | .reserved _ _ _ => false
    | .confirmed i _ _ => i = id

/-- A reservation lasts this long. -/
def lockTime : Int := 5 * 60000

/-! ## The tests of the two calls -/

section Tests

variable (D : Dates)

/-- Whether `reserve` gets past its two tests. -/
def reservable (now : Option Int) (slot : ViewingSlot) (renter : String) : Bool :=
  !truthy slot.bookingId && !(truthy slot.lockedUntil && before now (slot.lockedUntil.bind D.date) &&
    slot.reservedBy ≠ some renter)

/-- Whether `confirm` gets past its two tests. -/
def confirmable (now : Option Int) (slot : ViewingSlot) (renter : String) : Bool :=
  !truthy slot.bookingId && !(slot.reservedBy ≠ some renter || !truthy slot.lockedUntil ||
    notAfter (slot.lockedUntil.bind D.date) now)

variable {D} {s : State} {id : String} {slot : ViewingSlot} {now : Option Int} {renter : String}

variable (D s id now renter) in
/-- `reserve` gets past its tests, or changes nothing. -/
theorem reserve_cases (now' : Option Int) :
    (∃ slot, s.slots.lookup id = some slot ∧ reservable D now slot renter = true) ∨
      ∃ e, reserve D now now' s id renter = (s, .error e) := by
  unfold reserve
  cases hslot : s.slots.lookup id with
  | none => exact .inr ⟨_, rfl⟩
  | some slot =>
    cases hpass : reservable D now slot renter with
    | true => exact .inl ⟨slot, rfl, hpass⟩
    | false =>
      right
      unfold reservable at hpass
      by_cases hbooked : truthy slot.bookingId = true
      · exact ⟨_, if_pos hbooked⟩
      · rw [Bool.eq_false_iff.mpr hbooked, Bool.not_false, Bool.true_and, Bool.not_eq_false'] at hpass
        exact ⟨_, (if_neg hbooked).trans (if_pos hpass)⟩

theorem reserve_of_reservable (hslot : s.slots.lookup id = some slot)
    (h : reservable D now slot renter = true) (now' : Option Int) :
    reserve D now now' s id renter =
      match isoText (now'.bind fun t => ofTime (t + lockTime)) with
      | .error e => (s.put id { slot with reservedBy := some renter }, .error e)
      | .ok text => (s.put id { slot with reservedBy := some renter, lockedUntil := some text },
          .ok { slot with reservedBy := some renter, lockedUntil := some text }) := by
  obtain ⟨hopen, hfree⟩ := Bool.and_eq_true_iff.mp h
  have hopen' : ¬ truthy slot.bookingId = true := by simpa using hopen
  have hfree' : ¬ (truthy slot.lockedUntil && before now (slot.lockedUntil.bind D.date) &&
      slot.reservedBy ≠ some renter) = true := by
    rw [Bool.not_eq_true, ← Bool.not_eq_true']
    exact hfree
  unfold reserve
  rw [hslot]
  exact (if_neg hopen').trans (if_neg hfree')

variable (D s id now renter) in
/-- So does `confirm`. -/
theorem confirm_cases (bookingId : String) :
    (∃ slot, s.slots.lookup id = some slot ∧ confirmable D now slot renter = true) ∨
      ∃ e, confirm D now s id renter bookingId = (s, .error e) := by
  unfold confirm
  cases hslot : s.slots.lookup id with
  | none => exact .inr ⟨_, rfl⟩
  | some slot =>
    cases hpass : confirmable D now slot renter with
    | true => exact .inl ⟨slot, rfl, hpass⟩
    | false =>
      right
      unfold confirmable at hpass
      by_cases hbooked : truthy slot.bookingId = true
      · exact ⟨_, if_pos hbooked⟩
      · rw [Bool.eq_false_iff.mpr hbooked, Bool.not_false, Bool.true_and, Bool.not_eq_false'] at hpass
        exact ⟨_, (if_neg hbooked).trans (if_pos hpass)⟩

theorem confirm_of_confirmable (hslot : s.slots.lookup id = some slot)
    (h : confirmable D now slot renter = true) (bookingId : String) :
    confirm D now s id renter bookingId =
      (s.put id { slot with bookingId := some bookingId, lockedUntil := none },
        .ok { slot with bookingId := some bookingId, lockedUntil := none }) := by
  obtain ⟨hopen, hmine⟩ := Bool.and_eq_true_iff.mp h
  have hopen' : ¬ truthy slot.bookingId = true := by simpa using hopen
  have hmine' : ¬ (slot.reservedBy ≠ some renter || !truthy slot.lockedUntil ||
      notAfter (slot.lockedUntil.bind D.date) now) = true := by
    rw [Bool.not_eq_true, ← Bool.not_eq_true']
    exact hmine
  unfold confirm
  rw [hslot]
  exact (if_neg hopen').trans (if_neg hmine')

end Tests

/-! ## The lock of a reservation -/

/-- The marks of a slot that `renter` reserved at `since`. When the lock is over the holder may
    be another one. -/
structure LockedBy (slot : ViewingSlot) (renter : String) (since clock : Int) : Prop where
  text : slot.lockedUntil = some (toISOString (since + lockTime))
  valid : (since + lockTime).natAbs ≤ maxTime
  past : since ≤ clock
  mine : slot.reservedBy = some renter ∨ since + lockTime ≤ clock

theorem truthy_toISOString (t : Int) : truthy (some (toISOString t)) = true := by
  have hne : toISOString t ≠ "" := by
    intro h
    have hlength := congrArg (fun s => s.toList.length) h
    simp [toISOString, IsoDate.writeRest] at hlength
  simpa [truthy] using hne

theorem LockedBy.date (D : Dates) {slot : ViewingSlot} {r : String} {since clock : Int}
    (h : LockedBy slot r since clock) :
    slot.lockedUntil.bind D.date = some (since + lockTime) := by
  rw [h.text]
  exact D.iso _ h.valid

theorem LockedBy.truthy {slot : ViewingSlot} {r : String} {since clock : Int}
    (h : LockedBy slot r since clock) : truthy slot.lockedUntil = true := by
  rw [h.text]
  exact truthy_toISOString _

section Lock

variable {D : Dates} {slot : ViewingSlot} {r : String} {since clock now : Int}
  (h : LockedBy slot r since clock) (hopen : slot.bookingId = none) (hnow : clock ≤ now)
include h hopen hnow

/-- A locked slot is for its renter alone, until the lock is over. -/
theorem reservable_locked (renter : String) :
    reservable D (some now) slot renter = true ↔ since + lockTime ≤ now ∨ renter = r := by
  have hlock := h.date D
  have htruthy := h.truthy
  have hunbooked : truthy slot.bookingId = false := hopen ▸ rfl
  simp only [reservable, hunbooked, hlock, htruthy, before_some, Bool.not_false, Bool.true_and,
    Bool.not_eq_true', Bool.and_eq_false_iff, decide_eq_false_iff_not, not_lt, not_not]
  refine or_congr_right' fun hactive => ?_
  have hmine : slot.reservedBy = some r := h.mine.resolve_right (by omega)
  rw [hmine, Option.some.injEq, eq_comm]

/-- It can be confirmed by its renter, until the lock is over. -/
theorem confirmable_locked (renter : String) :
    confirmable D (some now) slot renter = true ↔ renter = r ∧ now < since + lockTime := by
  have hlock := h.date D
  have htruthy := h.truthy
  have hunbooked : truthy slot.bookingId = false := hopen ▸ rfl
  simp only [confirmable, hunbooked, hlock, htruthy, notAfter_some, Bool.not_false, Bool.true_and,
    Bool.not_true, Bool.or_false, Bool.not_eq_true', Bool.or_eq_false_iff, decide_eq_false_iff_not,
    not_le, not_not]
  refine and_congr_left fun hactive => ?_
  have hmine : slot.reservedBy = some r := h.mine.resolve_right (by omega)
  rw [hmine, Option.some.injEq, eq_comm]

end Lock

/-! ## The invariant -/

def Event.slot : Event → String
  | .reserved id _ _ => id
  | .confirmed id _ _ => id

/-- The slot of an id and what the log says of it. -/
inductive HeldAt (clock : Int) (log : List Event) (id : String) : Option ViewingSlot → Prop where
  | absent (hlog : ∀ e ∈ log, e.slot ≠ id) : HeldAt clock log id none
  | free (slot : ViewingSlot) (hlog : ∀ e ∈ log, e.slot ≠ id) (hopen : slot.bookingId = none)
      (hunlocked : slot.lockedUntil = none) : HeldAt clock log id (some slot)
  | held (slot : ViewingSlot) (renter : String) (since : Int)
      (hholder : holder log id = some (renter, since)) (hconfirmed : isConfirmed log id = false)
      (hopen : slot.bookingId = none) (hlock : LockedBy slot renter since clock) :
      HeldAt clock log id (some slot)
  | booked (slot : ViewingSlot) (bookingId : String) (hbooked : slot.bookingId = some bookingId)
      (hne : bookingId ≠ "") (hconfirmed : isConfirmed log id = true)
      (hlog : ∀ r b, .confirmed id r b ∈ log → b = bookingId) : HeldAt clock log id (some slot)

/-- Before the latest reservation of a slot all locks of others were over. -/
def Succeeds (log : List Event) (id : String) : Prop :=
  ∀ r since, .reserved id r since ∈ log → ∃ r' since', holder log id = some (r', since') ∧
    since ≤ since' ∧ (r' = r ∨ since + lockTime ≤ since')

structure Held (t : Timed) : Prop where
  slots : ∀ id, HeldAt t.clock t.log id (t.service.slots.lookup id)
  succeeds : ∀ id, Succeeds t.log id

theorem holder_of_quiet {log : List Event} {id : String} (h : ∀ e ∈ log, e.slot ≠ id) :
    holder log id = none := by
  refine List.findSome?_eq_none_iff.mpr fun e he => ?_
  cases e with
  | reserved i r since => exact if_neg (h _ he)
  | confirmed => rfl

theorem isConfirmed_of_quiet {log : List Event} {id : String} (h : ∀ e ∈ log, e.slot ≠ id) :
    isConfirmed log id = false := by
  refine List.any_eq_false.mpr fun e he => ?_
  cases e with
  | reserved => simp
  | confirmed i r b =>
    have hi : i ≠ id := h _ he
    simpa using hi

theorem holder_cons_ne {e : Event} {log : List Event} {id : String} (h : e.slot ≠ id) :
    holder (e :: log) id = holder log id := by
  cases e with
  | reserved i r since =>
    have hi : i ≠ id := h
    simp [holder, hi]
  | confirmed => rfl

theorem isConfirmed_cons_ne {e : Event} {log : List Event} {id : String} (h : e.slot ≠ id) :
    isConfirmed (e :: log) id = isConfirmed log id := by
  cases e with
  | reserved => rfl
  | confirmed i r b =>
    have hi : i ≠ id := h
    simp [isConfirmed, hi]

theorem holder_reserved (log : List Event) (id r : String) (since : Int) :
    holder (.reserved id r since :: log) id = some (r, since) := by
  simp [holder]

theorem isConfirmed_of_mem {log : List Event} {id r b : String} (h : .confirmed id r b ∈ log) :
    isConfirmed log id = true :=
  List.any_eq_true.mpr ⟨_, h, by simp⟩

section Keep

variable {clock : Int} {log : List Event} {id : String} {slot? : Option ViewingSlot}

theorem HeldAt.later (h : HeldAt clock log id slot?) {clock' : Int} (hle : clock ≤ clock') :
    HeldAt clock' log id slot? := by
  cases h with
  | absent hlog => exact .absent hlog
  | free slot hlog hopen hunlocked => exact .free slot hlog hopen hunlocked
  | held slot renter since hholder hconfirmed hopen hlock =>
    exact .held slot renter since hholder hconfirmed hopen
      ⟨hlock.text, hlock.valid, hlock.past.trans hle, hlock.mine.imp_right fun hover => hover.trans hle⟩
  | booked slot bookingId hbooked hne hconfirmed hlog =>
    exact .booked slot bookingId hbooked hne hconfirmed hlog

/-- An event about another slot. -/
theorem HeldAt.other (h : HeldAt clock log id slot?) {e : Event} (he : e.slot ≠ id) :
    HeldAt clock (e :: log) id slot? := by
  have hquiet : (∀ e ∈ log, e.slot ≠ id) → ∀ x ∈ e :: log, x.slot ≠ id := by
    intro hlog x hx
    rcases List.mem_cons.mp hx with rfl | hx
    · exact he
    · exact hlog x hx
  cases h with
  | absent hlog => exact .absent (hquiet hlog)
  | free slot hlog hopen hunlocked => exact .free slot (hquiet hlog) hopen hunlocked
  | held slot renter since hholder hconfirmed hopen hlock =>
    exact .held slot renter since ((holder_cons_ne he).trans hholder)
      ((isConfirmed_cons_ne he).trans hconfirmed) hopen hlock
  | booked slot bookingId hbooked hne hconfirmed hlog =>
    refine .booked slot bookingId hbooked hne ((isConfirmed_cons_ne he).trans hconfirmed) ?_
    intro r b hb
    rcases List.mem_cons.mp hb with rfl | hb
    · exact absurd rfl he
    · exact hlog r b hb

/-- An open slot has the lock of its latest reservation. -/
theorem HeldAt.locked (h : HeldAt clock log id slot?) {r : String} {since : Int}
    (hholder : holder log id = some (r, since)) (hopen : isConfirmed log id = false) :
    ∃ slot, slot? = some slot ∧ slot.bookingId = none ∧ LockedBy slot r since clock := by
  cases h with
  | absent hlog =>
    rw [holder_of_quiet hlog] at hholder
    cases hholder
  | free slot hlog =>
    rw [holder_of_quiet hlog] at hholder
    cases hholder
  | held slot r' since' hheld _ hunbooked hlock =>
    rw [hholder] at hheld
    cases hheld
    exact ⟨slot, rfl, hunbooked, hlock⟩
  | booked slot bookingId _ _ hconfirmed =>
    rw [hopen] at hconfirmed
    cases hconfirmed

/-- A confirmed slot has the booking it was confirmed with. -/
theorem HeldAt.final (h : HeldAt clock log id slot?) {r b : String}
    (hmem : .confirmed id r b ∈ log) : ∃ slot, slot? = some slot ∧ slot.bookingId = some b := by
  cases h with
  | absent hlog => exact absurd rfl (hlog _ hmem)
  | free slot hlog => exact absurd rfl (hlog _ hmem)
  | held slot r' since _ hopen =>
    rw [isConfirmed_of_mem hmem] at hopen
    cases hopen
  | booked slot bookingId hbooked _ _ hlog => exact ⟨slot, rfl, by rw [hbooked, hlog r b hmem]⟩

theorem Succeeds.other (h : Succeeds log id) {e : Event}
    (he : ∀ r since, e ≠ .reserved id r since) (hsame : holder (e :: log) id = holder log id) :
    Succeeds (e :: log) id := by
  intro r since hmem
  rw [hsame]
  rcases List.mem_cons.mp hmem with rfl | hmem
  · exact absurd rfl (he r since)
  · exact h r since hmem

end Keep

/-! ## The steps -/

section Steps

variable {D : Dates} {s : State} {clock now : Int} {log : List Event} {id : String}
  (h : HeldAt clock log id (s.slots.lookup id)) (hnow : clock ≤ now)
include h hnow

/-- A slot that can be reserved is free, or locked by its renter, or no longer locked. -/
theorem reservable_cases {slot : ViewingSlot} (hslot : s.slots.lookup id = some slot) {renter : String}
    (hpass : reservable D (some now) slot renter = true) :
    slot.bookingId = none ∧ isConfirmed log id = false ∧
      ((∀ e ∈ log, e.slot ≠ id) ∧ slot.lockedUntil = none ∨
        ∃ r since, holder log id = some (r, since) ∧ LockedBy slot r since clock ∧
          (since + lockTime ≤ now ∨ renter = r)) := by
  rw [hslot] at h
  cases h with
  | free slot hlog hopen hunlocked =>
    exact ⟨hopen, isConfirmed_of_quiet hlog, .inl ⟨hlog, hunlocked⟩⟩
  | held slot r since hholder hconfirmed hopen hlock =>
    exact ⟨hopen, hconfirmed,
      .inr ⟨r, since, hholder, hlock, (reservable_locked hlock hopen hnow renter).mp hpass⟩⟩
  | booked slot bookingId hbooked hne =>
    simp [reservable, hbooked, truthy, hne] at hpass

/-- A slot that can be confirmed is locked by its renter. -/
theorem confirmable_cases {slot : ViewingSlot} (hslot : s.slots.lookup id = some slot)
    {renter : String} (hpass : confirmable D (some now) slot renter = true) :
    isConfirmed log id = false ∧ ∃ since, holder log id = some (renter, since) ∧ since ≤ clock ∧
      now < since + lockTime := by
  rw [hslot] at h
  cases h with
  | free slot hlog hopen hunlocked => simp [confirmable, hunlocked, truthy] at hpass
  | held slot r since hholder hconfirmed hopen hlock =>
    obtain ⟨rfl, hactive⟩ := (confirmable_locked hlock hopen hnow renter).mp hpass
    exact ⟨hconfirmed, since, hholder, hlock.past, hactive⟩
  | booked slot bookingId hbooked hne =>
    simp [confirmable, hbooked, truthy, hne] at hpass

/-- `reserve` at its slot. -/
theorem heldAt_reserve {now' : Int} (hnow' : now ≤ now') (renter : String) :
    HeldAt now' ((Call.reserve now now' id renter).events D s ++ log) id
      ((reserve D (some now) (some now') s id renter).1.slots.lookup id) := by
  rcases reserve_cases D s id (some now) renter (some now') with ⟨slot, hslot, hpass⟩ | ⟨e, hreserve⟩
  · have hreserve := reserve_of_reservable hslot hpass (some now')
    obtain ⟨hopen, hconfirmed, hcases⟩ := reservable_cases h hnow hslot hpass
    cases htext : isoText (ofTime (now' + lockTime)) with
    | error e =>
      -- thrown: the holder is another one at once, the lock stays
      rw [Option.bind_some, htext] at hreserve
      simp only [Call.events, hreserve, lookup_put, if_true]
      show HeldAt now' log id _
      rcases hcases with ⟨hlog, hunlocked⟩ | ⟨r, since, hholder, hlock, hover⟩
      · exact .free _ hlog hopen hunlocked
      · refine .held _ r since hholder hconfirmed hopen ⟨hlock.text, hlock.valid,
          hlock.past.trans (hnow.trans hnow'), ?_⟩
        rcases hover with hover | rfl
        · exact .inr (hover.trans hnow')
        · exact .inl rfl
    | ok text =>
      rw [Option.bind_some, htext] at hreserve
      obtain ⟨t, ht, rfl⟩ := IsoDate.isoText_eq_ok.mp htext
      obtain ⟨hvalid, rfl⟩ := IsoDate.ofTime_eq_some.mp ht
      simp only [Call.events, hreserve, lookup_put, if_true]
      exact .held _ renter now' (holder_reserved log id renter now') hconfirmed hopen
        ⟨rfl, hvalid, le_refl _, .inl rfl⟩
  · simp only [Call.events, hreserve]
    exact h.later (hnow.trans hnow')

/-- `confirm` at its slot. -/
theorem heldAt_confirm (renter : String) {bookingId : String} (hne : bookingId ≠ "") :
    HeldAt now ((Call.confirm now id renter bookingId).events D s ++ log) id
      ((confirm D (some now) s id renter bookingId).1.slots.lookup id) := by
  rcases confirm_cases D s id (some now) renter bookingId with ⟨slot, hslot, hpass⟩ | ⟨e, hconfirm⟩
  · have hconfirm := confirm_of_confirmable hslot hpass bookingId
    obtain ⟨hconfirmed, -⟩ := confirmable_cases h hnow hslot hpass
    simp only [Call.events, hconfirm, lookup_put, if_true]
    show HeldAt now (.confirmed id renter bookingId :: log) id _
    refine .booked _ bookingId rfl hne (isConfirmed_of_mem (List.mem_cons_self ..)) fun r b hb => ?_
    rcases List.mem_cons.mp hb with heq | hold
    · cases heq
      rfl
    · rw [isConfirmed_of_mem hold] at hconfirmed
      cases hconfirmed
  · simp only [Call.events, hconfirm]
    exact h.later hnow

/-- A reservation that succeeds comes after the locks of all others. -/
theorem succeeds_reserve {now' : Int} (hnow' : now ≤ now') (hs : Succeeds log id) (renter : String) :
    Succeeds ((Call.reserve now now' id renter).events D s ++ log) id := by
  simp only [Call.events]
  split
  · rename_i hok
    obtain ⟨slot, hslot, hpass⟩ : ∃ slot, s.slots.lookup id = some slot ∧
        reservable D (some now) slot renter = true := by
      rcases reserve_cases D s id (some now) renter (some now') with hpass | ⟨e, hreserve⟩
      · exact hpass
      · rw [hreserve] at hok
        cases hok
    obtain ⟨-, -, hcases⟩ := reservable_cases h hnow hslot hpass
    intro r since hmem
    refine ⟨renter, now', holder_reserved log id renter now', ?_⟩
    rcases List.mem_cons.mp hmem with heq | hold
    · cases heq
      exact ⟨le_refl _, .inl rfl⟩
    · obtain ⟨r₁, since₁, hholder₁, hle, hcase⟩ := hs r since hold
      rcases hcases with ⟨hlog, -⟩ | ⟨r₂, since₂, hholder, hlock, hover⟩
      · exact absurd rfl (hlog _ hold)
      · rw [hholder, Option.some.injEq, Prod.mk.injEq] at hholder₁
        obtain ⟨rfl, rfl⟩ := hholder₁
        have hpast := hlock.past
        refine ⟨by omega, ?_⟩
        rcases hover with hover | rfl
        · exact .inr (by omega)
        · exact hcase.imp_right fun hdone => by omega
  · exact hs

end Steps

/-- Calls on one slot never change another. -/
theorem lookup_step (D : Dates) {s s' : State} {c : Call} (h : step D s c.action = some s') {j : String}
    (hj : j ≠ c.slot) : s'.slots.lookup j = s.slots.lookup j := by
  have hmarked : ∀ {id}, Marked id s s' → j ≠ id → s'.slots.lookup j = s.slots.lookup j := by
    intro id hm hid
    rcases hm with rfl | ⟨x, y, -, -, rfl⟩
    · rfl
    · rw [lookup_put, if_neg hid]
  cases c with
  | create now uuid propertyId host startsAt endsAt =>
    simp only [Call.action, step, Option.ite_none_left_eq_some, Option.some.injEq] at h
    obtain ⟨-, rfl⟩ := h
    rcases create_cases D s (some now) uuid propertyId host startsAt endsAt with
      ⟨e, hthrow⟩ | ⟨a, b, -, -, -, -, hstore⟩
    · rw [hthrow]
    · rw [hstore, lookup_put]
      exact if_neg hj
  | reserve now now' id renter =>
    cases h
    exact hmarked (reserve_marked D s _ _ id renter) hj
  | confirm now id renter bookingId =>
    cases h
    exact hmarked (confirm_marked D s _ id renter bookingId) hj

theorem slot_of_events {D : Dates} {s : State} {c : Call} {e : Event} (h : e ∈ c.events D s) :
    e.slot = c.slot := by
  cases c with
  | create => cases h
  | reserve now now' id renter =>
    simp only [Call.events] at h
    split at h
    · rw [List.mem_singleton.mp h]
      rfl
    · cases h
  | confirm now id renter bookingId =>
    simp only [Call.events] at h
    split at h
    · rw [List.mem_singleton.mp h]
      rfl
    · cases h

/-- A call has one event at most. -/
theorem events_cases (D : Dates) (s : State) (c : Call) :
    c.events D s = [] ∨ ∃ e, c.events D s = [e] ∧ e.slot = c.slot := by
  cases hevents : c.events D s with
  | nil => exact .inl rfl
  | cons e rest =>
    refine .inr ⟨e, ?_, slot_of_events (hevents ▸ List.mem_cons_self ..)⟩
    cases c with
    | create => cases hevents
    | _ =>
      simp only [Call.events] at hevents
      split at hevents
      · cases hevents
        rfl
      · cases hevents

theorem held_of_fresh {t : Timed} (h : FreshTimed t) : Held t := by
  obtain ⟨hslots, hlog⟩ := h
  constructor
  · intro id
    rw [hslots, hlog]
    exact .absent fun e he => by cases he
  · intro id r since hmem
    rw [hlog] at hmem
    cases hmem

/-- `create` at its slot, which was not there. -/
theorem heldAt_create {D : Dates} {s : State} {clock now : Int} {log : List Event}
    {uuid propertyId host startsAt endsAt : String} (h : HeldAt clock log uuid (s.slots.lookup uuid))
    (hnow : clock ≤ now) (hnew : uuid ∉ s.slots) :
    HeldAt now log uuid
      ((create D (some now) uuid s propertyId host startsAt endsAt).1.slots.lookup uuid) := by
  rcases create_cases D s (some now) uuid propertyId host startsAt endsAt with
    ⟨e, hthrow⟩ | ⟨a, b, -, -, -, -, hstore⟩
  · rw [hthrow]
    exact h.later hnow
  · rw [AList.lookup_eq_none.mpr hnew] at h
    cases h with
    | absent hlog =>
      rw [hstore, lookup_put, if_pos rfl]
      exact .free _ hlog rfl rfl

theorem held_step {D : Dates} (t : Timed) (c : Call) (t' : Timed) (h : Held t)
    (hstep : timedStep D t c = some t') : Held t' := by
  simp only [timedStep, Option.ite_none_right_eq_some, Option.map_eq_some_iff] at hstep
  obtain ⟨hallowed, s', hs', rfl⟩ := hstep
  have hle : t.clock ≤ c.ends := by
    cases c <;> simp [Call.allowed] at hallowed <;> simp only [Call.ends] <;> omega
  constructor
  · intro id
    by_cases hid : id = c.slot
    · subst hid
      cases c with
      | create now uuid propertyId host startsAt endsAt =>
        simp only [Call.action, step, Option.ite_none_left_eq_some, Option.some.injEq] at hs'
        obtain ⟨hnew, rfl⟩ := hs'
        exact heldAt_create (h.slots uuid) hle hnew
      | reserve now now' id renter =>
        cases hs'
        simp only [Call.allowed, Bool.and_eq_true, decide_eq_true_eq] at hallowed
        exact heldAt_reserve (h.slots id) hallowed.1 hallowed.2 renter
      | confirm now id renter bookingId =>
        cases hs'
        simp only [Call.allowed, Bool.and_eq_true, decide_eq_true_eq] at hallowed
        exact heldAt_confirm (h.slots id) hallowed.1 renter hallowed.2
    · show HeldAt c.ends (c.events D t.service ++ t.log) id (s'.slots.lookup id)
      rw [lookup_step D hs' hid]
      have hkept := (h.slots id).later hle
      rcases events_cases D t.service c with hnone | ⟨e, hone, hslot⟩
      · rw [hnone]
        exact hkept
      · rw [hone]
        exact hkept.other fun he => hid (he.symm.trans hslot)
  · intro id
    by_cases hid : id = c.slot
    · subst hid
      cases c with
      | create => exact h.succeeds _
      | reserve now now' id renter =>
        simp only [Call.allowed, Bool.and_eq_true, decide_eq_true_eq] at hallowed
        exact succeeds_reserve (h.slots id) hallowed.1 hallowed.2 (h.succeeds id) renter
      | confirm now id renter bookingId =>
        simp only [Call.events]
        split
        · exact (h.succeeds id).other (fun _ _ he => by cases he) rfl
        · exact h.succeeds id
    · show Succeeds (c.events D t.service ++ t.log) id
      rcases events_cases D t.service c with hnone | ⟨e, hone, hslot⟩
      · rw [hnone]
        exact h.succeeds id
      · rw [hone]
        have hother : e.slot ≠ id := fun he => hid (he.symm.trans hslot)
        exact (h.succeeds id).other (fun r since he => hother (by rw [he]; rfl)) (holder_cons_ne hother)

theorem log_step {D : Dates} (t : Timed) (c : Call) (t' : Timed) (_ : Held t)
    (hstep : timedStep D t c = some t') : t.log ⊆ t'.log := by
  simp only [timedStep, Option.ite_none_right_eq_some, Option.map_eq_some_iff] at hstep
  obtain ⟨-, s', -, rfl⟩ := hstep
  exact List.subset_append_right _ _

/-! ## The results -/

section Results

variable {D : Dates} {t : Timed} (h : Held t) {id : String} {now : Int} (hnow : t.clock ≤ now)
include h hnow

theorem confirm_isOk_iff (renter bookingId : String) :
    (∃ y, (confirm D (some now) t.service id renter bookingId).2 = .ok y) ↔
      isConfirmed t.log id = false ∧ ∃ since, holder t.log id = some (renter, since) ∧
        since ≤ now ∧ now < since + lockTime := by
  constructor
  · rintro ⟨y, hy⟩
    rcases confirm_cases D t.service id (some now) renter bookingId with
      ⟨slot, hslot, hpass⟩ | ⟨e, hrefused⟩
    · obtain ⟨hopen, since, hholder, hpast, hactive⟩ :=
        confirmable_cases (h.slots id) hnow hslot hpass
      exact ⟨hopen, since, hholder, hpast.trans hnow, hactive⟩
    · rw [hrefused] at hy
      cases hy
  · rintro ⟨hopen, since, hholder, -, hactive⟩
    obtain ⟨slot, hslot, hunbooked, hlock⟩ := (h.slots id).locked hholder hopen
    have hpass := (confirmable_locked (D := D) hlock hunbooked hnow renter).mpr ⟨rfl, hactive⟩
    exact ⟨_, by rw [confirm_of_confirmable hslot hpass]⟩

/-- No other renter gets in before the lock of a reservation is over. -/
theorem reserve_excluded {r : String} {since : Int} (hmem : .reserved id r since ∈ t.log)
    (hactive : now < since + lockTime) {renter : String} (hne : renter ≠ r) (now' : Option Int) :
    ∃ e, (reserve D (some now) now' t.service id renter).2 = .error e := by
  rcases reserve_cases D t.service id (some now) renter now' with ⟨slot, hslot, hpass⟩ | ⟨e, hrefused⟩
  · exfalso
    obtain ⟨-, -, ⟨hlog, -⟩ | ⟨r₂, since₂, hholder, hlock, hover⟩⟩ :=
      reservable_cases (h.slots id) hnow hslot hpass
    · exact hlog _ hmem rfl
    · obtain ⟨r₁, since₁, hholder₁, hle, hcase⟩ := h.succeeds id r since hmem
      rw [hholder, Option.some.injEq, Prod.mk.injEq] at hholder₁
      obtain ⟨rfl, rfl⟩ := hholder₁
      have hpast := hlock.past
      rcases hcase with rfl | hdone
      · rcases hover with hover | rfl
        · omega
        · exact hne rfl
      · omega
  · exact ⟨e, by rw [hrefused]⟩

/-- When the lock of the latest reservation is over, any renter gets in. -/
theorem reserve_over {r : String} {since : Int} (hholder : holder t.log id = some (r, since))
    (hopen : isConfirmed t.log id = false) (hover : since + lockTime ≤ now) (renter : String)
    {now' : Int} (hvalid : (now' + lockTime).natAbs ≤ maxTime) :
    ∃ y, (reserve D (some now) (some now') t.service id renter).2 = .ok y := by
  obtain ⟨slot, hslot, hunbooked, hlock⟩ := (h.slots id).locked hholder hopen
  have hpass := (reservable_locked (D := D) hlock hunbooked hnow renter).mpr (.inl hover)
  have htext : isoText ((some now').bind fun t => ofTime (t + lockTime)) =
      .ok (toISOString (now' + lockTime)) :=
    IsoDate.isoText_eq_ok.mpr ⟨_, IsoDate.ofTime_eq_some.mpr ⟨hvalid, rfl⟩, rfl⟩
  exact ⟨_, by rw [reserve_of_reservable hslot hpass, htext]⟩

/-- After a confirmation both calls fail. -/
theorem refused_of_confirmed {r b : String} (hmem : .confirmed id r b ∈ t.log) :
    (∀ renter now', ∃ e, (reserve D (some now) now' t.service id renter).2 = .error e) ∧
      ∀ renter bookingId, ∃ e, (confirm D (some now) t.service id renter bookingId).2 = .error e := by
  have hconfirmed := isConfirmed_of_mem hmem
  constructor
  · intro renter now'
    rcases reserve_cases D t.service id (some now) renter now' with
      ⟨slot, hslot, hpass⟩ | ⟨e, hrefused⟩
    · obtain ⟨-, hopen, -⟩ := reservable_cases (h.slots id) hnow hslot hpass
      rw [hconfirmed] at hopen
      cases hopen
    · exact ⟨e, by rw [hrefused]⟩
  · intro renter bookingId
    rcases confirm_cases D t.service id (some now) renter bookingId with
      ⟨slot, hslot, hpass⟩ | ⟨e, hrefused⟩
    · obtain ⟨hopen, -⟩ := confirmable_cases (h.slots id) hnow hslot hpass
      rw [hconfirmed] at hopen
      cases hopen
    · exact ⟨e, by rw [hrefused]⟩

end Results

/-- **Reservations are exclusive and confirmations final.** After any run, at any reading of
    the clock from then on: a confirmation succeeds exactly for the renter of the latest
    reservation of an open slot, within five minutes of it; no other renter can reserve within
    five minutes of a reservation; when nobody has reserved since and the five minutes are
    over, any renter can, while the new lock has a date; what is confirmed stays so, with its
    booking; and a call leaves all other slots as they are. -/
theorem reservations_exclusive (D : Dates) (t₀ t : Timed) (cs : List Call) (h₀ : FreshTimed t₀)
    (hrun : (timed D).exec t₀ cs = some t) (id : String) (now : Int) (hnow : t.clock ≤ now) :
    (∀ renter bookingId, (∃ y, (confirm D (some now) t.service id renter bookingId).2 = .ok y) ↔
      isConfirmed t.log id = false ∧ ∃ since, holder t.log id = some (renter, since) ∧
        since ≤ now ∧ now < since + lockTime) ∧
    (∀ r since, .reserved id r since ∈ t.log → now < since + lockTime → ∀ renter, renter ≠ r →
      ∀ now', ∃ e, (reserve D (some now) now' t.service id renter).2 = .error e) ∧
    (∀ r since, holder t.log id = some (r, since) → isConfirmed t.log id = false →
      since + lockTime ≤ now → ∀ renter now', (now' + lockTime).natAbs ≤ maxTime →
      ∃ y, (reserve D (some now) (some now') t.service id renter).2 = .ok y) ∧
    (∀ r b, .confirmed id r b ∈ t.log →
      (∀ renter now', ∃ e, (reserve D (some now) now' t.service id renter).2 = .error e) ∧
      (∀ renter bookingId, ∃ e,
        (confirm D (some now) t.service id renter bookingId).2 = .error e) ∧
      ∀ cs' u, (timed D).exec t cs' = some u →
        ∃ slot, u.service.slots.lookup id = some slot ∧ slot.bookingId = some b) ∧
    ∀ c u, timedStep D t c = some u → ∀ j, j ≠ c.slot →
      u.service.slots.lookup j = t.service.slots.lookup j := by
  have h : Held t := (timed D).exec_invariant held_step hrun (held_of_fresh h₀)
  refine ⟨confirm_isOk_iff h hnow, fun r since hmem hactive renter hne now' =>
    reserve_excluded h hnow hmem hactive hne now', fun r since hholder hopen hover renter now' hvalid =>
    reserve_over h hnow hholder hopen hover renter hvalid, ?_, ?_⟩
  · intro r b hmem
    obtain ⟨hreserve, hconfirm⟩ := refused_of_confirmed (D := D) h hnow hmem
    refine ⟨hreserve, hconfirm, fun cs' u hu => ?_⟩
    have hkept : t.log ⊆ u.log := (timed D).exec_relates (R := fun t u => t.log ⊆ u.log) held_step
      (fun _ => List.Subset.refl _) (fun _ _ _ => List.Subset.trans) log_step hu h
    exact (((timed D).exec_invariant held_step hu h).slots id).final (hkept hmem)
  · intro c u hu j hj
    simp only [timedStep, Option.ite_none_right_eq_some, Option.map_eq_some_iff] at hu
    obtain ⟨-, s', hs', rfl⟩ := hu
    exact lookup_step D hs' hj

/-- A slot that one renter reserves, and then another one when the lock is over. -/
def takenOver : List Call :=
  [.create 1785232800000 "slot-1" "property-1" "GHOST" "2026-07-29T10:00:00.000Z"
     "2026-07-29T10:30:00.000Z",
   .reserve 1785232800000 1785232800000 "slot-1" "GRENTER1",
   .reserve 1785233100000 1785233100000 "slot-1" "GRENTER2"]

def noCalls : Timed := ⟨⟨∅⟩, 0, []⟩

theorem reservations_exclusive_taken : ∃ t, (timed IsoDate.isoDates).exec noCalls takenOver = some t ∧
    (∃ y, (confirm IsoDate.isoDates (some 1785233399999) t.service "slot-1" "GRENTER2" "b").2 = .ok y) ∧
    ∃ e, (reserve IsoDate.isoDates (some 1785233399999) (some 1785233399999) t.service "slot-1"
      "GRENTER1").2 = .error e := by
  obtain ⟨t, hrun, hclock, hlog⟩ : ∃ t ∈ (timed IsoDate.isoDates).exec noCalls takenOver,
      t.clock ≤ 1785233399999 ∧
      t.log = [.reserved "slot-1" "GRENTER2" 1785233100000, .reserved "slot-1" "GRENTER1" 1785232800000] := by
    decide +kernel
  obtain ⟨hconfirm, hexcluded, -⟩ := reservations_exclusive IsoDate.isoDates noCalls t takenOver
    ⟨rfl, rfl⟩ hrun "slot-1" 1785233399999 hclock
  refine ⟨t, hrun, (hconfirm "GRENTER2" "b").mpr ?_, hexcluded "GRENTER2" 1785233100000 ?_ (by decide)
    "GRENTER1" (by decide) _⟩
  · rw [hlog]
    exact ⟨by decide, 1785233100000, by decide, by decide, by decide⟩
  · rw [hlog]
    exact List.mem_cons_self ..

/-- Five minutes after a reservation that was neither renewed nor confirmed a renter can still be
    refused: by the lock of a later reservation, and, at the last instant of a `Date`, because the
    new lock has none. -/
theorem reservations_not_released :
    (∃ t e, (timed IsoDate.isoDates).exec noCalls takenOver = some t ∧
      .reserved "slot-1" "GRENTER1" 1785232800000 ∈ t.log ∧
      isConfirmed t.log "slot-1" = false ∧ t.clock ≤ 1785233160000 ∧
      1785232800000 + lockTime ≤ 1785233160000 ∧
      (reserve IsoDate.isoDates (some 1785233160000) (some 1785233160000) t.service "slot-1"
        "GRENTER3").2 = .error e) ∧
    ∃ t e, (timed IsoDate.isoDates).exec noCalls (takenOver.take 2) = some t ∧
      t.log = [.reserved "slot-1" "GRENTER1" 1785232800000] ∧ t.clock ≤ 8640000000000000 ∧
      (reserve IsoDate.isoDates (some 8640000000000000) (some 8640000000000000) t.service "slot-1"
        "GRENTER2").2 = .error e := by
  constructor
  · obtain ⟨t, hrun, h⟩ : ∃ t ∈ (timed IsoDate.isoDates).exec noCalls takenOver,
        .reserved "slot-1" "GRENTER1" 1785232800000 ∈ t.log ∧
        isConfirmed t.log "slot-1" = false ∧ t.clock ≤ 1785233160000 ∧
        1785232800000 + lockTime ≤ 1785233160000 ∧
        (reserve IsoDate.isoDates (some 1785233160000) (some 1785233160000) t.service "slot-1"
          "GRENTER3").2 = .error "Viewing slot is temporarily reserved" := by decide +kernel
    exact ⟨t, _, hrun, h⟩
  · obtain ⟨t, hrun, h⟩ : ∃ t ∈ (timed IsoDate.isoDates).exec noCalls (takenOver.take 2),
        t.log = [.reserved "slot-1" "GRENTER1" 1785232800000] ∧ t.clock ≤ 8640000000000000 ∧
        (reserve IsoDate.isoDates (some 8640000000000000) (some 8640000000000000) t.service "slot-1"
          "GRENTER2").2 = .error "Invalid time value" := by decide +kernel
    exact ⟨t, _, hrun, h⟩

end PovDeposit.Api.ViewingSlots
