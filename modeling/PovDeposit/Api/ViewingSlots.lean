/-
  `ViewingSlotService` (apps/api/src/property/viewing-slot.service.ts).

  The service keeps its slots in a map in memory, with their times as text. A slot is an
  object that `reserve` and `confirm` change in place, so what they have written when they
  throw stays written: each operation returns the state that it leaves beside its result.
  Each reading of the clock is an argument of the call. A reading, like a date read from text,
  may be invalid, and then every comparison with it is false.

  `create` looks for one slot of the property that overlaps the new one. With every stored
  window valid, this keeps the windows of a property pairwise disjoint
  (`slots_never_overlap`).
-/
import PovDeposit.Lib.IsoDate
import PovDeposit.Lib.KeyedSum
import PovDeposit.Lib.Machine
import PovDeposit.Lib.Outcome
import Mathlib.Data.Int.ConditionallyCompleteOrder
import Mathlib.Order.CompletePartialOrder
import Mathlib.Order.Interval.Set.Disjoint

namespace PovDeposit.Api.ViewingSlots

open PovDeposit.Lib PovDeposit.Lib.Outcome
open PovDeposit.Lib.IsoDate (Dates before before_some notAfter notAfter_some isoText ofTime
  toISOString)

structure ViewingSlot where
  id : String
  propertyId : String
  host : String
  startsAt : String
  endsAt : String
  reservedBy : Option String
  lockedUntil : Option String
  bookingId : Option String
  deriving DecidableEq, Repr

structure State where
  slots : AList fun _ : String => ViewingSlot

def State.values (s : State) : List ViewingSlot := s.slots.entries.map Sigma.snd

/-- `this.slots.set`, and the writes to a slot of the map -/
def State.put (s : State) (id : String) (slot : ViewingSlot) : State := ⟨s.slots.insert id slot⟩

/-- A string that is there and not empty. -/
def truthy (text : Option String) : Bool := text.any fun s => s ≠ ""

section Service

variable (D : Dates)

/-- The predicate of `some` in `create`. -/
def overlaps (propertyId : String) (start stop : Option Int) (slot : ViewingSlot) : Bool :=
  slot.propertyId = propertyId && before start (D.date slot.endsAt) &&
    before (D.date slot.startsAt) stop

def create (now : Option Int) (uuid : String) (s : State)
    (propertyId host startsAt endsAt : String) : State × Except String ViewingSlot :=
  let start := D.date startsAt
  let stop := D.date endsAt
  if notAfter start now || notAfter stop start then (s, .error "Invalid viewing slot window")
  else if s.values.any (overlaps D propertyId start stop) then
    (s, .error "Viewing slot overlaps an existing slot")
  else
    let slot : Except String ViewingSlot := do
      let startsAt ← isoText start
      let endsAt ← isoText stop
      return ⟨uuid, propertyId, host, startsAt, endsAt, none, none, none⟩
    match slot with
    | .error e => (s, .error e)
    | .ok slot => (s.put slot.id slot, .ok slot)

/-- `reserve`; `now` is read for the comparison and `now'` for the new lock. -/
def reserve (now now' : Option Int) (s : State) (id renter : String) :
    State × Except String ViewingSlot :=
  match s.slots.lookup id with
  | none => (s, .error "Viewing slot not found")
  | some slot =>
    if truthy slot.bookingId then (s, .error "Viewing slot is already booked")
    else if truthy slot.lockedUntil && before now (slot.lockedUntil.bind D.date) &&
        slot.reservedBy ≠ some renter then
      (s, .error "Viewing slot is temporarily reserved")
    else
      let slot := { slot with reservedBy := some renter }
      match isoText (now'.bind fun t => ofTime (t + 5 * 60000)) with
      | .error e => (s.put id slot, .error e)
      | .ok text =>
        let slot := { slot with lockedUntil := some text }
        (s.put id slot, .ok slot)

def confirm (now : Option Int) (s : State) (id renter bookingId : String) :
    State × Except String ViewingSlot :=
  match s.slots.lookup id with
  | none => (s, .error "Viewing slot not found")
  | some slot =>
    if truthy slot.bookingId then (s, .error "Viewing slot is already booked")
    else if slot.reservedBy ≠ some renter || !truthy slot.lockedUntil ||
        notAfter (slot.lockedUntil.bind D.date) now then
      (s, .error "Viewing slot reservation expired")
    else
      let slot := { slot with bookingId := some bookingId, lockedUntil := none }
      (s.put id slot, .ok slot)

inductive Action where
  | create (now : Option Int) (uuid propertyId host startsAt endsAt : String)
  | reserve (now now' : Option Int) (id renter : String)
  | confirm (now : Option Int) (id renter bookingId : String)
  deriving DecidableEq, Repr

/-- One call; `randomUUID` returns an id that is not in use. -/
def step (s : State) : Action → Option State
  | .create now uuid propertyId host startsAt endsAt =>
      if uuid ∈ s.slots then none
      else some (create D now uuid s propertyId host startsAt endsAt).1
  | .reserve now now' id renter => some (reserve D now now' s id renter).1
  | .confirm now id renter bookingId => some (confirm D now s id renter bookingId).1

def Fresh (s : State) : Prop := s.slots = ∅

def machine : Machine State Action where
  init := Fresh
  step := step D

end Service

/-! ## What a call does -/

@[simp] theorem lookup_put (s : State) (id j : String) (slot : ViewingSlot) :
    (s.put id slot).slots.lookup j = if j = id then some slot else s.slots.lookup j :=
  lookup_insert _ _ _ _

theorem mem_values {s : State} {slot : ViewingSlot} :
    slot ∈ s.values ↔ ∃ id, s.slots.lookup id = some slot := by
  unfold State.values
  rw [List.mem_map]
  constructor
  · rintro ⟨e, he, rfl⟩
    exact ⟨e.1, List.mem_dlookup s.slots.nodupKeys he⟩
  · rintro ⟨id, h⟩
    exact ⟨⟨id, slot⟩, List.of_mem_dlookup h, rfl⟩

/-- The slot that `create` stores. -/
def newSlot (uuid propertyId host : String) (a b : Int) : ViewingSlot :=
  ⟨uuid, propertyId, host, toISOString a, toISOString b, none, none, none⟩

section Calls

variable (D : Dates) (s : State)

/-- `create` throws and stores nothing, or stores a window that overlaps no other. -/
theorem create_cases (now : Option Int) (uuid propertyId host startsAt endsAt : String) :
    (∃ e, create D now uuid s propertyId host startsAt endsAt = (s, .error e)) ∨
    ∃ a b, D.date startsAt = some a ∧ D.date endsAt = some b ∧ a < b ∧
      (∀ slot ∈ s.values, overlaps D propertyId (some a) (some b) slot = false) ∧
      create D now uuid s propertyId host startsAt endsAt =
        (s.put uuid (newSlot uuid propertyId host a b), .ok (newSlot uuid propertyId host a b)) := by
  unfold create
  by_cases hwindow : (notAfter (D.date startsAt) now || notAfter (D.date endsAt) (D.date startsAt)) = true
  · exact .inl ⟨_, if_pos hwindow⟩
  by_cases hoverlap : s.values.any (overlaps D propertyId (D.date startsAt) (D.date endsAt)) = true
  · refine .inl ⟨_, (if_neg hwindow).trans (if_pos hoverlap)⟩
  -- an invalid date passes both tests, and has no text
  cases ha : D.date startsAt with
  | none =>
    rw [ha] at hwindow hoverlap
    exact .inl ⟨_, (if_neg hwindow).trans (if_neg hoverlap)⟩
  | some a =>
    cases hb : D.date endsAt with
    | none =>
      rw [ha, hb] at hwindow hoverlap
      exact .inl ⟨_, (if_neg hwindow).trans (if_neg hoverlap)⟩
    | some b =>
      rw [ha, hb] at hwindow hoverlap
      refine .inr ⟨a, b, rfl, rfl, ?_, ?_, (if_neg hwindow).trans (if_neg hoverlap)⟩
      · simp only [Bool.or_eq_true, not_or, notAfter_some, decide_eq_true_eq] at hwindow
        omega
      · simpa using hoverlap

/-- A valid window in the future that overlaps no slot of its property is stored. -/
theorem create_stores {startsAt endsAt propertyId : String} {a b : Int} {now : Option Int}
    (ha : D.date startsAt = some a) (hb : D.date endsAt = some b) (hfuture : ∀ t ∈ now, t < a)
    (hab : a < b) (hfree : ∀ slot ∈ s.values, overlaps D propertyId (some a) (some b) slot = false)
    (uuid host : String) : create D now uuid s propertyId host startsAt endsAt =
      (s.put uuid (newSlot uuid propertyId host a b), .ok (newSlot uuid propertyId host a b)) := by
  have hwindow : ¬ (notAfter (some a) now || notAfter (some b) (some a)) = true := by
    cases now with
    | none => simpa [notAfter] using hab
    | some t => simpa using ⟨hfuture t rfl, hab⟩
  have hoverlap : ¬ s.values.any (overlaps D propertyId (some a) (some b)) = true := by
    simpa using hfree
  unfold create
  rw [ha, hb]
  exact (if_neg hwindow).trans (if_neg hoverlap)

/-- One slot is another with other marks: who holds it, until when, and its booking. -/
structure ViewingSlot.SameWindow (x y : ViewingSlot) : Prop where
  id : y.id = x.id
  propertyId : y.propertyId = x.propertyId
  startsAt : y.startsAt = x.startsAt
  endsAt : y.endsAt = x.endsAt

/-- `s'` is `s` with at most other marks on slot `id`. -/
def Marked (id : String) (s s' : State) : Prop :=
  s' = s ∨ ∃ x y, s.slots.lookup id = some x ∧ x.SameWindow y ∧ s' = s.put id y

theorem reserve_marked (now now' : Option Int) (id renter : String) :
    Marked id s (reserve D now now' s id renter).1 := by
  unfold reserve
  split
  · exact .inl rfl
  · rename_i slot hslot
    split_ifs
    · exact .inl rfl
    · exact .inl rfl
    · split
      · refine .inr ⟨slot, _, hslot, ?_, rfl⟩
        exact ⟨rfl, rfl, rfl, rfl⟩
      · refine .inr ⟨slot, _, hslot, ?_, rfl⟩
        exact ⟨rfl, rfl, rfl, rfl⟩

theorem confirm_marked (now : Option Int) (id renter bookingId : String) :
    Marked id s (confirm D now s id renter bookingId).1 := by
  unfold confirm
  split
  · exact .inl rfl
  · rename_i slot hslot
    split_ifs
    · exact .inl rfl
    · exact .inl rfl
    · refine .inr ⟨slot, _, hslot, ?_, rfl⟩
      exact ⟨rfl, rfl, rfl, rfl⟩

end Calls

/-! ## Windows that never overlap -/

/-- The instants of a slot. -/
def ViewingSlot.interval (D : Dates) (slot : ViewingSlot) : Set Int :=
  {t | ∃ a ∈ D.date slot.startsAt, ∃ b ∈ D.date slot.endsAt, a ≤ t ∧ t < b}

theorem interval_eq {D : Dates} {slot : ViewingSlot} {a b : Int} (ha : D.date slot.startsAt = some a)
    (hb : D.date slot.endsAt = some b) : slot.interval D = Set.Ico a b := by
  ext t
  simp [ViewingSlot.interval, ha, hb]

/-- The test of `create` is that of disjoint intervals. -/
theorem overlaps_eq_false {D : Dates} {slot : ViewingSlot} {a b c d : Int}
    (hc : D.date slot.startsAt = some c) (hd : D.date slot.endsAt = some d) (hab : a < b) (hcd : c < d) :
    overlaps D slot.propertyId (some a) (some b) slot = false ↔
      Disjoint (Set.Ico a b) (slot.interval D) := by
  rw [interval_eq hc hd, Set.Ico_disjoint_Ico]
  simp only [overlaps, hc, hd, before_some, decide_true, Bool.true_and, Bool.and_eq_false_iff,
    decide_eq_false_iff_not]
  omega

structure Laid (D : Dates) (s : State) : Prop where
  valid : ∀ id slot, s.slots.lookup id = some slot →
    ∃ a b, D.date slot.startsAt = some a ∧ D.date slot.endsAt = some b ∧ a < b
  apart : ∀ i j x y, s.slots.lookup i = some x → s.slots.lookup j = some y → i ≠ j →
    x.propertyId = y.propertyId → Disjoint (x.interval D) (y.interval D)

theorem laid_of_fresh {D : Dates} {s : State} (h : Fresh s) : Laid D s := by
  have hempty : ∀ id slot, s.slots.lookup id ≠ some slot := by
    intro id slot hslot
    rw [h] at hslot
    cases hslot
  exact ⟨fun id slot hslot => absurd hslot (hempty id slot),
    fun i _ x _ hx => absurd hx (hempty i x)⟩

theorem Laid.marked {D : Dates} {s s' : State} (h : Laid D s) {id : String} (hs' : Marked id s s') :
    Laid D s' := by
  rcases hs' with rfl | ⟨x, y, hx, hsame, rfl⟩
  · exact h
  -- each slot of the new state has the window of one that was there
  have hold : ∀ j slot, (s.put id y).slots.lookup j = some slot →
      ∃ old, s.slots.lookup j = some old ∧ old.SameWindow slot := by
    intro j slot hslot
    rw [lookup_put] at hslot
    split_ifs at hslot with hj
    · cases hslot
      exact ⟨x, hj ▸ hx, hsame⟩
    · exact ⟨slot, hslot, rfl, rfl, rfl, rfl⟩
  have hinterval : ∀ {x y : ViewingSlot}, x.SameWindow y → y.interval D = x.interval D := by
    intro x y hxy
    unfold ViewingSlot.interval
    rw [hxy.startsAt, hxy.endsAt]
  refine ⟨fun j slot hslot => ?_, fun i j x y hx hy hne hproperty => ?_⟩
  · obtain ⟨old, hslot', hwindow⟩ := hold j slot hslot
    rw [hwindow.startsAt, hwindow.endsAt]
    exact h.valid j old hslot'
  · obtain ⟨x', hx', hxx⟩ := hold i x hx
    obtain ⟨y', hy', hyy⟩ := hold j y hy
    rw [hxx.propertyId, hyy.propertyId] at hproperty
    rw [hinterval hxx, hinterval hyy]
    exact h.apart i j x' y' hx' hy' hne hproperty

theorem Laid.create {D : Dates} {s : State} (h : Laid D s) {now : Option Int}
    {uuid propertyId host startsAt endsAt : String} :
    Laid D (create D now uuid s propertyId host startsAt endsAt).1 := by
  rcases create_cases D s now uuid propertyId host startsAt endsAt with
    ⟨e, hthrow⟩ | ⟨a, b, ha, hb, hab, hfree, hstore⟩
  · rw [hthrow]
    exact h
  rw [hstore]
  -- the new slot's texts name the instants it was made with
  have hstart : D.date (newSlot uuid propertyId host a b).startsAt = some a := D.iso a (D.valid _ _ ha)
  have hstop : D.date (newSlot uuid propertyId host a b).endsAt = some b := D.iso b (D.valid _ _ hb)
  have hinterval := interval_eq hstart hstop
  have hdisjoint : ∀ j y, s.slots.lookup j = some y → y.propertyId = propertyId →
      Disjoint (Set.Ico a b) (y.interval D) := by
    intro j y hy hproperty
    obtain ⟨c, d, hc, hd, hcd⟩ := h.valid j y hy
    refine (overlaps_eq_false hc hd hab hcd).mp ?_
    rw [hproperty]
    exact hfree y (mem_values.mpr ⟨j, hy⟩)
  constructor
  · intro id slot hslot
    rw [lookup_put] at hslot
    split_ifs at hslot with hid
    · cases hslot
      exact ⟨a, b, hstart, hstop, hab⟩
    · exact h.valid id slot hslot
  · intro i j x y hx hy hne hproperty
    rw [lookup_put] at hx hy
    split_ifs at hx hy with hi hj hj
    · exact absurd (hi.trans hj.symm) hne
    · cases hx
      rw [hinterval]
      exact hdisjoint j y hy hproperty.symm
    · cases hy
      rw [hinterval]
      exact (hdisjoint i x hx hproperty).symm
    · exact h.apart i j x y hx hy hne hproperty

theorem laid_step {D : Dates} (s : State) (a : Action) (s' : State) (h : Laid D s)
    (hstep : step D s a = some s') : Laid D s' := by
  cases a with
  | create now uuid propertyId host startsAt endsAt =>
    simp only [step, Option.ite_none_left_eq_some, Option.some.injEq] at hstep
    obtain ⟨-, rfl⟩ := hstep
    exact h.create
  | reserve now now' id renter =>
    cases hstep
    exact h.marked (reserve_marked D s now now' id renter)
  | confirm now id renter bookingId =>
    cases hstep
    exact h.marked (confirm_marked D s now id renter bookingId)

/-- **Slots of one property never overlap.** In every reachable state each slot is a valid
    window, any two slots of one property are disjoint as half-open intervals, and a `create`
    that throws stores nothing. Conversely `create` succeeds for every valid window that starts
    in the future and is disjoint from every slot of its property. -/
theorem slots_never_overlap (D : Dates) (s₀ s : State) (as : List Action) (h₀ : Fresh s₀)
    (hrun : (machine D).exec s₀ as = some s) :
    (∀ id slot, s.slots.lookup id = some slot →
      ∃ a b, D.date slot.startsAt = some a ∧ D.date slot.endsAt = some b ∧ a < b) ∧
    (∀ i j x y, s.slots.lookup i = some x → s.slots.lookup j = some y → i ≠ j →
      x.propertyId = y.propertyId → Disjoint (x.interval D) (y.interval D)) ∧
    (∀ now uuid propertyId host startsAt endsAt e,
      (create D now uuid s propertyId host startsAt endsAt).2 = .error e →
      (create D now uuid s propertyId host startsAt endsAt).1 = s) ∧
    ∀ now uuid propertyId host startsAt endsAt a b, D.date startsAt = some a →
      D.date endsAt = some b → (∀ t ∈ now, t < a) → a < b →
      (∀ id slot, s.slots.lookup id = some slot → slot.propertyId = propertyId →
        Disjoint (Set.Ico a b) (slot.interval D)) →
      ∃ slot, (create D now uuid s propertyId host startsAt endsAt).2 = .ok slot := by
  have h : Laid D s := (machine D).exec_invariant laid_step hrun (laid_of_fresh h₀)
  refine ⟨h.valid, h.apart, ?_, ?_⟩
  · intro now uuid propertyId host startsAt endsAt e he
    rcases create_cases D s now uuid propertyId host startsAt endsAt with
      ⟨_, hthrow⟩ | ⟨a, b, -, -, -, -, hstore⟩
    · rw [hthrow]
    · rw [hstore] at he
      cases he
  · intro now uuid propertyId host startsAt endsAt a b ha hb hfuture hab hdisjoint
    have hfree : ∀ slot ∈ s.values, overlaps D propertyId (some a) (some b) slot = false := by
      intro slot hslot
      obtain ⟨id, hlookup⟩ := mem_values.mp hslot
      by_cases hproperty : slot.propertyId = propertyId
      · obtain ⟨c, d, hc, hd, hcd⟩ := h.valid id slot hlookup
        rw [← hproperty]
        exact (overlaps_eq_false hc hd hab hcd).mpr (hdisjoint id slot hlookup hproperty)
      · simp [overlaps, hproperty]
    exact ⟨_, by rw [create_stores D s ha hb hfuture hab hfree]⟩

/-- Two windows that touch, a text that is no date, and a reservation. -/
def touchingSlots : List Action :=
  [.create (some 1785232800000) "slot-1" "property-1" "GHOST" "2026-07-29T10:00:00.000Z"
     "2026-07-29T10:30:00.000Z",
   .create (some 1785232800000) "slot-2" "property-1" "GHOST" "2026-07-29T10:30:00.000Z"
     "2026-07-29T11:00:00.000Z",
   .create (some 1785232800000) "slot-3" "property-1" "GHOST" "tomorrow" "2026-07-29T11:30:00.000Z",
   .reserve (some 1785232800000) (some 1785232800001) "slot-2" "GRENTER1"]

theorem slots_never_overlap_touching : ∃ s x y,
    (machine IsoDate.isoDates).exec ⟨∅⟩ touchingSlots = some s ∧ s.values.length = 2 ∧
    s.slots.lookup "slot-1" = some x ∧ s.slots.lookup "slot-2" = some y ∧
    x.propertyId = y.propertyId ∧
    Disjoint (x.interval IsoDate.isoDates) (y.interval IsoDate.isoDates) := by
  obtain ⟨s, hrun, x, hx, y, hy, hlength, hproperty⟩ :
      ∃ s ∈ (machine IsoDate.isoDates).exec ⟨∅⟩ touchingSlots,
      ∃ x ∈ s.slots.lookup "slot-1", ∃ y ∈ s.slots.lookup "slot-2",
        s.values.length = 2 ∧ x.propertyId = y.propertyId := by decide +kernel
  exact ⟨s, x, y, hrun, hlength, hx, hy, hproperty,
    (slots_never_overlap IsoDate.isoDates ⟨∅⟩ s touchingSlots rfl hrun).2.1 _ _ x y hx hy (by decide)
      hproperty⟩

end PovDeposit.Api.ViewingSlots
