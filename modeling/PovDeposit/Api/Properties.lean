/-
  What the listing pages offer and what `create` books
  (apps/api/src/property/property.service.ts against
  apps/api/src/booking/booking-workflow.service.ts).

  `list` and `bySlug` select a property's slots by relation: they start after now and no
  booking refers to them. `create` finds its slot by other keys, the slug and host of the
  property and the exact start time. Under the unique constraints of the schema both select
  the same slots (`offered_iff_bookable`), and a slot that was booked is gone from both for
  good, because no step deletes a booking or changes its slot.

  The columns that only the listing pages read are in a `Catalogue`, under the ids of the
  rows; how the database compares districts without regard to case is a parameter.
-/
import PovDeposit.Api.Lifecycle
import PovDeposit.Lib.IsoDate
import Mathlib.Data.List.Sort

namespace PovDeposit.Api

open PovDeposit.Lib PovDeposit.Lib.Outcome
open PovDeposit.Contract (Address)

namespace Properties

structure PropertyImage where
  propertyId : String
  url : String
  altText : String
  position : Int
  deriving DecidableEq, Repr

/-- The other columns of a `Property` row. -/
structure PropertyDetails where
  title : String
  description : String
  district : String
  createdAt : Int
  deriving DecidableEq, Repr

/-- The other columns of a `ViewingSlot` row. -/
structure SlotDetails where
  endsAt : Int
  lockedUntil : Option Int
  deriving DecidableEq, Repr

structure Catalogue where
  property : String → PropertyDetails
  slot : String → SlotDetails
  images : List PropertyImage

/-! ## The queries -/

/-- A slot as the pages show it. -/
structure SlotView where
  id : String
  startsAt : Int
  endsAt : Int
  lockedUntil : Option Int
  deriving DecidableEq, Repr

/-- A property as the pages show it. -/
structure PropertyView where
  id : String
  slug : String
  title : String
  description : String
  district : String
  host : Address
  /-- url and alternative text, in order of position -/
  images : List (String × String)
  slots : List SlotView
  deriving DecidableEq, Repr

variable (C : Catalogue) (same : String → String → Bool) (db : Db) (now : Int)

/-- `{ startsAt: { gt: new Date() }, booking: null }` -/
def isFree (slot : ViewingSlot) : Bool :=
  now < slot.startsAt && !db.rows.any fun r => r.slotId = slot.id

def slotView (slot : ViewingSlot) : SlotView where
  id := slot.id
  startsAt := slot.startsAt
  endsAt := (C.slot slot.id).endsAt
  lockedUntil := (C.slot slot.id).lockedUntil

/-- The `select` of both queries. -/
def view (p : Property) : PropertyView where
  id := p.id
  slug := p.slug
  title := (C.property p.id).title
  description := (C.property p.id).description
  district := (C.property p.id).district
  host := p.host
  images := ((C.images.filter fun i => i.propertyId = p.id).insertionSort
    fun i j => i.position ≤ j.position).map fun i => (i.url, i.altText)
  slots := ((db.slots.filter fun s => s.propertyId = p.id && isFree db now s).insertionSort
    fun s t => s.startsAt ≤ t.startsAt).map (slotView C)

/-- The `where` clause for the district; an empty one does not filter. -/
def inDistrict (district : Option String) (p : Property) : Bool :=
  district.all fun d => d = "" || same (C.property p.id).district d

def list (district : Option String) : List PropertyView :=
  ((db.properties.filter fun p => p.active && inDistrict C same district p).insertionSort
    fun p q => (C.property q.id).createdAt ≤ (C.property p.id).createdAt).map (view C db now)

def bySlug (slug : String) : Except String PropertyView :=
  match db.properties.find? fun p => p.slug = slug && p.active with
  | some p => .ok (view C db now p)
  | none => .error "Property not found"

/-- The answer shows the slot under the property. -/
def PropertyView.Shows (v : PropertyView) (p : Property) (s : ViewingSlot) : Prop :=
  v.id = p.id ∧ ∃ w ∈ v.slots, w.id = s.id

/-! ## The unique constraints -/

/-- `id` and `slug` of a property, `id` and `(propertyId, startsAt)` of a slot. -/
structure Unique : Prop where
  propertyId : ∀ p ∈ db.properties, ∀ q ∈ db.properties, p.id = q.id → p = q
  slug : ∀ p ∈ db.properties, ∀ q ∈ db.properties, p.slug = q.slug → p = q
  slotId : ∀ s ∈ db.slots, ∀ t ∈ db.slots, s.id = t.id → s = t
  slotTime : ∀ s ∈ db.slots, ∀ t ∈ db.slots, s.propertyId = t.propertyId →
    s.startsAt = t.startsAt → s = t

/-- What a search for the only hit finds. -/
theorem find?_of_unique {α : Type} {l : List α} {f : α → Bool} {x : α} (hx : x ∈ l)
    (hf : f x = true) (hunique : ∀ y ∈ l, f y = true → y = x) : l.find? f = some x := by
  cases h : l.find? f with
  | none => exact absurd hf (List.find?_eq_none.mp h x hx)
  | some y => rw [hunique y (List.mem_of_find?_eq_some h) (List.find?_some h)]

/-! ## What the pages show -/

variable {C same db now}

theorem mem_view_slots {p : Property} {w : SlotView} :
    w ∈ (view C db now p).slots ↔ ∃ t ∈ db.slots, t.propertyId = p.id ∧ isFree db now t = true ∧
      slotView C t = w := by
  simp [view, and_assoc]

/-- The entry of a property shows exactly its free slots. -/
theorem view_shows_iff (hu : Unique db) {p : Property} {s : ViewingSlot} (hs : s ∈ db.slots)
    (hsp : s.propertyId = p.id) : (view C db now p).Shows p s ↔ isFree db now s = true := by
  constructor
  · rintro ⟨-, w, hw, hid⟩
    obtain ⟨t, ht, -, hfree, rfl⟩ := mem_view_slots.mp hw
    obtain rfl : t = s := hu.slotId t ht s hs hid
    exact hfree
  · intro hfree
    exact ⟨rfl, _, mem_view_slots.mpr ⟨s, hs, hsp, hfree, rfl⟩, rfl⟩

theorem list_shows_iff (hu : Unique db) {p : Property} (hp : p ∈ db.properties) {s : ViewingSlot}
    (hs : s ∈ db.slots) (hsp : s.propertyId = p.id) (district : Option String) :
    (∃ v ∈ list C same db now district, v.Shows p s) ↔
      inDistrict C same district p = true ∧ p.active = true ∧ isFree db now s = true := by
  unfold list
  constructor
  · rintro ⟨v, hv, hshow⟩
    obtain ⟨q, hq, rfl⟩ := List.mem_map.mp hv
    simp only [List.mem_insertionSort, List.mem_filter, Bool.and_eq_true] at hq
    obtain ⟨hmem, hactive, hdistrict⟩ := hq
    obtain rfl : q = p := hu.propertyId q hmem p hp hshow.1
    exact ⟨hdistrict, hactive, (view_shows_iff hu hs hsp).mp hshow⟩
  · rintro ⟨hdistrict, hactive, hfree⟩
    refine ⟨view C db now p, List.mem_map.mpr ⟨p, ?_, rfl⟩, (view_shows_iff hu hs hsp).mpr hfree⟩
    simp only [List.mem_insertionSort, List.mem_filter, Bool.and_eq_true]
    exact ⟨hp, hactive, hdistrict⟩

theorem bySlug_shows_iff (hu : Unique db) {p : Property} (hp : p ∈ db.properties) {s : ViewingSlot}
    (hs : s ∈ db.slots) (hsp : s.propertyId = p.id) :
    (∃ v, bySlug C db now p.slug = .ok v ∧ v.Shows p s) ↔
      p.active = true ∧ isFree db now s = true := by
  unfold bySlug
  constructor
  · rintro ⟨v, hv, hshow⟩
    split at hv
    · rename_i q hq
      cases hv
      have hfound := List.find?_some hq
      simp only [Bool.and_eq_true, decide_eq_true_eq] at hfound
      obtain rfl : q = p := hu.slug q (List.mem_of_find?_eq_some hq) p hp hfound.1
      exact ⟨hfound.2, (view_shows_iff hu hs hsp).mp hshow⟩
    · cases hv
  · rintro ⟨hactive, hfree⟩
    have hfind : db.properties.find? (fun q => q.slug = p.slug && q.active) = some p := by
      refine find?_of_unique hp (by simp [hactive]) fun q hq hmatch => ?_
      simp only [Bool.and_eq_true, decide_eq_true_eq] at hmatch
      exact hu.slug q hq p hp hmatch.1
    rw [hfind]
    exact ⟨_, rfl, (view_shows_iff hu hs hsp).mpr hfree⟩

/-! ## What `create` books -/

/-- The row `create` stores. -/
def bookingRow (uuid onChain : String) (input : Workflow.CreateBooking) (p : Property)
    (s : ViewingSlot) (visitTime : Int) : BookingRow where
  id := uuid
  onChainBookingId := onChain
  propertyId := p.id
  slotId := s.id
  renter := input.renter
  host := p.host
  depositAmount := input.depositAmount
  asset := "native"
  visitTime := visitTime
  evidenceHash := input.evidenceHash
  checkInProofHash := none
  status := .pendingFunding
  version := 0

/-- The tables after `create` stored a row. -/
def booked (network : String) (db : Db) (row : BookingRow) : Db :=
  { db with
    wallets := db.wallets.insert row.renter network
    bookings := db.bookings.insert row.id row
    history := db.history ++ [⟨row.id, none, .pendingFunding, row.renter, none⟩] }

/-- What a request has to say for itself, whatever it is about. -/
structure Valid (R : Runtime) (now : Int) (input : Workflow.CreateBooking) (visitTime : Int) :
    Prop where
  parties : input.renter ≠ input.host
  positive : 0 < input.depositAmount
  bounded : input.depositAmount ≤ 100000000000
  date : R.date input.visitTime = some visitTime
  future : now < visitTime
  hash : isHash input.evidenceHash = true

/-- The property and the slot that the queries of `create` select. -/
structure Selects (db : Db) (input : Workflow.CreateBooking) (visitTime : Int) (p : Property)
    (s : ViewingSlot) : Prop where
  property : db.properties.find? (fun q => q.slug = input.listingId && q.active &&
    q.host = input.host) = some p
  slot : db.slots.find? (fun t => t.propertyId = p.id && t.startsAt = visitTime &&
    !db.rows.any fun r => r.slotId = t.id) = some s

/-- The ids of a new row are not in use. -/
structure Unused (db : Db) (row : BookingRow) : Prop where
  id : db.bookings.lookup row.id = none
  others : ∀ r ∈ db.rows, r.onChainBookingId ≠ row.onChainBookingId ∧ r.slotId ≠ row.slotId

variable {R : Runtime} {network uuid : String} {input : Workflow.CreateBooking}

theorem createTransaction_eq_ok {onChain : String} {visitTime : Int} {r : Db × Workflow.Booking} :
    Workflow.createTransaction R network db uuid onChain input visitTime = .ok r ↔
      ∃ p s, Selects db input visitTime p s ∧ R.storable input.renter = true ∧
        Unused db (bookingRow uuid onChain input p s visitTime) ∧
        r = (booked network db (bookingRow uuid onChain input p s visitTime),
          Workflow.load (booked network db (bookingRow uuid onChain input p s visitTime))
            (bookingRow uuid onChain input p s visitTime)) := by
  unfold Workflow.createTransaction
  constructor
  · intro h
    simp only at h
    split at h
    · rename_i p s hp hs
      rw [hp] at hs
      obtain ⟨htext, h⟩ := guard_eq_ok.mp h
      obtain ⟨db₁, hinsert, h⟩ := bind_eq_ok.mp h
      obtain ⟨hfresh, hunique, rfl⟩ := insertBooking_eq_ok.mp hinsert
      exact ⟨p, s, ⟨hp, hs⟩, not_not.mp htext, ⟨hfresh, hunique⟩, (pure_eq_ok.mp h).symm⟩
    · cases h
  · rintro ⟨p, s, hsel, htext, hunused, rfl⟩
    simp only [hsel.property, hsel.slot, Option.bind_some]
    refine guard_eq_ok.mpr ⟨not_not.mpr htext, bind_eq_ok.mpr
      ⟨_, insertBooking_eq_ok.mpr ⟨hunused.id, hunused.others, rfl⟩, ?_⟩⟩
    rfl

theorem create_eq_ok {r : Db × Workflow.Booking} :
    Workflow.create R network db now uuid input = .ok r ↔
      ∃ onChain visitTime, onChainBookingId uuid = some onChain ∧ Valid R now input visitTime ∧
        Workflow.createTransaction R network db uuid onChain input visitTime = .ok r := by
  unfold Workflow.create
  simp only [guard_eq_ok, not_or, not_not, Int.not_le, Int.not_lt]
  constructor
  · rintro ⟨hparties, ⟨hpos, hmax⟩, hfuture, hhash, h⟩
    split at h
    · rename_i onChain visitTime honChain hdate
      have hlater : now < visitTime := by simpa [hdate] using hfuture
      exact ⟨onChain, visitTime, honChain, ⟨hparties, hpos, hmax, hdate, hlater, hhash⟩, h⟩
    · cases h
    · cases h
  · rintro ⟨onChain, visitTime, honChain, hvalid, h⟩
    refine ⟨hvalid.parties, ⟨hvalid.positive, hvalid.bounded⟩, ?_, hvalid.hash, ?_⟩
    · simpa [hvalid.date] using hvalid.future
    · simp only [honChain, hvalid.date]
      exact h

/-- For a request on property `p` at the start of slot `s`, the queries select `p` and `s` or
    nothing. -/
theorem selects_iff (hu : Unique db) {p : Property} (hp : p ∈ db.properties) {s : ViewingSlot}
    (hs : s ∈ db.slots) (hsp : s.propertyId = p.id) (hlisting : input.listingId = p.slug)
    (hhost : input.host = p.host) {q : Property} {t : ViewingSlot} :
    Selects db input s.startsAt q t ↔
      q = p ∧ t = s ∧ p.active = true ∧ ¬ (db.rows.any fun r => r.slotId = s.id) = true := by
  constructor
  · rintro ⟨hproperty, hslot⟩
    have hq := List.find?_some hproperty
    simp only [Bool.and_eq_true, decide_eq_true_eq] at hq
    obtain rfl : q = p := by
      refine hu.slug q (List.mem_of_find?_eq_some hproperty) p hp ?_
      rw [hq.1.1, hlisting]
    have ht := List.find?_some hslot
    simp only [Bool.and_eq_true, decide_eq_true_eq, Bool.not_eq_true'] at ht
    obtain rfl : t = s := by
      refine hu.slotTime t (List.mem_of_find?_eq_some hslot) s hs ?_ ht.1.2
      rw [ht.1.1, hsp]
    exact ⟨rfl, rfl, hq.1.2, by simp [ht.2]⟩
  · rintro ⟨rfl, rfl, hactive, hnone⟩
    refine ⟨find?_of_unique hp ?_ fun y hy hmatch => ?_, find?_of_unique hs ?_ fun y hy hmatch => ?_⟩
    · simp [hactive, hlisting, hhost]
    · simp only [Bool.and_eq_true, decide_eq_true_eq] at hmatch
      exact hu.slug y hy q hp (hmatch.1.1.trans hlisting)
    · simpa [hsp] using hnone
    · simp only [Bool.and_eq_true, decide_eq_true_eq] at hmatch
      exact hu.slotTime y hy t hs (hmatch.1.1.trans hsp.symm) hmatch.1.2

/-- Some booking refers to the slot. -/
def Taken (db : Db) (s : ViewingSlot) : Prop := ∃ r ∈ db.rows, r.slotId = s.id

theorem isFree_iff {s : ViewingSlot} :
    isFree db now s = true ↔ now < s.startsAt ∧ ¬ Taken db s := by
  simp [isFree, Taken]

/-- A request for the start of slot `s` of `p` that is accepted finds `p` active and `s` free,
    and takes `s`. -/
theorem create_selects (hu : Unique db) {p : Property} (hp : p ∈ db.properties) {s : ViewingSlot}
    (hs : s ∈ db.slots) (hsp : s.propertyId = p.id) (hlisting : input.listingId = p.slug)
    (hdate : R.date input.visitTime = some s.startsAt) {r : Db × Workflow.Booking}
    (h : Workflow.create R network db now uuid input = .ok r) :
    p.active = true ∧ isFree db now s = true ∧ Taken r.1 s := by
  obtain ⟨onChain, visitTime, -, hvalid, htransaction⟩ := create_eq_ok.mp h
  obtain rfl : s.startsAt = visitTime := Option.some.inj (hdate.symm.trans hvalid.date)
  obtain ⟨q, t, hsel, -, -, rfl⟩ := createTransaction_eq_ok.mp htransaction
  have hq := List.find?_some hsel.property
  simp only [Bool.and_eq_true, decide_eq_true_eq] at hq
  obtain rfl : p = q := hu.slug p hp q (List.mem_of_find?_eq_some hsel.property)
    (hlisting.symm.trans hq.1.1.symm)
  obtain ⟨-, rfl, hactive, hnone⟩ := (selects_iff hu hp hs hsp hlisting hq.2.symm).mp hsel
  refine ⟨hactive, isFree_iff.mpr ⟨hvalid.future, ?_⟩, ?_⟩
  · rintro ⟨x, hx, hslot⟩
    exact hnone (List.any_eq_true.mpr ⟨x, hx, decide_eq_true hslot⟩)
  · exact ⟨bookingRow uuid onChain input p t t.startsAt,
      mem_rows.mpr ⟨uuid, AList.lookup_insert _⟩, rfl⟩

/-- `create` succeeds and stores a booking on slot `s`, with the host of `p` and the start of
    `s`. -/
def Books (R : Runtime) (network : String) (db : Db) (now : Int) (uuid : String)
    (input : Workflow.CreateBooking) (p : Property) (s : ViewingSlot) : Prop :=
  ∃ r row, Workflow.create R network db now uuid input = .ok r ∧
    r.1.bookings.lookup uuid = some row ∧ row.propertyId = p.id ∧ row.slotId = s.id ∧
    row.host = p.host ∧ row.visitTime = s.startsAt

/-- A request by a renter for slot `s` of `p`, with everything the slot has no say in. -/
structure Asks (R : Runtime) (input : Workflow.CreateBooking) (p : Property) (s : ViewingSlot) :
    Prop where
  listing : input.listingId = p.slug
  host : input.host = p.host
  visitTime : input.visitTime = IsoDate.toISOString s.startsAt
  date : R.date (IsoDate.toISOString s.startsAt) = some s.startsAt
  renter : input.renter ≠ p.host
  text : R.storable input.renter = true
  positive : 0 < input.depositAmount
  bounded : input.depositAmount ≤ 100000000000
  hash : isHash input.evidenceHash = true

/-- Such a request is accepted exactly if the property is active and the slot is free. -/
theorem books_iff (hu : Unique db) {p : Property} (hp : p ∈ db.properties) {s : ViewingSlot}
    (hs : s ∈ db.slots) (hsp : s.propertyId = p.id) (hasks : Asks R input p s) {onChain : String}
    (honChain : onChainBookingId uuid = some onChain) (hid : db.bookings.lookup uuid = none)
    (hids : ∀ r ∈ db.rows, r.onChainBookingId ≠ onChain) :
    Books R network db now uuid input p s ↔ p.active = true ∧ isFree db now s = true := by
  have hdate : R.date input.visitTime = some s.startsAt := by rw [hasks.visitTime, hasks.date]
  constructor
  · rintro ⟨r, row, hcreate, -⟩
    obtain ⟨hactive, hfree, -⟩ := create_selects hu hp hs hsp hasks.listing hdate hcreate
    exact ⟨hactive, hfree⟩
  · rintro ⟨hactive, hfree⟩
    obtain ⟨hfuture, hnone⟩ := isFree_iff.mp hfree
    have hvalid : Valid R now input s.startsAt :=
      { parties := by rw [hasks.host]; exact hasks.renter
        positive := hasks.positive
        bounded := hasks.bounded
        date := hdate
        future := hfuture
        hash := hasks.hash }
    have hsel : Selects db input s.startsAt p s := by
      refine (selects_iff hu hp hs hsp hasks.listing hasks.host).mpr ⟨rfl, rfl, hactive, ?_⟩
      simpa [Taken] using hnone
    have hunused : Unused db (bookingRow uuid onChain input p s s.startsAt) :=
      ⟨hid, fun r hr => ⟨hids r hr, fun hslot => hnone ⟨r, hr, hslot⟩⟩⟩
    have htransaction :
        Workflow.createTransaction R network db uuid onChain input s.startsAt = .ok _ :=
      createTransaction_eq_ok.mpr ⟨p, s, hsel, hasks.text, hunused, rfl⟩
    exact ⟨_, bookingRow uuid onChain input p s s.startsAt,
      create_eq_ok.mpr ⟨onChain, _, honChain, hvalid, htransaction⟩, AList.lookup_insert _, rfl,
      rfl, rfl, rfl⟩

/-! ## A booked slot stays booked -/

/-- No booking refers to a new booking's slot. -/
theorem create_slot_not_taken {r : Db × Workflow.Booking} {s : ViewingSlot} (h : Taken db s)
    (hcreate : Workflow.create R network db now uuid input = .ok r) {row : BookingRow}
    (hrow : r.1.bookings.lookup uuid = some row) : row.slotId ≠ s.id := by
  obtain ⟨onChain, visitTime, -, -, htransaction⟩ := create_eq_ok.mp hcreate
  obtain ⟨p, t, -, -, hunused, rfl⟩ := createTransaction_eq_ok.mp htransaction
  obtain rfl : bookingRow uuid onChain input p t visitTime = row :=
    Option.some.inj ((AList.lookup_insert _).symm.trans hrow)
  obtain ⟨x, hx, hslot⟩ := h
  rw [← hslot]
  exact (hunused.others x hx).2.symm

/-- What the workflow leaves of the listings and of the bookings' slots: everything. -/
structure Stays (db db' : Db) : Prop where
  properties : db'.properties = db.properties
  slots : db'.slots = db.slots
  rows : Kept (fun r r' => r'.slotId = r.slotId) db.bookings db'.bookings

theorem Stays.taken {db' : Db} (h : Stays db db') {s : ViewingSlot} (ht : Taken db s) :
    Taken db' s := by
  obtain ⟨r, hr, hslot⟩ := ht
  obtain ⟨id, hid⟩ := mem_rows.mp hr
  obtain ⟨r', hid', hkept⟩ := h.rows id r hid
  exact ⟨r', mem_rows.mpr ⟨id, hid'⟩, hkept.trans hslot⟩

theorem stays_refl (db : Db) : Stays db db :=
  ⟨rfl, rfl, kept_refl (r := fun r r' : BookingRow => r'.slotId = r.slotId) (fun _ => rfl) _⟩

theorem Stays.trans {db₁ db₂ db₃ : Db} (h : Stays db₁ db₂) (h' : Stays db₂ db₃) :
    Stays db₁ db₃ := by
  refine ⟨h'.properties.trans h.properties, h'.slots.trans h.slots, fun id r hr => ?_⟩
  obtain ⟨r', hr', hslot⟩ := h.rows id r hr
  obtain ⟨r'', hr'', hslot'⟩ := h'.rows id r' hr'
  exact ⟨r'', hr'', hslot'.trans hslot⟩

theorem stays_create {r : Db × Workflow.Booking}
    (h : Workflow.create R network db now uuid input = .ok r) : Stays db r.1 := by
  obtain ⟨onChain, visitTime, -, -, htransaction⟩ := create_eq_ok.mp h
  obtain ⟨p, s, -, -, hunused, rfl⟩ := createTransaction_eq_ok.mp htransaction
  exact ⟨rfl, rfl, kept_insert_new (fun _ => rfl) hunused.id⟩

theorem stays_update (op : Workflow.Operation) {row : BookingRow}
    (hrow : db.bookings.lookup op.id = some row) :
    Stays db { db with bookings := db.bookings.insert op.id (op.apply row) } :=
  ⟨rfl, rfl, kept_insert (fun _ => rfl) hrow rfl⟩

theorem stays_commit (op : Workflow.Operation) (b : Workflow.Booking) (kind : TransactionKind)
    (v : Workflow.Verification) : Stays db (op.commit b kind v db) := by
  unfold Workflow.Operation.commit Db.insertHistory
  rcases updateMany_cases db op.id op.admits op.apply with ⟨row, hrow, -, h⟩ | h
  · rw [h]
    exact ⟨rfl, rfl, (stays_update op hrow).rows⟩
  · rw [h]
    exact ⟨rfl, rfl, (stays_refl db).rows⟩

theorem stays_step (σ : Workflow.State) (a : Workflow.Action) (σ' : Workflow.State)
    (h : Workflow.step R network σ a = some σ') : Stays σ.db σ'.db := by
  cases a with
  | create now uuid input =>
    obtain ⟨-, ⟨db, b, hcreate, rfl⟩ | ⟨e, -, rfl⟩⟩ := Workflow.create_step h
    · exact stays_create hcreate
    · exact stays_refl _
  | others wallets challenges =>
    cases h
    exact ⟨rfl, rfl, (stays_refl σ.db).rows⟩
  | advance i =>
    cases Workflow.moves_of_step h with
    | quiet => exact stays_refl _
    | update _ p b row _ _ _ _ hrow => exact stays_update p.op hrow
    | record => exact ⟨rfl, rfl, (stays_refl σ.db).rows⟩
    | commit => exact stays_commit _ _ _ _
  | _ => cases Workflow.moves_of_step h <;> exact stays_refl _

theorem stays_exec {σ σ' : Workflow.State} {as : List Workflow.Action}
    (h : (Workflow.machine R network).exec σ as = some σ') : Stays σ.db σ'.db :=
  (Workflow.machine R network).exec_relates (I := fun _ => True)
    (R := fun t t' => Stays t.db t'.db) (fun _ _ _ _ _ => trivial) (fun t => stays_refl t.db)
    (fun _ _ _ => Stays.trans) (fun t a t' _ => stays_step t a t') h trivial

theorem Unique.stays (hu : Unique db) {db' : Db} (h : Stays db db') : Unique db' := by
  obtain ⟨hproperties, hslots, -⟩ := h
  exact ⟨hproperties ▸ hu.propertyId, hproperties ▸ hu.slug, hslots ▸ hu.slotId,
    hslots ▸ hu.slotTime⟩

/-- **Offered slots are exactly the bookable slots.** Under the unique constraints, a slot `s`
    of a property `p` is shown by `list` (without a district, or with one that selects `p`)
    and by `bySlug` exactly if `create` accepts a renter's request for it at the same
    instant, under ids that are not in use. After that, in every state of every run, neither
    query shows it and no request for it is accepted. -/
theorem offered_iff_bookable (R : Runtime) (network : String) (C : Catalogue)
    (same : String → String → Bool) (σ : Workflow.State) (hu : Unique σ.db) (now : Int)
    (p : Property) (hp : p ∈ σ.db.properties) (s : ViewingSlot) (hs : s ∈ σ.db.slots)
    (hsp : s.propertyId = p.id) (uuid onChain : String)
    (honChain : onChainBookingId uuid = some onChain) (hid : σ.db.bookings.lookup uuid = none)
    (hids : ∀ r ∈ σ.db.rows, r.onChainBookingId ≠ onChain) (input : Workflow.CreateBooking)
    (hasks : Asks R input p s) :
    (∀ district, inDistrict C same district p = true →
      ((∃ v ∈ list C same σ.db now district, v.Shows p s) ↔
        Books R network σ.db now uuid input p s)) ∧
    ((∃ v, bySlug C σ.db now p.slug = .ok v ∧ v.Shows p s) ↔
      Books R network σ.db now uuid input p s) ∧
    ∀ r, Workflow.create R network σ.db now uuid input = .ok r →
      ∀ as σ', (Workflow.machine R network).exec { σ with db := r.1 } as = some σ' →
        ∀ later, (∀ district, ¬ ∃ v ∈ list C same σ'.db later district, v.Shows p s) ∧
          (¬ ∃ v, bySlug C σ'.db later p.slug = .ok v ∧ v.Shows p s) ∧
          ∀ uuid' input' r', Workflow.create R network σ'.db later uuid' input' = .ok r' →
            ¬ (input'.listingId = p.slug ∧ R.date input'.visitTime = some s.startsAt) ∧
            ∀ row, r'.1.bookings.lookup uuid' = some row → row.slotId ≠ s.id := by
  have hbooks : Books R network σ.db now uuid input p s ↔
      p.active = true ∧ isFree σ.db now s = true :=
    books_iff hu hp hs hsp hasks honChain hid hids
  refine ⟨fun district hdistrict => ?_, ?_, fun r hcreate as σ' hrun later => ?_⟩
  · rw [list_shows_iff hu hp hs hsp, hbooks]
    simp [hdistrict]
  · rw [bySlug_shows_iff hu hp hs hsp, hbooks]
  · have hrun' : Stays r.1 σ'.db := stays_exec hrun
    have hstays : Stays σ.db σ'.db := (stays_create hcreate).trans hrun'
    have hdate : R.date input.visitTime = some s.startsAt := by rw [hasks.visitTime, hasks.date]
    obtain ⟨-, -, htaken⟩ := create_selects hu hp hs hsp hasks.listing hdate hcreate
    have hu' := hu.stays hstays
    have hp' : p ∈ σ'.db.properties := by rw [hstays.properties]; exact hp
    have hs' : s ∈ σ'.db.slots := by rw [hstays.slots]; exact hs
    have hbusy : ¬ isFree σ'.db later s = true :=
      fun hfree => (isFree_iff.mp hfree).2 (hrun'.taken htaken)
    refine ⟨fun district hshown => ?_, fun hshown => ?_, fun uuid' input' r' hcreate' =>
      ⟨?_, fun row hrow => create_slot_not_taken (hrun'.taken htaken) hcreate' hrow⟩⟩
    · exact hbusy ((list_shows_iff hu' hp' hs' hsp district).mp hshown).2.2
    · exact hbusy ((bySlug_shows_iff hu' hp' hs' hsp).mp hshown).2
    · rintro ⟨hlisting, hdate'⟩
      exact hbusy (create_selects hu' hp' hs' hsp hlisting hdate' hcreate').2.1

/-! ## A sample -/

def sampleCatalogue : Catalogue where
  property _ :=
    { title := "Loft"
      description := "A loft near the park"
      district := "Phú Nhuận"
      createdAt := 1890000000000 }
  slot _ := { endsAt := 1893493800000, lockedUntil := none }
  images := [⟨"property", "https://images.example/loft.jpg", "The living room", 0⟩]

theorem unique_listed : Unique Workflow.listed.db := by
  constructor <;> simp [Workflow.listed]

/-- The request of the sample booking. -/
def sampleRequest : Workflow.CreateBooking where
  listingId := "loft"
  renter := "renter"
  host := "host"
  depositAmount := 1000000
  visitTime := "2030-01-01T10:00:00.000Z"
  evidenceHash := "6c86c6aac5fb24bcf5d9939cb7d7d5645ce39418f449e03b262dd4fa14b4b92b"

theorem offered_iff_bookable_sample :
    Books Workflow.sampleRuntime "TESTNET" Workflow.listed.db 1892808000000
        "3b241101-e2bb-4255-8caf-4136c566a962" sampleRequest ⟨"property", "loft", "host", true⟩
        ⟨"slot", "property", 1893492000000⟩ ∧
      ∀ r, Workflow.create Workflow.sampleRuntime "TESTNET" Workflow.listed.db 1892808000000
          "3b241101-e2bb-4255-8caf-4136c566a962" sampleRequest = .ok r →
        ¬ ∃ v, bySlug sampleCatalogue r.1 1892808000000 "loft" = .ok v ∧
          v.Shows ⟨"property", "loft", "host", true⟩ ⟨"slot", "property", 1893492000000⟩ := by
  have hasks : Asks Workflow.sampleRuntime sampleRequest ⟨"property", "loft", "host", true⟩
      ⟨"slot", "property", 1893492000000⟩ := by
    constructor <;> decide
  obtain ⟨-, hdetail, hafter⟩ := offered_iff_bookable Workflow.sampleRuntime "TESTNET"
    sampleCatalogue (fun a b => a = b) Workflow.listed unique_listed 1892808000000
    ⟨"property", "loft", "host", true⟩ List.mem_cons_self ⟨"slot", "property", 1893492000000⟩
    List.mem_cons_self rfl "3b241101-e2bb-4255-8caf-4136c566a962" "4261549847195894357" (by decide)
    rfl (fun r hr => nomatch hr) sampleRequest hasks
  refine ⟨hdetail.mp ⟨_, rfl, rfl, _, List.mem_cons_self, rfl⟩, fun r hr => ?_⟩
  exact (hafter r hr [] _ rfl 1892808000000).2.1

end Properties

end PovDeposit.Api
