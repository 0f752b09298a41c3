/-
  The script that publishes the listing (apps/api/scripts/seed.js), beside the API.

  Nothing else writes `Property` and `ViewingSlot` rows. The script is a list of upserts and no
  transaction: a run may end after any of them, be started again, and run beside another run
  and beside requests, some of which book what is there already. Each upsert looks its row up by
  one unique column that it also creates it with, so the database does it in one statement.

  What the tables hold is always the listing with the slots of the first entries (`Sown`), and
  over such tables an upsert finds what it would write or adds the next entry. So a run that ends
  has published everything (`seeded_listing`), and repeating it does nothing to what was booked.

  The upsert of `HostApplication` is left out, and so is `addressHash`: nobody reads them.
-/
import PovDeposit.Api.Handlers
import PovDeposit.Api.Properties

namespace PovDeposit.Api.Seed

open PovDeposit.Lib PovDeposit.Lib.Outcome
open PovDeposit.Contract (Address)
open Properties (Catalogue PropertyDetails SlotDetails SlotView isFree)

/-- What the loop of the script runs over. -/
structure Entry where
  id : String
  startsAt : String
  endsAt : String
  deriving DecidableEq, Repr

def address : Address := "GB7CDHVP6LBMP3L5BJFXSTOWB4NX7ONPFN4537AFCWCNL7YD2MHSBZJN"

def slug : String := "modern-apartment"

def title : String := "Modern 2-bed apartment"

def description : String := "Mainnet listing for the viewing-deposit flow."

def district : String := "Horizon District"

def entries : List Entry :=
  [⟨"00000000-0000-4000-8000-000000000811", "2030-05-22T08:00:00Z", "2030-05-22T08:30:00Z"⟩,
   ⟨"00000000-0000-4000-8000-000000000812", "2030-05-22T09:00:00Z", "2030-05-22T09:30:00Z"⟩,
   ⟨"00000000-0000-4000-8000-000000000813", "2030-05-23T08:00:00Z", "2030-05-23T08:30:00Z"⟩,
   ⟨"00000000-0000-4000-8000-000000000814", "2030-05-23T09:00:00Z", "2030-05-23T09:30:00Z"⟩,
   ⟨"00000000-0000-4000-8000-000000000815", "2030-05-24T08:00:00Z", "2030-05-24T08:30:00Z"⟩,
   ⟨"00000000-0000-4000-8000-000000000816", "2030-05-24T09:00:00Z", "2030-05-24T09:30:00Z"⟩,
   ⟨"00000000-0000-4000-8000-000000000817", "2030-05-25T08:00:00Z", "2030-05-25T08:30:00Z"⟩,
   ⟨"00000000-0000-4000-8000-000000000818", "2030-05-25T09:00:00Z", "2030-05-25T09:30:00Z"⟩,
   ⟨"00000000-0000-4000-8000-000000000819", "2030-05-26T08:00:00Z", "2030-05-26T08:30:00Z"⟩,
   ⟨"00000000-0000-4000-8000-000000000820", "2030-05-26T09:00:00Z", "2030-05-26T09:30:00Z"⟩]

/-- `new Date(s)` of a text to the second, in UTC. -/
def date (s : String) : Int :=
  IsoDate.instant (IsoDate.read (s.toList.dropLast ++ ".000Z".toList))

example : IsoDate.toISOString (date "2030-05-22T08:00:00Z") = "2030-05-22T08:00:00.000Z" := by
  decide +kernel

/-! ## The upserts -/

/-- `walletIdentity.upsert` -/
def upsertWallet (db : Db) : Db := { db with wallets := db.wallets.insert address "PUBLIC" }

/-- `property.upsert`, and the id of the row. A new one gets `id` and the time `now`. -/
def upsertProperty (db : Db) (C : Catalogue) (id : String) (now : Int) :
    Except String (Db × Catalogue × String) :=
  match db.properties.find? fun p => p.slug = slug with
  | some p =>
    let details := { C.property p.id with title := title, description := description }
    .ok ({ db with properties := db.properties.map fun q =>
            if q.slug = slug then { q with active := true } else q },
      { C with property := Function.update C.property p.id details }, p.id)
  | none =>
    if db.properties.any fun p => p.id = id then .error "Unique constraint failed"
    else
      .ok ({ db with properties := db.properties ++ [⟨id, slug, address, true⟩] },
        { C with property := Function.update C.property id ⟨title, description, district, now⟩ },
        id)

/-- `viewingSlot.upsert`; `(propertyId, startsAt)` is unique. -/
def upsertSlot (db : Db) (C : Catalogue) (propertyId : String) (e : Entry) :
    Except String (Db × Catalogue) :=
  match db.slots.find? fun s => s.id = e.id with
  | some s =>
    if db.slots.any fun t => t.id ≠ e.id && t.propertyId = s.propertyId &&
        t.startsAt = date e.startsAt then .error "Unique constraint failed"
    else
      .ok ({ db with slots := db.slots.map fun t =>
              if t.id = e.id then { t with startsAt := date e.startsAt } else t },
        { C with slot := Function.update C.slot e.id { C.slot e.id with endsAt := date e.endsAt } })
  | none =>
    if db.slots.any fun t => t.propertyId = propertyId && t.startsAt = date e.startsAt then
      .error "Unique constraint failed"
    else
      .ok ({ db with slots := db.slots ++ [⟨e.id, propertyId, date e.startsAt⟩] },
        { C with slot := Function.update C.slot e.id ⟨date e.endsAt, none⟩ })

/-! ## Runs of the script -/

/-- A run of the script: the statement that is next, or how it ended. -/
inductive Script where
  | wallet
  | property
  | slots (propertyId : String) (left : List Entry)
  | done
  | failed (error : String)
  /-- a statement was not answered, or the process was stopped -/
  | stopped
  deriving DecidableEq, Repr

def Script.atWork : Script → Bool
  | .wallet | .property | .slots _ _ => true
  | _ => false

/-- The next statement, on the tables at that moment. -/
def Script.next (db : Db) (C : Catalogue) (id : String) (now : Int) :
    Script → Except String (Db × Catalogue × Script)
  | .wallet => .ok (upsertWallet db, C, .property)
  | .property => do
    let (db, C, propertyId) ← upsertProperty db C id now
    return (db, C, .slots propertyId entries)
  | .slots propertyId (e :: left) => do
    let (db, C) ← upsertSlot db C propertyId e
    return (db, C, .slots propertyId left)
  | .slots _ [] => .ok (db, C, .done)
  | ended => .ok (db, C, ended)

structure World where
  server : Server
  catalogue : Catalogue
  scripts : List Script

abbrev World.db (w : World) : Db := w.server.db

/-- The tables become these. -/
def World.write (w : World) (db : Db) (C : Catalogue) : World :=
  { w with server := { w.server with flow := { w.server.flow with db := db } }, catalogue := C }

inductive WorldAction where
  | start
  | advance (k : Nat) (id : String) (now : Int)
  | stop (k : Nat)
  | api (a : Action)
  deriving DecidableEq, Repr

def worldStep (C : Config) (w : World) : WorldAction → Option World
  | .start => some { w with scripts := w.scripts ++ [.wallet] }
  | .advance k id now => (w.scripts[k]?).bind fun s =>
      if s.atWork then
        match s.next w.db w.catalogue id now with
        | .ok (db, C, s') => some { w.write db C with scripts := w.scripts.set k s' }
        | .error error => some { w with scripts := w.scripts.set k (.failed error) }
      else none
  | .stop k => (w.scripts[k]?).bind fun s =>
      if s.atWork then some { w with scripts := w.scripts.set k .stopped } else none
  | .api a => (step C w.server a).map fun server => { w with server := server }

/-- An API on empty tables of listings. -/
structure Fresh (w : World) : Prop where
  server : Api.Fresh w.server
  properties : w.db.properties = []
  slots : w.db.slots = []
  scripts : w.scripts = []

def machine (C : Config) : Machine World WorldAction where
  init := Fresh
  step := worldStep C

/-! ## What the script plans -/

/-- The row of the listing, under the id that the first run gave it. -/
def listing (propertyId : String) : Property := ⟨propertyId, slug, address, true⟩

def Entry.row (propertyId : String) (e : Entry) : ViewingSlot := ⟨e.id, propertyId, date e.startsAt⟩

def Entry.details (e : Entry) : SlotDetails := ⟨date e.endsAt, none⟩

/-- How the pages show an entry. -/
def Entry.view (e : Entry) : SlotView := ⟨e.id, date e.startsAt, date e.endsAt, none⟩

/-- The entries are in order. -/
theorem entries_ordered : entries.Pairwise fun e e' => date e.startsAt < date e'.startsAt := by
  decide +kernel

/-- No two of them share an id or a start. -/
theorem eq_of_entries : ∀ e ∈ entries, ∀ e' ∈ entries,
    (e.id = e'.id ∨ date e.startsAt = date e'.startsAt) → e = e' := by
  decide +kernel

/-- The tables hold the listing under this id and the slots of the first `n` entries. -/
structure Sown (db : Db) (C : Catalogue) (propertyId : String) (n : Nat) : Prop where
  bound : n ≤ entries.length
  properties : db.properties = [listing propertyId]
  slots : db.slots = (entries.take n).map (Entry.row propertyId)
  property : ∃ now, C.property propertyId = ⟨title, description, district, now⟩
  details : ∀ e ∈ entries.take n, C.slot e.id = e.details

/-- They hold nothing yet, or that. -/
def Tables (db : Db) (C : Catalogue) : Prop :=
  (db.properties = [] ∧ db.slots = []) ∨ ∃ propertyId n, Sown db C propertyId n

section Upserts

variable {db : Db} {C : Catalogue} {propertyId : String} {n : Nat} {e : Entry}

/-- The listing is there already: nothing changes. -/
theorem Sown.upsertProperty (h : Sown db C propertyId n) (id : String) (now : Int) :
    upsertProperty db C id now = .ok (db, C, propertyId) := by
  obtain ⟨t, hdetails⟩ := h.property
  have hfind : db.properties.find? (fun p => p.slug = slug) = some (listing propertyId) := by
    rw [h.properties]
    rfl
  have hsame : db.properties.map (fun q => if q.slug = slug then { q with active := true } else q) =
      db.properties := by
    rw [h.properties]
    rfl
  have hupdate : Function.update C.property propertyId
      { C.property propertyId with title := title, description := description } = C.property := by
    rw [hdetails, ← hdetails, Function.update_eq_self]
  unfold Seed.upsertProperty
  rw [hfind, hsame]
  simp only [listing, hupdate]

/-- The first run adds it. -/
theorem upsertProperty_empty (hproperties : db.properties = []) (hslots : db.slots = [])
    (id : String) (now : Int) :
    ∃ db' C', upsertProperty db C id now = .ok (db', C', id) ∧ Sown db' C' id 0 ∧
      db'.bookings = db.bookings := by
  refine ⟨{ db with properties := [⟨id, slug, address, true⟩] },
    { C with property := Function.update C.property id ⟨title, description, district, now⟩ }, ?_,
    ⟨by decide, rfl, hslots, ⟨now, Function.update_self ..⟩, fun e he => by cases he⟩, rfl⟩
  unfold Seed.upsertProperty
  rw [hproperties]
  rfl

/-- Under which id, and how many, can be read off the tables. -/
theorem Sown.unique (h : Sown db C propertyId n) {p : String} {m : Nat} (h' : Sown db C p m) :
    propertyId = p ∧ n = m := by
  constructor
  · have hsame := h.properties.symm.trans h'.properties
    simp only [listing, List.cons.injEq, Property.mk.injEq] at hsame
    exact hsame.1.1
  · have hsame := congrArg List.length (h.slots.symm.trans h'.slots)
    rw [List.length_map, List.length_map, List.length_take_of_le h.bound,
      List.length_take_of_le h'.bound] at hsame
    exact hsame

theorem Sown.mem_slots (h : Sown db C propertyId n) {s : ViewingSlot} :
    s ∈ db.slots ↔ ∃ e ∈ entries.take n, e.row propertyId = s := by
  rw [h.slots, List.mem_map]

/-- The slot of an entry that is there already: nothing changes. -/
theorem Sown.upsertSlot_known (h : Sown db C propertyId n) (he : e ∈ entries.take n) :
    upsertSlot db C propertyId e = .ok (db, C) := by
  have hentry : e ∈ entries := List.mem_of_mem_take he
  have hown : ∀ t ∈ db.slots, (t.id = e.id ∨ t.startsAt = date e.startsAt) →
      t = e.row propertyId := by
    intro t ht hor
    obtain ⟨e', he', rfl⟩ := h.mem_slots.mp ht
    rw [eq_of_entries e' (List.mem_of_mem_take he') e hentry hor]
  have hrow : e.row propertyId ∈ db.slots := h.mem_slots.mpr ⟨e, he, rfl⟩
  have hfind : db.slots.find? (fun s => s.id = e.id) = some (e.row propertyId) :=
    Properties.find?_of_unique hrow (by simp [Entry.row])
      fun t ht hid => hown t ht (.inl (of_decide_eq_true hid))
  have hclear : db.slots.any (fun t => t.id ≠ e.id &&
      t.propertyId = (e.row propertyId).propertyId && t.startsAt = date e.startsAt) = false := by
    rw [List.any_eq_false]
    intro t ht
    simp only [Bool.and_eq_true, decide_eq_true_eq, not_and]
    rintro ⟨hid, -⟩ hstart
    exact hid (by rw [hown t ht (.inr hstart)]; rfl)
  have hsame : db.slots.map (fun t => if t.id = e.id then
      { t with startsAt := date e.startsAt } else t) = db.slots := by
    refine (List.map_congr_left fun t ht => ?_).trans (List.map_id _)
    split
    · rename_i hid
      rw [hown t ht (.inl hid)]
      rfl
    · rfl
  have hupdate : Function.update C.slot e.id { C.slot e.id with endsAt := date e.endsAt } =
      C.slot := by
    have hdetails : { C.slot e.id with endsAt := date e.endsAt } = C.slot e.id := by
      rw [h.details e he]
      rfl
    rw [hdetails, Function.update_eq_self]
  unfold Seed.upsertSlot
  rw [hfind]
  simp only [hclear, hsame, hupdate, Bool.false_eq_true, if_false]

/-- The next entry is added. -/
theorem Sown.upsertSlot_next (h : Sown db C propertyId n) (he : entries[n]? = some e) :
    ∃ db' C', upsertSlot db C propertyId e = .ok (db', C') ∧ Sown db' C' propertyId (n + 1) ∧
      db'.bookings = db.bookings ∧ db.slots ⊆ db'.slots := by
  obtain ⟨hlt, hget⟩ := List.getElem?_eq_some_iff.mp he
  have htake : entries.take (n + 1) = entries.take n ++ [e] := by
    rw [List.take_add_one, he]
    rfl
  have hother : ∀ e' ∈ entries.take n, e'.id ≠ e.id ∧ date e'.startsAt ≠ date e.startsAt := by
    intro e' he'
    have hbefore := entries_ordered.take (i := n + 1)
    rw [htake, List.pairwise_append] at hbefore
    have hlt' := hbefore.2.2 e' he' e (List.mem_singleton_self e)
    have hne : e' ≠ e := by
      rintro rfl
      exact lt_irrefl _ hlt'
    refine ⟨fun hid => hne ?_, fun hstart => hne ?_⟩
    · exact eq_of_entries e' (List.mem_of_mem_take he') e (List.mem_of_getElem? he) (.inl hid)
    · exact eq_of_entries e' (List.mem_of_mem_take he') e (List.mem_of_getElem? he) (.inr hstart)
  have hfind : db.slots.find? (fun s => s.id = e.id) = none := by
    rw [List.find?_eq_none]
    intro t ht
    obtain ⟨e', he', rfl⟩ := h.mem_slots.mp ht
    exact fun hid => (hother e' he').1 (of_decide_eq_true hid)
  have hclear : db.slots.any (fun t => t.propertyId = propertyId &&
      t.startsAt = date e.startsAt) = false := by
    rw [List.any_eq_false]
    intro t ht
    obtain ⟨e', he', rfl⟩ := h.mem_slots.mp ht
    simp only [Bool.and_eq_true, decide_eq_true_eq, not_and]
    exact fun _ => (hother e' he').2
  refine ⟨{ db with slots := db.slots ++ [e.row propertyId] },
    { C with slot := Function.update C.slot e.id e.details }, ?_,
    ⟨hlt, h.properties, ?_, h.property, ?_⟩, rfl, List.subset_append_left _ _⟩
  · unfold Seed.upsertSlot
    rw [hfind]
    simp only [hclear, Bool.false_eq_true, if_false]
    rfl
  · rw [htake, List.map_append, ← h.slots]
    rfl
  · intro e' he'
    rw [htake] at he'
    rcases List.mem_append.mp he' with he' | he'
    · rw [← h.details e' he']
      exact Function.update_of_ne (hother e' he').1 _ _
    · obtain rfl := List.mem_singleton.mp he'
      exact Function.update_self ..

end Upserts

/-! ## One statement -/

/-- What a run has seen to. -/
def Script.Fits (db : Db) (C : Catalogue) : Script → Prop
  | .slots propertyId left => ∃ n k, Sown db C propertyId n ∧ k ≤ n ∧ left = entries.drop k
  | .done => ∃ propertyId, Sown db C propertyId entries.length
  | .failed _ => False
  | _ => True

/-- What is published stays, under the same id. -/
structure Grows (db : Db) (C : Catalogue) (db' : Db) (C' : Catalogue) : Prop where
  sown : ∀ propertyId n, Sown db C propertyId n → ∃ n', n ≤ n' ∧ Sown db' C' propertyId n'
  properties : db.properties ⊆ db'.properties
  slots : db.slots ⊆ db'.slots

section Statements

variable {db db' : Db} {C C' : Catalogue} {s s' : Script}

/-- The listings are as they were. -/
theorem grows_of_same (hproperties : db'.properties = db.properties)
    (hslots : db'.slots = db.slots) : Grows db C db' C :=
  ⟨fun _ n h => ⟨n, le_refl n, h.bound, hproperties.trans h.properties, hslots.trans h.slots,
      h.property, h.details⟩,
    hproperties ▸ List.Subset.refl _, hslots ▸ List.Subset.refl _⟩

theorem Tables.grow (h : Tables db C) (hproperties : db'.properties = db.properties)
    (hslots : db'.slots = db.slots) : Tables db' C := by
  rcases h with ⟨hp, hs⟩ | ⟨propertyId, n, hsown⟩
  · exact .inl ⟨hproperties.trans hp, hslots.trans hs⟩
  · obtain ⟨n', -, hsown'⟩ := (grows_of_same hproperties hslots).sown propertyId n hsown
    exact .inr ⟨propertyId, n', hsown'⟩

theorem Script.Fits.grow (h : s.Fits db C) (hgrows : Grows db C db' C') : s.Fits db' C' := by
  cases s with
  | slots propertyId left =>
    obtain ⟨n, k, hsown, hk, hleft⟩ := h
    obtain ⟨n', hn, hsown'⟩ := hgrows.sown propertyId n hsown
    exact ⟨n', k, hsown', by omega, hleft⟩
  | done =>
    obtain ⟨propertyId, hsown⟩ := h
    obtain ⟨n', hn, hsown'⟩ := hgrows.sown propertyId _ hsown
    obtain rfl : n' = entries.length := le_antisymm hsown'.bound hn
    exact ⟨propertyId, hsown'⟩
  | failed error => exact h
  | _ => trivial

/-- A statement of a run goes through, and publishes no less. -/
theorem next_of_fits (htables : Tables db C) (h : s.Fits db C) (id : String) (now : Int) :
    ∃ db' C' s', s.next db C id now = .ok (db', C', s') ∧ Tables db' C' ∧ s'.Fits db' C' ∧
      Grows db C db' C' ∧ db'.bookings = db.bookings := by
  cases s with
  | wallet =>
    exact ⟨upsertWallet db, C, .property, rfl, htables.grow rfl rfl, trivial, grows_of_same rfl rfl,
      rfl⟩
  | property =>
    rcases htables with ⟨hproperties, hslots⟩ | ⟨propertyId, n, hsown⟩
    · obtain ⟨db', C', hok, hsown, hrows⟩ :=
        upsertProperty_empty (C := C) hproperties hslots id now
      refine ⟨db', C', .slots id entries, ?_, .inr ⟨id, 0, hsown⟩, ⟨0, 0, hsown, le_refl 0, rfl⟩,
        ⟨fun p n hn => ?_, ?_, ?_⟩, hrows⟩
      · simp only [Script.next, hok]
        rfl
      · rw [hn.properties] at hproperties
        cases hproperties
      · rw [hproperties]
        exact List.nil_subset _
      · rw [hslots]
        exact List.nil_subset _
    · refine ⟨db, C, .slots propertyId entries, ?_, .inr ⟨propertyId, n, hsown⟩,
        ⟨n, 0, hsown, Nat.zero_le n, rfl⟩, grows_of_same rfl rfl, rfl⟩
      simp only [Script.next, hsown.upsertProperty]
      rfl
  | slots propertyId left =>
    obtain ⟨n, k, hsown, hk, rfl⟩ := h
    cases hleft : entries.drop k with
    | nil =>
      have hall : entries.length ≤ k := List.drop_eq_nil_iff.mp hleft
      obtain rfl : n = entries.length := le_antisymm hsown.bound (hall.trans hk)
      exact ⟨db, C, .done, rfl, htables, ⟨propertyId, hsown⟩, grows_of_same rfl rfl, rfl⟩
    | cons e left =>
      have he : entries[k]? = some e := by
        rw [← List.head?_drop, hleft]
        rfl
      have hrest : left = entries.drop (k + 1) := by
        rw [← List.tail_drop, hleft]
        rfl
      rcases Nat.lt_or_ge k n with hlt | hge
      · have hok := hsown.upsertSlot_known
          (List.mem_of_getElem? ((List.getElem?_take_of_lt hlt).trans he))
        refine ⟨db, C, .slots propertyId left, ?_, htables, ⟨n, k + 1, hsown, hlt, hrest⟩,
          grows_of_same rfl rfl, rfl⟩
        simp only [Script.next, hok]
        rfl
      · obtain rfl : k = n := le_antisymm hk hge
        obtain ⟨db', C', hok, hsown', hrows, hprefix⟩ := hsown.upsertSlot_next he
        refine ⟨db', C', .slots propertyId left, ?_, .inr ⟨propertyId, k + 1, hsown'⟩,
          ⟨k + 1, k + 1, hsown', le_refl _, hrest⟩, ⟨fun p m hm => ?_, ?_, hprefix⟩, hrows⟩
        · simp only [Script.next, hok]
          rfl
        · obtain ⟨rfl, rfl⟩ := hm.unique hsown
          exact ⟨m + 1, Nat.le_succ m, hsown'⟩
        · rw [hsown.properties, hsown'.properties]
          exact List.Subset.refl _
  | done => exact ⟨db, C, .done, rfl, htables, h, grows_of_same rfl rfl, rfl⟩
  | failed error => exact h.elim
  | stopped => exact ⟨db, C, .stopped, rfl, htables, h, grows_of_same rfl rfl, rfl⟩

end Statements

/-! ## What is booked -/

/-- A booking is of a published slot, at its start and with its host. -/
def Placed (db : Db) (row : BookingRow) : Prop :=
  ∃ t ∈ db.slots, ∃ p ∈ db.properties, t.propertyId = p.id ∧ row.propertyId = p.id ∧
    row.slotId = t.id ∧ row.visitTime = t.startsAt ∧ row.host = p.host

/-- All bookings are, each of its own slot. -/
structure Booked (db : Db) : Prop where
  placed : ∀ id row, db.bookings.lookup id = some row → Placed db row
  apart : ∀ id id' row row', db.bookings.lookup id = some row → db.bookings.lookup id' = some row' →
    row.slotId = row'.slotId → id = id'

theorem Booked.keep {db db' : Db} (h : Booked db) (hproperties : db.properties ⊆ db'.properties)
    (hslots : db.slots ⊆ db'.slots) (hrows : db'.bookings = db.bookings) : Booked db' := by
  refine ⟨fun id row hrow => ?_, by rw [hrows]; exact h.apart⟩
  rw [hrows] at hrow
  obtain ⟨t, ht, p, hp, hplaced⟩ := h.placed id row hrow
  exact ⟨t, hslots ht, p, hproperties hp, hplaced⟩

/-- What `create` stores. -/
theorem placed_of_create {R : Runtime} {network uuid : String} {db db' : Db} {now : Int}
    {input : Workflow.CreateBooking} {b : Workflow.Booking} {row : BookingRow}
    (h : Workflow.create R network db now uuid input = .ok (db', b))
    (hrow : db'.bookings.lookup uuid = some row) :
    Placed db row ∧ ∀ r ∈ db.rows, r.slotId ≠ row.slotId := by
  obtain ⟨onChain, visitTime, -, -, htransaction⟩ := Properties.create_eq_ok.mp h
  obtain ⟨p, t, hselects, -, hunused, heq⟩ := Properties.createTransaction_eq_ok.mp htransaction
  have hdb : db' = Properties.booked network db
      (Properties.bookingRow uuid onChain input p t visitTime) := congrArg Prod.fst heq
  rw [hdb] at hrow
  obtain rfl := Option.some.inj (hrow.symm.trans (AList.lookup_insert _))
  have hslot := List.find?_some hselects.slot
  simp only [Bool.and_eq_true, decide_eq_true_eq] at hslot
  obtain ⟨⟨hproperty, hstart⟩, -⟩ := hslot
  exact ⟨⟨t, List.mem_of_find?_eq_some hselects.slot, p,
    List.mem_of_find?_eq_some hselects.property, hproperty, rfl, rfl, hstart.symm, rfl⟩,
    fun r hr => (hunused.others r hr).2⟩

/-- A row after a step of the workflow: placed as it was, or new and placed on a free slot. -/
theorem row_of_step {R : Runtime} {network : String} {s s' : Workflow.State} {a : Workflow.Action}
    (hcoherent : Workflow.Coherent s) (hstep : Workflow.step R network s a = some s') {id : String}
    {row' : BookingRow} (hrow' : s'.db.bookings.lookup id = some row') :
    (∃ row, s.db.bookings.lookup id = some row ∧ row'.slotId = row.slotId ∧
      (Placed s.db row → Placed s.db row')) ∨
    ((∃ now input, a = .create now id input) ∧ Placed s.db row' ∧
      ∀ r ∈ s.db.rows, r.slotId ≠ row'.slotId) := by
  cases hrow : s.db.bookings.lookup id with
  | some row =>
    refine .inl ⟨row, rfl, ?_⟩
    obtain ⟨x, hx, hcases⟩ := Workflow.row_step hcoherent hstep hrow
    obtain rfl : row' = x := Option.some.inj (hrow'.symm.trans hx)
    rcases hcases with rfl | ⟨i, p, -, -, -, -, rfl⟩
    · exact ⟨rfl, fun h => h⟩
    · exact ⟨rfl, fun ⟨t, ht, q, hq, hplaced⟩ => ⟨t, ht, q, hq, hplaced⟩⟩
  | none =>
    obtain ⟨now, uuid, input, rfl, hcreated⟩ := Workflow.row_origin hcoherent hstep hrow hrow'
    have hid : id = uuid := (Workflow.coherent_step _ _ _ hcoherent hstep).keyed id row' hrow' ▸
      hcreated.id
    subst hid
    obtain ⟨-, ⟨db, b, hcreate, rfl⟩ | ⟨e, -, rfl⟩⟩ := Workflow.create_step hstep
    · obtain ⟨hplaced, hothers⟩ := placed_of_create hcreate hrow'
      exact .inr ⟨⟨now, input, rfl⟩, hplaced, hothers⟩
    · rw [hrow] at hrow'
      cases hrow'

theorem booked_step {R : Runtime} {network : String} {s s' : Workflow.State} {a : Workflow.Action}
    (h : Booked s.db) (hcoherent : Workflow.Coherent s)
    (hstep : Workflow.step R network s a = some s') : Booked s'.db := by
  have hstays := Properties.stays_step s a s' hstep
  refine ⟨fun id row' hrow' => ?_, fun id id' row row' hrow hrow' hslot => ?_⟩
  · have hplaced : Placed s.db row' := by
      rcases row_of_step hcoherent hstep hrow' with ⟨row, hrow, -, hkeep⟩ | ⟨-, hnew, -⟩
      · exact hkeep (h.placed id row hrow)
      · exact hnew
    obtain ⟨t, ht, p, hp, hrest⟩ := hplaced
    exact ⟨t, hstays.slots ▸ ht, p, hstays.properties ▸ hp, hrest⟩
  · rcases row_of_step hcoherent hstep hrow with ⟨x, hx, hsame, -⟩ | ⟨⟨_, _, ha⟩, -, hfree⟩ <;>
      rcases row_of_step hcoherent hstep hrow' with ⟨x', hx', hsame', -⟩ | ⟨⟨_, _, ha'⟩, -, hfree'⟩
    · exact h.apart id id' x x' hx hx' (hsame.symm.trans (hslot.trans hsame'))
    · exact absurd (hsame.symm.trans hslot) (hfree' x (mem_rows.mpr ⟨id, hx⟩))
    · exact absurd (hsame'.symm.trans hslot.symm) (hfree x' (mem_rows.mpr ⟨id', hx'⟩))
    · cases ha
      cases ha'
      rfl

/-! ## Runs -/

structure Sound (w : World) : Prop where
  coherent : Workflow.Coherent w.server.flow
  tables : Tables w.db w.catalogue
  scripts : ∀ s ∈ w.scripts, s.Fits w.db w.catalogue
  booked : Booked w.db

section Runs

variable {C : Config} {w w' : World}

theorem sound_of_fresh (h : Fresh w) : Sound w := by
  have hnone : ∀ id row, w.db.bookings.lookup id ≠ some row := by
    intro id row hrow
    rw [World.db, Server.db, h.server.flow.bookings, AList.lookup_empty] at hrow
    cases hrow
  refine ⟨Workflow.coherent_of_fresh h.server.flow, .inl ⟨h.properties, h.slots⟩, ?_,
    fun id row hrow => absurd hrow (hnone id row),
    fun id _ row _ hrow => absurd hrow (hnone id row)⟩
  simp [h.scripts]

/-- What the workflow needs is in the bookings, not in the listings. -/
theorem coherent_of_bookings {s : Workflow.State} {db : Db} (h : Workflow.Coherent s)
    (hrows : db.bookings = s.db.bookings) : Workflow.Coherent { s with db := db } := by
  refine ⟨?_, ?_, ?_, ?_, h.exclusive, ?_, h.once, h.expected⟩ <;> simp only [hrows]
  · exact h.keyed
  · exact h.lifecycle
  · exact h.version
  · exact h.admitted
  · exact h.moved

theorem Sound.api (h : Sound w) {a : Action} {server : Server}
    (hstep : step C w.server a = some server) : Sound { w with server := server } := by
  rcases flow_of_step hstep with hsame | ⟨fa, hfa⟩
  · have hdb : server.db = w.db := congrArg Workflow.State.db hsame
    refine ⟨hsame ▸ h.coherent, ?_, ?_, ?_⟩
    · show Tables server.db w.catalogue
      exact hdb ▸ h.tables
    · show ∀ s ∈ w.scripts, s.Fits server.db w.catalogue
      exact hdb ▸ h.scripts
    · show Booked server.db
      exact hdb ▸ h.booked
  · have hstays := Properties.stays_step _ _ _ hfa
    exact ⟨Workflow.coherent_step _ _ _ h.coherent hfa,
      h.tables.grow hstays.properties hstays.slots,
      fun s hs => (h.scripts s hs).grow (grows_of_same hstays.properties hstays.slots),
      booked_step h.booked h.coherent hfa⟩

theorem Sound.set (h : Sound w) (k : Nat) {s : Script} (hs : s.Fits w.db w.catalogue) :
    Sound { w with scripts := w.scripts.set k s } := by
  refine ⟨h.coherent, h.tables, fun t ht => ?_, h.booked⟩
  rcases List.mem_or_eq_of_mem_set ht with ht | rfl
  · exact h.scripts t ht
  · exact hs

theorem sound_step (w : World) (a : WorldAction) (w' : World) (h : Sound w)
    (hstep : worldStep C w a = some w') : Sound w' := by
  cases a with
  | start =>
    cases hstep
    refine ⟨h.coherent, h.tables, fun s hs => ?_, h.booked⟩
    rcases List.mem_append.mp hs with hs | hs
    · exact h.scripts s hs
    · obtain rfl := List.mem_singleton.mp hs
      trivial
  | advance k id now =>
    obtain ⟨s, hs, hstep⟩ := Option.bind_eq_some_iff.mp hstep
    split at hstep
    · have hfits := h.scripts s (List.mem_of_getElem? hs)
      obtain ⟨db, C', s', hok, htables, hs', hgrows, hrows⟩ :=
        next_of_fits h.tables hfits id now
      rw [hok] at hstep
      obtain rfl := Option.some.inj hstep
      have hwritten : Sound (w.write db C') :=
        ⟨coherent_of_bookings h.coherent hrows, htables, fun t ht => (h.scripts t ht).grow hgrows,
          h.booked.keep hgrows.properties hgrows.slots hrows⟩
      exact hwritten.set k hs'
    · cases hstep
  | stop k =>
    obtain ⟨s, hs, hstep⟩ := Option.bind_eq_some_iff.mp hstep
    split at hstep
    · obtain rfl := Option.some.inj hstep
      exact h.set k trivial
    · cases hstep
  | api a =>
    obtain ⟨server, hserver, rfl⟩ := Option.map_eq_some_iff.mp hstep
    exact h.api hserver

theorem sound_of_exec {w₀ : World} {as : List WorldAction} (h₀ : (machine C).init w₀)
    (hrun : (machine C).exec w₀ as = some w) : Sound w :=
  (machine C).exec_invariant sound_step hrun (sound_of_fresh h₀)

theorem Sown.unique_tables {db : Db} {C : Catalogue} {propertyId : String} {n : Nat}
    (h : Sown db C propertyId n) : Properties.Unique db := by
  have hlisting : ∀ p ∈ db.properties, p = listing propertyId := by simp [h.properties]
  have hentry : ∀ s ∈ db.slots, ∀ t ∈ db.slots,
      (s.id = t.id ∨ s.startsAt = t.startsAt) → s = t := by
    intro s hs t ht hor
    obtain ⟨e, he, rfl⟩ := h.mem_slots.mp hs
    obtain ⟨e', he', rfl⟩ := h.mem_slots.mp ht
    rw [eq_of_entries e (List.mem_of_mem_take he) e' (List.mem_of_mem_take he') hor]
  exact ⟨fun p hp q hq _ => (hlisting p hp).trans (hlisting q hq).symm,
    fun p hp q hq _ => (hlisting p hp).trans (hlisting q hq).symm,
    fun s hs t ht hid => hentry s hs t ht (.inl hid),
    fun s hs t ht _ hstart => hentry s hs t ht (.inr hstart)⟩

theorem Tables.unique {db : Db} {C : Catalogue} (h : Tables db C) : Properties.Unique db := by
  rcases h with ⟨hproperties, hslots⟩ | ⟨propertyId, n, hsown⟩
  · constructor <;> simp [hproperties, hslots]
  · exact hsown.unique_tables

/-- A booking is of an entry. -/
theorem Sound.entry_of_row (h : Sound w) {row : BookingRow} (hrow : row ∈ w.db.rows) :
    ∃ e ∈ entries, row.slotId = e.id ∧ row.visitTime = date e.startsAt ∧ row.host = address := by
  obtain ⟨id, hid⟩ := mem_rows.mp hrow
  obtain ⟨t, ht, p, hp, -, -, hslot, hstart, hhost⟩ := h.booked.placed id row hid
  rcases h.tables with ⟨hproperties, -⟩ | ⟨propertyId, n, hsown⟩
  · rw [hproperties] at hp
    cases hp
  · rw [hsown.properties] at hp
    obtain rfl := List.mem_singleton.mp hp
    obtain ⟨e, he, rfl⟩ := hsown.mem_slots.mp ht
    exact ⟨e, List.mem_of_mem_take he, hslot, hstart, hhost⟩

/-- There are no more bookings than entries. -/
theorem Sound.rows_le (h : Sound w) : w.db.rows.length ≤ entries.length := by
  have hnodup : (w.db.bookings.entries.map fun r => r.2.slotId).Nodup := by
    refine List.Nodup.map_on (fun r hr r' hr' hslot => ?_) w.db.bookings.nodupKeys.nodup
    have hlookup : ∀ r ∈ w.db.bookings.entries, w.db.bookings.lookup r.1 = some r.2 :=
      fun r hr => List.mem_dlookup w.db.bookings.nodupKeys hr
    have hid := h.booked.apart r.1 r'.1 r.2 r'.2 (hlookup r hr) (hlookup r' hr') hslot
    exact w.db.bookings.nodupKeys.eq_of_fst_eq hr hr' hid
  have hsubset : (w.db.bookings.entries.map fun r => r.2.slotId) ⊆ entries.map Entry.id := by
    intro slotId hslot
    obtain ⟨r, hr, rfl⟩ := List.mem_map.mp hslot
    obtain ⟨e, he, hid, -⟩ := h.entry_of_row (List.mem_map.mpr ⟨r, hr, rfl⟩)
    exact List.mem_map.mpr ⟨e, he, hid.symm⟩
  have hle := (List.subperm_of_subset hnodup hsubset).length_le
  rw [List.length_map, List.length_map] at hle
  exact (List.length_map _).trans_le hle

end Runs

/-! ## What is offered -/

/-- `isFree` of the slot of an entry. -/
def Entry.isFree (db : Db) (now : Int) (e : Entry) : Bool :=
  now < date e.startsAt && !db.rows.any fun r => r.slotId = e.id

/-- After a whole run, the listing shows the free entries, in order. -/
theorem Sown.view_slots {db : Db} {C : Catalogue} {propertyId : String}
    (h : Sown db C propertyId entries.length) (now : Int) :
    (Properties.view C db now (listing propertyId)).slots =
      (entries.filter (Entry.isFree db now)).map Entry.view := by
  have hslots : db.slots = entries.map (Entry.row propertyId) := by
    rw [h.slots, List.take_length]
  have hfilter : (db.slots.filter fun s => s.propertyId = propertyId && isFree db now s) =
      (entries.filter (Entry.isFree db now)).map (Entry.row propertyId) := by
    rw [hslots, List.filter_map]
    congr 1
    refine List.filter_congr fun e _ => ?_
    simp only [Function.comp_apply, Entry.row, decide_true, Bool.true_and]
    rfl
  have hsorted : ((entries.filter (Entry.isFree db now)).map (Entry.row propertyId)).Pairwise
      fun s t => s.startsAt ≤ t.startsAt :=
    List.pairwise_map.mpr ((entries_ordered.filter _).imp fun hlt => le_of_lt hlt)
  show ((db.slots.filter fun s => s.propertyId = propertyId && isFree db now s).insertionSort
    fun s t => s.startsAt ≤ t.startsAt).map (Properties.slotView C) = _
  rw [hfilter, hsorted.insertionSort_eq, List.map_map]
  refine List.map_congr_left fun e he => ?_
  have hdetails := h.details e (by rw [List.take_length]; exact List.mem_of_mem_filter he)
  simp only [Function.comp_apply, Properties.slotView, Entry.row, hdetails]
  rfl

/-- **The listing is published once and for all.** In every run of any number of runs of the
    script, stopped anywhere and started again, beside any requests to the API, from tables
    without listings: no upsert of the script fails; the unique constraints hold; every booking
    is of the slot of one of the entries, at its start and with the host of the script, so there
    are never more bookings than entries; and once one run of the script has ended, the pages
    show this one listing, with exactly the entries that lie ahead and that nobody has booked,
    in order. -/
theorem listing_published (C : Config) (same : String → String → Bool) (w₀ w : World)
    (as : List WorldAction) (h₀ : (machine C).init w₀) (hrun : (machine C).exec w₀ as = some w) :
    (∀ error, .failed error ∉ w.scripts) ∧ Properties.Unique w.db ∧
    (∀ row ∈ w.db.rows, ∃ e ∈ entries, row.slotId = e.id ∧ row.visitTime = date e.startsAt ∧
      row.host = address) ∧
    w.db.rows.length ≤ entries.length ∧
    (.done ∈ w.scripts → ∀ now, ∃ v, Properties.bySlug w.catalogue w.db now slug = .ok v ∧
      Properties.list w.catalogue same w.db now none = [v] ∧ v.host = address ∧ v.title = title ∧
      v.description = description ∧ v.district = district ∧
      v.slots = (entries.filter (Entry.isFree w.db now)).map Entry.view) := by
  have h := sound_of_exec h₀ hrun
  refine ⟨fun error herror => h.scripts _ herror, h.tables.unique, fun row => h.entry_of_row,
    h.rows_le, fun hdone now => ?_⟩
  obtain ⟨propertyId, hsown⟩ := h.scripts _ hdone
  obtain ⟨t, hdetails⟩ := hsown.property
  refine ⟨Properties.view w.catalogue w.db now (listing propertyId), ?_, ?_, rfl, ?_, ?_, ?_,
    hsown.view_slots now⟩
  · unfold Properties.bySlug
    rw [hsown.properties]
    rfl
  · unfold Properties.list
    rw [hsown.properties]
    rfl
  · simp only [Properties.view, listing, hdetails]
  · simp only [Properties.view, listing, hdetails]
  · simp only [Properties.view, listing, hdetails]

/-! ## A sample -/

/-- An API that reads the dates `toISOString` writes. -/
def sampleApi : Config where
  runtime :=
    { Workflow.sampleRuntime with
      date := IsoDate.parse
      date_range := fun _ _ => IsoDate.parse_le
      isoDatetime := fun s => (IsoDate.parse s).isSome }
  keys := ⟨fun _ => false, fun _ _ _ => false, fun _ => ""⟩
  network := "PUBLIC"
  contractId := "escrow"
  origins := ["http://localhost:3000"]

/-- No listing yet. -/
def vacantWorld : World where
  server :=
    { flow := { db := { Workflow.listed.db with properties := [], slots := [] }, calls := [] }
      exchanges := []
      auth := ⟨fun _ => ∅, ∅, [], []⟩ }
  catalogue := Properties.sampleCatalogue
  scripts := []

/-- The first run stops after three slots, a renter books the third, and a second run ends. -/
def reseeding : List WorldAction :=
  .start :: List.replicate 5 (.advance 0 "7d0f2f0e-6a0c-4c5e-9e6b-0b7a4d1c2e3f" 1892700000000) ++
    [.stop 0,
      .api (.create "renter" 1892808000000 "3b241101-e2bb-4255-8caf-4136c566a962"
        ⟨slug, "renter", address, "1000000", "2030-05-23T08:00:00.000Z",
          "6c86c6aac5fb24bcf5d9939cb7d7d5645ce39418f449e03b262dd4fa14b4b92b"⟩),
      .start] ++
    List.replicate 13 (.advance 1 "c1b7a1de-92ab-4f1d-8d8d-5a5f0e3c7b90" 1892900000000)

theorem listing_published_twice : ∃ w v, (machine sampleApi).exec vacantWorld reseeding = some w ∧
    w.db.rows.length = 1 ∧ Properties.bySlug w.catalogue w.db 1892900000000 slug = .ok v ∧
    v.slots = (entries.eraseIdx 2).map Entry.view := by
  have hend : ((machine sampleApi).exec vacantWorld reseeding).map (fun w =>
      (w.scripts, w.db.rows.map fun r => r.slotId)) =
      some ([.stopped, .done], ["00000000-0000-4000-8000-000000000813"]) := by decide +kernel
  obtain ⟨w, hrun, hw⟩ := Option.map_eq_some_iff.mp hend
  obtain ⟨hscripts, hrows⟩ := Prod.ext_iff.mp hw
  dsimp only at hscripts hrows
  obtain ⟨-, -, -, -, hshown⟩ := listing_published sampleApi (fun a b => a = b) vacantWorld w
    reseeding ⟨⟨⟨rfl, rfl, rfl, rfl, rfl⟩, rfl, ⟨fun _ => rfl, rfl, rfl, rfl⟩⟩, rfl, rfl, rfl⟩ hrun
  obtain ⟨v, hv, -, -, -, -, -, hslots⟩ := hshown (by rw [hscripts]; decide) 1892900000000
  refine ⟨w, v, hrun, by simpa using congrArg List.length hrows, hv, hslots.trans ?_⟩
  have hfree : ∀ e, Entry.isFree w.db 1892900000000 e =
      (1892900000000 < date e.startsAt &&
        !(["00000000-0000-4000-8000-000000000813"].any fun slotId => slotId = e.id)) := by
    intro e
    rw [← hrows, List.any_map]
    rfl
  rw [funext hfree]
  decide +kernel

end PovDeposit.Api.Seed
