/-
  The id of a booking on its way through the three programs.

  `create` makes it of the first 64 bits of a UUID, as decimal text (`onChainBookingId`). The
  form reads the text back for the `u64` argument of the contract (`bookingArguments`), and
  the verifier compares it with the text of the `u64` in an event (`EventInfo.matches`).
  `booking_id_survives` says that all of them mean one number, that different prefixes give
  different texts, and that no event fits two rows of the database.

  A UUID is its 128 bits; `text` is the form that `randomUUID` returns.
-/
import PovDeposit.Joint.BookingForm
import PovDeposit.Api.Memory
import PovDeposit.Api.Requests
import PovDeposit.Lib.Numeral

namespace PovDeposit.Joint

open PovDeposit.Lib PovDeposit.Lib.Outcome PovDeposit.Lib.Numeral
open PovDeposit.Api

/-! ## UUIDs -/

/-- A UUID of version 4: the version and the variant are among its bits. -/
structure UuidV4 where
  bits : BitVec 128
  version : bits.extractLsb' 76 4 = 4
  variant : bits.extractLsb' 62 2 = 2

def UuidV4.first64 (u : UuidV4) : UInt64 := .ofBitVec (u.bits.extractLsb' 64 64)

/-- Groups of 8, 4, 4, 4 and 12 hexadecimal digits. -/
def UuidV4.text (u : UuidV4) : String :=
  let n := u.bits.toNat
  String.ofList (places 16 8 (n / 2 ^ 96) ++ '-' :: (places 16 4 (n / 2 ^ 80) ++
    '-' :: (places 16 4 (n / 2 ^ 64) ++ '-' :: (places 16 4 (n / 2 ^ 48) ++ '-' :: places 16 12 n))))

theorem toNat_first64 (u : UuidV4) : u.first64.toNat = u.bits.toNat / 2 ^ 64 % 2 ^ 64 := by
  rw [UuidV4.first64, UInt64.toNat_ofBitVec, BitVec.extractLsb'_toNat, Nat.shiftRight_eq_div_pow]

/-- The version is in the lower half of the first 64 bits. -/
theorem first64_pos (u : UuidV4) : 1 ≤ u.first64.toNat := by
  have hversion := congrArg BitVec.toNat u.version
  rw [BitVec.extractLsb'_toNat, Nat.shiftRight_eq_div_pow] at hversion
  rw [toNat_first64]
  have hfour : (4 : BitVec 4).toNat = 4 := rfl
  omega

/-- Without the hyphens the text starts with the first 64 bits. -/
theorem take_text (u : UuidV4) :
    (u.text.toList.filter fun c => c ≠ '-').take 16 = places 16 16 (u.bits.toNat / 2 ^ 64) := by
  have hkeep : ∀ k n, (places 16 k n).filter (fun c => c ≠ '-') = places 16 k n := by
    intro k n
    refine List.filter_eq_self.mpr fun c hc => ?_
    obtain ⟨d, hd, rfl⟩ := digit_of_mem_places (by decide) hc
    have hhyphen : ∀ d < 16, Nat.digitChar d ≠ '-' := by decide
    exact decide_eq_true (hhyphen d hd)
  have htake : ∀ a b c rest : List Char, (a ++ (b ++ c)).length = 16 →
      (a ++ (b ++ (c ++ rest))).take 16 = a ++ (b ++ c) := by
    intro a b c rest hlength
    rw [← List.append_assoc b, ← List.append_assoc a, List.take_left' hlength]
  have hgroups : places 16 16 (u.bits.toNat / 2 ^ 64) = places 16 8 (u.bits.toNat / 2 ^ 96) ++
      (places 16 4 (u.bits.toNat / 2 ^ 80) ++ places 16 4 (u.bits.toNat / 2 ^ 64)) := by
    have hhigh := places_add (b := 16) 8 8 (u.bits.toNat / 2 ^ 64)
    have hlow := places_add (b := 16) 4 4 (u.bits.toNat / 2 ^ 64)
    rw [Nat.div_div_eq_div_mul] at hhigh hlow
    rw [hhigh, hlow]
    rfl
  unfold UuidV4.text
  simp only [String.toList_ofList, List.filter_append, List.filter_cons, hkeep, hgroups]
  exact htake _ _ _ _ (by simp only [List.length_append, length_places])

theorem hexValue_of_digit {c : Char} (h : Digit 16 c) : hexValue c = some (digitValue c) := by
  obtain ⟨d, hd, rfl⟩ := h
  have hvalue : ∀ d < 16, hexValue (Nat.digitChar d) = some (digitValue (Nat.digitChar d)) := by
    decide
  exact hvalue d hd

theorem parseHex_digits {l : List Char} (h : ∀ c ∈ l, Digit 16 c) (n : Nat) :
    parseHex l n = some (l.foldl (fun n c => 16 * n + digitValue c) n) := by
  induction l generalizing n with
  | nil => rfl
  | cons c l ih =>
    have hc := hexValue_of_digit (h c (List.mem_cons_self ..))
    rw [parseHex, hc, Option.bind_some, ih fun x hx => h x (List.mem_cons_of_mem _ hx)]
    rfl

/-- `BigInt` reads the first 64 bits. -/
theorem onChainBookingId_text (u : UuidV4) :
    onChainBookingId u.text = some (toString u.first64.toNat) := by
  have hdigits : ∀ c ∈ places 16 16 (u.bits.toNat / 2 ^ 64), Digit 16 c :=
    fun c hc => digit_of_mem_places (by decide) hc
  have hvalue : value 16 (places 16 16 (u.bits.toNat / 2 ^ 64)) = u.first64.toNat := by
    rw [value_places (by decide) (by decide), toNat_first64]
    rfl
  have hread := parseHex_digits hdigits 0
  unfold onChainBookingId
  rw [take_text]
  cases hplaces : places 16 16 (u.bits.toNat / 2 ^ 64) with
  | nil =>
    have hlength := length_places (b := 16) 16 (u.bits.toNat / 2 ^ 64)
    rw [hplaces] at hlength
    cases hlength
  | cons c cs =>
    rw [hplaces] at hread hvalue
    show (parseHex (c :: cs) 0).map toString = _
    rw [hread, ← hvalue]
    rfl

/-! ## One number -/

/-- Every reader of the text takes it for the number. -/
structure Denotes (id : String) (n : UInt64) : Prop where
  numeral : Canonical 10 id.toList n.toNat
  bounds : 1 ≤ n.toNat ∧ n.toNat < 2 ^ 64
  bigInt : bigInt id = some (n.toNat : Int)
  argument : ∀ sdk input args, input.bookingId = id →
    bookingArguments sdk input = some args → args.head? = some (.u64 n)
  topic : ∀ m : UInt64, (Topic.integer m.toNat).text = id ↔ m = n
  event : ∀ (e : EventInfo) (m : UInt64), e.topics[1]? = some (.integer m.toNat) →
    ∀ hash name, e.matches hash id name = true ↔ e.inSuccessfulContractCall = true ∧
      e.txHash = hash ∧ e.topics[0]? = some (.string name) ∧ m = n

/-- A text is the decimal text of a number if and only if it is its numeral. -/
theorem toString_eq_iff {id : String} {n : Nat} (h : Canonical 10 id.toList n) (m : Nat) :
    toString m = id ↔ m = n := by
  have htext : ∀ m : Nat, (toString m).toList = Nat.toDigits 10 m := fun m => Nat.toList_repr
  obtain ⟨hpos, hdigits⟩ := h.eq_toDigits (by decide) (by decide)
  constructor
  · rintro rfl
    rw [htext] at h hdigits
    have hm : 0 < m := by
      by_contra hzero
      obtain rfl : m = 0 := by omega
      obtain ⟨c, hc, hne⟩ := h.leading
      exact hne (Option.some.inj hc).symm
    have hvalue := (canonical_toDigits (b := 10) (by decide) (by decide) hm).value_eq
    exact hvalue.symm.trans h.value_eq
  · rintro rfl
    exact String.toList_inj.mp ((htext m).trans hdigits.symm)

theorem denotes_toString {n : UInt64} (hn : 1 ≤ n.toNat) : Denotes (toString n.toNat) n := by
  have hnumeral : Canonical 10 (toString n.toNat).toList n.toNat := by
    rw [show (toString n.toNat).toList = Nat.toDigits 10 n.toNat from Nat.toList_repr]
    exact canonical_toDigits (by decide) (by decide) hn
  have htopic : ∀ m : UInt64, (Topic.integer m.toNat).text = toString n.toNat ↔ m = n := by
    intro m
    rw [← UInt64.toNat_inj]
    exact toString_eq_iff hnumeral m.toNat
  refine ⟨hnumeral, ⟨hn, n.toNat_lt⟩, bigInt_toString _, ?_, htopic, ?_⟩
  · intro sdk input args hid hargs
    unfold bookingArguments at hargs
    simp only [hid, u64ToScVal_toString, Option.bind_eq_bind, Option.bind_some,
      Option.bind_eq_some_iff] at hargs
    obtain ⟨_, -, _, -, _, -, _, -, hargs⟩ := hargs
    cases hargs
    rfl
  · intro e m hm hash name
    rw [matches_iff, hm, ← htopic m]
    rfl

/-! ## The rows of the database -/

/-- The UUIDs that a run is given are of version 4. -/
def Minted : Action → Prop
  | .create _ _ uuid _ => ∃ u : UuidV4, uuid = u.text
  | _ => True

/-- Every row has the id of its UUID, and no other row has it. -/
structure Numbered (s : Server) : Prop where
  coherent : Workflow.Coherent s.flow
  rows : ∀ id row, s.db.bookings.lookup id = some row →
    (∃ u : UuidV4, id = u.text) ∧ onChainBookingId id = some row.onChainBookingId
  unique : ∀ id id' row row', s.db.bookings.lookup id = some row →
    s.db.bookings.lookup id' = some row' → row.onChainBookingId = row'.onChainBookingId → id = id'

theorem numbered_of_fresh {s : Server} (h : Api.Fresh s) : Numbered s := by
  have hnone : ∀ id row, s.db.bookings.lookup id ≠ some row := by
    intro id row hrow
    rw [Server.db, h.flow.bookings, AList.lookup_empty] at hrow
    cases hrow
  exact ⟨Workflow.coherent_of_fresh h.flow, fun id row hrow => absurd hrow (hnone id row),
    fun id _ row _ hrow => absurd hrow (hnone id row)⟩

/-- A row is an old one, or new under a text that no row has. -/
theorem Numbered.row {C : Config} {s s' : Server} {a : Action} (h : Numbered s) (hminted : Minted a)
    (hstep : Api.step C s a = some s') {id : String} {row' : BookingRow}
    (hrow' : s'.db.bookings.lookup id = some row') :
    (∃ row, s.db.bookings.lookup id = some row ∧
      row'.onChainBookingId = row.onChainBookingId) ∨
    (∃ u : UuidV4, id = u.text) ∧ onChainBookingId id = some row'.onChainBookingId ∧
      (∃ sender now body, a = .create sender now id body) ∧
      ∀ r ∈ s.db.rows, r.onChainBookingId ≠ row'.onChainBookingId := by
  have hcoherent := coherent_of_step h.coherent hstep
  rcases row_of_step h.coherent hstep hrow' with ⟨row, hrow, hterms⟩ |
    ⟨sender, now, uuid, body, input, rfl, -, -, hcreated⟩
  · exact .inl ⟨row, hrow, hterms.onChainBookingId⟩
  · obtain rfl : id = uuid := (hcoherent.keyed id row' hrow').symm.trans hcreated.id
    exact .inr ⟨hminted, hcreated.onChain, ⟨sender, now, body, rfl⟩, hcreated.unique⟩

theorem numbered_step {C : Config} (s : Server) (a : Action) (s' : Server) (h : Numbered s)
    (hminted : Minted a) (hstep : Api.step C s a = some s') : Numbered s' := by
  refine ⟨coherent_of_step h.coherent hstep, fun id row' hrow' => ?_,
    fun id₁ id₂ row₁ row₂ hrow₁ hrow₂ hsame => ?_⟩
  · rcases h.row hminted hstep hrow' with ⟨row, hrow, honChain⟩ | ⟨hid, honChain, -⟩
    · rw [honChain]
      exact h.rows id row hrow
    · exact ⟨hid, honChain⟩
  · rcases h.row hminted hstep hrow₁ with ⟨x₁, hx₁, h₁⟩ | ⟨-, -, ⟨_, _, _, ha₁⟩, hnew₁⟩
    · rcases h.row hminted hstep hrow₂ with ⟨x₂, hx₂, h₂⟩ | ⟨-, -, -, hnew₂⟩
      · exact h.unique id₁ id₂ x₁ x₂ hx₁ hx₂ (h₁.symm.trans (hsame.trans h₂))
      · exact absurd (h₁.symm.trans hsame) (hnew₂ x₁ (mem_rows.mpr ⟨id₁, hx₁⟩))
    · rcases h.row hminted hstep hrow₂ with ⟨x₂, hx₂, h₂⟩ | ⟨-, -, ⟨_, _, _, ha₂⟩, -⟩
      · exact absurd (h₂.symm.trans hsame.symm) (hnew₁ x₂ (mem_rows.mpr ⟨id₂, hx₂⟩))
      · rw [ha₁] at ha₂
        cases ha₂
        rfl

/-! ## The loop -/

/-- **The id survives the loop.** Of every version 4 UUID `create` makes, with a database and
    without, the canonical decimal numeral of its first 64 bits, a positive `u64`. The form's
    `BigInt` and the contract's argument read that number from it, and the verifier's text
    comparison holds for the event of that number alone. Another UUID gives the same text
    exactly if it has the same first 64 bits; and in the database of a run no event fits two
    rows. -/
theorem booking_id_survives (u : UuidV4) :
    ∃ id, onChainBookingId u.text = some id ∧ Denotes id u.first64 ∧
      (∀ R network db now input db' b,
        Workflow.create R network db now u.text input = .ok (db', b) → b.onChainBookingId = id) ∧
      (∀ R bookings now input r,
        Memory.create R bookings now u.text input = .ok r → r.2.onChainBookingId = id) ∧
      (∀ u' : UuidV4, onChainBookingId u'.text = some id ↔ u'.first64 = u.first64) ∧
      ∀ (C : Config) (s₀ s : Server) (as : List Action), Api.Fresh s₀ →
        (machine C).exec s₀ as = some s → (∀ a ∈ as, Minted a) →
        ∀ row, s.db.bookings.lookup u.text = some row → row.onChainBookingId = id ∧
          ∀ id' row', s.db.bookings.lookup id' = some row' →
            (∃ u' : UuidV4, id' = u'.text ∧
              (row'.onChainBookingId = row.onChainBookingId ↔ u'.first64 = u.first64)) ∧
            ∀ (e : EventInfo) (hash hash' name name' : String),
              e.matches hash row.onChainBookingId name = true →
              e.matches hash' row'.onChainBookingId name' = true → id' = u.text := by
  have hsame : ∀ u' : UuidV4, toString u'.first64.toNat = toString u.first64.toNat ↔
      u'.first64 = u.first64 := by
    intro u'
    rw [toString_eq_iff (denotes_toString (first64_pos u)).numeral, UInt64.toNat_inj]
  refine ⟨_, onChainBookingId_text u, denotes_toString (first64_pos u), ?_, ?_, fun u' => ?_, ?_⟩
  · intro R network db now input db' b hcreate
    have honChain := (create_answer hcreate).2.2
    rw [onChainBookingId_text] at honChain
    exact (Option.some.inj honChain).symm
  · intro R bookings now input r hcreate
    have honChain := (memory_answer hcreate).2.2
    rw [onChainBookingId_text] at honChain
    exact (Option.some.inj honChain).symm
  · rw [onChainBookingId_text, Option.some.injEq, hsame]
  · intro C s₀ s as h₀ hrun hminted row hrow
    have hnumbered : Numbered s := (machine C).exec_invariant_along (P := fun _ a => Minted a)
      numbered_step hrun ((machine C).along_of_forall s₀ hminted) (numbered_of_fresh h₀)
    have hrow' := (hnumbered.rows u.text row hrow).2
    rw [onChainBookingId_text, Option.some.injEq] at hrow'
    refine ⟨hrow'.symm, fun id' row' hlookup => ⟨?_, ?_⟩⟩
    · obtain ⟨⟨u', rfl⟩, honChain⟩ := hnumbered.rows id' row' hlookup
      rw [onChainBookingId_text, Option.some.injEq] at honChain
      exact ⟨u', rfl, by rw [← honChain, ← hrow', hsame]⟩
    · intro e hash hash' name name' he he'
      have hid := (matches_iff.mp he).2.2.2
      have hid' := (matches_iff.mp he').2.2.2
      exact hnumbered.unique id' u.text row' row hlookup hrow (hid'.symm.trans hid)

section Sample

/-- The UUID of the samples. -/
def sampleUuid : UuidV4 := ⟨0x3b241101e2bb42558caf4136c566a962, by decide, by decide⟩

def otherUuid : UuidV4 := ⟨0x9b2e4c1a7f3d4a58b6c01e5d8f2a7c34, by decide, by decide⟩

theorem text_sampleUuid : sampleUuid.text = "3b241101-e2bb-4255-8caf-4136c566a962" := by
  decide +kernel

theorem text_otherUuid : otherUuid.text = "9b2e4c1a-7f3d-4a58-b6c0-1e5d8f2a7c34" := by
  decide +kernel

/-- An API with two listed properties. -/
def twoRooms : Server where
  flow :=
    { db :=
        { Workflow.listed.db with
          properties := [⟨"property", "loft", "host", true⟩, ⟨"property-2", "studio", "host", true⟩]
          slots := [⟨"slot", "property", 1893492000000⟩, ⟨"slot-2", "property-2", 1893492000000⟩] }
      calls := [] }
  exchanges := []
  auth := listedServer.auth

theorem fresh_twoRooms : Api.Fresh twoRooms :=
  ⟨⟨rfl, rfl, rfl, rfl, rfl⟩, rfl, fresh_listedServer.auth⟩

/-- Both are booked. -/
def bookRooms : List Action :=
  [bookRequest,
   .create "renter" 1892808000000 "9b2e4c1a-7f3d-4a58-b6c0-1e5d8f2a7c34"
     ⟨"studio", "renter", "host", "1000000", "2030-01-01T10:00:00.000Z",
       "6c86c6aac5fb24bcf5d9939cb7d7d5645ce39418f449e03b262dd4fa14b4b92b"⟩]

theorem minted_bookRooms : ∀ a ∈ bookRooms, Minted a := by
  intro a ha
  simp only [bookRooms, List.mem_cons, List.not_mem_nil, or_false] at ha
  rcases ha with rfl | rfl
  · exact ⟨sampleUuid, text_sampleUuid.symm⟩
  · exact ⟨otherUuid, text_otherUuid.symm⟩

/-- No event fits both bookings. -/
theorem booking_id_survives_rooms : ∃ s row row',
    (machine sampleConfig).exec twoRooms bookRooms = some s ∧
    s.db.bookings.lookup sampleUuid.text = some row ∧
    s.db.bookings.lookup otherUuid.text = some row' ∧
    row.onChainBookingId = "4261549847195894357" ∧ row'.onChainBookingId = "11181958601495104088" ∧
    ∀ (e : EventInfo) (hash hash' name name' : String),
      ¬ (e.matches hash row.onChainBookingId name = true ∧
        e.matches hash' row'.onChainBookingId name' = true) := by
  obtain ⟨s, row, row', hrun, hrow, hrow', hid, hid'⟩ : ∃ s row row',
      (machine sampleConfig).exec twoRooms bookRooms = some s ∧
      s.db.bookings.lookup "3b241101-e2bb-4255-8caf-4136c566a962" = some row ∧
      s.db.bookings.lookup "9b2e4c1a-7f3d-4a58-b6c0-1e5d8f2a7c34" = some row' ∧
      row.onChainBookingId = "4261549847195894357" ∧
      row'.onChainBookingId = "11181958601495104088" := ⟨_, _, _, rfl, rfl, rfl, rfl, rfl⟩
  rw [← text_sampleUuid] at hrow
  rw [← text_otherUuid] at hrow'
  obtain ⟨id, -, -, -, -, -, hruns⟩ := booking_id_survives sampleUuid
  obtain ⟨-, hrows⟩ := hruns sampleConfig twoRooms s bookRooms fresh_twoRooms hrun minted_bookRooms
    row hrow
  obtain ⟨-, hevents⟩ := hrows otherUuid.text row' hrow'
  refine ⟨s, row, row', hrun, hrow, hrow', hid, hid', fun e hash hash' name name' ⟨he, he'⟩ => ?_⟩
  have hsame := hevents e hash hash' name name' he he'
  rw [text_otherUuid, text_sampleUuid] at hsame
  exact absurd hsame (by decide)

end Sample

end PovDeposit.Joint
