/-
  What stands behind a recorded check-in.

  `consume` spends a challenge before the workflow is called, and the proof hash that the
  workflow then records is the nonce hash of that challenge. `Proven` follows the hash on its
  way: from the exchange that was answered with the token, over the stored challenge, the
  exchange that spent it and the call of the workflow, to the row of the booking. Nothing is
  asked of the tokens that are presented: a challenge that is spent was stored, whoever
  signed the text it was read from. A request may spell the booking's id as it likes; the
  challenge has it as the database does, and only under that spelling is it spent.
-/
import PovDeposit.Api.Requests

namespace PovDeposit.Api

open PovDeposit.Lib PovDeposit.Lib.Outcome
open PovDeposit.Contract (Address)

/-! ## The tables -/

/-- A booking that is stored, with its renter. -/
def Db.RentedBy (db : Db) (id : String) (renter : Address) : Prop :=
  ∃ row, db.bookings.lookup id = some row ∧ row.renter = renter

/-- A spent challenge for a booking, under its nonce hash. -/
def Db.Spent (db : Db) (id nonceHash : String) : Prop :=
  ∃ c, db.challenges.lookup nonceHash = some c ∧ c.bookingId = id ∧ c.consumedAt.isSome

/-- What every step keeps of both tables. -/
structure Db.Keeps (db db' : Db) : Prop where
  rows : Kept BookingRow.SameTerms db.bookings db'.bookings
  challenges : Kept CheckIn.Ages db.challenges db'.challenges

section Keeps

variable {db db' : Db} {id : String}

theorem keeps_refl (db : Db) : db.Keeps db :=
  ⟨kept_refl sameTerms_refl _, kept_refl CheckIn.ages_refl _⟩

theorem Db.Keeps.rentedBy (h : db.Keeps db') {renter : Address} (hr : db.RentedBy id renter) :
    db'.RentedBy id renter := by
  obtain ⟨row, hrow, hrenter⟩ := hr
  obtain ⟨row', hrow', hterms⟩ := h.rows id row hrow
  exact ⟨row', hrow', hterms.renter.trans hrenter⟩

theorem Db.Keeps.spent (h : db.Keeps db') {nonceHash : String} (hs : db.Spent id nonceHash) :
    db'.Spent id nonceHash := by
  obtain ⟨c, hc, hid, hspent⟩ := hs
  obtain ⟨c', hc', hages⟩ := h.challenges nonceHash c hc
  exact ⟨c', hc', hages.bookingId.trans hid, hages.consumedAt hspent⟩

variable {C : Config} {s s' : Server}

theorem keeps_of_flow {flow : Workflow.State} (h : Workflow.Coherent s.flow) {fa : Workflow.Action}
    (hflow : Workflow.step C.runtime C.network s.flow fa = some flow)
    (hothers : ∀ wallets challenges, fa = .others wallets challenges →
      Kept CheckIn.Ages s.db.challenges challenges) : s.db.Keeps flow.db := by
  refine ⟨fun id row hrow => Workflow.terms_step h hflow hrow, ?_⟩
  rcases Workflow.challenges_step hflow with hsame | ⟨wallets, challenges, ha, hnew⟩
  · rw [hsame]
    exact kept_refl CheckIn.ages_refl _
  · rw [hnew]
    exact hothers wallets challenges ha

theorem keeps_of_serves (h : Workflow.Coherent s.flow) {a : Action} (hserves : Serves C s a s') :
    s.db.Keeps s'.db := by
  cases hserves with
  | drive _ fa flow ha hflow =>
    refine keeps_of_flow h hflow fun wallets challenges hfa => ?_
    subst hfa
    cases a <;> simp [Action.drives] at ha
  | refused => exact keeps_refl _
  | receive => exact keeps_refl _
  | turn => exact keeps_refl _
  | store i e payload t id he hphase hid hnew flow hflow =>
    refine keeps_of_flow h hflow fun wallets challenges hfa => ?_
    cases hfa
    exact kept_insert_new CheckIn.ages_refl hnew
  | spend i now e id actor token payload c he hrequest hphase hfound hunspent flow hflow =>
    refine keeps_of_flow h hflow fun wallets challenges hfa => ?_
    cases hfa
    exact kept_insert CheckIn.ages_refl hfound (CheckIn.ages_spent c now)
  | forward i e call he hphase flow hflow =>
    exact keeps_of_flow h hflow fun wallets challenges hfa => by cases hfa
  | auth sender action wallets auth flow hflow =>
    refine keeps_of_flow h hflow fun wallets challenges hfa => ?_
    cases hfa
    exact kept_refl CheckIn.ages_refl _

end Keeps

/-! ## Exchanges and calls -/

/-- A call to check in comes with the hash of a spent challenge, for the id of its row. -/
def Workflow.Call.Backed (R : Runtime) (db : Db) : Workflow.Call → Prop
  | .checkIn id _ proofHash => R.Canonical id ∧ db.Spent id proofHash
  | _ => True

/-- What a handler knows in each phase. -/
def Exchange.Sound (R : Runtime) (db : Db) (e : Exchange) : Prop :=
  match e.phase with
  | .found booking => ∃ id, R.uuid e.request.id = some id ∧ db.RentedBy id booking.renter
  | .issuing payload => (∃ actor, e.request = .checkInChallenge payload.bookingId actor) ∧
      ∃ id, R.uuid payload.bookingId = some id ∧ db.RentedBy id payload.renter
  | .spending payload => ∃ c, db.challenges.lookup (CheckIn.hashNonce R payload.nonce) = some c ∧
      c.bookingId = e.request.id
  | .ready call => call.Backed R db
  | _ => True

/-- An exchange that was answered with a token for a booking, under a text that spells its id,
    and its renter, whose nonce has this hash. -/
def Server.Issued (R : Runtime) (s : Server) (id : String) (renter : Address)
    (nonceHash : String) : Prop :=
  ∃ (i : Nat) (e : Exchange) (actor : Address) (payload : CheckInPayload),
    s.exchange? i = some e ∧ e.request = .checkInChallenge payload.bookingId actor ∧
    R.uuid payload.bookingId = some id ∧ e.phase = .answered (CheckIn.token R payload) ∧
    payload.renter = renter ∧ CheckIn.hashNonce R payload.nonce = nonceHash

/-- A stored challenge is there under its nonce hash, and was issued for the renter of its
    booking. -/
def Server.Vouched (R : Runtime) (s : Server) (h : String) (c : CheckInChallenge) : Prop :=
  c.nonceHash = h ∧ ∃ renter, s.db.RentedBy c.bookingId renter ∧ s.Issued R c.bookingId renter h

theorem Server.Vouched.canonical {R : Runtime} {s : Server} {h : String} {c : CheckInChallenge}
    (hc : s.Vouched R h c) : R.Canonical c.bookingId := by
  obtain ⟨-, _, -, _, _, _, _, -, -, hid, -⟩ := hc
  exact R.uuid_idem _ _ hid

theorem Db.Keeps.backed {R : Runtime} {db db' : Db} (h : db.Keeps db') {call : Workflow.Call}
    (hb : call.Backed R db) : call.Backed R db' := by
  cases call with
  | checkIn => exact ⟨hb.1, h.spent hb.2⟩
  | _ => trivial

theorem backed_read {R : Runtime} {db : Db} {call : Workflow.Call} (h : call.Backed R db) :
    (call.read R).Backed R db := by
  cases call with
  | checkIn id actor proofHash =>
    rw [Workflow.read_of_canonical h.1]
    exact h
  | _ => trivial

theorem Db.Keeps.sound {R : Runtime} {db db' : Db} (h : db.Keeps db') {e : Exchange}
    (hs : e.Sound R db) : e.Sound R db' := by
  unfold Exchange.Sound at hs ⊢
  cases hphase : e.phase with
  | found b =>
    rw [hphase] at hs
    obtain ⟨id, hid, hrented⟩ := hs
    exact ⟨id, hid, h.rentedBy hrented⟩
  | issuing payload =>
    rw [hphase] at hs
    obtain ⟨hrequest, id, hid, hrented⟩ := hs
    exact ⟨hrequest, id, hid, h.rentedBy hrented⟩
  | spending payload =>
    rw [hphase] at hs
    obtain ⟨c, hc, hid⟩ := hs
    obtain ⟨c', hc', hages⟩ := h.challenges _ c hc
    exact ⟨c', hc', hages.bookingId.trans hid⟩
  | ready call =>
    rw [hphase] at hs
    exact h.backed hs
  | _ => trivial

theorem check_backed {request : Request} {check : Check} (h : request.check? = some check)
    (v : Workflow.Verification) (R : Runtime) (db : Db) : (check.call v).Backed R db := by
  cases request with
  | checkInChallenge => cases h
  | checkIn => cases h
  | _ =>
    cases h
    trivial

section Steps

variable {C : Config} {s s' : Server} {a : Action}

/-- The phase that a quiet step leads to. -/
theorem Exchange.Sound.turn {i : Nat} {e : Exchange} {phase : Phase}
    (hs : e.Sound C.runtime s.db) (h : Turn C s a i e phase) :
    ({ e with phase := phase } : Exchange).Sound C.runtime s.db := by
  cases h with
  | found b row ha hkind hphase hrow hb =>
    obtain ⟨id, hid, hrow⟩ := hrow
    exact ⟨id, hid, row, hrow, by rw [hb]; rfl⟩
  | verified transaction events check b v ha hcheck => exact check_backed hcheck v C.runtime s.db
  | issuing id actor b now nonce hrequest hphase =>
    simp only [Exchange.Sound, hphase, hrequest, Request.id] at hs
    exact ⟨⟨actor, hrequest⟩, hs⟩
  | spending id actor token payload c hrequest hphase hfound hbooking =>
    exact ⟨c, hfound, by rw [hbooking, hrequest]; rfl⟩
  | rejected => trivial

theorem Turn.atWork {i : Nat} {e : Exchange} {phase : Phase} (h : Turn C s a i e phase) :
    e.phase.atWork = true := by
  cases h with
  | found b row ha hkind hphase => rw [hphase]; rfl
  | verified transaction events check b v ha hcheck hphase => rw [hphase]; rfl
  | issuing id actor b now nonce hrequest hphase => rw [hphase]; rfl
  | spending id actor token payload c hrequest hphase => rw [hphase]; rfl
  | rejected error hphase => exact hphase

/-- An exchange that is over stays as it is. -/
theorem exchange?_keep (h : Serves C s a s') {j : Nat} {x : Exchange} (hx : s.exchange? j = some x)
    (hover : x.phase.atWork = false) : s'.exchange? j = some x := by
  -- the exchange that moves is another one
  have hturn : ∀ i e e' (flow : Workflow.State), s.exchange? i = some e → e.phase.atWork = true →
      (Server.turn { s with flow := flow } i e').exchange? j = some x := by
    intro i e e' flow he hwork
    have hne : i ≠ j := by
      rintro rfl
      obtain rfl : e = x := Option.some.inj (he.symm.trans hx)
      rw [hover] at hwork
      cases hwork
    rw [Server.exchange?, Server.turn, List.getElem?_set_ne hne]
    exact hx
  cases h with
  | drive => exact hx
  | refused => exact hx
  | receive => exact getElem?_concat_keep hx
  | turn _ i e phase he ht => exact hturn i e _ s.flow he ht.atWork
  | store i e payload t id he hphase hid hnew flow hflow =>
      exact hturn i e _ flow he (by rw [hphase]; rfl)
  | spend i now e id actor token payload c he hrequest hphase hfound hunspent flow hflow =>
    exact hturn i e _ flow he (by rw [hphase]; rfl)
  | forward i e call he hphase flow hflow => exact hturn i e _ flow he (by rw [hphase]; rfl)
  | auth => exact hx

theorem issued_of_serves (h : Serves C s a s') {id nonceHash : String} {renter : Address}
    (hi : s.Issued C.runtime id renter nonceHash) : s'.Issued C.runtime id renter nonceHash := by
  obtain ⟨i, e, actor, payload, he, hrequest, hid, hphase, hpayload⟩ := hi
  exact ⟨i, e, actor, payload, exchange?_keep h he (by rw [hphase]; rfl), hrequest, hid, hphase,
    hpayload⟩

/-- The exchanges after a step that moved one of them, from those before it. -/
theorem sound_turn {i : Nat} {e e' : Exchange}
    (hs : ∀ j x, s.exchange? j = some x → x.Sound C.runtime s.db) (hkeeps : s.db.Keeps s'.db)
    (he : s.exchange? i = some e) (hexchanges : s'.exchanges = (s.turn i e').exchanges)
    (hsound : e'.Sound C.runtime s'.db) :
    ∀ j x, s'.exchange? j = some x → x.Sound C.runtime s'.db := by
  intro j x hx
  rcases exchange?_of_turn he hexchanges hx with ⟨-, rfl⟩ | ⟨-, hx⟩
  · exact hsound
  · exact hkeeps.sound (hs j x hx)

theorem sound_of_serves (h : Workflow.Coherent s.flow) (hserves : Serves C s a s')
    (hvouched : ∀ x c, s.db.challenges.lookup x = some c → s.Vouched C.runtime x c)
    (hs : ∀ j x, s.exchange? j = some x → x.Sound C.runtime s.db) :
    ∀ j x, s'.exchange? j = some x → x.Sound C.runtime s'.db := by
  have hkeeps := keeps_of_serves h hserves
  cases hserves with
  | drive => exact fun j x hx => hkeeps.sound (hs j x hx)
  | refused => exact hs
  | receive sender request phase hphase =>
    intro j x hx
    rcases getElem?_of_concat hx with hx | ⟨-, rfl⟩
    · exact hs j x hx
    · subst hphase
      cases request.valid <;> trivial
  | turn _ i e phase he ht => exact sound_turn hs hkeeps he rfl ((hs i e he).turn ht)
  | store i e payload t id he hphase hid hnew flow hflow => exact sound_turn hs hkeeps he rfl trivial
  | spend i now e id actor token payload c he hrequest hphase hfound hunspent flow hflow =>
    refine sound_turn hs hkeeps he rfl ?_
    -- the challenge is spent in this step
    have hsound := hs i e he
    simp only [Exchange.Sound, hphase, hrequest, Request.id, hfound, Option.some.injEq,
      exists_eq_left'] at hsound
    cases hflow
    exact ⟨hsound ▸ (hvouched _ c hfound).canonical, _, AList.lookup_insert _, hsound, rfl⟩
  | forward i e call he hphase flow hflow => exact sound_turn hs hkeeps he rfl trivial
  | auth => exact fun j x hx => hkeeps.sound (hs j x hx)

/-- The calls after a step of the workflow, with what a new one must satisfy. -/
theorem calls_of_flow {fa : Workflow.Action} {flow : Workflow.State}
    (hflow : Workflow.step C.runtime C.network s.flow fa = some flow) (hkeeps : s.db.Keeps flow.db)
    (hs : ∀ k p, s.flow.call? k = some p → p.call.Backed C.runtime s.db)
    (hnew : ∀ c, fa = .call c → c.Backed C.runtime s.db) :
    ∀ k p, flow.call? k = some p → p.call.Backed C.runtime flow.db := by
  intro k p hp
  rcases Workflow.call_of_step hflow hp with ⟨q, hq, hsame⟩ | ⟨c, ha, rfl⟩
  · exact hkeeps.backed (hsame ▸ hs k q hq)
  · exact hkeeps.backed (backed_read (hnew c ha))

theorem calls_of_serves (h : Workflow.Coherent s.flow) (hserves : Serves C s a s')
    (hsound : ∀ j x, s.exchange? j = some x → x.Sound C.runtime s.db)
    (hs : ∀ k p, s.flow.call? k = some p → p.call.Backed C.runtime s.db) :
    ∀ k p, s'.flow.call? k = some p → p.call.Backed C.runtime s'.db := by
  have hkeeps := keeps_of_serves h hserves
  cases hserves with
  | drive _ fa flow ha hflow =>
    refine calls_of_flow hflow hkeeps hs fun c hfa => ?_
    subst hfa
    cases a <;> simp [Action.drives] at ha
  | refused => exact hs
  | receive => exact hs
  | turn => exact hs
  | store i e payload t id he hphase hid hnew flow hflow =>
    exact calls_of_flow hflow hkeeps hs fun c hfa => by cases hfa
  | spend i now e id actor token payload c he hrequest hphase hfound hunspent flow hflow =>
    exact calls_of_flow hflow hkeeps hs fun c hfa => by cases hfa
  | forward i e call he hphase flow hflow =>
    refine calls_of_flow hflow hkeeps hs fun c hfa => ?_
    cases hfa
    have hcall := hsound i e he
    rw [Exchange.Sound, hphase] at hcall
    exact hcall
  | auth sender action wallets auth flow hflow =>
    exact calls_of_flow hflow hkeeps hs fun c hfa => by cases hfa

theorem vouched_of_serves (h : Workflow.Coherent s.flow) (hserves : Serves C s a s')
    (hsound : ∀ j x, s.exchange? j = some x → x.Sound C.runtime s.db)
    (hs : ∀ x c, s.db.challenges.lookup x = some c → s.Vouched C.runtime x c) :
    ∀ x c, s'.db.challenges.lookup x = some c → s'.Vouched C.runtime x c := by
  have hkeeps := keeps_of_serves h hserves
  have hissued : ∀ id nonceHash renter, s.Issued C.runtime id renter nonceHash →
      s'.Issued C.runtime id renter nonceHash := fun _ _ _ hi => issued_of_serves hserves hi
  -- a challenge with the same binding stays vouched for
  have hkeep : ∀ x c c', s.Vouched C.runtime x c → c'.nonceHash = c.nonceHash →
      c'.bookingId = c.bookingId → s'.Vouched C.runtime x c' := by
    rintro x c c' ⟨hhash, renter, hrented, hi⟩ hnonce hbooking
    refine ⟨hnonce.trans hhash, renter, ?_, ?_⟩
    · rw [hbooking]
      exact hkeeps.rentedBy hrented
    · rw [hbooking]
      exact hissued _ _ _ hi
  have hflow : ∀ fa flow, Workflow.step C.runtime C.network s.flow fa = some flow →
      (∀ wallets challenges, fa = .others wallets challenges → challenges = s.db.challenges) →
      flow.db.challenges = s.db.challenges := by
    intro fa flow hstep hothers
    rcases Workflow.challenges_step hstep with hsame | ⟨wallets, challenges, ha, hnew⟩
    · exact hsame
    · exact hnew.trans (hothers wallets challenges ha)
  have hsame : s'.db.challenges = s.db.challenges →
      ∀ x c, s'.db.challenges.lookup x = some c → s'.Vouched C.runtime x c := by
    intro heq x c hc
    rw [heq] at hc
    exact hkeep x c c (hs x c hc) rfl rfl
  cases hserves with
  | drive _ fa flow ha hstep =>
    refine hsame (hflow fa flow hstep fun wallets challenges hfa => ?_)
    subst hfa
    cases a <;> simp [Action.drives] at ha
  | refused => exact hs
  | receive => exact hsame rfl
  | turn => exact hsame rfl
  | store i e payload t id he hphase hid hnew flow hstep =>
    cases hstep
    intro x c hc
    rcases lookup_of_insert hc with ⟨rfl, rfl⟩ | ⟨-, hc⟩
    · have hissuing := hsound i e he
      rw [Exchange.Sound, hphase] at hissuing
      obtain ⟨⟨actor, hrequest⟩, key, hkey, hrented⟩ := hissuing
      obtain rfl : id = key := Option.some.inj (hid.symm.trans hkey)
      exact ⟨rfl, payload.renter, hrented, i, _, actor, payload, exchange?_turn_self he, hrequest,
        hid, rfl, rfl, rfl⟩
    · exact hkeep x c c (hs x c hc) rfl rfl
  | spend i now e id actor token payload c he hrequest hphase hfound hunspent flow hstep =>
    cases hstep
    intro x d hd
    rcases lookup_of_insert hd with ⟨rfl, rfl⟩ | ⟨-, hd⟩
    · exact hkeep _ c _ (hs _ c hfound) rfl rfl
    · exact hkeep x d d (hs x d hd) rfl rfl
  | forward i e call he hphase flow hstep =>
    exact hsame (hflow _ flow hstep fun wallets challenges hfa => by cases hfa)
  | auth sender action wallets auth flow hstep =>
    refine hsame (hflow _ flow hstep fun wallets' challenges hfa => ?_)
    cases hfa
    rfl

end Steps

/-! ## Rows -/

/-- A row has a proof hash exactly if it is checked in, and then the hash of a spent challenge
    of its booking. -/
def BookingRow.Attested (row : BookingRow) (db : Db) (id : String) : Prop :=
  match row.checkInProofHash with
  | some proofHash =>
      (row.status = .checkedIn ∨ row.status = .completed) ∧ db.Spent id proofHash
  | none => row.status ≠ .checkedIn ∧ row.status ≠ .completed

section Rows

variable {db : Db} {id : String} {row : BookingRow}

theorem BookingRow.Attested.of_some {proofHash : String} (h : row.Attested db id)
    (hproof : row.checkInProofHash = some proofHash) :
    (row.status = .checkedIn ∨ row.status = .completed) ∧ db.Spent id proofHash := by
  rw [BookingRow.Attested, hproof] at h
  exact h

theorem BookingRow.Attested.exists_proof (h : row.Attested db id)
    (hstatus : row.status = .checkedIn ∨ row.status = .completed) :
    ∃ proofHash, row.checkInProofHash = some proofHash := by
  cases hproof : row.checkInProofHash with
  | some proofHash => exact ⟨proofHash, rfl⟩
  | none =>
    rw [BookingRow.Attested, hproof] at h
    rcases hstatus with hstatus | hstatus
    · exact absurd hstatus h.1
    · exact absurd hstatus h.2

theorem BookingRow.Attested.proof_none (h : row.Attested db id) (hin : row.status ≠ .checkedIn)
    (hdone : row.status ≠ .completed) : row.checkInProofHash = none := by
  cases hproof : row.checkInProofHash with
  | none => rfl
  | some proofHash =>
    rcases (h.of_some hproof).1 with hstatus | hstatus
    · exact absurd hstatus hin
    · exact absurd hstatus hdone

theorem Db.Keeps.attested {db' : Db} (h : db.Keeps db') (hrow : row.Attested db id) :
    row.Attested db' id := by
  unfold BookingRow.Attested at hrow ⊢
  split
  · rename_i proofHash hproof
    rw [hproof] at hrow
    exact ⟨hrow.1, h.spent hrow.2⟩
  · rename_i hproof
    rw [hproof] at hrow
    exact hrow

/-- A write leaves a proof hash as it is: only a check-in comes with one, and it finds a
    funded row. -/
theorem proof_apply {call : Workflow.Call} {proofHash : String} (h : row.Attested db id)
    (hadmits : call.op.admits row = true) (hproof : row.checkInProofHash = some proofHash) :
    (call.op.apply row).checkInProofHash = some proofHash := by
  obtain ⟨hstatus, -⟩ := h.of_some hproof
  cases call with
  | checkIn id' actor proof =>
    have hsource : row.status = .funded := (Workflow.admits_iff.mp hadmits).1
    rw [hsource] at hstatus
    simp at hstatus
  | _ => exact hproof

theorem attested_apply {R : Runtime} {call : Workflow.Call} (h : row.Attested db id)
    (hadmits : call.op.admits row = true) (hid : call.op.id = id) (hbacked : call.Backed R db) :
    (call.op.apply row).Attested db id := by
  have hsource : row.status = call.op.source := (Workflow.admits_iff.mp hadmits).1
  cases call with
  | checkIn id' actor proof =>
    obtain rfl : id' = id := hid
    exact ⟨.inl rfl, hbacked.2⟩
  | confirm id' actor hash =>
    obtain ⟨proofHash, hproof⟩ := h.exists_proof (.inl hsource)
    have hnew := proof_apply h hadmits hproof
    rw [BookingRow.Attested, hnew]
    exact ⟨.inr rfl, (h.of_some hproof).2⟩
  | fund id' hash v =>
    have hpending : row.status = .pendingFunding := hsource
    have hnone := h.proof_none (by rw [hpending]; decide) (by rw [hpending]; decide)
    simp [BookingRow.Attested, Workflow.Operation.apply, Workflow.Call.op, Workflow.fund, hnone]
  | refund id' actor hash v =>
    have hfunded : row.status = .funded := hsource
    have hnone := h.proof_none (by rw [hfunded]; decide) (by rw [hfunded]; decide)
    simp [BookingRow.Attested, Workflow.Operation.apply, Workflow.Call.op, Workflow.refund, hnone]

end Rows

/-! ## The invariant -/

structure Proven (C : Config) (s : Server) : Prop where
  coherent : Workflow.Coherent s.flow
  exchanges : ∀ i e, s.exchange? i = some e → e.Sound C.runtime s.db
  calls : ∀ k p, s.flow.call? k = some p → p.call.Backed C.runtime s.db
  challenges : ∀ h c, s.db.challenges.lookup h = some c → s.Vouched C.runtime h c
  rows : ∀ id row, s.db.bookings.lookup id = some row → row.Attested s.db id

theorem proven_of_fresh {C : Config} {s : Server} (h : Fresh s) : Proven C s := by
  refine ⟨Workflow.coherent_of_fresh h.flow, ?_, ?_, ?_, ?_⟩
  · intro i e he
    rw [Server.exchange?, h.exchanges] at he
    cases he
  · intro k p hp
    rw [Workflow.State.call?, h.flow.calls] at hp
    cases hp
  · intro x c hc
    rw [Server.db, h.flow.challenges, AList.lookup_empty] at hc
    cases hc
  · intro id row hrow
    rw [Server.db, h.flow.bookings, AList.lookup_empty] at hrow
    cases hrow

section Proven

variable {C : Config} {s s' : Server} {a : Action}

/-- What a step does to a stored row: nothing, or what a backed call writes. -/
theorem Proven.row (h : Proven C s) (hstep : step C s a = some s') {id : String} {row : BookingRow}
    (hrow : s.db.bookings.lookup id = some row) :
    ∃ row', s'.db.bookings.lookup id = some row' ∧ (row' = row ∨
      ∃ call : Workflow.Call, call.op.id = id ∧ call.op.admits row = true ∧ call.Backed C.runtime s.db ∧
        row' = call.op.apply row) := by
  rcases flow_of_step hstep with hsame | ⟨fa, hfa⟩
  · rw [Server.db, hsame]
    exact ⟨row, hrow, .inl rfl⟩
  · obtain ⟨row', hrow', hcases⟩ := Workflow.row_step h.coherent hfa hrow
    refine ⟨row', hrow', ?_⟩
    rcases hcases with rfl | ⟨i, p, -, hp, hid, hadmits, rfl⟩
    · exact .inl rfl
    · exact .inr ⟨p.call, hid, hadmits, h.calls i p hp, rfl⟩

theorem Proven.attested (h : Proven C s) (hstep : step C s a = some s') {id : String}
    {row' : BookingRow} (hrow' : s'.db.bookings.lookup id = some row') :
    row'.Attested s'.db id := by
  have hkeeps := keeps_of_serves h.coherent (serves_of_step hstep)
  cases hold : s.db.bookings.lookup id with
  | some row =>
    obtain ⟨x, hx, hcases⟩ := h.row hstep hold
    obtain rfl : row' = x := Option.some.inj (hrow'.symm.trans hx)
    rcases hcases with rfl | ⟨call, hid, hadmits, hbacked, rfl⟩
    · exact hkeeps.attested (h.rows id row' hold)
    · exact attested_apply (hkeeps.attested (h.rows id row hold)) hadmits hid (hkeeps.backed hbacked)
  | none =>
    rcases row_of_step h.coherent hstep hrow' with ⟨row, hrow, -⟩ | ⟨_, _, _, _, _, -, -, -, hcreated⟩
    · rw [hold] at hrow
      cases hrow
    · rw [BookingRow.Attested, hcreated.proof, hcreated.status]
      exact ⟨by decide, by decide⟩

theorem proven_step (s : Server) (a : Action) (s' : Server) (h : Proven C s)
    (hstep : step C s a = some s') : Proven C s' := by
  have hserves := serves_of_step hstep
  exact ⟨coherent_of_step h.coherent hstep, sound_of_serves h.coherent hserves h.challenges h.exchanges,
    calls_of_serves h.coherent hserves h.exchanges h.calls,
    vouched_of_serves h.coherent hserves h.exchanges h.challenges, fun id row' => h.attested hstep⟩

theorem proven_of_exec {s₀ : Server} {as : List Action} (h₀ : Fresh s₀)
    (hrun : (machine C).exec s₀ as = some s) : Proven C s :=
  (machine C).exec_invariant proven_step hrun (proven_of_fresh h₀)

/-- A proof hash stays as it is, in every run from a state with the invariant. -/
theorem Proven.proof_kept (h : Proven C s) {as : List Action} (hrun : (machine C).exec s as = some s')
    {id proofHash : String} {row : BookingRow} (hrow : s.db.bookings.lookup id = some row)
    (hproof : row.checkInProofHash = some proofHash) :
    ∃ row', s'.db.bookings.lookup id = some row' ∧ row'.checkInProofHash = some proofHash := by
  have hkept : Proven C s' ∧ ∃ row', s'.db.bookings.lookup id = some row' ∧
      row'.checkInProofHash = some proofHash := by
    refine (machine C).exec_invariant (I := fun u => Proven C u ∧ ∃ row',
      u.db.bookings.lookup id = some row' ∧ row'.checkInProofHash = some proofHash) ?_ hrun
      ⟨h, row, hrow, hproof⟩
    rintro u a u' ⟨hu, x, hx, hproof⟩ hstep
    refine ⟨proven_step u a u' hu hstep, ?_⟩
    obtain ⟨y, hy, hcases⟩ := hu.row hstep hx
    rcases hcases with rfl | ⟨call, -, hadmits, -, rfl⟩
    · exact ⟨y, hy, hproof⟩
    · exact ⟨_, hy, proof_apply (hu.rows id x hx) hadmits hproof⟩
  exact hkept.2

end Proven

/-- **Every check-in is backed by a spent challenge.** In every run of the API, whatever the
    bodies: a booking that is checked in or completed has a proof hash, and under that nonce
    hash a challenge is stored that is spent, is for this booking, and was issued for its
    renter; no two bookings have one proof hash; and a proof hash stays what it is in every
    continuation of the run. -/
theorem check_ins_backed (C : Config) (s₀ s : Server) (as : List Action) (h₀ : Fresh s₀)
    (hrun : (machine C).exec s₀ as = some s) :
    (∀ id row, s.db.bookings.lookup id = some row →
      row.status = .checkedIn ∨ row.status = .completed →
      ∃ proofHash challenge, row.checkInProofHash = some proofHash ∧
        s.db.challenges.lookup proofHash = some challenge ∧ challenge.nonceHash = proofHash ∧
        challenge.bookingId = row.id ∧ challenge.consumedAt.isSome ∧
        s.Issued C.runtime row.id row.renter proofHash) ∧
    (∀ id id' row row' proofHash, s.db.bookings.lookup id = some row →
      s.db.bookings.lookup id' = some row' → row.checkInProofHash = some proofHash →
      row'.checkInProofHash = some proofHash → id = id') ∧
    (∀ bs t, (machine C).exec s bs = some t → ∀ id row proofHash,
      s.db.bookings.lookup id = some row → row.checkInProofHash = some proofHash →
      ∃ row', t.db.bookings.lookup id = some row' ∧ row'.checkInProofHash = some proofHash) := by
  have h := proven_of_exec h₀ hrun
  refine ⟨?_, ?_, fun bs t hbs id row proofHash => h.proof_kept hbs⟩
  · intro id row hrow hstatus
    obtain ⟨proofHash, hproof⟩ := (h.rows id row hrow).exists_proof hstatus
    obtain ⟨-, c, hc, hbooking, hspent⟩ := (h.rows id row hrow).of_some hproof
    obtain ⟨hhash, renter, ⟨x, hx, hrenter⟩, hissued⟩ := h.challenges proofHash c hc
    -- the booking of the challenge is this one
    rw [hbooking] at hx hissued
    obtain rfl : row = x := Option.some.inj (hrow.symm.trans hx)
    obtain rfl : row.id = id := h.coherent.keyed id row hrow
    subst hrenter
    exact ⟨proofHash, c, hproof, hc, hhash, hbooking, hspent, hissued⟩
  · intro id id' row row' proofHash hrow hrow' hproof hproof'
    obtain ⟨-, c, hc, hbooking, -⟩ := (h.rows id row hrow).of_some hproof
    obtain ⟨-, c', hc', hbooking', -⟩ := (h.rows id' row' hrow').of_some hproof'
    obtain rfl : c = c' := Option.some.inj (hc.symm.trans hc')
    exact hbooking.symm.trans hbooking'

theorem check_ins_backed_presence :
    ∃ as s row, ∃ challenge : CheckInChallenge, (machine sampleConfig).exec listedServer as = some s ∧
      s.db.bookings.lookup "3b241101-e2bb-4255-8caf-4136c566a962" = some row ∧
      row.status = .checkedIn ∧ challenge.bookingId = row.id ∧ challenge.consumedAt.isSome ∧
      row.checkInProofHash = some challenge.nonceHash := by
  obtain ⟨i, k, n, t, row, hrun, hhost, hrow⟩ := presence_sample
  obtain ⟨proofHash, challenge, hproof, -, hhash, hbooking, hspent, -⟩ :=
    (check_ins_backed sampleConfig listedServer t _ fresh_listedServer hrun).1 _ _ hrow (.inl rfl)
  exact ⟨_, t, _, challenge, hrun, hrow, rfl, hbooking, hspent, hhash ▸ hproof⟩

end PovDeposit.Api
