/-
  The list of recent activity (`activity` of apps/api/src/booking/booking-workflow.service.ts,
  apps/web/components/recent-activity.tsx).

  The home page calls it verified, and links every entry to a transaction. `activity_verified`
  says what of that holds in every state that the contract and the API reach together: the
  link of an entry leads to a successful transaction that published the event of the booking,
  and the entries are the fifty bookings past their funding that were written last.

  The column `updatedAt` is a parameter, and so is the order of rows that were written at one
  time.
-/
import PovDeposit.Api.Reading
import PovDeposit.Joint.System
import PovDeposit.Web.Network

namespace PovDeposit.Joint

open PovDeposit.Lib
open PovDeposit.Api (BookingRow BookingStatus BookingResponse BookingController.activity
  BookingController.recent BookingController.serialize)
open PovDeposit.Contract (LoggedEvent)

/-! ## The page -/

/-- `item.settlementTransactionHash || item.fundingTransactionHash` -/
def itemHash (item : BookingResponse) : Option String :=
  (item.settlementTransactionHash.filter (· ≠ "")).or (item.fundingTransactionHash.filter (· ≠ ""))

/-- The `href` of an entry. -/
def itemLink (profile : Web.NetworkProfile) (item : BookingResponse) : Option String :=
  (itemHash item).map fun hash => Web.explorerTransactionUrl hash profile

/-! ## The first of a sorted list -/

section Take

variable {α : Type*} {r : α → α → Prop} {l : List α}

/-- What does not come first comes after everything that does. -/
theorem mem_take_or (h : l.Pairwise r) (n : Nat) {x : α} (hx : x ∈ l) :
    x ∈ l.take n ∨ (l.take n).length = n ∧ ∀ y ∈ l.take n, r y x := by
  have hsplit : l = l.take n ++ l.drop n := (List.take_append_drop n l).symm
  rw [hsplit] at h hx
  rcases List.mem_append.mp hx with htake | hdrop
  · exact .inl htake
  · have hmore : 0 < (l.drop n).length := List.length_pos_of_mem hdrop
    rw [List.length_drop] at hmore
    refine .inr ⟨?_, fun y hy => (List.pairwise_append.mp h).2.2 y hy x hdrop⟩
    rw [List.length_take]
    omega

end Take

/-! ## The rows behind the list -/

/-- The transaction under a hash is recorded and succeeded, and the event is one of its own. -/
def Published (c : Chain) (name bookingId hash : String) : Prop :=
  ∃ t ∈ c.transactions, ∃ e ∈ c.ledger.escrow.events, t.hash = hash ∧ t.successful = true ∧
    e.txHash = hash ∧ e.ledger = t.ledger ∧ eventName e.event = name ∧
    idText e.event.bookingId = bookingId

theorem Logged.published {d : Contract.Deployment} {c : Chain} (h : Logged d c)
    {name bookingId hash : String} (hshown : Shown c.ledger.escrow.events name bookingId hash) :
    Published c name bookingId hash ∧ hash ≠ "" := by
  obtain ⟨e, he, hname, hid, rfl⟩ := hshown
  obtain ⟨t, ht, hhash, hledger, hsuccess⟩ := h.events e he
  refine ⟨⟨t, ht, e, he, hhash, hsuccess, rfl, hledger.symm, hname, hid⟩, fun hempty => ?_⟩
  have hvalid := h.hashes t ht
  rw [hhash, hempty] at hvalid
  cases hvalid

/-- The rows have ids of their own. -/
theorem nodup_ids {s : Api.Workflow.State} (h : Api.Workflow.Coherent s) :
    (s.db.rows.map BookingRow.id).Nodup := by
  have hkeys : s.db.rows.map BookingRow.id = s.db.bookings.keys := by
    unfold Api.Db.rows AList.keys List.keys
    rw [List.map_map]
    refine List.map_congr_left fun e he => ?_
    exact h.keyed e.1 e.2 (List.mem_dlookup s.db.bookings.nodupKeys he)
  rw [hkeys]
  exact s.db.bookings.nodupKeys

section Rows

variable {S : Setup} {s : State} (h : Backed S s) {id : String} {row : BookingRow}
  (hrow : s.db.bookings.lookup id = some row)
include h hrow

/-- A booking has a payment once it is past its funding. -/
theorem Backed.paid_iff : (s.db.payments.any fun t => t.bookingId = row.id) = true ↔
    row.status ≠ .pendingFunding := by
  have hid : row.id = id := h.paid.coherent.keyed id row hrow
  have hdues := h.paid.dues id row hrow
  have hlifecycle := h.paid.coherent.lifecycle id row hrow
  have hany : (s.db.payments.any fun t => t.bookingId = row.id) = true ↔
      ∃ k ∈ Api.dues row.status, (fun _ => true) k = true := by
    rw [← Api.shown_iff hdues, Option.isSome_map, List.find?_isSome, hid]
    simp [Api.paymentsOf]
  rw [hany]
  generalize row.status = status at hlifecycle
  revert hlifecycle
  cases status <;> decide

/-- A payment of the booking rests on an event. -/
theorem Backed.published (f : Api.TransactionKind → Bool) (name : String) {hash : String}
    (hhash : ((Api.paymentsOf s.db row.id).find? fun t => f t.kind).map (·.hash) = some hash)
    (hname : ∀ kind ∈ Api.dues row.status, f kind = true → evidence (outcome kind) = some name) :
    Published s.chain name row.onChainBookingId hash ∧ hash ≠ "" := by
  have hid : row.id = id := h.paid.coherent.keyed id row hrow
  obtain ⟨t, ht, rfl⟩ := Option.map_eq_some_iff.mp hhash
  have hmem := List.mem_of_find?_eq_some ht
  have hkind := List.find?_some ht
  rw [hid] at hmem
  have hdue := (h.paid.dues id row hrow).kind_mem hmem
  obtain ⟨hpayment, hbooking⟩ := List.mem_filter.mp hmem
  obtain ⟨x, hx, hshown⟩ := h.payments t hpayment name (hname t.kind hdue hkind)
  rw [of_decide_eq_true hbooking, hrow] at hx
  cases hx
  exact h.logged.published hshown

/-- The entry of a booking that is past its funding has a link, and the link has its event. -/
theorem Backed.item (network : String) (hpast : row.status ≠ .pendingFunding) :
    ∃ hash, itemHash (BookingController.serialize network (Api.Workflow.load s.db row)) = some hash ∧
      Published s.chain (if row.status = .refunded then "deposit_refunded" else "booking_funded")
        row.onChainBookingId hash := by
  have hid : row.id = id := h.paid.coherent.keyed id row hrow
  have hlifecycle := h.paid.coherent.lifecycle id row hrow
  have hdues := h.paid.dues id row hrow
  rw [← hid] at hdues
  have hfunding := Api.shown_iff hdues fun k => k = .fund
  have hsettlement := Api.shown_iff hdues fun k => k ≠ .fund
  by_cases hrefunded : row.status = .refunded
  · obtain ⟨hash, hhash⟩ := Option.isSome_iff_exists.mp (hsettlement.mpr (by rw [hrefunded]; decide))
    obtain ⟨hpublished, hne⟩ := h.published hrow (fun k => k ≠ .fund) "deposit_refunded" hhash
      (by rw [hrefunded]; decide)
    refine ⟨hash, ?_, by rw [if_pos hrefunded]; exact hpublished⟩
    show ((_ : Option String).filter _).or _ = _
    rw [show (BookingController.serialize network
      (Api.Workflow.load s.db row)).settlementTransactionHash = some hash from hhash]
    simp [hne]
  · have hnone : ((Api.paymentsOf s.db row.id).find? fun t => t.kind ≠ .fund).map (·.hash) =
        none := by
      rw [← Option.not_isSome_iff_eq_none, hsettlement]
      generalize row.status = status at hlifecycle hrefunded
      revert hlifecycle hrefunded
      cases status <;> decide
    obtain ⟨hash, hhash⟩ := Option.isSome_iff_exists.mp (hfunding.mpr (by
      generalize row.status = status at hlifecycle hpast
      revert hlifecycle hpast
      cases status <;> decide))
    obtain ⟨hpublished, hne⟩ := h.published hrow (fun k => k = .fund) "booking_funded" hhash (by
      intro kind _ hkind
      rw [of_decide_eq_true hkind]
      rfl)
    refine ⟨hash, ?_, by rw [if_neg hrefunded]; exact hpublished⟩
    show ((_ : Option String).filter _).or _ = _
    rw [show (BookingController.serialize network
      (Api.Workflow.load s.db row)).settlementTransactionHash = none from hnone,
      show (BookingController.serialize network
        (Api.Workflow.load s.db row)).fundingTransactionHash = some hash from hhash]
    simp [hne]

end Rows

/-- **The list of recent activity is verified.** In every state that the contract and the API
    reach together, in whatever order the database has rows of one time: every entry is what
    `get` answers for its booking, which is past its funding, and has a link, to a transaction
    that is recorded as successful and published the event of a refund where the booking is
    refunded, else of its funding; no booking is listed twice; there are 50 entries at most,
    the last to be written first; and a booking past its funding that is not listed is behind
    50 that were written no earlier. -/
theorem activity_verified (S : Setup) (s₀ s : State) (as : List Action) (h₀ : FreshSystem S s₀)
    (hrun : (machine S).exec s₀ as = some s) (updatedAt : String → Int) (stored : List BookingRow)
    (hstored : stored.Perm s.db.rows)
    (hsorted : stored.Pairwise fun row next => updatedAt next.id ≤ updatedAt row.id)
    (profile : Web.NetworkProfile) :
    (∀ item ∈ BookingController.activity S.config.network s.db stored,
      Api.BookingController.get S.config.runtime S.config.network s.db item.id = .ok item ∧
      item.state ≠ .pendingFunding ∧
      ∃ hash, itemHash item = some hash ∧
        itemLink profile item = some (profile.explorerBase ++ "/tx/" ++ hash) ∧
        Published s.chain (if item.state = .refunded then "deposit_refunded" else "booking_funded")
          item.onChainBookingId hash) ∧
    ((BookingController.activity S.config.network s.db stored).map (·.id)).Nodup ∧
    (BookingController.activity S.config.network s.db stored).length ≤ 50 ∧
    (BookingController.activity S.config.network s.db stored).Pairwise
      (fun item next => updatedAt next.id ≤ updatedAt item.id) ∧
    (∀ id row, s.db.bookings.lookup id = some row → row.status ≠ .pendingFunding →
      (∃ item ∈ BookingController.activity S.config.network s.db stored, item.id = id) ∨
      (BookingController.activity S.config.network s.db stored).length = 50 ∧
        ∀ item ∈ BookingController.activity S.config.network s.db stored,
          updatedAt id ≤ updatedAt item.id) := by
  have h := backed_of_exec h₀ hrun
  have hkeyed := h.paid.coherent.keyed
  set selected := stored.filter fun row => s.db.payments.any fun t => t.bookingId = row.id
    with hselected
  have hactivity : BookingController.activity S.config.network s.db stored =
      (selected.take 50).map fun row =>
        BookingController.serialize S.config.network (Api.Workflow.load s.db row) := rfl
  have hmem : ∀ row ∈ selected, s.db.bookings.lookup row.id = some row ∧
      row.status ≠ .pendingFunding := by
    intro row hrow
    obtain ⟨hin, hpaid⟩ := List.mem_filter.mp hrow
    obtain ⟨id, hlookup⟩ := Api.mem_rows.mp (hstored.mem_iff.mp hin)
    have hid : row.id = id := hkeyed id row hlookup
    exact ⟨hid ▸ hlookup, (h.paid_iff hlookup).mp hpaid⟩
  have hpairwise : selected.Pairwise fun row next => updatedAt next.id ≤ updatedAt row.id :=
    hsorted.filter _
  rw [hactivity]
  refine ⟨?_, ?_, ?_, ?_, ?_⟩
  · intro item hitem
    obtain ⟨row, hrow, rfl⟩ := List.mem_map.mp hitem
    obtain ⟨hlookup, hpast⟩ := hmem row (List.mem_of_mem_take hrow)
    obtain ⟨hash, hhash, hpublished⟩ := h.item hlookup S.config.network hpast
    have hnames := (Api.names_iff (h.spelled row.id row hlookup)).mpr hlookup
    refine ⟨Api.BookingController.get_eq_ok.mpr ⟨row, hnames, rfl⟩, hpast, hash, hhash, ?_,
      hpublished⟩
    rw [itemLink, hhash]
    rfl
  · have hnodup : (stored.map BookingRow.id).Nodup :=
      (hstored.map BookingRow.id).nodup_iff.mpr (nodup_ids h.paid.coherent)
    rw [List.map_map]
    exact hnodup.sublist (((List.take_sublist 50 _).trans List.filter_sublist).map _)
  · rw [List.length_map, List.length_take]
    omega
  · rw [List.pairwise_map]
    exact hpairwise.sublist (List.take_sublist 50 _)
  · intro id row hrow hpast
    have hid : row.id = id := hkeyed id row hrow
    have hin : row ∈ selected := List.mem_filter.mpr
      ⟨hstored.mem_iff.mpr (Api.mem_rows.mpr ⟨id, hrow⟩), (h.paid_iff hrow).mpr hpast⟩
    rcases mem_take_or hpairwise 50 hin with htake | ⟨hfull, hlater⟩
    · exact .inl ⟨_, List.mem_map_of_mem htake, hid⟩
    · refine .inr ⟨by rw [List.length_map]; exact hfull, fun item hitem => ?_⟩
      obtain ⟨x, hx, rfl⟩ := List.mem_map.mp hitem
      exact hid ▸ hlater x hx

theorem activity_verified_funded : ∃ s item,
    (machine sampleSetup).exec sampleStart (setUpEscrow :: bookBoth ++ fundBoth) = some s ∧
      BookingController.activity "TESTNET" s.db s.db.rows = [item] ∧
      itemLink (Web.profiles .testnet) item = some ("https://stellar.expert/explorer/testnet/tx/" ++
        "2514e1475addffb378fdb07e9a1092176c09dbfbd129ebcaacd0099818d2534c") ∧
      Published s.chain "booking_funded" item.onChainBookingId
        "2514e1475addffb378fdb07e9a1092176c09dbfbd129ebcaacd0099818d2534c" := by
  obtain ⟨s, hrun, hlinks⟩ : ∃ s ∈ (machine sampleSetup).exec sampleStart
      (setUpEscrow :: bookBoth ++ fundBoth),
      (BookingController.activity "TESTNET" s.db s.db.rows).map (fun item => (item.state,
        itemHash item)) = [(.funded,
          some "2514e1475addffb378fdb07e9a1092176c09dbfbd129ebcaacd0099818d2534c")] := by
    decide +kernel
  obtain ⟨item, hitem, hshown⟩ := List.map_eq_singleton_iff.mp hlinks
  obtain ⟨hstate, hhash⟩ := Prod.mk.inj hshown
  have hlink : itemLink (Web.profiles .testnet) item = _ := congrArg (Option.map _) hhash
  obtain ⟨-, -, hash, hhash', -, hpublished⟩ := (activity_verified sampleSetup sampleStart s _
    fresh_sampleStart hrun (fun _ => 0) s.db.rows (List.Perm.refl _)
    (List.pairwise_of_forall fun _ _ => le_refl 0) (Web.profiles .testnet)).1 item
    (by rw [show sampleSetup.config.network = "TESTNET" from rfl, hitem]; exact List.mem_cons_self)
  refine ⟨s, item, hrun, hitem, hlink, ?_⟩
  rw [hstate, if_neg (by decide)] at hpublished
  obtain rfl : hash = _ := Option.some.inj (hhash'.symm.trans hhash)
  exact hpublished

end PovDeposit.Joint
