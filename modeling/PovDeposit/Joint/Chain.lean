/-
  The chain as the RPC server shows it: the ledger with its transactions.

  A transaction has a hash of its own and any number of contract calls, by any accounts. One
  that succeeds runs them in order, at one ledger; a call that fails inside of it is rolled
  back alone (its caller went on without it). One that fails leaves nothing but its record,
  so failed calls publish no events.

  `Logged` ties the two views together: every event of the log belongs to a successful
  transaction, under its hash and at its ledger.
-/
import PovDeposit.Contract.Evidence
import PovDeposit.Api.Verifier

namespace PovDeposit.Joint

open PovDeposit.Lib
open PovDeposit.Contract (Deployment Ledger LoggedEvent ContractEvent Address ledgerMachine
  ledgerStep Chronicled)
open PovDeposit.Api (TransactionAnswer EventInfo Topic isHash)

structure Transaction where
  hash : String
  ledger : Nat
  createdAt : UInt64
  successful : Bool
  deriving DecidableEq, Repr

structure Chain where
  ledger : Ledger
  transactions : List Transaction

/-- A contract call inside a transaction. -/
structure Invocation where
  auths : List Address
  tokenAccepts : Address → Address → Address → Int → Bool
  call : Contract.Call

/-- The text of a transaction hash as the network writes it: 64 lowercase hexadecimal digits. -/
def isTransactionHash (s : String) : Bool :=
  s.toList.length = 64 && s.toList.all fun c =>
    c.isDigit || ('a'.toNat ≤ c.toNat && c.toNat ≤ 'f'.toNat)

inductive ChainAction where
  | close (timestamp : UInt64) (sequence : Nat)
  | tokens (balances : Address → Address → Int)
  | transaction (hash : String) (successful : Bool) (calls : List Invocation)

/-- The calls of a transaction as actions of the ledger. -/
def invocations (hash : String) (calls : List Invocation) : List Contract.Action :=
  calls.map fun c => .invoke hash c.auths c.tokenAccepts c.call

/-- The actions of the ledger that an action of the chain consists of. -/
def ChainAction.calls : ChainAction → List Contract.Action
  | .close timestamp sequence => [.close timestamp sequence]
  | .tokens balances => [.tokens balances]
  | .transaction hash successful calls => if successful then invocations hash calls else []

def Chain.record (c : Chain) (hash : String) (successful : Bool) : Transaction where
  hash := hash
  ledger := c.ledger.sequence
  createdAt := c.ledger.timestamp
  successful := successful

def chainStep (d : Deployment) (c : Chain) : ChainAction → Option Chain
  | .close timestamp sequence =>
      (ledgerStep d c.ledger (.close timestamp sequence)).map fun l => { c with ledger := l }
  | .tokens balances =>
      (ledgerStep d c.ledger (.tokens balances)).map fun l => { c with ledger := l }
  | .transaction hash successful calls =>
      if isTransactionHash hash = false ∨ c.transactions.any fun t => t.hash = hash then none
      else if successful then
        ((ledgerMachine d).exec c.ledger (invocations hash calls)).map fun l =>
          { ledger := l, transactions := c.transactions ++ [c.record hash true] }
      else some { c with transactions := c.transactions ++ [c.record hash false] }

/-! ## The answers of the RPC server -/

/-- The first topic of an event. -/
def eventName : ContractEvent → String
  | .bookingCreated _ _ _ _ => "booking_created"
  | .bookingFunded _ _ => "booking_funded"
  | .depositRefunded _ _ => "deposit_refunded"
  | .visitConfirmed _ _ => "visit_confirmed"

/-- A `u64` as decimal text. -/
def idText (n : UInt64) : String := toString n.toNat

theorem idText_inj {n m : UInt64} (h : idText n = idText m) : n = m := by
  have hdigits : Nat.toDigits 10 n.toNat = Nat.toDigits 10 m.toNat := by
    rw [← Nat.toList_repr, ← Nat.toList_repr]
    exact congrArg String.toList h
  have hvalue := congrArg (Nat.ofDigitChars 10 · 0) hdigits
  simp only [Nat.ofDigitChars_ten_toDigits] at hvalue
  exact UInt64.toNat_inj.mp hvalue

def eventInfo (e : LoggedEvent) : EventInfo where
  inSuccessfulContractCall := true
  txHash := e.txHash
  topics := [.string (eventName e.event), .integer e.event.bookingId.toNat]

/-- The events of the escrow in one ledger. -/
def Chain.eventInfos (c : Chain) (ledger : Nat) : List EventInfo :=
  (c.ledger.escrow.events.filter fun e => e.ledger = ledger).map eventInfo

/-- The answers to `getTransaction` and, for the ledger it names, to `getEvents` are true:
    a transaction that is reported is recorded, and no event is made up. A transaction may
    be unknown to the server, and events may be left out of an answer. The server knows
    hashes in lowercase. -/
def truthful (c : Chain) (hash : String) (transaction : TransactionAnswer)
    (events : List EventInfo) : Bool :=
  match transaction with
  | .notFound => true
  | .failed => c.transactions.any fun t =>
      t.hash.toList = hash.toList.map Char.toLower && !t.successful
  | .success ledger createdAt =>
      (c.transactions.any fun t => t.hash.toList = hash.toList.map Char.toLower && t.successful &&
        t.ledger = ledger && (t.createdAt.toNat : Int) = createdAt) &&
      events.all fun e => e ∈ c.eventInfos ledger

/-- The log has an event with this name, booking id and transaction hash. -/
def Shown (log : List LoggedEvent) (name bookingId hash : String) : Prop :=
  ∃ e ∈ log, eventName e.event = name ∧ idText e.event.bookingId = bookingId ∧ e.txHash = hash

/-- What the verifier accepts from a truthful server is in the log. -/
theorem shown_of_verified {c : Chain} {contractId hash bookingId name : String}
    {transaction : TransactionAnswer} {events : List EventInfo} {v : Api.Workflow.Verification}
    (htrue : truthful c hash transaction events = true)
    (hv : Api.verifyEvent contractId transaction events hash bookingId name = .ok v) :
    Shown c.ledger.escrow.events name bookingId hash := by
  obtain ⟨-, ledger, createdAt, rfl, ⟨info, hinfo, hmatch⟩, -⟩ := Api.verifyEvent_eq_ok.mp hv
  obtain ⟨-, hhash, hname, hid⟩ := Api.matches_iff.mp hmatch
  simp only [truthful, Bool.and_eq_true, List.all_eq_true, decide_eq_true_eq] at htrue
  obtain ⟨e, he, rfl⟩ := List.mem_map.mp (htrue.2 info hinfo)
  simp only [eventInfo, List.getElem?_cons_zero, Option.some.injEq, Topic.string.injEq] at hname
  exact ⟨e, (List.mem_filter.mp he).1, hname, hid, hhash⟩

/-! ## Runs of the chain -/

structure Fresh (d : Deployment) (c : Chain) : Prop where
  ledger : Contract.Fresh d c.ledger
  transactions : c.transactions = []

structure Logged (d : Deployment) (c : Chain) : Prop where
  chronicled : Chronicled d.contract c.ledger
  events : ∀ e ∈ c.ledger.escrow.events, ∃ t ∈ c.transactions, t.hash = e.txHash ∧
    t.ledger = e.ledger ∧ t.successful = true
  hashes : ∀ t ∈ c.transactions, isTransactionHash t.hash = true

theorem logged_of_fresh {d : Deployment} {c : Chain} (h : Fresh d c) : Logged d c := by
  refine ⟨Contract.chronicled_of_fresh h.ledger, ?_, ?_⟩
  · simp [h.ledger.events]
  · simp [h.transactions]

section Steps

variable {d : Deployment}

/-- A step of the chain is a run of the ledger. -/
theorem ledger_of_step {c c' : Chain} {a : ChainAction} (h : chainStep d c a = some c') :
    (ledgerMachine d).exec c.ledger a.calls = some c'.ledger := by
  cases a with
  | close t q =>
    obtain ⟨l, hl, rfl⟩ := Option.map_eq_some_iff.mp h
    exact (ledgerMachine d).exec_single hl
  | tokens m =>
    cases h
    rfl
  | transaction hash successful calls =>
    simp only [chainStep, Option.ite_none_left_eq_some] at h
    obtain ⟨-, h⟩ := h
    split at h
    · rename_i hs
      obtain ⟨l, hl, rfl⟩ := Option.map_eq_some_iff.mp h
      simpa [ChainAction.calls, hs] using hl
    · rename_i hs
      cases h
      simp [ChainAction.calls, hs]

/-- A committed call publishes one event at most, under its transaction and at its ledger. -/
theorem events_of_effect {env : Contract.Env} {σ σ' : Contract.Escrow} {call : Contract.Call}
    (heff : Contract.Effect env σ call σ') :
    σ'.events = σ.events ∨
      ∃ event, σ'.events = σ.events ++ [⟨env.txHash, env.sequence, event⟩] := by
  cases heff with
  | initializeEscrow => exact .inl rfl
  | booking => exact .inl rfl
  | _ => exact .inr ⟨_, rfl⟩

/-- What a call adds to the log. -/
theorem events_of_invoke {s s' : Ledger} {hash : String} {c : Invocation} (hk : s.escrow.Keyed)
    (h : ledgerStep d s (.invoke hash c.auths c.tokenAccepts c.call) = some s') :
    s'.sequence = s.sequence ∧ ∃ new, s'.escrow.events = s.escrow.events ++ new ∧
      ∀ e ∈ new, e.ledger = s.sequence ∧ e.txHash = hash := by
  rcases Contract.ledgerStep_cases hk h with ⟨_, _, ha, -⟩ | ⟨_, ha, -⟩ |
    ⟨hash', auths, acc, call, σ, ha, -, -, heff, rfl⟩ | ⟨-, -, -, -, -, -, -, rfl⟩
  · cases ha
  · cases ha
  · cases ha
    refine ⟨rfl, ?_⟩
    rcases events_of_effect heff with hsame | ⟨event, hnew⟩
    · exact ⟨[], by simp [hsame], by simp⟩
    · refine ⟨[⟨hash, s.sequence, event⟩], hnew, fun e he => ?_⟩
      rw [List.mem_singleton.mp he]
      exact ⟨rfl, rfl⟩
  · exact ⟨rfl, [], by simp, by simp⟩

/-- What the calls of a transaction add to the log, all at its ledger. -/
theorem events_of_invocations {s s' : Ledger} {hash : String} {calls : List Invocation}
    (hc : Chronicled d.contract s)
    (h : (ledgerMachine d).exec s (invocations hash calls) = some s') :
    s'.sequence = s.sequence ∧ ∃ new, s'.escrow.events = s.escrow.events ++ new ∧
      ∀ e ∈ new, e.ledger = s.sequence ∧ e.txHash = hash := by
  induction calls generalizing s with
  | nil =>
    cases h
    exact ⟨rfl, [], by simp, by simp⟩
  | cons c calls ih =>
    obtain ⟨t, hstep, hrest⟩ := ((ledgerMachine d).exec_cons_eq_some).mp h
    have ht : ledgerStep d s (.invoke hash c.auths c.tokenAccepts c.call) = some t := hstep
    obtain ⟨hseq, new, hlog, hnew⟩ := events_of_invoke hc.recorded.solvent.keyed ht
    obtain ⟨hseq', new', hlog', hnew'⟩ := ih (Contract.chronicled_step s _ t hc ht) hrest
    refine ⟨hseq'.trans hseq, new ++ new', by rw [hlog', hlog, List.append_assoc], fun e he => ?_⟩
    rcases List.mem_append.mp he with he | he
    · exact hnew e he
    · rw [← hseq]
      exact hnew' e he

theorem chronicled_exec {s s' : Ledger} {bs : List Contract.Action} (h : Chronicled d.contract s)
    (hrun : (ledgerMachine d).exec s bs = some s') : Chronicled d.contract s' :=
  (ledgerMachine d).exec_invariant Contract.chronicled_step hrun h

/-- The log only grows, and what a transaction adds is recorded under its hash. -/
theorem logged_step {c c' : Chain} {a : ChainAction} (h : Logged d c)
    (hstep : chainStep d c a = some c') :
    Logged d c' ∧ c.ledger.escrow.events <+: c'.ledger.escrow.events := by
  have hc := chronicled_exec h.chronicled (ledger_of_step hstep)
  cases a with
  | close t q =>
    obtain ⟨l, hl, rfl⟩ := Option.map_eq_some_iff.mp hstep
    simp only [ledgerStep, Option.ite_none_right_eq_some, Option.some.injEq] at hl
    obtain ⟨-, rfl⟩ := hl
    exact ⟨⟨hc, h.events, h.hashes⟩, List.prefix_rfl⟩
  | tokens m =>
    cases hstep
    exact ⟨⟨hc, h.events, h.hashes⟩, List.prefix_rfl⟩
  | transaction hash successful calls =>
    simp only [chainStep, Option.ite_none_left_eq_some, not_or, Bool.not_eq_false] at hstep
    obtain ⟨⟨hhash, -⟩, hstep⟩ := hstep
    -- the record of the transaction comes last
    have hrecord : ∀ successful, ∀ t ∈ c.transactions ++ [c.record hash successful],
        isTransactionHash t.hash = true := by
      intro successful t ht
      rcases List.mem_append.mp ht with ht | ht
      · exact h.hashes t ht
      · rw [List.mem_singleton.mp ht]
        exact hhash
    have hold : ∀ successful, ∀ e ∈ c.ledger.escrow.events,
        ∃ t ∈ c.transactions ++ [c.record hash successful], t.hash = e.txHash ∧
          t.ledger = e.ledger ∧ t.successful = true := by
      intro successful e he
      obtain ⟨t, ht, hshape⟩ := h.events e he
      exact ⟨t, List.mem_append_left _ ht, hshape⟩
    split at hstep
    · obtain ⟨l, hl, rfl⟩ := Option.map_eq_some_iff.mp hstep
      obtain ⟨-, new, hlog, hnew⟩ := events_of_invocations h.chronicled hl
      refine ⟨⟨hc, fun e he => ?_, hrecord true⟩, ⟨new, hlog.symm⟩⟩
      rw [hlog] at he
      rcases List.mem_append.mp he with he | he
      · exact hold true e he
      · obtain ⟨hledger, htx⟩ := hnew e he
        exact ⟨_, List.mem_append_right _ (List.mem_singleton_self _), htx.symm, hledger.symm, rfl⟩
    · cases hstep
      exact ⟨⟨hc, hold false, hrecord false⟩, List.prefix_rfl⟩

end Steps

/-! ## A transaction that is served with all its events -/

theorem isHash_of_isTransactionHash {s : String} (h : isTransactionHash s = true) :
    isHash s = true := by
  simp only [isTransactionHash, isHash, Bool.and_eq_true, decide_eq_true_eq, List.all_eq_true] at h ⊢
  refine ⟨h.1, fun c hc => ?_⟩
  have hdigit := h.2 c hc
  unfold Api.isHexDigit
  rw [hdigit, Bool.true_or]

theorem lower_of_isTransactionHash {s : String} (h : isTransactionHash s = true) :
    s.toList.map Char.toLower = s.toList := by
  simp only [isTransactionHash, Bool.and_eq_true, List.all_eq_true] at h
  refine (List.map_congr_left fun c hc => ?_).trans (List.map_id _)
  have hdigit := h.2 c hc
  -- digits and `a` to `f` are not between `A` and `Z`
  have hupper : ¬ (c.val ≥ 'A'.val ∧ c.val ≤ 'Z'.val) := by
    simp [Char.isDigit, UInt32.le_iff_toNat_le] at hdigit ⊢
    omega
  exact dif_neg hupper

/-- For an event of the log the server can give answers that are true and that the verifier
    accepts: those with the record of the transaction and all events of its ledger. -/
theorem verified_of_shown {d : Deployment} {c : Chain} (h : Logged d c) {contractId : String}
    (hcontract : contractId ≠ "") {name bookingId hash : String}
    (hshown : Shown c.ledger.escrow.events name bookingId hash) :
    isHash hash = true ∧ ∃ t ∈ c.transactions, t.hash = hash ∧ t.successful = true ∧
      truthful c hash (.success t.ledger t.createdAt.toNat) (c.eventInfos t.ledger) = true ∧
      Api.verifyEvent contractId (.success t.ledger t.createdAt.toNat) (c.eventInfos t.ledger) hash
        bookingId name = .ok ⟨t.ledger, t.createdAt.toNat * 1000⟩ := by
  obtain ⟨e, he, rfl, rfl, rfl⟩ := hshown
  obtain ⟨t, ht, hhash, hledger, hsuccess⟩ := h.events e he
  have hvalid := h.hashes t ht
  rw [hhash] at hvalid
  have hserved : eventInfo e ∈ c.eventInfos t.ledger :=
    List.mem_map_of_mem (List.mem_filter.mpr ⟨he, by simpa using hledger.symm⟩)
  refine ⟨isHash_of_isTransactionHash hvalid, t, ht, hhash, hsuccess, ?_, ?_⟩
  · simp only [truthful, Bool.and_eq_true, List.any_eq_true, List.all_eq_true, decide_eq_true_eq]
    refine ⟨⟨t, ht, ⟨⟨?_, hsuccess⟩, rfl⟩, rfl⟩, fun info hinfo => hinfo⟩
    rw [lower_of_isTransactionHash hvalid, hhash]
  · refine Api.verifyEvent_eq_ok.mpr ⟨hcontract, _, _, rfl, ⟨_, hserved, ?_⟩, rfl⟩
    exact Api.matches_iff.mpr ⟨rfl, rfl, rfl, rfl⟩

end PovDeposit.Joint
