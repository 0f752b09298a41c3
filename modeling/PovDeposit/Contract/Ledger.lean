/-
  The ledger the escrow runs on: calls, their roll-back, the clock, and other people's use
  of the token.

  `ledgerMachine d` takes three kinds of actions. `close` closes the ledger: its timestamp
  and sequence number never go back. `tokens` is token activity of others: it leaves the
  balances of the escrow alone (nobody sends tokens to the escrow outside `fundBooking`).
  `invoke` is a call by anyone with any arguments and authorisations, except that the
  escrow's own address never authorises one; a call that fails is rolled back.

  Each call that commits leaves a `Receipt`: who authorised it, when, and which token
  movements it made. Nothing in the contract reads receipts; they are what a block explorer
  shows, and what statements about whole runs talk about.
-/
import PovDeposit.Contract.Escrow
import PovDeposit.Lib.Machine

namespace PovDeposit.Contract

open PovDeposit.Lib

/-- What is fixed when the contract is deployed. -/
structure Deployment where
  contract : Address
  minPersistentTtl : Nat

/-- The trace a committed call leaves. -/
structure Receipt where
  call : Call
  timestamp : UInt64
  auths : List Address
  transfers : List Transfer
  events : List LoggedEvent

structure Ledger where
  timestamp : UInt64
  sequence : Nat
  escrow : Escrow
  receipts : List Receipt

inductive Action where
  | close (timestamp : UInt64) (sequence : Nat)
  | tokens (balances : Address → Address → Int)
  | invoke (txHash : String) (auths : List Address)
      (tokenAccepts : Address → Address → Address → Int → Bool) (call : Call)

variable (d : Deployment)

/-- The host environment of a call made now. -/
def Ledger.env (s : Ledger) (txHash : String) (auths : List Address)
    (tokenAccepts : Address → Address → Address → Int → Bool) : Env where
  timestamp := s.timestamp
  sequence := s.sequence
  txHash := txHash
  contract := d.contract
  auths := auths
  minPersistentTtl := d.minPersistentTtl
  tokenAccepts := tokenAccepts

/-- The state after a call that committed. -/
def Ledger.commit (s : Ledger) (auths : List Address) (call : Call) (σ : Escrow) : Ledger :=
  let receipt : Receipt :=
    { call := call
      timestamp := s.timestamp
      auths := auths
      transfers := σ.transfers.drop s.escrow.transfers.length
      events := σ.events.drop s.escrow.events.length }
  { s with escrow := σ, receipts := s.receipts ++ [receipt] }

@[simp] theorem commit_escrow (s : Ledger) (auths : List Address) (call : Call) (σ : Escrow) :
    (s.commit auths call σ).escrow = σ := rfl

/-- Balances after token activity of others. -/
def othersMove (balances balances' : Address → Address → Int) : Address → Address → Int :=
  fun asset holder => if holder = d.contract then balances asset holder else balances' asset holder

def ledgerStep (s : Ledger) : Action → Option Ledger
  | .close timestamp sequence =>
      if s.timestamp ≤ timestamp ∧ s.sequence ≤ sequence then
        some { s with timestamp := timestamp, sequence := sequence }
      else none
  | .tokens balances =>
      some { s with escrow :=
        { s.escrow with balances := othersMove d s.escrow.balances balances } }
  | .invoke txHash auths tokenAccepts call =>
      if d.contract ∈ auths then none
      else match invoke (s.env d txHash auths tokenAccepts) s.escrow call with
        | .ok σ => some (s.commit auths call σ)
        -- the host rolls a failed call back
        | .error _ => some s

/-- Just deployed: not initialised, no bookings, no tokens. -/
structure Fresh (s : Ledger) : Prop where
  asset : s.escrow.asset = none
  bookings : s.escrow.bookings = ∅
  balances : ∀ a, s.escrow.balances a d.contract = 0
  transfers : s.escrow.transfers = []
  events : s.escrow.events = []
  receipts : s.receipts = []

/-- A fresh deployment in a ledger that closed at `timestamp`, among given token balances. -/
def freshLedger (timestamp : UInt64) (sequence instanceLiveUntil : Nat)
    (balances : Address → Address → Int) : Ledger where
  timestamp := timestamp
  sequence := sequence
  escrow :=
    { asset := none
      instanceLiveUntil := instanceLiveUntil
      bookings := ∅
      balances := othersMove d (fun _ _ => 0) balances
      transfers := []
      events := [] }
  receipts := []

theorem fresh_freshLedger (timestamp : UInt64) (sequence instanceLiveUntil : Nat)
    (balances : Address → Address → Int) :
    Fresh d (freshLedger d timestamp sequence instanceLiveUntil balances) :=
  ⟨rfl, rfl, fun _ => if_pos rfl, rfl, rfl, rfl⟩

def ledgerMachine : Machine Ledger Action where
  init := Fresh d
  step := ledgerStep d

end PovDeposit.Contract
