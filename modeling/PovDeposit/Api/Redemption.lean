/-
  Check-in challenges are redeemed once, by whom they were issued for.

  `Stored` ties the rows of `CheckInChallenge` to the calls of a run with a database: each
  issued challenge has its row, and a row is spent exactly if one call has consumed it. The
  row has the booking id as the database spells it, and `consume` compares that text with the
  caller's. So a token for another spelling is issued and never redeemed: together with
  `Backed`, `Stored` gives `token_redeems_iff`.
-/
import PovDeposit.Api.Challenges
import PovDeposit.Api.Requests

namespace PovDeposit.Api.Challenges

open PovDeposit.Lib PovDeposit.Lib.Outcome
open CheckIn (newPayload hashNonce readToken Encodes)

/-! ## The table of challenges -/

/-- A call that issued a challenge with this nonce hash. -/
def Call.Issues (R : Runtime) (h : String) (c : Call) : Prop :=
  ∃ p, c.stage = .issued p ∧ hashNonce R p.nonce = h

/-- A call that consumed a challenge with this nonce hash. -/
def Call.Spends (R : Runtime) (h : String) (c : Call) : Prop :=
  ∃ p t, c.stage = .consumed p t ∧ hashNonce R p.nonce = h

/-- What a step with a database does to the table of challenges and to the calls that issued
    or consumed one. -/
inductive RowChange (R : Runtime) (s s' : State) : Prop where
  | same (hrows : s'.db.challenges = s.db.challenges)
      (hissued : ∀ i c, s'.call? i = some c → ∀ h, c.Issues R h → s.call? i = some c)
      (hspent : ∀ i c, s'.call? i = some c → ∀ h, c.Spends R h → s.call? i = some c)
  | stored (k : Nat) (q : Request) (p : CheckInPayload) (t : Int) (id : String)
      (hc : s.call? k = some ⟨q, .found p⟩) (ht : p.expiresAt = some t)
      (hid : R.uuid p.bookingId = some id)
      (hnew : s.db.challenges.lookup (hashNonce R p.nonce) = none)
      (hrows : s'.db.challenges = s.db.challenges.insert (hashNonce R p.nonce)
        ⟨id, hashNonce R p.nonce, t, none⟩)
      (hcalls : s'.calls = s.calls.set k ⟨q, .issued p⟩)
  | spent (k : Nat) (q : Request) (p : CheckInPayload) (t now : Int) (row : CheckInChallenge)
      (hc : s.call? k = some ⟨q, .checked p t⟩)
      (hrow : s.db.challenges.lookup (hashNonce R p.nonce) = some row)
      (hunspent : row.consumedAt = none)
      (hrows : s'.db.challenges =
        s.db.challenges.insert (hashNonce R p.nonce) { row with consumedAt := some now })
      (hcalls : s'.calls = s.calls.set k ⟨q, .consumed p t⟩)

theorem Change.rows {R : Runtime} {s s' : State} {a : Action} (h : Change R true s a s') :
    RowChange R s s' := by
  -- a call that comes to a stage of another kind issued and consumed nothing
  have hadd : ∀ c, (∀ h, ¬ c.Issues R h) → (∀ h, ¬ c.Spends R h) → RowChange R s (s.add c) := by
    intro c hissues hspends
    refine .same rfl (fun i x hx h hP => ?_) (fun i x hx h hP => ?_)
    · rcases call?_of_add hx with hx | ⟨-, rfl⟩
      · exact hx
      · exact absurd hP (hissues h)
    · rcases call?_of_add hx with hx | ⟨-, rfl⟩
      · exact hx
      · exact absurd hP (hspends h)
  have hturn : ∀ k x c, s.call? k = some x → (∀ h, ¬ c.Issues R h) → (∀ h, ¬ c.Spends R h) →
      RowChange R s (s.turn k c) := by
    intro k x c hk hissues hspends
    refine .same rfl (fun i y hy h hP => ?_) (fun i y hy h hP => ?_)
    · rcases call?_of_turn hk hy with ⟨-, rfl⟩ | ⟨-, hy⟩
      · exact absurd hP (hissues h)
      · exact hy
    · rcases call?_of_turn hk hy with ⟨-, rfl⟩ | ⟨-, hy⟩
      · exact absurd hP (hspends h)
      · exact hy
  cases h with
  | draw now nonce b r => exact hadd _ (by simp [Call.Issues]) (by simp [Call.Spends])
  | issueInMemory now nonce b r hmode => cases hmode
  | refuse now token b r e => exact hadd _ (by simp [Call.Issues]) (by simp [Call.Spends])
  | read now token b r p => exact hadd _ (by simp [Call.Issues]) (by simp [Call.Spends])
  | consumeInMemory now token b r p hmode => cases hmode
  | throw _ k c e ha hc => exact hturn k c _ hc (by simp [Call.Issues]) (by simp [Call.Spends])
  | find k now q p hc => exact hturn k _ _ hc (by simp [Call.Issues]) (by simp [Call.Spends])
  | store k now q p db hc hstore =>
    obtain ⟨t, id, ht, hid, hnew, rfl⟩ := CheckIn.storeChallenge_eq_ok.mp hstore
    exact .stored k q p t id hc ht hid hnew rfl rfl
  | check k now t token b r p hc =>
    exact hturn k _ _ hc (by simp [Call.Issues]) (by simp [Call.Spends])
  | spend k now t t' token b r p db hc hspend =>
    obtain ⟨row, hrow, hunspent, rfl⟩ := CheckIn.spendChallenge_eq_ok.mp hspend
    exact .spent k _ p t' now row hc hrow hunspent rfl rfl
  | others db => exact .same rfl (fun i c hc h _ => hc) (fun i c hc h _ => hc)

theorem RowChange.keeps {R : Runtime} {s s' : State} (h : RowChange R s s') :
    Kept CheckIn.Ages s.db.challenges s'.db.challenges := by
  cases h with
  | same hrows =>
    rw [hrows]
    exact kept_refl CheckIn.ages_refl _
  | stored k q p t id hcall ht hid hnew hrows =>
    rw [hrows]
    exact kept_insert_new CheckIn.ages_refl hnew
  | spent k q p t now row hcall hrow hunspent hrows =>
    rw [hrows]
    exact kept_insert CheckIn.ages_refl hrow (CheckIn.ages_spent row now)

/-- The invariant of runs with a database: each issued challenge has its row, made by that call
    only; a row is spent exactly if a call has consumed it, and then one call only. -/
structure Stored (R : Runtime) (s : State) : Prop where
  minted : ∀ k c p, s.call? k = some c → c.stage.minted? = some p →
    ∃ now b r nonce, c.request = .issue now b r ∧ p = newPayload b r nonce now
  issued : ∀ j now b r p, s.Issued j now b r p →
    ∃ c, s.db.challenges.lookup (hashNonce R p.nonce) = some c ∧ R.uuid b = some c.bookingId ∧
      c.expiresAt = now + 120000
  issuedOnce : ∀ h, AtMostOne (Call.Issues R h) s.calls
  checked : ∀ i c p t, s.call? i = some c → c.stage = .checked p t ∨ c.stage = .consumed p t →
    ∃ row, s.db.challenges.lookup (hashNonce R p.nonce) = some row ∧ t < row.expiresAt ∧
      ∃ t' token r, c.request = .consume t' token row.bookingId r
  spent : ∀ h c, s.db.challenges.lookup h = some c → c.consumedAt.isSome →
    ∃ i call, s.call? i = some call ∧ call.Spends R h
  marked : ∀ i c h, s.call? i = some c → c.Spends R h →
    ∃ row, s.db.challenges.lookup h = some row ∧ row.consumedAt.isSome
  spentOnce : ∀ h, AtMostOne (Call.Spends R h) s.calls

theorem stored_of_fresh {R : Runtime} {s : State} (h : Fresh s) : Stored R s := by
  have hnone : ∀ k c, s.call? k ≠ some c := by
    intro k c hc
    rw [State.call?, h.calls] at hc
    cases hc
  refine ⟨fun k c p hc => absurd hc (hnone k c), fun j now b r p hj => absurd hj (hnone j _), ?_,
    fun i c p t hc => absurd hc (hnone i c), ?_, fun i c x hc => absurd hc (hnone i c), ?_⟩
  · intro x i j c c' hc
    exact absurd hc (hnone i c)
  · intro x c hc
    rw [h.challenges, AList.lookup_empty] at hc
    cases hc
  · intro x i j c c' hc
    exact absurd hc (hnone i c)

/-- The time a row was checked at stays with the call that checked it, for the booking of the
    row. -/
theorem Change.checked {R : Runtime} {s s' : State} {a : Action} (h : Change R true s a s')
    {i : Nat} {c' : Call} {p : CheckInPayload} {t : Int} (hc' : s'.call? i = some c')
    (hstage : c'.stage = .checked p t ∨ c'.stage = .consumed p t) :
    (∃ c, s.call? i = some c ∧ c.request = c'.request ∧
      (c.stage = .checked p t ∨ c.stage = .consumed p t)) ∨
    ∃ row, s.db.challenges.lookup (hashNonce R p.nonce) = some row ∧ t < row.expiresAt ∧
      ∃ t' token r, c'.request = .consume t' token row.bookingId r := by
  have hadd : ∀ c, ¬ (c.stage = .checked p t ∨ c.stage = .consumed p t) →
      (s.add c).call? i = some c' → ∃ c, s.call? i = some c ∧ c.request = c'.request ∧
        (c.stage = .checked p t ∨ c.stage = .consumed p t) := by
    intro c hno hc
    rcases call?_of_add hc with hc | ⟨-, rfl⟩
    · exact ⟨c', hc, rfl, hstage⟩
    · exact absurd hstage hno
  have hturn : ∀ k x c (u : State), u.call? k = some x → (u.turn k c).call? i = some c' →
      x.request = c.request → (c.stage = .checked p t ∨ c.stage = .consumed p t →
        x.stage = .checked p t ∨ x.stage = .consumed p t) →
      ∃ c, u.call? i = some c ∧ c.request = c'.request ∧
        (c.stage = .checked p t ∨ c.stage = .consumed p t) := by
    intro k x c u hk hc hq hfrom
    rcases call?_of_turn hk hc with ⟨rfl, rfl⟩ | ⟨-, hc⟩
    · exact ⟨x, hk, hq, hfrom hstage⟩
    · exact ⟨c', hc, rfl, hstage⟩
  cases h with
  | draw now nonce b r => exact .inl (hadd _ (by simp) hc')
  | issueInMemory now nonce b r hmode => cases hmode
  | refuse now token b r e => exact .inl (hadd _ (by simp) hc')
  | read now token b r p' => exact .inl (hadd _ (by simp) hc')
  | consumeInMemory now token b r p' hmode => cases hmode
  | throw _ k c e ha hc => exact .inl (hturn k c _ s hc hc' rfl (by simp))
  | find k now q p' hc => exact .inl (hturn k _ _ s hc hc' rfl (by simp))
  | store k now q p' db hc =>
    exact .inl (hturn k _ _ { s with db := db } hc hc' rfl (by simp))
  | check k now t' token b r p' hc hfound =>
    obtain ⟨row, hrow, rfl, -, hlive⟩ := CheckIn.findChallenge_eq_ok.mp hfound
    rcases call?_of_turn hc hc' with ⟨-, rfl⟩ | ⟨-, hc'⟩
    · simp only [Stage.checked.injEq, reduceCtorEq, or_false] at hstage
      obtain ⟨rfl, rfl⟩ := hstage
      exact .inr ⟨row, hrow, hlive, t', token, r, rfl⟩
    · exact .inl ⟨c', hc', rfl, hstage⟩
  | spend k now t' t'' token b r p' db hc =>
    refine .inl (hturn k _ _ { s with db := db } hc hc' rfl ?_)
    simp
  | others db => exact .inl ⟨c', hc', rfl, hstage⟩

section Steps

variable {R : Runtime} {s s' : State} {a : Action}

theorem call?_of_calls {k : Nat} {x y : Call} (hk : s.call? k = some y)
    (hcalls : s'.calls = s.calls.set k x) {i : Nat} {c : Call} (hc : s'.call? i = some c) :
    i = k ∧ c = x ∨ i ≠ k ∧ s.call? i = some c := by
  rw [State.call?, hcalls] at hc
  exact getElem?_of_set (List.getElem?_eq_some_iff.mp hk).1 hc

theorem Stored.minted_step (h : Stored R s) (hchange : Change R true s a s') {k : Nat} {c' : Call}
    {p : CheckInPayload} (hc' : s'.call? k = some c') (hp : c'.stage.minted? = some p) :
    ∃ now b r nonce, c'.request = .issue now b r ∧ p = newPayload b r nonce now := by
  rcases hchange.origin hc' with ⟨c, hc, hq, hminted, -⟩ |
    ⟨-, now, nonce, b, r, rfl, hq, hminted, -⟩ | ⟨-, now, token, b, r, -, -, hminted, -⟩
  · rw [← hq]
    exact h.minted k c p hc (hminted p hp)
  · exact ⟨now, b, r, nonce, hq, Option.some.inj (hp.symm.trans hminted)⟩
  · rw [hminted] at hp
    cases hp

theorem Stored.issued_step (h : Stored R s) (hrows : RowChange R s s') {j : Nat} {now : Int}
    {b r : String} {p : CheckInPayload} (hj : s'.Issued j now b r p) :
    ∃ c, s'.db.challenges.lookup (hashNonce R p.nonce) = some c ∧ R.uuid b = some c.bookingId ∧
      c.expiresAt = now + 120000 := by
  -- a challenge that was issued before keeps its row
  have hold : s.Issued j now b r p → ∃ c, s'.db.challenges.lookup (hashNonce R p.nonce) = some c ∧
      R.uuid b = some c.bookingId ∧ c.expiresAt = now + 120000 := by
    intro hj
    obtain ⟨c, hc, hb, ht⟩ := h.issued j now b r p hj
    obtain ⟨c', hc', hages⟩ := hrows.keeps _ c hc
    exact ⟨c', hc', hages.bookingId ▸ hb, hages.expiresAt.trans ht⟩
  cases hrows with
  | same _ hissued _ => exact hold (hissued j _ hj _ ⟨p, rfl, rfl⟩)
  | stored k q p' t id hc ht hid hnew hins hcalls =>
    rcases call?_of_calls hc hcalls hj with ⟨rfl, hcall⟩ | ⟨-, hj⟩
    · cases hcall
      obtain ⟨now', b', r', nonce, hq, rfl⟩ := h.minted _ _ _ hc rfl
      cases hq
      cases ht
      exact ⟨⟨id, _, now + 2 * 60000, none⟩, by rw [hins, lookup_insert, if_pos rfl], hid, rfl⟩
    · exact hold hj
  | spent k q p' t now row hc hrow hunspent hins hcalls =>
    rcases call?_of_calls hc hcalls hj with ⟨-, hcall⟩ | ⟨-, hj⟩
    · cases hcall
    · exact hold hj

theorem Stored.issuedOnce_step (h : Stored R s) (hrows : RowChange R s s') (x : String) :
    AtMostOne (Call.Issues R x) s'.calls := by
  cases hrows with
  | same _ hissued _ =>
    exact (h.issuedOnce x).of_forall fun i c hc hP => ⟨c, hissued i c hc x hP, hP⟩
  | stored k q p t id hc ht hid hnew hins hcalls =>
    rw [hcalls]
    refine (h.issuedOnce x).set (List.getElem?_eq_some_iff.mp hc).1 ?_
    rintro ⟨p', hp', rfl⟩ j ⟨qj, sj⟩ - hj ⟨pj, hstage, hhash⟩
    cases hp'
    obtain rfl : sj = .issued pj := hstage
    obtain ⟨now, b, r, nonce, hq, -⟩ := h.minted j _ pj hj rfl
    obtain rfl : qj = .issue now b r := hq
    -- the other challenge has a row under this hash
    obtain ⟨c, hrow, -⟩ := h.issued j now b r pj hj
    rw [hhash, hnew] at hrow
    cases hrow
  | spent k q p t now row hc hrow hunspent hins hcalls =>
    rw [hcalls]
    refine (h.issuedOnce x).set (List.getElem?_eq_some_iff.mp hc).1 ?_
    rintro ⟨p', hp', -⟩
    cases hp'

theorem Stored.checked_step (h : Stored R s) (hchange : Change R true s a s') {i : Nat} {c' : Call}
    {p : CheckInPayload} {t : Int} (hc' : s'.call? i = some c')
    (hstage : c'.stage = .checked p t ∨ c'.stage = .consumed p t) :
    ∃ row, s'.db.challenges.lookup (hashNonce R p.nonce) = some row ∧ t < row.expiresAt ∧
      ∃ t' token r, c'.request = .consume t' token row.bookingId r := by
  have hrow : ∃ row, s.db.challenges.lookup (hashNonce R p.nonce) = some row ∧ t < row.expiresAt ∧
      ∃ t' token r, c'.request = .consume t' token row.bookingId r := by
    rcases hchange.checked hc' hstage with ⟨c, hc, hq, hstage⟩ | hrow
    · rw [← hq]
      exact h.checked i c p t hc hstage
    · exact hrow
  obtain ⟨row, hrow, ht, t', token, r, hq⟩ := hrow
  obtain ⟨row', hrow', hages⟩ := hchange.rows.keeps _ row hrow
  exact ⟨row', hrow', hages.expiresAt ▸ ht, t', token, r, hages.bookingId ▸ hq⟩

theorem Stored.spent_step (h : Stored R s) (hchange : Change R true s a s') {x : String}
    {c : CheckInChallenge} (hc : s'.db.challenges.lookup x = some c)
    (hspent : c.consumedAt.isSome) : ∃ i call, s'.call? i = some call ∧ call.Spends R x := by
  have hold : s.db.challenges.lookup x = some c →
      ∃ i call, s'.call? i = some call ∧ call.Spends R x := by
    intro hc
    obtain ⟨i, call, hcall, p, t, hstage, hhash⟩ := h.spent x c hc hspent
    exact ⟨i, call, hchange.keep hcall (by rw [hstage]; rfl), p, t, hstage, hhash⟩
  cases hchange.rows with
  | same hsame _ _ => exact hold (by rw [← hsame]; exact hc)
  | stored k q p t id hcall ht hid hnew hins hcalls =>
    rw [hins] at hc
    rcases lookup_of_insert hc with ⟨rfl, rfl⟩ | ⟨-, hc⟩
    · cases hspent
    · exact hold hc
  | spent k q p t now row hcall hrow hunspent hins hcalls =>
    rw [hins] at hc
    rcases lookup_of_insert hc with ⟨rfl, -⟩ | ⟨-, hc⟩
    · refine ⟨k, ⟨q, .consumed p t⟩, ?_, p, t, rfl, rfl⟩
      rw [State.call?, hcalls]
      exact List.getElem?_set_self (List.getElem?_eq_some_iff.mp hcall).1
    · exact hold hc

theorem Stored.marked_step (h : Stored R s) (hrows : RowChange R s s') {i : Nat} {c' : Call}
    {x : String} (hc' : s'.call? i = some c') (hspends : c'.Spends R x) :
    ∃ row, s'.db.challenges.lookup x = some row ∧ row.consumedAt.isSome := by
  have hold : s.call? i = some c' → ∃ row, s'.db.challenges.lookup x = some row ∧
      row.consumedAt.isSome := by
    intro hc
    obtain ⟨row, hrow, hspent⟩ := h.marked i c' x hc hspends
    obtain ⟨row', hrow', hages⟩ := hrows.keeps _ row hrow
    exact ⟨row', hrow', hages.consumedAt hspent⟩
  cases hrows with
  | same _ _ hsame => exact hold (hsame i c' hc' x hspends)
  | stored k q p t id hc ht hid hnew hins hcalls =>
    rcases call?_of_calls hc hcalls hc' with ⟨-, rfl⟩ | ⟨-, hc'⟩
    · obtain ⟨_, _, hstage, -⟩ := hspends
      cases hstage
    · exact hold hc'
  | spent k q p t now row hc hrow hunspent hins hcalls =>
    rcases call?_of_calls hc hcalls hc' with ⟨-, rfl⟩ | ⟨-, hc'⟩
    · obtain ⟨p', t', hstage, rfl⟩ := hspends
      cases hstage
      exact ⟨{ row with consumedAt := some now }, by rw [hins, lookup_insert, if_pos rfl], rfl⟩
    · exact hold hc'

theorem Stored.spentOnce_step (h : Stored R s) (hrows : RowChange R s s') (x : String) :
    AtMostOne (Call.Spends R x) s'.calls := by
  cases hrows with
  | same _ _ hspent =>
    exact (h.spentOnce x).of_forall fun i c hc hP => ⟨c, hspent i c hc x hP, hP⟩
  | stored k q p t id hc ht hid hnew hins hcalls =>
    rw [hcalls]
    refine (h.spentOnce x).set (List.getElem?_eq_some_iff.mp hc).1 ?_
    rintro ⟨p', t', hp', -⟩
    cases hp'
  | spent k q p t now row hc hrow hunspent hins hcalls =>
    rw [hcalls]
    refine (h.spentOnce x).set (List.getElem?_eq_some_iff.mp hc).1 ?_
    rintro ⟨p', t', hp', rfl⟩ j y - hj hspends
    cases hp'
    -- the row would be spent already
    obtain ⟨row', hrow', hspent⟩ := h.marked j y _ hj hspends
    obtain rfl : row = row' := Option.some.inj (hrow.symm.trans hrow')
    rw [hunspent] at hspent
    cases hspent

theorem stored_step (s : State) (a : Action) (s' : State) (h : Stored R s)
    (hstep : step R true s a = some s') : Stored R s' := by
  have hchange := change_of_step hstep
  have hrows := hchange.rows
  exact ⟨fun k c p => h.minted_step hchange, fun j now b r p => h.issued_step hrows,
    h.issuedOnce_step hrows, fun i c p t => h.checked_step hchange,
    fun x c => h.spent_step hchange, fun i c x => h.marked_step hrows, h.spentOnce_step hrows⟩

end Steps

theorem stored_of_exec {R : Runtime} {s₀ s : State} {as : List Action} (h₀ : Fresh s₀)
    (hrun : (machine R true).exec s₀ as = some s) : Stored R s :=
  (machine R true).exec_invariant stored_step hrun (stored_of_fresh h₀)

/-! ## Completeness -/

/-- A challenge with this nonce hash was consumed. -/
def State.Spent (R : Runtime) (s : State) (h : String) : Prop :=
  ∃ i c, s.call? i = some c ∧ c.Spends R h

/-- The token of `payload`, issued for `bookingId` and `renter` at `now`, works from `s` on. It
    may be presented at any time before its expiry. Whatever other calls then do, as long as
    no other one consumes the challenge, each of the two statements of this call goes
    through, the check of the row before the expiry too, and the call returns `payload`. -/
def Redeems (R : Runtime) (s : State) (now : Int) (bookingId renter : String)
    (payload : CheckInPayload) : Prop :=
  ∀ t, t < now + 120000 → ∃ s₁,
    step R true s (.consume t (CheckIn.token R payload) bookingId renter) = some s₁ ∧
    ∀ as₁ s₂ t₁, (machine R true).exec s₁ as₁ = some s₂ →
      (∀ a ∈ as₁, a.target ≠ some s.calls.length) →
      ¬ s₂.Spent R (hashNonce R payload.nonce) → t₁ < now + 120000 → ∃ s₃,
      step R true s₂ (.advance s.calls.length t₁) = some s₃ ∧
      ∀ as₂ s₄ t₂, (machine R true).exec s₃ as₂ = some s₄ →
        (∀ a ∈ as₂, a.target ≠ some s.calls.length) →
        ¬ s₄.Spent R (hashNonce R payload.nonce) → ∃ s₅,
        step R true s₄ (.advance s.calls.length t₂) = some s₅ ∧
        s₅.Consumed s.calls.length t (CheckIn.token R payload) bookingId renter payload t₁

section Completeness

variable {R : Runtime} {s s' : State} {as : List Action}

theorem turn_add (c c' : Call) : (s.add c).turn s.calls.length c' = s.add c' := by
  simp [State.add, State.turn]

@[simp] theorem add_db (c : Call) : (s.add c).db = s.db := rfl

theorem call?_add_new (c : Call) : (s.add c).call? s.calls.length = some c :=
  List.getElem?_concat_length

/-- The check of the row, by a call that has read its token. -/
theorem advance_read {prisma : Bool} {k : Nat} {t now : Int} {token b r : String}
    {p : CheckInPayload} (hc : s.call? k = some ⟨.consume t token b r, .read p⟩) :
    step R prisma s (.advance k now) = some (s.turn k ⟨.consume t token b r,
      settle (fun _ => .checked p now) (CheckIn.findChallenge R s.db p b now)⟩) := by
  simp only [step, hc, Option.bind_some]

theorem not_spent_add {c : Call} {x : String} (h : ¬ s.Spent R x) (hc : ¬ c.Spends R x) :
    ¬ (s.add c).Spent R x := by
  rintro ⟨i, c', hc', hspends⟩
  rcases call?_of_add hc' with hold | ⟨-, rfl⟩
  · exact h ⟨i, c', hold, hspends⟩
  · exact hc hspends

theorem exec_cons {prisma : Bool} {u : State} {a : Action} (hstep : step R prisma s a = some u)
    (hrun : (machine R prisma).exec u as = some s') :
    (machine R prisma).exec s (a :: as) = some s' :=
  (machine R prisma).exec_cons_eq_some.mpr ⟨u, hstep, hrun⟩

theorem untouched_exec {k : Nat} {c : Call} (hrun : (machine R true).exec s as = some s')
    (has : ∀ a ∈ as, a.target ≠ some k) (hc : s.call? k = some c) : s'.call? k = some c :=
  (machine R true).exec_invariant_along (I := fun u => u.call? k = some c)
    (fun _ _ _ hu ha hstep => (change_of_step hstep).untouched hu ha) hrun
    ((machine R true).along_of_forall s has) hc

theorem stored_exec (h : Stored R s) (hrun : (machine R true).exec s as = some s') : Stored R s' :=
  (machine R true).exec_invariant stored_step hrun h

theorem issued_exec {prisma : Bool} {j : Nat} {now : Int} {b r : String} {p : CheckInPayload}
    (hrun : (machine R prisma).exec s as = some s') (hj : s.Issued j now b r p) :
    s'.Issued j now b r p :=
  (machine R prisma).exec_invariant (I := fun u => u.Issued j now b r p)
    (fun _ _ _ hu hstep => (change_of_step hstep).issued hu) hrun hj

/-- The row of an issued challenge that no call has consumed. -/
theorem Stored.unspent (h : Stored R s) {j : Nat} {now : Int} {b r : String} {p : CheckInPayload}
    (hj : s.Issued j now b r p) (hunspent : ¬ s.Spent R (hashNonce R p.nonce)) :
    ∃ row, s.db.challenges.lookup (hashNonce R p.nonce) = some row ∧ R.uuid b = some row.bookingId ∧
      row.expiresAt = now + 120000 ∧ row.consumedAt = none := by
  obtain ⟨row, hrow, hb, ht⟩ := h.issued j now b r p hj
  refine ⟨row, hrow, hb, ht, ?_⟩
  by_contra hspent
  exact hunspent (h.spent _ row hrow (Option.isSome_iff_ne_none.mpr hspent))

theorem redeems_of_canonical (h : Stored R s) {j : Nat} {now : Int} {b r : String}
    {p : CheckInPayload} (hj : s.Issued j now b r p) (hencodes : Encodes R p)
    (hb : R.Canonical b) : Redeems R s now b r p := by
  intro t ht
  obtain ⟨now', b', r', nonce, hq, rfl⟩ := h.minted j _ p hj rfl
  cases hq
  have hread := CheckIn.readToken_token hencodes ht
  have hstep₁ : step R true s (.consume t (CheckIn.token R (newPayload b r nonce now)) b r) =
      some (s.add ⟨.consume t (CheckIn.token R (newPayload b r nonce now)) b r,
        .read (newPayload b r nonce now)⟩) := by
    simp only [step, hread, if_true]
  refine ⟨_, hstep₁, fun as₁ s₂ t₁ hrun₁ htarget₁ hunspent₁ ht₁ => ?_⟩
  -- the call is where it was left, and the row is unspent
  have hcall₂ : s₂.call? s.calls.length = some
      ⟨.consume t (CheckIn.token R (newPayload b r nonce now)) b r, .read (newPayload b r nonce now)⟩ :=
    untouched_exec hrun₁ htarget₁ List.getElem?_concat_length
  have hrun₂ := exec_cons hstep₁ hrun₁
  have hstored₂ := stored_exec h hrun₂
  obtain ⟨row, hrow, hid, hexpires, hnone⟩ := hstored₂.unspent (issued_exec hrun₂ hj) hunspent₁
  have hsame : row.bookingId = b := Option.some.inj (hid.symm.trans hb)
  have hfound : CheckIn.findChallenge R s₂.db (newPayload b r nonce now) b t₁ = .ok () :=
    CheckIn.findChallenge_eq_ok.mpr ⟨row, hrow, hsame, hnone, by omega⟩
  have hstep₃ : step R true s₂ (.advance s.calls.length t₁) = some (s₂.turn s.calls.length
      ⟨.consume t (CheckIn.token R (newPayload b r nonce now)) b r,
        .checked (newPayload b r nonce now) t₁⟩) := by
    rw [advance_read hcall₂, hfound]
    rfl
  refine ⟨_, hstep₃, fun as₂ s₄ t₂ hrun₃ htarget₂ hunspent₂ => ?_⟩
  have hcall₄ : s₄.call? s.calls.length = some
      ⟨.consume t (CheckIn.token R (newPayload b r nonce now)) b r,
        .checked (newPayload b r nonce now) t₁⟩ :=
    untouched_exec hrun₃ htarget₂ (call?_turn_self hcall₂)
  have hrun₄ := exec_cons hstep₃ hrun₃
  obtain ⟨row', hrow', -, -, hnone'⟩ := (stored_exec hstored₂ hrun₄).unspent
    (issued_exec hrun₄ (issued_exec hrun₂ hj)) hunspent₂
  obtain ⟨db, hspend⟩ : ∃ db, CheckIn.spendChallenge R s₄.db (newPayload b r nonce now) t₂ = .ok db :=
    ⟨_, CheckIn.spendChallenge_eq_ok.mpr ⟨row', hrow', hnone', rfl⟩⟩
  have hstep₅ : step R true s₄ (.advance s.calls.length t₂) = some ({ s₄ with db := db }.turn
      s.calls.length ⟨.consume t (CheckIn.token R (newPayload b r nonce now)) b r,
        .consumed (newPayload b r nonce now) t₁⟩) := by
    simp only [step, hcall₄, Option.bind_some, hspend]
  exact ⟨_, hstep₅, call?_turn_self (s := { s₄ with db := db }) hcall₄⟩

end Completeness

/-- A challenge that was consumed was issued for an id that the database spells. -/
theorem canonical_of_spent (hbacked : Backed R s) (h : Stored R s) {j : Nat} {now : Int}
    {b r : String} {p : CheckInPayload} (hj : s.Issued j now b r p)
    (hspent : s.Spent R (hashNonce R p.nonce)) : R.Canonical b := by
  obtain ⟨i, c, hc, p', t', hstage, hhash⟩ := hspent
  obtain ⟨row, hrow, -, t, token, r', hq⟩ := h.checked i c p' t' hc (.inr hstage)
  obtain ⟨row', hrow', hid, -⟩ := h.issued j now b r p hj
  obtain rfl : row = row' := by
    rw [hhash] at hrow
    exact Option.some.inj (hrow.symm.trans hrow')
  obtain ⟨_, _, _, _, _, j', now', hq', -, hj', -⟩ := hbacked.taken i c p' hc (by rw [hstage]; rfl)
  rw [hq] at hq'
  cases hq'
  -- the call was given the id of the row, and the text of the issue
  obtain rfl : j = j' := h.issuedOnce _ j j' _ _ hj hj' ⟨p, rfl, rfl⟩ ⟨p', rfl, hhash⟩
  obtain rfl : b = row.bookingId := by
    cases Option.some.inj (hj.symm.trans hj')
    rfl
  exact hid

/-- One that works is for such an id: otherwise nobody consumes it, and its first check fails. -/
theorem canonical_of_redeems (hbacked : Backed R s) (h : Stored R s) {j : Nat} {now : Int}
    {b r : String} {p : CheckInPayload} (hj : s.Issued j now b r p)
    (hredeems : Redeems R s now b r p) : R.Canonical b := by
  by_cases hspent : s.Spent R (hashNonce R p.nonce)
  · exact canonical_of_spent hbacked h hj hspent
  · obtain ⟨hencodes, nonce, rfl⟩ := hbacked.issued hj
    have hlive : now < now + 120000 := by omega
    have hread := CheckIn.readToken_token hencodes hlive
    obtain ⟨s₁, hstep₁, hworks⟩ := hredeems now hlive
    obtain rfl : s.add ⟨_, .read (newPayload b r nonce now)⟩ = s₁ := by
      simpa only [step, hread, if_true, Option.some.injEq] using hstep₁
    obtain ⟨s₂, hstep₂, hworks⟩ := hworks [] _ now rfl (by simp)
      (not_spent_add hspent (by rintro ⟨_, _, hstage, -⟩; cases hstage)) hlive
    rw [advance_read (call?_add_new _), add_db, turn_add] at hstep₂
    cases hfound : CheckIn.findChallenge R s.db (newPayload b r nonce now) b now with
    | ok u =>
      obtain ⟨row, hrow, rfl, -⟩ := CheckIn.findChallenge_eq_ok.mp hfound
      obtain ⟨row', hrow', hid, -⟩ := h.issued j now _ r _ hj
      obtain rfl : row = row' := Option.some.inj (hrow.symm.trans hrow')
      exact hid
    | error e =>
      rw [hfound] at hstep₂
      obtain rfl := Option.some.inj hstep₂
      -- a call that threw does not go on
      obtain ⟨s₃, hstep₃, -⟩ := hworks [] _ now rfl (by simp)
        (not_spent_add hspent (by rintro ⟨_, _, hstage, -⟩; cases hstage))
      simp [step, call?_add_new, settle] at hstep₃

/-- **Check-in challenges are sound and single-use, and complete for the ids that the database
    spells.** In every run of calls on one database, with whatever texts are presented: a
    `consume` that succeeded was given a token that an earlier `issue` made for exactly that
    booking and renter, and both its checks came before the expiry two minutes after that; of
    the calls that issued a challenge there is one for each nonce hash, and one at most of those
    that consumed it; and the token of an issued challenge works, for whoever presents it in
    time and first, if and only if `issue` was given the booking id in the database's spelling. -/
theorem token_redeems_iff (R : Runtime) (s₀ s : State) (as : List Action)
    (h₀ : Fresh s₀) (hrun : (machine R true).exec s₀ as = some s)
    (htrusted : (machine R true).Along (Trusted R) s₀ as) :
    (∀ i t token b r p t', s.Consumed i t token b r p t' → ∃ j now, j < i ∧ s.Issued j now b r p ∧
      p.expiresAt = some (now + 120000) ∧ t < now + 120000 ∧ t' < now + 120000) ∧
    (∀ h, AtMostOne (Call.Issues R h) s.calls ∧ AtMostOne (Call.Spends R h) s.calls) ∧
    (∀ j now b r p, s.Issued j now b r p → (Redeems R s now b r p ↔ R.Canonical b)) := by
  have hbacked := backed_of_exec h₀ hrun htrusted
  have hstored := stored_of_exec h₀ hrun
  refine ⟨?_, fun h => ⟨hstored.issuedOnce h, hstored.spentOnce h⟩, ?_⟩
  · intro i t token b r p t' hi
    obtain ⟨_, _, _, _, rest, j, now, hq, hj, hissued, htime, -⟩ := hbacked.taken i _ p hi rfl
    cases hq
    obtain ⟨-, nonce, rfl⟩ := hbacked.issued hissued
    -- the row that was checked is the one the issue stored
    obtain ⟨row, hrow, ht', -⟩ := hstored.checked i _ _ t' hi (.inr rfl)
    obtain ⟨row', hrow', -, hexpires⟩ := hstored.issued j now b r _ hissued
    obtain rfl : row = row' := Option.some.inj (hrow.symm.trans hrow')
    exact ⟨j, now, hj, hissued, rfl, htime, by omega⟩
  · intro j now b r p hj
    exact ⟨canonical_of_redeems hbacked hstored hj,
      redeems_of_canonical hstored hj (hbacked.issued hj).1⟩

/-! ## Calls that nobody disturbs -/

section Undisturbed

variable {R : Runtime} {s : State}

/-- `issue`, from its first statement to its return. -/
theorem issue_exec (now t t' : Int) (nonce : String) {b id r : String} {row : BookingRow}
    (hid : R.uuid b = some id) (hrow : s.db.bookings.lookup id = some row) (hrenter : row.renter = r)
    (hnew : s.db.challenges.lookup (hashNonce R nonce) = none) :
    ∃ db, (machine R true).exec s [.issue now nonce b r, .advance s.calls.length t,
        .advance s.calls.length t'] =
          some ({ s with db := db }.add ⟨.issue now b r, .issued (newPayload b r nonce now)⟩) ∧
      db.challenges.lookup (hashNonce R nonce) =
        some ⟨id, hashNonce R nonce, now + 2 * 60000, none⟩ := by
  have hfound : CheckIn.findBooking R s.db (newPayload b r nonce now) = .ok () :=
    CheckIn.findBooking_eq_ok.mpr ⟨row, ⟨id, hid, hrow⟩, hrenter⟩
  obtain ⟨db, hstore, hlookup⟩ : ∃ db, CheckIn.storeChallenge R s.db (newPayload b r nonce now) =
        .ok db ∧ db.challenges.lookup (hashNonce R nonce) =
          some ⟨id, hashNonce R nonce, now + 2 * 60000, none⟩ :=
    ⟨_, CheckIn.storeChallenge_eq_ok.mpr ⟨_, id, rfl, hid, hnew, rfl⟩, by
      simp only [lookup_insert, newPayload, if_true]⟩
  have hissue : step R true s (.issue now nonce b r) =
      some (s.add ⟨.issue now b r, .drawn (newPayload b r nonce now)⟩) := rfl
  have hfind : step R true (s.add ⟨.issue now b r, .drawn (newPayload b r nonce now)⟩)
      (.advance s.calls.length t) =
        some (s.add ⟨.issue now b r, .found (newPayload b r nonce now)⟩) := by
    simp only [step, call?_add_new, Option.bind_some, add_db, hfound, settle, turn_add]
  have hstep : step R true (s.add ⟨.issue now b r, .found (newPayload b r nonce now)⟩)
      (.advance s.calls.length t') =
        some ({ s with db := db }.add ⟨.issue now b r, .issued (newPayload b r nonce now)⟩) := by
    simp only [step, call?_add_new, Option.bind_some, add_db, hstore]
    exact congrArg some (turn_add (s := { s with db := db }) _ _)
  exact ⟨db, exec_cons hissue (exec_cons hfind ((machine R true).exec_single hstep)), hlookup⟩

/-- `consume` of a good token, from its first statement to its return. -/
theorem consume_exec {now t : Int} (t' : Int) {token b r : String} {p : CheckInPayload}
    (hread : readToken R token b r now = .ok p)
    (hfound : CheckIn.findChallenge R s.db p b t = .ok ()) :
    ∃ db, (machine R true).exec s [.consume now token b r, .advance s.calls.length t,
        .advance s.calls.length t'] =
          some ({ s with db := db }.add ⟨.consume now token b r, .consumed p t⟩) := by
  obtain ⟨row, hrow, -, hunspent, -⟩ := CheckIn.findChallenge_eq_ok.mp hfound
  obtain ⟨db, hspend⟩ : ∃ db, CheckIn.spendChallenge R s.db p t' = .ok db :=
    ⟨_, CheckIn.spendChallenge_eq_ok.mpr ⟨row, hrow, hunspent, rfl⟩⟩
  have hconsume : step R true s (.consume now token b r) =
      some (s.add ⟨.consume now token b r, .read p⟩) := by
    simp only [step, hread, if_true]
  have hcheck : step R true (s.add ⟨.consume now token b r, .read p⟩)
      (.advance s.calls.length t) = some (s.add ⟨.consume now token b r, .checked p t⟩) := by
    rw [advance_read (call?_add_new _), add_db, turn_add, hfound]
    rfl
  have hstep : step R true (s.add ⟨.consume now token b r, .checked p t⟩)
      (.advance s.calls.length t') =
        some ({ s with db := db }.add ⟨.consume now token b r, .consumed p t⟩) := by
    simp only [step, call?_add_new, Option.bind_some, add_db, hspend]
    exact congrArg some (turn_add (s := { s with db := db }) _ _)
  exact ⟨db, exec_cons hconsume (exec_cons hcheck ((machine R true).exec_single hstep))⟩

/-- `consume` of a token whose row does not pass its checks. -/
theorem consume_exec_error {now t : Int} {token b r e : String} {p : CheckInPayload}
    (hread : readToken R token b r now = .ok p)
    (hfound : CheckIn.findChallenge R s.db p b t = .error e) :
    (machine R true).exec s [.consume now token b r, .advance s.calls.length t] =
      some (s.add ⟨.consume now token b r, .threw e⟩) := by
  have hconsume : step R true s (.consume now token b r) =
      some (s.add ⟨.consume now token b r, .read p⟩) := by
    simp only [step, hread, if_true]
  have hcheck : step R true (s.add ⟨.consume now token b r, .read p⟩)
      (.advance s.calls.length t) = some (s.add ⟨.consume now token b r, .threw e⟩) := by
    rw [advance_read (call?_add_new _), add_db, turn_add, hfound]
    rfl
  exact exec_cons hconsume ((machine R true).exec_single hcheck)

end Undisturbed

/-! ## A sample -/

section Sample

open Workflow (sampleRuntime samplePayload)

theorem trusted_issue {R : Runtime} {prisma : Bool} {s : State} {now t t' : Int}
    {nonce b r : String} {k k' : Nat} (hencodes : Encodes R (newPayload b r nonce now)) :
    (machine R prisma).Along (Trusted R) s
      [.issue now nonce b r, .advance k t, .advance k' t'] :=
  ⟨hencodes, fun _ _ => ⟨trivial, fun _ _ => ⟨trivial, fun _ _ => trivial⟩⟩⟩

theorem trusted_consume {R : Runtime} {s : State} {now t : Int} {b r b' r' : String}
    {p : CheckInPayload} {j : Nat} (hj : s.Issued j now b r p) {token : String}
    {rest : List String} (hsplit : splitDots token = R.encode p :: rest) :
    Trusted R s (.consume t token b' r') := by
  intro encoded rest' hsplit' _ _
  rw [hsplit] at hsplit'
  exact ⟨j, now, b, r, p, hj, (List.cons.inj hsplit').1.symm⟩

/-- A database with the booking of `samplePayload`, before any call. -/
def vacant : State where
  db :=
    { Workflow.listed.db with
      bookings := AList.singleton "3b241101-e2bb-4255-8caf-4136c566a962"
        { id := "3b241101-e2bb-4255-8caf-4136c566a962"
          onChainBookingId := "4261549847195894357"
          propertyId := "property"
          slotId := "slot"
          renter := "renter"
          host := "host"
          depositAmount := 1000000
          asset := "native"
          visitTime := 1893492000000
          evidenceHash := "6c86c6aac5fb24bcf5d9939cb7d7d5645ce39418f449e03b262dd4fa14b4b92b"
          checkInProofHash := none
          status := .funded
          version := 1 } }
  used := []
  calls := []

theorem fresh_vacant : Fresh vacant := ⟨rfl, rfl, rfl⟩

/-- `issue` for that booking. -/
def issueSample : Action :=
  .issue 1893488400000 samplePayload.nonce "3b241101-e2bb-4255-8caf-4136c566a962" "renter"

/-- That call over, with `db` for the database. -/
def issuedSample (db : Db) : State :=
  { vacant with db := db }.add
    ⟨.issue 1893488400000 "3b241101-e2bb-4255-8caf-4136c566a962" "renter", .issued samplePayload⟩

/-- `consume` of a text for that booking, a minute later. -/
def consumeSample (token : String) : Action :=
  .consume 1893488460000 token "3b241101-e2bb-4255-8caf-4136c566a962" "renter"

theorem encodes_sample : Encodes sampleRuntime (newPayload "3b241101-e2bb-4255-8caf-4136c566a962"
    "renter" samplePayload.nonce 1893488400000) := carries_sample.encodes

theorem issued_issuedSample (db : Db) : (issuedSample db).Issued 0 1893488400000
    "3b241101-e2bb-4255-8caf-4136c566a962" "renter" samplePayload := rfl

theorem token_redeems_iff_sample :
    ∃ s, (machine sampleRuntime true).exec vacant
        ([issueSample, .advance 0 1893488400100, .advance 0 1893488400200] ++
          [consumeSample (CheckIn.token sampleRuntime samplePayload),
            .advance 1 1893488460100, .advance 1 1893488460200]) = some s ∧
      s.Consumed 1 1893488460000 (CheckIn.token sampleRuntime samplePayload)
        "3b241101-e2bb-4255-8caf-4136c566a962" "renter" samplePayload 1893488460100 ∧
      AtMostOne (Call.Spends sampleRuntime (hashNonce sampleRuntime samplePayload.nonce)) s.calls := by
  obtain ⟨db, hissue, hrow⟩ := issue_exec (R := sampleRuntime) (s := vacant) 1893488400000
    1893488400100 1893488400200 samplePayload.nonce
    (b := "3b241101-e2bb-4255-8caf-4136c566a962") (r := "renter") rfl rfl rfl rfl
  have hread := CheckIn.readToken_token encodes_sample (by decide : (1893488460000 : Int) < _)
  have hfound : CheckIn.findChallenge sampleRuntime db samplePayload
      "3b241101-e2bb-4255-8caf-4136c566a962" 1893488460100 = .ok () :=
    CheckIn.findChallenge_eq_ok.mpr ⟨_, hrow, rfl, rfl, by decide⟩
  obtain ⟨db', hconsume⟩ := consume_exec (R := sampleRuntime) (s := issuedSample db)
    1893488460200 hread hfound
  have hrun := (machine sampleRuntime true).exec_trans hissue hconsume
  have hconsumed : (machine sampleRuntime true).Along (Trusted sampleRuntime) (issuedSample db)
      [consumeSample (CheckIn.token sampleRuntime samplePayload), .advance 1 1893488460100,
        .advance 1 1893488460200] :=
    ⟨trusted_consume (issued_issuedSample db) (CheckIn.splitDots_token encodes_sample),
      fun _ _ => ⟨trivial, fun _ _ => ⟨trivial, fun _ _ => trivial⟩⟩⟩
  have htrusted := (machine sampleRuntime true).along_trans hissue (trusted_issue encodes_sample)
    hconsumed
  exact ⟨_, hrun, rfl, ((token_redeems_iff sampleRuntime vacant _ _
    fresh_vacant hrun htrusted).2.1 _).2⟩

/-- The payload for the same booking with its id in upper case. -/
def upperPayload : CheckInPayload :=
  { samplePayload with bookingId := "3B241101-E2BB-4255-8CAF-4136C566A962" }

/-- Its JSON text in base64url. -/
def upperEncoded : String :=
  "eyJ2ZXJzaW9uIjoxLCJib29raW5nSWQiOiIzQjI0MTEwMS1FMkJCLTQyNTUtOENBRi00MTM2QzU2NkE5NjIi" ++
    "LCJyZW50ZXIiOiJyZW50ZXIiLCJub25jZSI6IjAwMDEwMjAzMDQwNTA2MDcwODA5MGEwYjBjMGQwZTBmMTAx" ++
    "MTEyMTMxNDE1MTYxNzE4MTkxYTFiMWMxZDFlMWYiLCJleHBpcmVzQXQiOiIyMDMwLTAxLTAxVDA5OjAyOjAw" ++
    "LjAwMFoifQ"

/-- `sampleRuntime` with the text and the signature of that payload. -/
def upperRuntime : Runtime :=
  { sampleRuntime with
    sign := fun s => if s = upperEncoded then "d3iTuYjmUUSZ-vqGoWekSIMuR4ilnpGOjxltK1Swbqk" else ""
    encode := fun p => if p = upperPayload then upperEncoded else ""
    decode := fun s => if s = upperEncoded then .payload upperPayload else .malformed }

theorem encodes_upper : Encodes upperRuntime (newPayload "3B241101-E2BB-4255-8CAF-4136C566A962"
    "renter" samplePayload.nonce 1893488400000) := by
  have hencode : upperRuntime.encode upperPayload = upperEncoded := by
    simp only [upperRuntime, if_true]
  have hsign : upperRuntime.sign upperEncoded = "d3iTuYjmUUSZ-vqGoWekSIMuR4ilnpGOjxltK1Swbqk" := by
    simp only [upperRuntime, if_true]
  change Encodes upperRuntime upperPayload
  refine ⟨?_, ?_, ?_⟩
  · rw [hencode]
    refine ⟨by decide +kernel, ?_⟩
    unfold upperEncoded
    simp only [String.toList_append, List.mem_append, not_or]
    decide +kernel
  · rw [hencode, hsign]
    exact ⟨by decide +kernel, by decide +kernel⟩
  · rw [hencode]
    simp only [upperRuntime, if_true]

/-- The call of `issue` for it over, with `db` for the database. -/
def upperIssued (db : Db) : State :=
  { vacant with db := db }.add
    ⟨.issue 1893488400000 "3B241101-E2BB-4255-8CAF-4136C566A962" "renter", .issued upperPayload⟩

theorem issued_upperIssued (db : Db) : (upperIssued db).Issued 0 1893488400000
    "3B241101-E2BB-4255-8CAF-4136C566A962" "renter" upperPayload := rfl

/-- Given the id of the booking in upper case, `issue` returns a token, and `consume` refuses it
    for the same texts, in time and before any other. -/
theorem mismatch_of_upper : Fresh vacant ∧ ∃ as s,
    (machine upperRuntime true).exec vacant as = some s ∧
    (machine upperRuntime true).Along (Trusted upperRuntime) vacant as ∧
    s.calls = [⟨.issue 1893488400000 "3B241101-E2BB-4255-8CAF-4136C566A962" "renter",
        .issued upperPayload⟩,
      ⟨.consume 1893488460000 (CheckIn.token upperRuntime upperPayload)
        "3B241101-E2BB-4255-8CAF-4136C566A962" "renter", .threw "Check-in challenge mismatch"⟩] := by
  have hid : readHyphenated "3B241101-E2BB-4255-8CAF-4136C566A962" =
      some "3b241101-e2bb-4255-8caf-4136c566a962" := by decide
  obtain ⟨db, hissue, hrow⟩ := issue_exec (R := upperRuntime) (s := vacant) 1893488400000
    1893488400100 1893488400200 samplePayload.nonce
    (b := "3B241101-E2BB-4255-8CAF-4136C566A962") (r := "renter") hid rfl rfl rfl
  have hread := CheckIn.readToken_token encodes_upper (by decide : (1893488460000 : Int) < _)
  have hfound : CheckIn.findChallenge upperRuntime db upperPayload
      "3B241101-E2BB-4255-8CAF-4136C566A962" 1893488460100 =
        .error "Check-in challenge mismatch" :=
    CheckIn.findChallenge_mismatch hrow (by decide)
  have hrefused := consume_exec_error (R := upperRuntime) (s := upperIssued db) hread hfound
  have hrun := (machine upperRuntime true).exec_trans hissue hrefused
  have hconsumed : (machine upperRuntime true).Along (Trusted upperRuntime) (upperIssued db)
      [.consume 1893488460000 (CheckIn.token upperRuntime upperPayload)
        "3B241101-E2BB-4255-8CAF-4136C566A962" "renter", .advance 1 1893488460100] :=
    ⟨trusted_consume (issued_upperIssued db) (CheckIn.splitDots_token encodes_upper),
      fun _ _ => ⟨trivial, fun _ _ => trivial⟩⟩
  have htrusted := (machine upperRuntime true).along_trans hissue (trusted_issue encodes_upper)
    hconsumed
  exact ⟨fresh_vacant, _, _, hrun, htrusted, rfl⟩

end Sample

end PovDeposit.Api.Challenges
