/-
  The rows of the wallet login and the calls behind them.

  `Single`: a challenge's row is consumed exactly when a call has signed in with it, one call
  at most has, and the session rows are those of the calls that did. `Stocked`: `issue` leaves
  its row and the row's wallet behind it, which is what the transaction of `verify` asks for.
-/
import PovDeposit.Api.Logins

namespace PovDeposit.Api.WalletAuth

open PovDeposit.Lib PovDeposit.Lib.Outcome

/-- The challenge that a call has signed in with. -/
def Stage.spent? : Stage → Option Challenge
  | .signedIn c _ _ _ => some c
  | _ => none

def Call.SignsIn (id : String) (c : Call) : Prop := ∃ ch, c.stage.spent? = some ch ∧ ch.id = id

/-- The session of a call that has signed in. -/
def Call.session? (R : Runtime) (c : Call) : Option UserSession :=
  match c.request, c.stage with
  | .verify _ input, .signedIn _ _ token expiresAt =>
      some ⟨input.address, R.sha256 token, expiresAt⟩
  | _, _ => none

/-- Some call has signed in with the challenge. -/
def Service.Used (s : Service) (id : String) : Prop :=
  ∃ (k : Nat) (c : Call), s.call? k = some c ∧ c.SignsIn id

instance (id : String) (c : Call) : Decidable (c.SignsIn id) :=
  decidable_of_iff (∃ ch ∈ c.stage.spent?, ch.id = id) (by simp [Call.SignsIn])

instance (s : Service) (id : String) : Decidable (s.Used id) :=
  decidable_of_iff (∃ c ∈ s.calls, c.SignsIn id) exists_call?.symm

def Service.consumed (s : Service) (id : String) : Bool :=
  ((s.challenges.lookup id).bind fun row => row.consumedAt).isSome

/-- Call `j` has returned the challenge `c`, issued by instance `i` at time `now`. -/
def Service.Issued (s : Service) (j i : Nat) (now : Int) (c : Challenge) : Prop :=
  s.call? j = some ⟨.issue i now c.id c.address c.origin, .issued c⟩

instance (s : Service) (j i : Nat) (now : Int) (c : Challenge) : Decidable (s.Issued j i now c) :=
  inferInstanceAs (Decidable (_ = _))

/-! ## One session for a challenge -/

/-- A step in which no transaction of `verify` commits. -/
structure Quiet (R : Runtime) (s s' : Service) : Prop where
  signs : ∀ k c id, s'.call? k = some c → c.SignsIn id → s.call? k = some c
  rows : ∀ id, s'.consumed id = s.consumed id
  sessions : s'.sessions = s.sessions
  selected : (s'.calls.filterMap (Call.session? R)).Perm (s.calls.filterMap (Call.session? R))

section Quiet

variable {R : Runtime} {s s' : Service}

theorem session?_of_flight {c : Call} (h : c.stage.spent? = none) : c.session? R = none := by
  obtain ⟨q, stage⟩ := c
  cases stage <;> cases q <;> first | rfl | cases h

theorem spent?_of_flight {stage : Stage} (h : stage.inFlight = true) : stage.spent? = none := by
  cases stage <;> first | rfl | cases h

theorem Quiet.of_add {c : Call} (hcalls : s'.calls = s.calls ++ [c]) (hc : c.stage.spent? = none)
    (hrows : ∀ id, s'.consumed id = s.consumed id) (hsessions : s'.sessions = s.sessions) :
    Quiet R s s' := by
  refine ⟨fun k x id hx hsigns => ?_, hrows, hsessions, ?_⟩
  · rw [Service.call?, hcalls] at hx
    rcases getElem?_of_concat hx with hx | ⟨-, rfl⟩
    · exact hx
    · obtain ⟨ch, hch, -⟩ := hsigns
      rw [hc] at hch
      cases hch
  · have hnone : [c].filterMap (Call.session? R) = [] :=
      List.filterMap_cons_none (session?_of_flight hc)
    rw [hcalls, List.filterMap_append, hnone, List.append_nil]

theorem Quiet.of_turn {k : Nat} {c : Call} {stage : Stage} (hx : s.call? k = some c)
    (hflight : c.stage.inFlight = true) (hcalls : s'.calls = s.calls.set k ⟨c.request, stage⟩)
    (hstage : stage.spent? = none) (hrows : ∀ id, s'.consumed id = s.consumed id)
    (hsessions : s'.sessions = s.sessions) : Quiet R s s' := by
  refine ⟨fun j y id hy hsigns => ?_, hrows, hsessions, ?_⟩
  · rw [Service.call?, hcalls] at hy
    rcases getElem?_of_set (List.getElem?_eq_some_iff.mp hx).1 hy with ⟨-, rfl⟩ | ⟨-, hy⟩
    · obtain ⟨ch, hch, -⟩ := hsigns
      rw [hstage] at hch
      cases hch
    · exact hy
  · have hperm := filterMap_set_perm (x := ⟨c.request, stage⟩) (Call.session? R) hx
      (session?_of_flight (spent?_of_flight hflight))
    have hnone : Call.session? R ⟨c.request, stage⟩ = none := session?_of_flight hstage
    rw [hnone] at hperm
    rw [hcalls]
    exact hperm

end Quiet

/-- The transaction of `verify` call `k` commits. -/
inductive Committed (S : Settings) (s : Service) : Service → Prop where
  | mk (k : Nat) (now : Int) (i : Nat) (input : VerifyInput) (own : Bool) (c : Challenge) (t : Int)
      (token : String) (expiresAt : Int) (row : AuthChallenge)
      (hc : s.call? k = some ⟨.verify i input, .verified own c t token expiresAt⟩)
      (hrow : s.challenges.lookup c.id = some row) (hunspent : row.consumedAt = none) :
      Committed S s
        ({ s with
            challenges := s.challenges.insert c.id { row with consumedAt := some now }
            sessions := s.sessions ++
              [UserSession.mk input.address (S.runtime.sha256 token) expiresAt] }.turn k
          ⟨.verify i input, .signedIn c t token expiresAt⟩)

section Single

variable {S : Settings} {s s' : Service} {a : Action}

theorem consumed_of_lookup {id : String} {row : AuthChallenge}
    (h : s.challenges.lookup id = some row) : s.consumed id = row.consumedAt.isSome := by
  rw [Service.consumed, h]
  rfl

theorem consumed_of_none {id : String} (h : s.challenges.lookup id = none) :
    s.consumed id = false := by
  rw [Service.consumed, h]
  rfl

theorem consumed_of_insert {id : String} {row : AuthChallenge}
    (h : s'.challenges = s.challenges.insert id row) (id' : String) :
    s'.consumed id' = if id' = id then row.consumedAt.isSome else s.consumed id' := by
  unfold Service.consumed
  rw [h, lookup_insert]
  split <;> rfl

theorem Change.quiet (h : Change S s a s') (hdb : S.prisma = true) :
    Quiet S.runtime s s' ∨ Committed S s s' := by
  cases h with
  | refuse _ q e => exact .inl (.of_add rfl rfl (fun _ => rfl) rfl)
  | issue => exact .inl (.of_add rfl (by rw [hdb]; rfl) (fun _ => rfl) rfl)
  | accept => exact .inl (.of_add rfl (by rw [hdb]; rfl) (fun _ => rfl) rfl)
  | look => exact .inl (.of_add rfl rfl (fun _ => rfl) rfl)
  | upsert k now token q c hc => exact .inl (.of_turn hc rfl rfl rfl (fun _ => rfl) rfl)
  | store k now token q c t hc ht hnew =>
    refine .inl (.of_turn hc rfl rfl rfl (fun id => ?_) rfl)
    refine (consumed_of_insert rfl id).trans ?_
    split
    · rename_i hid
      rw [hid, consumed_of_none hnew]
      rfl
    · rfl
  | find k now token i input id stored hc => exact .inl (.of_turn hc rfl rfl rfl (fun _ => rfl) rfl)
  | commit k now token i input own c t token' expiresAt row hc hrow hunspent =>
    exact .inr (.mk k now i input own c t token' expiresAt row hc hrow hunspent)
  | abort k now token i input own c t token' expiresAt e hc =>
    exact .inl (.of_turn hc rfl rfl rfl (fun _ => rfl) rfl)
  | throw k now token c e hc hflight => exact .inl (.of_turn hc hflight rfl rfl (fun _ => rfl) rfl)
  | fail k c e hc hflight => exact .inl (.of_turn hc hflight rfl rfl (fun _ => rfl) rfl)
  | restart =>
    exact .inl ⟨fun _ _ _ hc _ => hc, fun _ => rfl, rfl, List.Perm.refl _⟩

theorem flight_of_spent {c : Call} {id : String} (h : c.SignsIn id) : c.stage.inFlight = false := by
  obtain ⟨ch, hch, -⟩ := h
  cases hstage : c.stage <;> rw [hstage] at hch <;> first | rfl | cases hch

/-- A challenge that has its session keeps it. -/
theorem Moved.used (h : Moved s s' a) {id : String} (hused : s.Used id) : s'.Used id := by
  obtain ⟨k, c, hc, hsigns⟩ := hused
  exact ⟨k, c, h.keep hc (flight_of_spent hsigns), hsigns⟩

/-- The invariant of runs on a database. -/
structure Single (S : Settings) (s : Service) : Prop where
  spent : ∀ id, s.Used id ↔ s.consumed id = true
  once : ∀ id, AtMostOne (Call.SignsIn id) s.calls
  sessions : s.sessions.Perm (s.calls.filterMap (Call.session? S.runtime))

theorem single_of_fresh (h : Fresh s.toState) : Single S s := by
  refine ⟨fun id => ?_, fun id i j x y hx => ?_, ?_⟩
  · rw [consumed_of_none (by rw [h.challenges]; exact AList.lookup_empty id)]
    refine ⟨?_, fun hfalse => by cases hfalse⟩
    rintro ⟨k, c, hc, -⟩
    rw [Service.call?, h.calls] at hc
    cases hc
  · rw [h.calls] at hx
    cases hx
  · rw [h.sessions, h.calls]
    rfl

theorem Single.of_quiet (h : Single S s) (hmoved : Moved s s' a) (hquiet : Quiet S.runtime s s') :
    Single S s' := by
  have hback : ∀ id k c, s'.call? k = some c → c.SignsIn id → s.call? k = some c :=
    fun id k c => hquiet.signs k c id
  refine ⟨fun id => ?_, fun id => (h.once id).of_forall fun k c hc hsigns => ?_, ?_⟩
  · rw [hquiet.rows, ← h.spent id]
    refine ⟨?_, hmoved.used⟩
    rintro ⟨k, c, hc, hsigns⟩
    exact ⟨k, c, hback id k c hc hsigns, hsigns⟩
  · exact ⟨c, hback id k c hc hsigns, hsigns⟩
  · rw [hquiet.sessions]
    exact h.sessions.trans hquiet.selected.symm

theorem Single.of_committed (h : Single S s) (hcommitted : Committed S s s') : Single S s' := by
  obtain ⟨k, now, i, input, own, c, t, token, expiresAt, row, hc, hrow, hunspent⟩ := hcommitted
  obtain ⟨hlt, -⟩ := List.getElem?_eq_some_iff.mp hc
  -- no call has signed in with this challenge before
  have hunused : ¬ s.Used c.id := by
    rw [h.spent, consumed_of_lookup hrow, hunspent]
    decide
  refine ⟨fun id => ?_, fun id => (h.once id).set hlt ?_, ?_⟩
  · rw [consumed_of_insert rfl]
    split
    · rename_i hid
      exact iff_of_true ⟨k, _, List.getElem?_set_self hlt, c, rfl, hid.symm⟩ rfl
    · rename_i hid
      rw [← h.spent id]
      constructor
      · rintro ⟨j, x, hx, hsigns⟩
        rcases getElem?_of_set hlt hx with ⟨-, rfl⟩ | ⟨-, hx⟩
        · obtain ⟨ch, hch, rfl⟩ := hsigns
          obtain rfl := Option.some.inj hch
          exact absurd rfl hid
        · exact ⟨j, x, hx, hsigns⟩
      · rintro ⟨j, x, hx, hsigns⟩
        have hne : j ≠ k := by
          rintro rfl
          obtain rfl := Option.some.inj (hc.symm.trans hx)
          have := flight_of_spent hsigns
          cases this
        exact ⟨j, x, (List.getElem?_set_ne hne.symm).trans hx, hsigns⟩
  · rintro ⟨ch, hch, rfl⟩ j x hne hx hsigns
    obtain rfl := Option.some.inj hch
    exact hunused ⟨j, x, hx, hsigns⟩
  · have hperm := filterMap_set_perm (x := ⟨.verify i input, .signedIn c t token expiresAt⟩)
      (Call.session? S.runtime) hc rfl
    exact (List.perm_append_comm.trans (h.sessions.append_left _)).trans hperm.symm

theorem Single.change (h : Single S s) (hdb : S.prisma = true) (hchange : Change S s a s') :
    Single S s' := by
  rcases hchange.quiet hdb with hquiet | hcommitted
  · exact h.of_quiet hchange.moved hquiet
  · exact h.of_committed hcommitted

theorem single_step (hdb : S.prisma = true) (s : Service) (a : Action) (s' : Service)
    (h : Single S s) (hstep : (machine S).step s a = some s') : Single S s' :=
  h.change hdb (change_of_step hstep)

/-! ## What a transaction finds -/

/-- The rows that a call at this stage has left behind it. -/
def Service.Stocks (s : Service) (c : Call) : Prop :=
  match c.stage with
  | .upserted c => (s.wallets.lookup c.address).isSome
  | .issued c => (s.challenges.lookup c.id).isSome
  | _ => True

structure Stocked (s : Service) : Prop where
  calls : ∀ k c, s.call? k = some c → s.Stocks c
  wallets : ∀ id row, s.challenges.lookup id = some row → (s.wallets.lookup row.address).isSome

theorem isSome_insert {κ ν : Type*} [DecidableEq κ] {m : AList fun _ : κ => ν} {k : κ}
    (h : (m.lookup k).isSome) (k' : κ) (v : ν) : ((m.insert k' v).lookup k).isSome := by
  rw [lookup_insert]
  split
  · rfl
  · exact h

theorem Change.wallets (h : Change S s a s') {address : Contract.Address}
    (hw : (s.wallets.lookup address).isSome) : (s'.wallets.lookup address).isSome := by
  cases h with
  | upsert k now token q c => exact isSome_insert hw c.address c.network
  | _ => exact hw

theorem Change.rows (h : Change S s a s') {id : String} (hrow : (s.challenges.lookup id).isSome) :
    (s'.challenges.lookup id).isSome := by
  cases h with
  | store k now token q c => exact isSome_insert hrow c.id _
  | commit k now token i input own c => exact isSome_insert hrow c.id _
  | _ => exact hrow

theorem of_add {P : Call → Prop} {x c : Call} {k : Nat} (hc : (s.add x).call? k = some c)
    (hold : ∀ k c, s.call? k = some c → P c) (hx : P x) : P c := by
  rcases call?_of_add hc with hc | ⟨-, rfl⟩
  · exact hold k c hc
  · exact hx

theorem of_turn {P : Call → Prop} {j k : Nat} {x y c : Call} (hy : s.call? j = some y)
    (hc : (s.turn j x).call? k = some c) (hold : ∀ k c, s.call? k = some c → P c) (hx : P x) :
    P c := by
  rcases call?_of_turn hy hc with ⟨-, rfl⟩ | ⟨-, hc⟩
  · exact hx
  · exact hold k c hc

theorem Change.stocks (h : Change S s a s') (hdb : S.prisma = true)
    (hold : ∀ k c, s.call? k = some c → s.Stocks c) (k : Nat) (c : Call)
    (hc : s'.call? k = some c) : s'.Stocks c := by
  have hkeep : ∀ k c, s.call? k = some c → s'.Stocks c := by
    rintro k ⟨q, stage⟩ hc
    have hstocks := hold k _ hc
    cases stage with
    | upserted c => exact h.wallets hstocks
    | issued c => exact h.rows hstocks
    | _ => trivial
  cases h with
  | refuse _ q e => exact of_add hc hkeep trivial
  | issue => exact of_add hc hkeep (by rw [hdb]; trivial)
  | accept => exact of_add hc hkeep (by rw [hdb]; trivial)
  | look => exact of_add hc hkeep trivial
  | upsert j now token q x hx =>
    have hwallet : ((s.wallets.insert x.address x.network).lookup x.address).isSome := by
      rw [AList.lookup_insert]
      rfl
    exact of_turn (s := { s with wallets := _ }) hx hc hkeep hwallet
  | store j now token q x t hx ht hnew =>
    refine of_turn (s := { s with challenges := _ }) hx hc hkeep ?_
    show (AList.lookup _ (AList.insert _ _ _)).isSome
    rw [AList.lookup_insert]
    rfl
  | find j now token i input id stored hx => exact of_turn hx hc hkeep trivial
  | commit j now token i input own x t token' expiresAt row hx =>
    exact of_turn (s := { s with challenges := _, sessions := _ }) hx hc hkeep trivial
  | abort j now token i input own x t token' expiresAt e hx =>
    exact of_turn hx hc hkeep trivial
  | throw j now token x e hx => exact of_turn hx hc hkeep trivial
  | fail j x e hx => exact of_turn hx hc hkeep trivial
  | restart => exact hkeep k c hc

theorem stocked_of_fresh (h : Fresh s.toState) : Stocked s := by
  refine ⟨fun k c hc => ?_, fun id row hrow => ?_⟩
  · rw [Service.call?, h.calls] at hc
    cases hc
  · rw [h.challenges, AList.lookup_empty] at hrow
    cases hrow

theorem stocked_step (hdb : S.prisma = true) (s : Service) (a : Action) (s' : Service)
    (h : Stocked s) (hstep : (machine S).step s a = some s') : Stocked s' := by
  have hchange := change_of_step hstep
  refine ⟨fun k c => hchange.stocks hdb h.calls k c, fun id row hrow => ?_⟩
  have hold : s.challenges.lookup id = some row → (s'.wallets.lookup row.address).isSome :=
    fun hrow => hchange.wallets (h.wallets id row hrow)
  cases hchange with
  | store k now token q c t hc =>
    rcases lookup_of_insert hrow with ⟨-, rfl⟩ | ⟨-, hrow⟩
    · exact h.calls k _ hc
    · exact hold hrow
  | commit k now token i input own c t token' expiresAt row' hc hrow' =>
    rcases lookup_of_insert hrow with ⟨-, rfl⟩ | ⟨-, hrow⟩
    · exact h.wallets c.id row' hrow'
    · exact hold hrow
  | _ => exact hold hrow

end Single

end PovDeposit.Api.WalletAuth
