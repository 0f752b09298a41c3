/-
  `WalletAuthService` under any number of concurrent calls, on any number of instances.

  `Change` lists what a step of the service does. `Backed` follows a challenge from the
  `issue` that made it to the instance's map and to its row, and from there to the `verify`
  that has checked it, with a database or without one.
-/
import PovDeposit.Api.WalletAuth
import PovDeposit.Lib.Machine
import PovDeposit.Lib.KeyedSum
import PovDeposit.Lib.Outcome
import PovDeposit.Lib.Slots

namespace PovDeposit.Api.WalletAuth

open PovDeposit.Lib PovDeposit.Lib.Outcome
open PovDeposit.Contract (Address)

/-- What the instances are started with; each has its own origins and its own network. -/
structure Settings where
  runtime : Runtime
  keys : Keys
  origins : Nat → List String
  network : Nat → String
  prisma : Bool

/-- The instance that takes a call. An `advance` needs no settings. -/
def Action.taker : Action → Nat
  | .issue i _ _ _ _ | .verify i _ _ _ | .restart i => i
  | .advance _ _ _ | .fail _ _ => 0

def machine (S : Settings) : Machine Service Action where
  init s := Fresh s.toState
  step s a := serve S.runtime S.keys (S.origins a.taker) (S.network a.taker) S.prisma s a

/-! ## Inversion -/

section Inversion

variable {R : Runtime} {K : Keys}

theorem issue_eq_ok {origins : List String} {network id origin : String} {now : Int}
    {address : Address} {c : Challenge} :
    issue K origins network now id address origin = .ok c ↔ origin ∈ origins ∧
      K.fromPublicKey address = true ∧ c = newChallenge K network now id address origin := by
  unfold issue
  simp only [guard_eq_ok, not_not, Except.ok.injEq, eq_comm (a := c)]

/-- What a challenge that `verify` accepts has passed. -/
structure Passes (R : Runtime) (K : Keys) (c : Challenge) (now : Int) (input : VerifyInput) :
    Prop where
  unused : c.used = false
  live : ∀ t, R.date c.expiresAt = some t → now < t
  address : c.address = input.address
  origin : c.origin = input.origin
  key : K.fromPublicKey input.address = true
  signature : K.verify input.address c.message input.signature = true

theorem check_eq_ok {c : Challenge} {now : Int} {input : VerifyInput} {u : Unit} :
    check R K c now input = .ok u ↔ Passes R K c now input := by
  unfold check
  simp only [guard_eq_ok, not_or, not_not, Bool.not_eq_true, Bool.not_eq_false, and_true]
  constructor
  · rintro ⟨hused, hlive, ⟨haddress, horigin⟩, hkey, hsignature⟩
    refine ⟨hused, fun t ht => ?_, haddress, horigin, hkey, hsignature⟩
    simpa [ht] using hlive
  · rintro ⟨hused, hlive, haddress, horigin, hkey, hsignature⟩
    refine ⟨hused, ?_, ⟨haddress, horigin⟩, hkey, hsignature⟩
    cases ht : R.date c.expiresAt with
    | none => rfl
    | some t => simpa using hlive t ht

theorem storeChallenge_eq_ok {s u : Service} {c : Challenge} : storeChallenge R s c = .ok u ↔
    ∃ t, R.date c.expiresAt = some t ∧ s.challenges.lookup c.id = none ∧
      u = { s with
        challenges := s.challenges.insert c.id
          ⟨c.id, c.address, R.sha256 c.id, c.origin, c.network, t, none⟩ } := by
  unfold storeChallenge
  split
  · rename_i ht
    simp [ht]
  · rename_i t ht
    simp only [guard_eq_ok, ht, Option.not_isSome_iff_eq_none, Option.some.injEq, exists_eq_left',
      Except.ok.injEq, eq_comm (a := u)]

theorem findChallenge_eq_ok {s : Service} {challengeId : String} {stored : AuthChallenge} :
    findChallenge R s challengeId = .ok stored ↔
      ∃ id, R.uuid challengeId = some id ∧ s.challenges.lookup id = some stored := by
  unfold findChallenge
  rw [bind_eq_ok]
  refine exists_congr fun id => and_congr readUuid_eq_ok ?_
  cases s.challenges.lookup id <;> simp

theorem signIn_eq_ok {s u : Service} {now expiresAt : Int} {c : Challenge} {address : Address}
    {token : String} : signIn R s now c address token expiresAt = .ok u ↔
      ∃ row, s.challenges.lookup c.id = some row ∧ row.consumedAt = none ∧
        (s.wallets.lookup address).isSome ∧ (∀ t ∈ s.sessions, t.tokenHash ≠ R.sha256 token) ∧
        u = { s with
          challenges := s.challenges.insert c.id { row with consumedAt := some now }
          sessions := s.sessions ++ [⟨address, R.sha256 token, expiresAt⟩] } := by
  unfold signIn
  split
  · rename_i h
    simp [h]
  · rename_i row h
    simp only [guard_eq_ok, h, List.any_eq_true, decide_eq_true_eq, not_exists, not_and, not_not,
      Option.some.injEq, exists_eq_left', Except.ok.injEq, ne_eq, Option.isSome_iff_ne_none,
      Option.isNone_iff_eq_none, eq_comm (a := u)]

end Inversion

/-! ## What a step does -/

/-- The request that an action is the arrival of. -/
def Action.arrival : Action → Option Request
  | .issue i now id address origin => some (.issue i now id address origin)
  | .verify i _ _ input => some (.verify i input)
  | _ => none

/-- The call that an action moves. -/
def Action.target : Action → Option Nat
  | .advance k _ _ => some k
  | .fail k _ => some k
  | _ => none

inductive Change (S : Settings) (s : Service) : Action → Service → Prop where
  | refuse (a : Action) (q : Request) (e : String) (ha : a.arrival = some q) :
      Change S s a (s.add ⟨q, .threw e⟩)
  | issue (i : Nat) (now : Int) (id : String) (address : Address) (origin : String)
      (c : Challenge) (hid : S.runtime.Canonical id)
      (hissue : issue S.keys (S.origins i) (S.network i) now id address origin = .ok c) :
      Change S s (.issue i now id address origin)
        ((s.remember i id c).add
          ⟨.issue i now id address origin, if S.prisma then .remembered c else .issued c⟩)
  | accept (i : Nat) (now : Int) (token : String) (input : VerifyInput) (own : Challenge)
      (hown : (s.memory i).lookup input.challengeId = some own)
      (hpasses : Passes S.runtime S.keys own now input) :
      Change S s (.verify i now token input)
        ((s.remember i input.challengeId { own with used := true }).add
          ⟨.verify i input, if S.prisma then .verified true own now token (sessionExpiry now)
            else .signedIn own now token (sessionExpiry now)⟩)
  | look (i : Nat) (now : Int) (token : String) (input : VerifyInput) (hmode : S.prisma = true)
      (hnone : (s.memory i).lookup input.challengeId = none) :
      Change S s (.verify i now token input) (s.add ⟨.verify i input, .looking⟩)
  | upsert (k : Nat) (now : Int) (token : String) (q : Request) (c : Challenge)
      (hc : s.call? k = some ⟨q, .remembered c⟩) :
      Change S s (.advance k now token)
        ({ s with wallets := s.wallets.insert c.address c.network }.turn k ⟨q, .upserted c⟩)
  | store (k : Nat) (now : Int) (token : String) (q : Request) (c : Challenge) (t : Int)
      (hc : s.call? k = some ⟨q, .upserted c⟩) (ht : S.runtime.date c.expiresAt = some t)
      (hnew : s.challenges.lookup c.id = none) :
      Change S s (.advance k now token)
        ({ s with
            challenges := s.challenges.insert c.id
              ⟨c.id, c.address, S.runtime.sha256 c.id, c.origin, c.network, t, none⟩ }.turn k
          ⟨q, .issued c⟩)
  | find (k : Nat) (now : Int) (token : String) (i : Nat) (input : VerifyInput)
      (id : String) (stored : AuthChallenge) (hc : s.call? k = some ⟨.verify i input, .looking⟩)
      (hid : S.runtime.uuid input.challengeId = some id)
      (hrow : s.challenges.lookup id = some stored)
      (hpasses : Passes S.runtime S.keys (rebuild S.keys stored) now input) :
      Change S s (.advance k now token) (s.turn k
        ⟨.verify i input, .verified false (rebuild S.keys stored) now token (sessionExpiry now)⟩)
  | commit (k : Nat) (now : Int) (token : String) (i : Nat) (input : VerifyInput) (own : Bool)
      (c : Challenge) (t : Int) (token' : String) (expiresAt : Int) (row : AuthChallenge)
      (hc : s.call? k = some ⟨.verify i input, .verified own c t token' expiresAt⟩)
      (hrow : s.challenges.lookup c.id = some row) (hunspent : row.consumedAt = none)
      (hwallet : (s.wallets.lookup input.address).isSome)
      (htoken : ∀ t ∈ s.sessions, t.tokenHash ≠ S.runtime.sha256 token') :
      Change S s (.advance k now token)
        ({ s with
            challenges := s.challenges.insert c.id { row with consumedAt := some now }
            sessions := s.sessions ++
              [UserSession.mk input.address (S.runtime.sha256 token') expiresAt] }.turn k
          ⟨.verify i input, .signedIn c t token' expiresAt⟩)
  | abort (k : Nat) (now : Int) (token : String) (i : Nat) (input : VerifyInput) (own : Bool)
      (c : Challenge) (t : Int) (token' : String) (expiresAt : Int) (e : String)
      (hc : s.call? k = some ⟨.verify i input, .verified own c t token' expiresAt⟩)
      (hcommit : signIn S.runtime s now c input.address token' expiresAt = .error e) :
      Change S s (.advance k now token) (s.turn k ⟨.verify i input, .threw e⟩)
  | throw (k : Nat) (now : Int) (token : String) (c : Call) (e : String)
      (hc : s.call? k = some c) (hflight : c.stage.inFlight = true)
      (hlate : ∀ own ch t token' expiresAt, c.stage ≠ .verified own ch t token' expiresAt) :
      Change S s (.advance k now token) (s.turn k ⟨c.request, .threw e⟩)
  | fail (k : Nat) (c : Call) (e : String) (hc : s.call? k = some c)
      (hflight : c.stage.inFlight = true) :
      Change S s (.fail k e) (s.turn k ⟨c.request, .threw e⟩)
  | restart (i : Nat) :
      Change S s (.restart i) { s with memory := Function.update s.memory i ∅ }

theorem change_of_advance {S : Settings} {s s' : Service} {k : Nat} {now : Int} {token : String}
    (h : (machine S).step s (.advance k now token) = some s') :
    Change S s (.advance k now token) s' := by
  simp only [machine, serve, Option.bind_eq_some_iff] at h
  obtain ⟨⟨q, stage⟩, hc, h⟩ := h
  cases stage with
  | remembered c =>
    cases h
    exact .upsert k now token q c hc
  | upserted c =>
    simp only at h
    split at h
    · rename_i u hstore
      obtain ⟨t, ht, hnew, rfl⟩ := storeChallenge_eq_ok.mp hstore
      cases h
      exact .store k now token q c t hc ht hnew
    · rename_i e _
      cases h
      exact .throw k now token _ e hc rfl (by simp)
  | looking =>
    cases q with
    | issue => cases h
    | verify i input =>
      simp only at h
      split at h
      · rename_i e _
        cases h
        exact .throw k now token _ e hc rfl (by simp)
      · rename_i stored hfound
        obtain ⟨id, hid, hrow⟩ := findChallenge_eq_ok.mp hfound
        split at h
        · rename_i e _
          cases h
          exact .throw k now token _ e hc rfl (by simp)
        · rename_i hcheck
          cases h
          exact .find k now token i input id stored hc hid hrow (check_eq_ok.mp hcheck)
  | verified own c t token' expiresAt =>
    cases q with
    | issue => cases h
    | verify i input =>
      simp only at h
      split at h
      · rename_i u hcommit
        obtain ⟨row, hrow, hunspent, hwallet, htoken, rfl⟩ := signIn_eq_ok.mp hcommit
        cases h
        exact .commit k now token i input own c t token' expiresAt row hc hrow hunspent hwallet htoken
      · rename_i e hcommit
        cases h
        exact .abort k now token i input own c t token' expiresAt e hc hcommit
  | issued c => cases q <;> cases h
  | signedIn c t token' expiresAt => cases q <;> cases h
  | threw e => cases q <;> cases h

theorem change_of_step {S : Settings} {s s' : Service} {a : Action}
    (h : (machine S).step s a = some s') : Change S s a s' := by
  cases a with
  | issue i now id address origin =>
    simp only [machine, serve, Action.taker] at h
    split at h
    · cases h
    · rename_i hid
      split at h
      · rename_i e _
        cases h
        exact .refuse _ _ e rfl
      · rename_i c hissue
        cases h
        exact .issue i now id address origin c (not_not.mp hid) hissue
  | verify i now token input =>
    simp only [machine, serve, Action.taker] at h
    split at h
    · rename_i own hown
      split at h
      · rename_i e _
        cases h
        exact .refuse _ _ e rfl
      · rename_i hcheck
        cases h
        exact .accept i now token input own hown (check_eq_ok.mp hcheck)
    · rename_i hnone
      cases h
      cases hmode : S.prisma with
      | true => exact .look i now token input hmode hnone
      | false => exact .refuse _ _ _ rfl
  | advance k now token => exact change_of_advance h
  | fail k e =>
    simp only [machine, serve, Option.bind_eq_some_iff, Option.ite_none_right_eq_some,
      Option.some.injEq] at h
    obtain ⟨c, hc, hflight, rfl⟩ := h
    exact .fail k c e hc hflight
  | restart i =>
    cases h
    exact .restart i

/-! ## The calls after a step -/

/-- The challenge that an `issue` has made. -/
def Stage.minted? : Stage → Option Challenge
  | .remembered c | .upserted c | .issued c => some c
  | _ => none

/-- The challenge that a `verify` has accepted, and when. -/
def Stage.accepted? : Stage → Option (Challenge × Int)
  | .verified _ c t _ _ => some (c, t)
  | .signedIn c t _ _ => some (c, t)
  | _ => none

section Calls

variable {s : Service} {c c' x : Call} {i k : Nat}

theorem forall_call? {P : Call → Prop} :
    (∀ k c, s.call? k = some c → P c) ↔ ∀ c ∈ s.calls, P c := by
  simp only [Service.call?, List.mem_iff_getElem?, forall_exists_index]
  exact forall_comm

theorem exists_call? {P : Call → Prop} :
    (∃ (k : Nat) (c : Call), s.call? k = some c ∧ P c) ↔ ∃ c ∈ s.calls, P c := by
  simp only [Service.call?, List.mem_iff_getElem?]
  exact ⟨fun ⟨k, c, hc, hP⟩ => ⟨c, ⟨k, hc⟩, hP⟩, fun ⟨c, ⟨k, hc⟩, hP⟩ => ⟨k, c, hc, hP⟩⟩

theorem call?_of_add (h : (s.add c).call? i = some x) :
    s.call? i = some x ∨ i = s.calls.length ∧ x = c := getElem?_of_concat h

theorem call?_of_turn (hk : s.call? k = some c') (h : (s.turn k c).call? i = some x) :
    i = k ∧ x = c ∨ i ≠ k ∧ s.call? i = some x := by
  obtain ⟨hlt, -⟩ := List.getElem?_eq_some_iff.mp hk
  exact getElem?_of_set hlt h

theorem call?_turn_self (hk : s.call? k = some c') : (s.turn k c).call? k = some c := by
  obtain ⟨hlt, -⟩ := List.getElem?_eq_some_iff.mp hk
  exact List.getElem?_set_self hlt

theorem call?_turn_ne (h : i ≠ k) : (s.turn k c).call? i = s.call? i :=
  List.getElem?_set_ne h.symm

end Calls

/-- What an instance holds after it put a challenge into its map. -/
theorem lookup_remember (s : Service) (i i' : Nat) (id id' : String) (c : Challenge) :
    ((s.remember i id c).memory i').lookup id' =
      if i' = i ∧ id' = id then some c else (s.memory i').lookup id' := by
  unfold Service.remember
  by_cases hi : i' = i
  · subst hi
    simp only [Function.update_self, lookup_insert, true_and]
  · simp only [Function.update_of_ne hi, hi, false_and, if_false]

/-- How the calls change: one arrives, one moves, or none does. -/
inductive Moved (s s' : Service) (a : Action) : Prop where
  | add (c : Call) (ha : a.arrival = some c.request) (hcalls : s'.calls = s.calls ++ [c])
  | turn (k : Nat) (c : Call) (stage : Stage) (ha : a.target = some k) (hc : s.call? k = some c)
      (hflight : c.stage.inFlight = true) (hcalls : s'.calls = s.calls.set k ⟨c.request, stage⟩)
  | same (hcalls : s'.calls = s.calls)

section Moves

variable {S : Settings} {s s' : Service} {a : Action}

theorem Change.moved (h : Change S s a s') : Moved s s' a := by
  cases h with
  | refuse _ q e ha => exact .add _ ha rfl
  | issue => exact .add _ rfl rfl
  | accept => exact .add _ rfl rfl
  | look => exact .add _ rfl rfl
  | upsert k now token q c hc => exact .turn k _ _ rfl hc rfl rfl
  | store k now token q c t hc => exact .turn k _ _ rfl hc rfl rfl
  | find k now token i input id stored hc => exact .turn k _ _ rfl hc rfl rfl
  | commit k now token i input own c t token' expiresAt row hc =>
    exact .turn k _ _ rfl hc rfl rfl
  | abort k now token i input own c t token' expiresAt e hc =>
    exact .turn k _ _ rfl hc rfl rfl
  | throw k now token c e hc hflight => exact .turn k c _ rfl hc hflight rfl
  | fail k c e hc hflight => exact .turn k c _ rfl hc hflight rfl
  | restart => exact .same rfl

/-- A call that is over stays as it is. -/
theorem Moved.keep (h : Moved s s' a) {i : Nat} {c : Call} (hc : s.call? i = some c)
    (hover : c.stage.inFlight = false) : s'.call? i = some c := by
  rw [Service.call?]
  cases h with
  | add x ha hcalls =>
    rw [hcalls]
    exact getElem?_concat_keep hc
  | turn k x stage ha hx hflight hcalls =>
    have hne : k ≠ i := by
      rintro rfl
      obtain rfl : x = c := Option.some.inj (hx.symm.trans hc)
      rw [hover] at hflight
      cases hflight
    rw [hcalls, List.getElem?_set_ne hne]
    exact hc
  | same hcalls =>
    rw [hcalls]
    exact hc

/-- A call stays where it is until an action moves it. -/
theorem Moved.untouched (h : Moved s s' a) {k : Nat} {c : Call} (hc : s.call? k = some c)
    (ha : a.target ≠ some k) : s'.call? k = some c := by
  rw [Service.call?]
  cases h with
  | add x hx hcalls =>
    rw [hcalls]
    exact getElem?_concat_keep hc
  | turn i x stage hi hx hflight hcalls =>
    have hne : i ≠ k := fun heq => ha (heq ▸ hi)
    rw [hcalls, List.getElem?_set_ne hne]
    exact hc
  | same hcalls =>
    rw [hcalls]
    exact hc

/-- A call keeps its request. -/
theorem Moved.request (h : Moved s s' a) {k : Nat} {c : Call} (hc : s.call? k = some c) :
    ∃ c', s'.call? k = some c' ∧ c'.request = c.request := by
  cases h with
  | add x ha hcalls => exact ⟨c, by rw [Service.call?, hcalls]; exact getElem?_concat_keep hc, rfl⟩
  | turn i x stage hi hx hflight hcalls =>
    obtain ⟨hlt, -⟩ := List.getElem?_eq_some_iff.mp hx
    by_cases hik : i = k
    · subst hik
      obtain rfl : x = c := Option.some.inj (hx.symm.trans hc)
      refine ⟨⟨x.request, stage⟩, ?_, rfl⟩
      rw [Service.call?, hcalls]
      exact List.getElem?_set_self hlt
    · exact ⟨c, by rw [Service.call?, hcalls, List.getElem?_set_ne hik]; exact hc, rfl⟩
  | same hcalls => exact ⟨c, by rw [Service.call?, hcalls]; exact hc, rfl⟩

/-- A request was there before the step, or has arrived in it. -/
theorem Moved.request_of (h : Moved s s' a) {k : Nat} {c' : Call} (hc' : s'.call? k = some c') :
    (∃ c, s.call? k = some c ∧ c.request = c'.request) ∨
      k = s.calls.length ∧ a.arrival = some c'.request := by
  rw [Service.call?] at hc'
  cases h with
  | add x ha hcalls =>
    rw [hcalls] at hc'
    rcases getElem?_of_concat hc' with hc | ⟨hk, rfl⟩
    · exact .inl ⟨c', hc, rfl⟩
    · exact .inr ⟨hk, ha⟩
  | turn i x stage hi hx hflight hcalls =>
    obtain ⟨hlt, -⟩ := List.getElem?_eq_some_iff.mp hx
    rw [hcalls] at hc'
    rcases getElem?_of_set hlt hc' with ⟨rfl, rfl⟩ | ⟨-, hc⟩
    · exact .inl ⟨x, hx, rfl⟩
    · exact .inl ⟨c', hc, rfl⟩
  | same hcalls =>
    rw [hcalls] at hc'
    exact .inl ⟨c', hc', rfl⟩

/-- Where a call after the step comes from: it was there and has made and accepted nothing new,
    it is a new `issue`, or it has accepted a challenge in this step, out of the instance's map
    or out of the table. -/
inductive Origin (S : Settings) (s : Service) (a : Action) (k : Nat) (c' : Call) : Prop where
  | old (c : Call) (hc : s.call? k = some c) (hrequest : c.request = c'.request)
      (hminted : ∀ ch, c'.stage.minted? = some ch → c.stage.minted? = some ch)
      (haccepted : ∀ x, c'.stage.accepted? = some x → c.stage.accepted? = some x)
  | refused (hk : k = s.calls.length) (ha : a.arrival = some c'.request)
      (hminted : c'.stage.minted? = none) (haccepted : c'.stage.accepted? = none)
  | issue (i : Nat) (now : Int) (id : String) (address : Address) (origin : String) (c : Challenge)
      (ha : a = .issue i now id address origin) (hk : k = s.calls.length)
      (hrequest : c'.request = .issue i now id address origin) (hid : S.runtime.Canonical id)
      (hissue : issue S.keys (S.origins i) (S.network i) now id address origin = .ok c)
      (hminted : c'.stage.minted? = some c) (haccepted : c'.stage.accepted? = none)
  | accept (i : Nat) (now : Int) (input : VerifyInput) (c : Challenge)
      (hrequest : c'.request = .verify i input) (haccepted : c'.stage.accepted? = some (c, now))
      (hminted : c'.stage.minted? = none) (hpasses : Passes S.runtime S.keys c now input)
      (hfrom : (s.memory i).lookup input.challengeId = some c ∨
        ∃ id stored, S.runtime.uuid input.challengeId = some id ∧
          s.challenges.lookup id = some stored ∧ c = rebuild S.keys stored)

theorem Change.origin (h : Change S s a s') {k : Nat} {c' : Call} (hc' : s'.call? k = some c') :
    Origin S s a k c' := by
  -- a call that does not move
  have hsame : s.call? k = some c' → Origin S s a k c' := fun hc =>
    .old c' hc rfl (fun _ h => h) fun _ h => h
  -- call `j` moves from `x` to `y`
  have hturn : ∀ j x y (u : Service), u.calls = s.calls → s.call? j = some x →
      (u.turn j y).call? k = some c' → y.request = x.request →
      (∀ ch, y.stage.minted? = some ch → x.stage.minted? = some ch) →
      (∀ z, y.stage.accepted? = some z → x.stage.accepted? = some z) → Origin S s a k c' := by
    intro j x y u hu hx hc' hrequest hminted haccepted
    have hu' : u.call? j = some x := by rw [Service.call?, hu]; exact hx
    rcases call?_of_turn hu' hc' with ⟨rfl, rfl⟩ | ⟨-, hc⟩
    · exact .old x hx hrequest.symm hminted haccepted
    · rw [Service.call?, hu] at hc
      exact hsame hc
  cases h with
  | refuse _ q e ha =>
    rcases call?_of_add hc' with hc | ⟨hk, rfl⟩
    · exact hsame hc
    · exact .refused hk ha rfl rfl
  | issue i now id address origin c hid hissue =>
    rcases call?_of_add hc' with hc | ⟨hk, rfl⟩
    · exact hsame hc
    · exact .issue i now id address origin c rfl hk rfl hid hissue (by cases S.prisma <;> rfl)
        (by cases S.prisma <;> rfl)
  | accept i now token input own hown hpasses =>
    rcases call?_of_add hc' with hc | ⟨-, rfl⟩
    · exact hsame hc
    · exact .accept i now input own rfl (by cases S.prisma <;> rfl) (by cases S.prisma <;> rfl)
        hpasses (.inl hown)
  | look i now token input hmode hnone =>
    rcases call?_of_add hc' with hc | ⟨hk, rfl⟩
    · exact hsame hc
    · exact .refused hk rfl rfl rfl
  | upsert j now token q c hx =>
    exact hturn j _ _ { s with wallets := _ } rfl hx hc' rfl (fun _ h => h) fun _ h => h
  | store j now token q c t hx =>
    exact hturn j _ _ { s with challenges := _ } rfl hx hc' rfl (fun _ h => h) fun _ h => h
  | find j now token i input id stored hx hid hrow hpasses =>
    rcases call?_of_turn hx hc' with ⟨rfl, rfl⟩ | ⟨-, hc⟩
    · exact .accept i now input (rebuild S.keys stored) rfl rfl rfl hpasses
        (.inr ⟨id, stored, hid, hrow, rfl⟩)
    · exact hsame hc
  | commit j now token i input own c t token' expiresAt row hx =>
    exact hturn j _ _ { s with challenges := _, sessions := _ } rfl hx hc' rfl (fun _ h => h)
      fun _ h => h
  | abort j now token i input own c t token' expiresAt e hx =>
    exact hturn j _ _ s rfl hx hc' rfl (fun _ h => by cases h) fun _ h => by cases h
  | throw j now token c e hx =>
    exact hturn j c _ s rfl hx hc' rfl (fun _ h => by cases h) fun _ h => by cases h
  | fail j c e hx => exact hturn j c _ s rfl hx hc' rfl (fun _ h => by cases h) fun _ h => by cases h
  | restart => exact hsame hc'

/-- Where a challenge in the map of instance `i` after the step comes from. -/
inductive Source (S : Settings) (s s' : Service) (i : Nat) (id : String) (own : Challenge) :
    Prop where
  | old (hown : (s.memory i).lookup id = some own)
  | issue (now : Int) (address : Address) (origin : String) (stage : Stage)
      (hid : S.runtime.Canonical id)
      (hissue : issue S.keys (S.origins i) (S.network i) now id address origin = .ok own)
      (hcall : s'.call? s.calls.length = some ⟨.issue i now id address origin, stage⟩)
  | mark (now : Int) (token : String) (input : VerifyInput) (c : Challenge)
      (hc : (s.memory i).lookup id = some c) (hown : own = { c with used := true })
      (hcall : s'.call? s.calls.length = some ⟨.verify i input,
        if S.prisma then .verified true c now token (sessionExpiry now)
          else .signedIn c now token (sessionExpiry now)⟩)

theorem Change.source (h : Change S s a s') {i : Nat} {id : String} {own : Challenge}
    (hown : (s'.memory i).lookup id = some own) : Source S s s' i id own := by
  cases h with
  | issue i' now id' address origin c hid hissue =>
    have hlookup : ((s.remember i' id' c).memory i).lookup id = some own := hown
    rw [lookup_remember] at hlookup
    split at hlookup
    · rename_i hhere
      obtain ⟨rfl, rfl⟩ := hhere
      obtain rfl := Option.some.inj hlookup
      exact .issue now address origin _ hid hissue List.getElem?_concat_length
    · exact .old hlookup
  | accept i' now token input c hc =>
    have hlookup : ((s.remember i' input.challengeId { c with used := true }).memory i).lookup id =
      some own := hown
    rw [lookup_remember] at hlookup
    split at hlookup
    · rename_i hhere
      obtain ⟨rfl, rfl⟩ := hhere
      exact .mark now token input c hc (Option.some.inj hlookup).symm List.getElem?_concat_length
    · exact .old hlookup
  | restart i' =>
    have hlookup : ((Function.update s.memory i' ∅) i).lookup id = some own := hown
    by_cases hi : i = i'
    · rw [hi, Function.update_self, AList.lookup_empty] at hlookup
      cases hlookup
    · rw [Function.update_of_ne hi] at hlookup
      exact .old hlookup
  | _ => exact .old hown

end Moves

/-! ## Where a challenge comes from -/

/-- A call that drew this UUID. -/
def Call.Draws (id : String) (c : Call) : Prop :=
  ∃ i now address origin, c.request = .issue i now id address origin

/-- Call `j` is an `issue` on instance `i` at time `now` that made the challenge `c`. -/
def Service.Made (S : Settings) (s : Service) (j i : Nat) (now : Int) (c : Challenge) : Prop :=
  ∃ call, s.call? j = some call ∧ call.request = .issue i now c.id c.address c.origin ∧
    issue S.keys (S.origins i) (S.network i) now c.id c.address c.origin = .ok c

/-- What a run relies on: no UUID is drawn twice, and `new Date` reads back what `toISOString`
    wrote. -/
def Regular (S : Settings) (s : Service) : Action → Prop
  | .issue _ now id _ _ => (∀ k c, s.call? k = some c → ¬ c.Draws id) ∧
      S.runtime.date (S.keys.toISOString (now + 300000)) = some (now + 300000)
  | _ => True

instance (id : String) (c : Call) : Decidable (c.Draws id) :=
  match h : c.request with
  | .issue i now id' address origin =>
      decidable_of_iff (id' = id)
        ⟨fun hid => ⟨i, now, address, origin, hid ▸ h⟩, fun ⟨_, _, _, _, hd⟩ => by
          rw [h] at hd
          cases hd
          rfl⟩
  | .verify _ _ => isFalse fun ⟨_, _, _, _, hd⟩ => by
      rw [h] at hd
      cases hd

instance (S : Settings) (s : Service) : (a : Action) → Decidable (Regular S s a)
  | .issue _ now id _ _ =>
      decidable_of_iff ((∀ c ∈ s.calls, ¬ c.Draws id) ∧
          S.runtime.date (S.keys.toISOString (now + 300000)) = some (now + 300000))
        (and_congr_left' forall_call?.symm)
  | .verify _ _ _ _ | .advance _ _ _ | .fail _ _ | .restart _ => isTrue trivial

/-- The invariant of regular runs. -/
structure Backed (S : Settings) (s : Service) : Prop where
  dated : ∀ k c i now id address origin, s.call? k = some c →
    c.request = .issue i now id address origin →
    S.runtime.date (S.keys.toISOString (now + 300000)) = some (now + 300000)
  drawn : ∀ id, AtMostOne (Call.Draws id) s.calls
  minted : ∀ k call c, s.call? k = some call → call.stage.minted? = some c →
    S.runtime.Canonical c.id ∧ ∃ i now, s.Made S k i now c
  spelled : ∀ i id own, (s.memory i).lookup id = some own → S.runtime.Canonical id
  memory : ∀ i id own, (s.memory i).lookup id = some own → own.id = id ∧
    ∃ j now, s.Made S j i now { own with used := false }
  rows : ∀ id row, s.challenges.lookup id = some row → ∃ j q c, s.call? j = some ⟨q, .issued c⟩ ∧
    c.id = id ∧ rebuild S.keys row = { c with used := row.consumedAt.isSome }
  accepted : ∀ k call c t, s.call? k = some call → call.stage.accepted? = some (c, t) →
    ∃ i input, call.request = .verify i input ∧ S.runtime.uuid input.challengeId = some c.id ∧
      Passes S.runtime S.keys c t input ∧ ∃ j i' now, s.Made S j i' now c

section Backed

variable {S : Settings} {s s' : Service} {a : Action}

theorem Service.Made.eq {j i : Nat} {now : Int} {c : Challenge} (h : s.Made S j i now c) :
    c.origin ∈ S.origins i ∧ S.keys.fromPublicKey c.address = true ∧
      c = newChallenge S.keys (S.network i) now c.id c.address c.origin := by
  obtain ⟨call, -, -, hissue⟩ := h
  exact issue_eq_ok.mp hissue

theorem Moved.made (h : Moved s s' a) {j i : Nat} {now : Int} {c : Challenge}
    (hm : s.Made S j i now c) : s'.Made S j i now c := by
  obtain ⟨call, hcall, hrequest, hissue⟩ := hm
  obtain ⟨call', hcall', hsame⟩ := h.request hcall
  exact ⟨call', hcall', hsame.trans hrequest, hissue⟩

theorem Backed.made_date (h : Backed S s) {j i : Nat} {now : Int} {c : Challenge}
    (hm : s.Made S j i now c) : c.expiresAt = S.keys.toISOString (now + 300000) ∧
      S.runtime.date c.expiresAt = some (now + 300000) := by
  obtain ⟨-, -, hc⟩ := hm.eq
  obtain ⟨call, hcall, hrequest, -⟩ := hm
  have hexpires : c.expiresAt = S.keys.toISOString (now + 300000) := by rw [hc]; rfl
  exact ⟨hexpires, hexpires ▸ h.dated j call i now c.id c.address c.origin hcall hrequest⟩

/-- Challenges with one id were made by one call, and are one. -/
theorem Backed.made_unique (h : Backed S s) {j j' i i' : Nat} {now now' : Int} {c c' : Challenge}
    (hm : s.Made S j i now c) (hm' : s.Made S j' i' now' c') (hid : c.id = c'.id) :
    j = j' ∧ i = i' ∧ now = now' ∧ c = c' := by
  have hc := hm.eq.2.2
  have hc' := hm'.eq.2.2
  obtain ⟨call, hcall, hrequest, -⟩ := hm
  obtain ⟨call', hcall', hrequest', -⟩ := hm'
  obtain rfl := h.drawn c.id j j' call call' hcall hcall' ⟨_, _, _, _, hrequest⟩
    ⟨_, _, _, _, hid ▸ hrequest'⟩
  obtain rfl : call = call' := Option.some.inj (hcall.symm.trans hcall')
  rw [hrequest] at hrequest'
  simp only [Request.issue.injEq] at hrequest'
  obtain ⟨rfl, rfl, -, haddress, horigin⟩ := hrequest'
  refine ⟨rfl, rfl, rfl, ?_⟩
  rw [hc, hc', hid, haddress, horigin]

theorem backed_of_fresh (h : Fresh s.toState) : Backed S s := by
  have hnone : ∀ k c, s.call? k ≠ some c := by
    intro k c hc
    rw [Service.call?, h.calls] at hc
    cases hc
  have hempty : ∀ i id own, (s.memory i).lookup id ≠ some own := by
    intro i id own hown
    rw [h.memory, AList.lookup_empty] at hown
    cases hown
  refine ⟨fun k c _ _ _ _ _ hc => absurd hc (hnone k c), fun id i j c c' hc => absurd hc (hnone i c),
    fun k c _ hc => absurd hc (hnone k c), fun i id own hown => absurd hown (hempty i id own),
    fun i id own hown => absurd hown (hempty i id own), ?_, fun k c _ _ hc => absurd hc (hnone k c)⟩
  · intro id row hrow
    rw [h.challenges, AList.lookup_empty] at hrow
    cases hrow

/-- The challenge that `verify` rebuilds from the row of an issued one. -/
theorem rebuild_stored {j i : Nat} {now : Int} {c : Challenge} (hm : s.Made S j i now c)
    {nonceHash : String} {consumedAt : Option Int} :
    rebuild S.keys ⟨c.id, c.address, nonceHash, c.origin, c.network, now + 300000, consumedAt⟩ =
      { c with used := consumedAt.isSome } := by
  rw [hm.eq.2.2]
  rfl

theorem Backed.drawn_step (h : Backed S s) (hmoved : Moved s s' a) (hregular : Regular S s a)
    (id : String) : AtMostOne (Call.Draws id) s'.calls := by
  cases hmoved with
  | add c ha hcalls =>
    rw [hcalls]
    by_cases hdraws : c.Draws id
    · obtain ⟨i, now, address, origin, hrequest⟩ := hdraws
      rw [hrequest] at ha
      have hnew : ∀ k x, s.call? k = some x → ¬ x.Draws id := by
        cases a <;> cases ha
        exact hregular.1
      exact AtMostOne.concat_only hnew
    · exact (h.drawn id).concat hdraws
  | turn k c stage ha hc hflight hcalls =>
    rw [hcalls]
    refine (h.drawn id).of_forall fun j x hx hdraws => ?_
    rcases getElem?_of_set (List.getElem?_eq_some_iff.mp hc).1 hx with ⟨rfl, rfl⟩ | ⟨-, hx⟩
    · exact ⟨c, hc, hdraws⟩
    · exact ⟨x, hx, hdraws⟩
  | same hcalls =>
    rw [hcalls]
    exact h.drawn id

theorem Backed.minted_step (h : Backed S s) (hchange : Change S s a s') {k : Nat} {call : Call}
    {c : Challenge} (hcall : s'.call? k = some call) (hminted : call.stage.minted? = some c) :
    S.runtime.Canonical c.id ∧ ∃ i now, s'.Made S k i now c := by
  cases hchange.origin hcall with
  | old x hx hrequest hold =>
    obtain ⟨hid, i, now, hm⟩ := h.minted k x c hx (hold c hminted)
    exact ⟨hid, i, now, hchange.moved.made hm⟩
  | refused hk ha hnone =>
    rw [hnone] at hminted
    cases hminted
  | issue i now id address origin x ha hk hrequest hid hissue hmint =>
    obtain rfl : x = c := Option.some.inj (hmint.symm.trans hminted)
    have hx := (issue_eq_ok.mp hissue).2.2
    subst hx
    exact ⟨hid, i, now, call, hcall, hrequest, hissue⟩
  | accept i now input x hrequest haccepted hnone =>
    rw [hnone] at hminted
    cases hminted

theorem Backed.spelled_step (h : Backed S s) (hchange : Change S s a s') {i : Nat} {id : String}
    {own : Challenge} (hown : (s'.memory i).lookup id = some own) : S.runtime.Canonical id := by
  cases hchange.source hown with
  | old hown => exact h.spelled i id own hown
  | issue now address origin stage hid => exact hid
  | mark now token input c hc => exact h.spelled i id c hc

theorem Backed.memory_step (h : Backed S s) (hchange : Change S s a s') {i : Nat} {id : String}
    {own : Challenge} (hown : (s'.memory i).lookup id = some own) : own.id = id ∧
      ∃ j now, s'.Made S j i now { own with used := false } := by
  cases hchange.source hown with
  | old hown =>
    obtain ⟨hid, j, now, hm⟩ := h.memory i id own hown
    exact ⟨hid, j, now, hchange.moved.made hm⟩
  | issue now address origin stage hid hissue hcall =>
    have hc := (issue_eq_ok.mp hissue).2.2
    subst hc
    exact ⟨rfl, s.calls.length, now, _, hcall, rfl, hissue⟩
  | mark now token input c hc hmarked hcall =>
    subst hmarked
    obtain ⟨hid, j, now', hm⟩ := h.memory i id c hc
    exact ⟨hid, j, now', hchange.moved.made hm⟩

theorem Backed.rows_step (h : Backed S s) (hchange : Change S s a s') {id : String}
    {row : AuthChallenge} (hrow : s'.challenges.lookup id = some row) :
    ∃ j q c, s'.call? j = some ⟨q, .issued c⟩ ∧ c.id = id ∧
      rebuild S.keys row = { c with used := row.consumedAt.isSome } := by
  have hold : s.challenges.lookup id = some row → ∃ j q c, s'.call? j = some ⟨q, .issued c⟩ ∧
      c.id = id ∧ rebuild S.keys row = { c with used := row.consumedAt.isSome } := by
    intro hrow
    obtain ⟨j, q, c, hcall, hid, hsame⟩ := h.rows id row hrow
    exact ⟨j, q, c, hchange.moved.keep hcall rfl, hid, hsame⟩
  have hmoved := hchange.moved
  cases hchange with
  | store k now token q c t hc ht hnew =>
    rcases lookup_of_insert hrow with ⟨rfl, rfl⟩ | ⟨-, hrow⟩
    · obtain ⟨-, i, now', hm⟩ := h.minted k _ c hc rfl
      obtain rfl : t = now' + 300000 := Option.some.inj (ht.symm.trans (h.made_date hm).2)
      exact ⟨k, q, c, call?_turn_self (s := { s with challenges := _ }) hc, rfl, rebuild_stored hm⟩
    · exact hold hrow
  | commit k now token i input own c t token' expiresAt stored hc hstored hunspent =>
    rcases lookup_of_insert hrow with ⟨rfl, rfl⟩ | ⟨-, hrow⟩
    · obtain ⟨j, q, c', hcall, hid, hsame⟩ := h.rows c.id stored hstored
      refine ⟨j, q, c', hmoved.keep hcall rfl, hid, ?_⟩
      have hrebuild : rebuild S.keys { stored with consumedAt := some now } =
          { rebuild S.keys stored with used := true } := rfl
      rw [hrebuild, hsame]
      rfl
    · exact hold hrow
  | _ => exact hold hrow

theorem Backed.accepted_step (h : Backed S s) (hchange : Change S s a s') {k : Nat} {call : Call}
    {c : Challenge} {t : Int} (hcall : s'.call? k = some call)
    (haccepted : call.stage.accepted? = some (c, t)) :
    ∃ i input, call.request = .verify i input ∧ S.runtime.uuid input.challengeId = some c.id ∧
      Passes S.runtime S.keys c t input ∧ ∃ j i' now, s'.Made S j i' now c := by
  cases hchange.origin hcall with
  | old x hx hrequest hminted hold =>
    obtain ⟨i, input, hq, hid, hpasses, j, i', now, hm⟩ := h.accepted k x c t hx (hold _ haccepted)
    exact ⟨i, input, hrequest ▸ hq, hid, hpasses, j, i', now, hchange.moved.made hm⟩
  | refused hk ha hminted hnone =>
    rw [hnone] at haccepted
    cases haccepted
  | issue i now id address origin x ha hk hrequest hid hissue hminted hnone =>
    rw [hnone] at haccepted
    cases haccepted
  | accept i now input x hrequest hnew hminted hpasses hfrom =>
    obtain ⟨rfl, rfl⟩ := Prod.mk.inj (Option.some.inj (hnew.symm.trans haccepted))
    -- it was unused, so it is the challenge as it was made
    have hunused : { x with used := false } = x := by rw [← hpasses.unused]
    rcases hfrom with hown | ⟨id, stored, hread, hstored, rfl⟩
    · obtain ⟨hid, j, now', hm⟩ := h.memory i input.challengeId x hown
      rw [hunused] at hm
      have hread : S.runtime.uuid input.challengeId = some x.id :=
        hid ▸ h.spelled i input.challengeId x hown
      exact ⟨i, input, hrequest, hread, hpasses, j, i, now', hchange.moved.made hm⟩
    · obtain ⟨j, q, c, hissued, rfl, hsame⟩ := h.rows id stored hstored
      obtain ⟨-, i', now', hm⟩ := h.minted j _ c hissued rfl
      have hc : rebuild S.keys stored = c := by
        have hfresh : c.used = false := by rw [hm.eq.2.2]; rfl
        have hfresh' : stored.consumedAt.isSome = false := hpasses.unused
        rw [hsame, hfresh', ← hfresh]
      rw [hc]
      exact ⟨i, input, hrequest, hread, hc ▸ hpasses, j, i', now', hchange.moved.made hm⟩

theorem Backed.change (h : Backed S s) (hregular : Regular S s a) (hchange : Change S s a s') :
    Backed S s' := by
  refine ⟨?_, h.drawn_step hchange.moved hregular, fun k call c => h.minted_step hchange,
    fun i id own => h.spelled_step hchange, fun i id own => h.memory_step hchange,
    fun id row => h.rows_step hchange, fun k call c t => h.accepted_step hchange⟩
  intro k c' i now id address origin hc' hrequest
  rcases hchange.moved.request_of hc' with ⟨c, hc, hsame⟩ | ⟨-, ha⟩
  · exact h.dated k c i now id address origin hc (hsame.trans hrequest)
  · rw [hrequest] at ha
    cases a <;> cases ha
    exact hregular.2

theorem backed_step (s : Service) (a : Action) (s' : Service) (h : Backed S s)
    (hregular : Regular S s a) (hstep : (machine S).step s a = some s') : Backed S s' :=
  h.change hregular (change_of_step hstep)

theorem backed_of_exec {s₀ : Service} {as : List Action} (h₀ : Fresh s₀.toState)
    (hrun : (machine S).exec s₀ as = some s) (hregular : (machine S).Along (Regular S) s₀ as) :
    Backed S s :=
  (machine S).exec_invariant_along backed_step hrun hregular (backed_of_fresh h₀)

end Backed

end PovDeposit.Api.WalletAuth
