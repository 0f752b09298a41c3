/-
  Wallet logins: who is signed in, and who still can be.

  `verify` marks the challenge in its instance's map before its transaction runs. `Flagged`: a
  marked challenge has its session, or the transaction is still to come. A transaction that
  fails leaves the mark where it is (`Spoils`), and from there on the instance refuses a
  challenge whose row is good. Nothing else that a call meets does any harm.
-/
import PovDeposit.Api.Lifecycle
import PovDeposit.Api.Sessions

namespace PovDeposit.Api.WalletAuth

open PovDeposit.Lib
open PovDeposit.Contract (Address)

/-! ## The mark in an instance's map -/

/-- A transaction of `verify` for the challenge of its instance's map. -/
structure Transaction where
  taker : Nat
  challenge : Challenge
  address : Address
  token : String

/-- The transaction that a call is about to run. -/
def Call.marked? (c : Call) : Option Transaction :=
  match c.request, c.stage with
  | .verify i input, .verified true ch _ token _ => some ⟨i, ch, input.address, token⟩
  | _, _ => none

def Service.marked? (s : Service) (k : Nat) : Option Transaction := (s.call? k).bind Call.marked?

/-- A `verify` on instance `i` is about to run its transaction, with the challenge of the map. -/
def Service.Signing (s : Service) (i : Nat) (id : String) : Prop :=
  ∃ k x, s.marked? k = some x ∧ x.taker = i ∧ x.challenge.id = id

/-- What the transaction of `verify` asks of the database. -/
structure Allows (R : Runtime) (s : Service) (id : String) (address : Address) (token : String) :
    Prop where
  row : ∃ row, s.challenges.lookup id = some row ∧ row.consumedAt = none
  wallet : (s.wallets.lookup address).isSome
  token : ∀ u ∈ s.sessions, u.tokenHash ≠ R.sha256 token

/-- A transaction of `verify` fails that marked the challenge of its instance's map, and the
    challenge has no session. -/
def Spoils (S : Settings) (s : Service) : Action → Prop
  | .fail k _ => ∃ x, s.marked? k = some x ∧ ¬ s.Used x.challenge.id
  | .advance k _ _ => ∃ x, s.marked? k = some x ∧ ¬ s.Used x.challenge.id ∧
      ¬ Allows S.runtime s x.challenge.id x.address x.token
  | _ => False

instance (s : Service) (i : Nat) (id : String) : Decidable (s.Signing i id) :=
  decidable_of_iff (∃ c ∈ s.calls, ∃ x ∈ c.marked?, x.taker = i ∧ x.challenge.id = id) <| by
    rw [← exists_call?]
    simp only [Service.Signing, Service.marked?, Option.bind_eq_some_iff, Option.mem_def]
    exact exists_congr fun k =>
      ⟨fun ⟨c, hc, x, hx, h⟩ => ⟨x, ⟨c, hc, hx⟩, h⟩, fun ⟨x, ⟨c, hc, hx⟩, h⟩ => ⟨c, hc, x, hx, h⟩⟩

instance (R : Runtime) (s : Service) (id : String) (address : Address) (token : String) :
    Decidable (Allows R s id address token) :=
  decidable_of_iff ((∃ row ∈ s.challenges.lookup id, row.consumedAt = none) ∧
      (s.wallets.lookup address).isSome ∧ ∀ u ∈ s.sessions, u.tokenHash ≠ R.sha256 token)
    ⟨fun ⟨hrow, hwallet, htoken⟩ => ⟨hrow, hwallet, htoken⟩,
      fun ⟨hrow, hwallet, htoken⟩ => ⟨hrow, hwallet, htoken⟩⟩

instance (S : Settings) (s : Service) : (a : Action) → Decidable (Spoils S s a)
  | .fail k _ =>
      inferInstanceAs (Decidable (∃ x ∈ s.marked? k, ¬ s.Used x.challenge.id))
  | .advance k _ _ =>
      inferInstanceAs (Decidable (∃ x ∈ s.marked? k, ¬ s.Used x.challenge.id ∧
        ¬ Allows S.runtime s x.challenge.id x.address x.token))
  | .issue _ _ _ _ _ | .verify _ _ _ _ | .restart _ => isFalse fun h => h

/-- A challenge is marked where it has its session, or where it is about to. -/
def Flagged (s : Service) : Prop :=
  ∀ i id own, (s.memory i).lookup id = some own → own.used = true → s.Used id ∨ s.Signing i id

/-- An instance holds the challenges that it made. -/
def Held (S : Settings) (s : Service) : Prop :=
  ∀ j i now c, s.Made S j i now c → ((s.memory i).lookup c.id).isSome

section Marks

variable {S : Settings} {s s' : Service} {a : Action}

theorem marked?_eq_some {c : Call} {x : Transaction} (h : c.marked? = some x) :
    ∃ input t expiresAt, input.address = x.address ∧
      c = ⟨.verify x.taker input, .verified true x.challenge t x.token expiresAt⟩ := by
  unfold Call.marked? at h
  split at h
  · rename_i i input ch t token expiresAt hq hstage
    obtain rfl := Option.some.inj h
    obtain ⟨q, stage⟩ := c
    cases hq
    cases hstage
    exact ⟨input, t, expiresAt, rfl, rfl⟩
  · cases h

theorem signIn_ok_iff {R : Runtime} {now expiresAt : Int} {c : Challenge} {address : Address}
    {token : String} : (∃ u, signIn R s now c address token expiresAt = .ok u) ↔
      Allows R s c.id address token := by
  constructor
  · rintro ⟨u, hu⟩
    obtain ⟨row, hrow, hunspent, hwallet, htoken, -⟩ := signIn_eq_ok.mp hu
    exact ⟨⟨row, hrow, hunspent⟩, hwallet, htoken⟩
  · rintro ⟨⟨row, hrow, hunspent⟩, hwallet, htoken⟩
    exact ⟨_, signIn_eq_ok.mpr ⟨row, hrow, hunspent, hwallet, htoken, rfl⟩⟩

theorem signing_step (hstep : (machine S).step s a = some s') (hspoils : ¬ Spoils S s a) {i : Nat}
    {id : String} (h : s.Signing i id) : s'.Used id ∨ s'.Signing i id := by
  obtain ⟨k, x, hx, rfl, rfl⟩ := h
  have hmoved := (change_of_step hstep).moved
  by_cases hused : s.Used x.challenge.id
  · exact .inl (hmoved.used hused)
  obtain ⟨call, hc, hmarked⟩ := Option.bind_eq_some_iff.mp hx
  obtain ⟨input, t, expiresAt, haddress, rfl⟩ := marked?_eq_some hmarked
  by_cases ha : a.target = some k
  · cases a with
    | advance k' now token =>
      obtain rfl : k' = k := Option.some.inj ha
      by_cases hallows : Allows S.runtime s x.challenge.id x.address x.token
      · obtain ⟨u, hu⟩ : ∃ u, signIn S.runtime s now x.challenge x.address x.token expiresAt =
            .ok u := signIn_ok_iff.mpr hallows
        simp only [machine, serve, hc, Option.bind_some, haddress, hu] at hstep
        obtain ⟨row, -, -, -, -, rfl⟩ := signIn_eq_ok.mp hu
        cases hstep
        exact .inl ⟨k', _, call?_turn_self (s := { s with challenges := _, sessions := _ }) hc,
          x.challenge, rfl, rfl⟩
      · exact absurd ⟨x, hx, hused, hallows⟩ hspoils
    | fail k' e =>
      obtain rfl : k' = k := Option.some.inj ha
      exact absurd ⟨x, hx, hused⟩ hspoils
    | issue | verify | restart => cases ha
  · refine .inr ⟨k, x, ?_, rfl, rfl⟩
    rw [Service.marked?, hmoved.untouched hc ha]
    exact hmarked

theorem flagged_of_fresh (h : Fresh s.toState) : Flagged s := by
  intro i id own hown
  rw [h.memory, AList.lookup_empty] at hown
  cases hown

theorem flagged_step (h : Flagged s) (hbacked : Backed S s)
    (hstep : (machine S).step s a = some s') (hspoils : ¬ Spoils S s a) : Flagged s' := by
  intro i id own hown hused
  have hchange := change_of_step hstep
  cases hchange.source hown with
  | old hown =>
    rcases h i id own hown hused with hu | hsigning
    · exact .inl (hchange.moved.used hu)
    · exact signing_step hstep hspoils hsigning
  | issue now address origin stage hid hissue =>
    -- a challenge is made without the mark
    rw [(issue_eq_ok.mp hissue).2.2] at hused
    cases hused
  | mark now token input c hc hmarked hcall =>
    obtain ⟨hid, -⟩ := hbacked.memory i id c hc
    cases hdb : S.prisma with
    | true =>
      rw [hdb] at hcall
      refine .inr ⟨s.calls.length, ⟨i, c, input.address, token⟩, ?_, rfl, hid⟩
      rw [Service.marked?, hcall]
      rfl
    | false =>
      rw [hdb] at hcall
      exact .inl ⟨s.calls.length, _, hcall, c, rfl, hid⟩

theorem held_of_fresh (h : Fresh s.toState) : Held S s := by
  rintro j i now c ⟨call, hcall, -⟩
  rw [Service.call?, h.calls] at hcall
  cases hcall

theorem Change.memory (h : Change S s a s') (ha : ∀ i, a ≠ .restart i) {i : Nat} {id : String}
    (hheld : ((s.memory i).lookup id).isSome) : ((s'.memory i).lookup id).isSome := by
  have hremember : ∀ i' id' c, (((s.remember i' id' c).memory i).lookup id).isSome := by
    intro i' id' c
    rw [lookup_remember]
    split
    · rfl
    · exact hheld
  cases h with
  | issue i' now id' address origin c => exact hremember i' id' c
  | accept i' now token input own => exact hremember i' input.challengeId _
  | restart i' => exact absurd rfl (ha i')
  | _ => exact hheld

theorem held_step (h : Held S s) (hstep : (machine S).step s a = some s')
    (ha : ∀ i, a ≠ .restart i) : Held S s' := by
  rintro j i now c ⟨call', hcall', hrequest, hissue⟩
  have hchange := change_of_step hstep
  rcases hchange.moved.request_of hcall' with ⟨call, hcall, hsame⟩ | ⟨-, harrival⟩
  · exact hchange.memory ha (h j i now c ⟨call, hcall, hsame.trans hrequest, hissue⟩)
  · rw [hrequest] at harrival
    cases a <;> cases harrival
    simp only [machine, serve, Action.taker, hissue, Option.ite_none_left_eq_some,
      Option.some.injEq] at hstep
    obtain ⟨-, rfl⟩ := hstep
    show (((s.remember i c.id c).memory i).lookup c.id).isSome
    rw [lookup_remember, if_pos ⟨rfl, rfl⟩]
    rfl

end Marks

/-! ## Who can still sign in -/

/-- A wallet's answer to the challenge `c`. -/
structure Presents (K : Keys) (c : Challenge) (input : VerifyInput) : Prop where
  challengeId : input.challengeId = c.id
  address : input.address = c.address
  origin : input.origin = c.origin
  signature : K.verify c.address c.message input.signature = true

/-- The same, whichever way it spells the id. -/
structure Answers (R : Runtime) (K : Keys) (c : Challenge) (input : VerifyInput) : Prop where
  challengeId : R.uuid input.challengeId = some c.id
  address : input.address = c.address
  origin : input.origin = c.origin
  signature : K.verify c.address c.message input.signature = true

/-- The challenge and the session token of the transaction that a call is about to run. -/
def Stage.pending? : Stage → Option (Challenge × String)
  | .verified _ c _ token _ => some (c, token)
  | _ => none

/-- What the transaction of a `verify` relies on, and that no statement fails: the challenge it
    has a signature of was returned, and the hash of its session token is that of no session. -/
def Clean (S : Settings) (s : Service) : Action → Prop
  | .advance k _ _ => ∀ c ∈ s.call? k, ∀ x ∈ c.stage.pending?,
      (∃ call ∈ s.calls, call.stage = .issued x.1) ∧
        ∀ u ∈ s.sessions, u.tokenHash ≠ S.runtime.sha256 x.2
  | .fail _ _ => False
  | _ => True

instance (S : Settings) (s : Service) : (a : Action) → Decidable (Clean S s a)
  | .advance k _ _ =>
      inferInstanceAs (Decidable (∀ c ∈ s.call? k, ∀ x ∈ c.stage.pending?,
        (∃ call ∈ s.calls, call.stage = .issued x.1) ∧
          ∀ u ∈ s.sessions, u.tokenHash ≠ S.runtime.sha256 x.2))
  | .fail _ _ => isFalse fun h => h
  | .issue _ _ _ _ _ | .verify _ _ _ _ | .restart _ => isTrue trivial

/-- Calls other than `k` lead from `s` to `s'`, and none has signed in with the challenge. -/
def Others (S : Settings) (k : Nat) (id : String) (s s' : Service) : Prop :=
  ¬ s'.Used id ∧ ∃ as, (machine S).exec s as = some s' ∧ (machine S).Along (Regular S) s as ∧
    ∀ a ∈ as, a.target ≠ some k

/-- Call `k` has signed in with the challenge, or it does when its transaction runs before that
    of any other call. -/
def SignsIn (S : Settings) (k : Nat) (id : String) (s : Service) : Prop :=
  (∃ c, s.call? k = some c ∧ c.SignsIn id) ∨
    ∀ s' now token, Others S k id s s' → Clean S s' (.advance k now token) →
      ∃ s'' c, (machine S).step s' (.advance k now token) = some s'' ∧ s''.call? k = some c ∧
        c.SignsIn id

/-- Call `k` looks the challenge up and then signs in, when it does so before `expiry`. -/
def LooksUp (S : Settings) (k : Nat) (id : String) (expiry : Int) (s : Service) : Prop :=
  ∀ s' now token, Others S k id s s' → now < expiry →
    ∃ s'', (machine S).step s' (.advance k now token) = some s'' ∧ SignsIn S k id s''

/-- Instance `i` accepts the challenge `c` from its wallet at once, and gives it a session. -/
def Accepts (S : Settings) (s : Service) (i : Nat) (c : Challenge) (expiry : Int) : Prop :=
  ∀ now token input, Presents S.keys c input → now < expiry →
    ∃ s', (machine S).step s (.verify i now token input) = some s' ∧
      SignsIn S s.calls.length c.id s'

/-- Instance `i` accepts the challenge at once, or on looking it up. -/
def Admits (S : Settings) (s : Service) (i : Nat) (c : Challenge) (expiry : Int) : Prop :=
  ∀ now token input, Answers S.runtime S.keys c input → now < expiry →
    ∃ s', (machine S).step s (.verify i now token input) = some s' ∧
      (SignsIn S s.calls.length c.id s' ∨ LooksUp S s.calls.length c.id expiry s')

section Completeness

variable {S : Settings} {s s' : Service} {as : List Action} {i j k : Nat} {now₀ : Int}
  {c : Challenge}

theorem Service.Issued.keep {a : Action} (h : s.Issued j i now₀ c) (hmoved : Moved s s' a) :
    s'.Issued j i now₀ c := hmoved.keep h rfl

theorem Backed.made_of_issued (h : Backed S s) (hissued : s.Issued j i now₀ c) :
    s.Made S j i now₀ c := by
  obtain ⟨-, i', now', call, hcall, hrequest, hissue⟩ := h.minted j _ c hissued rfl
  obtain rfl := Option.some.inj (hissued.symm.trans hcall)
  cases hrequest
  exact ⟨_, hissued, rfl, hissue⟩

/-- The row of an issued challenge that no call has signed in with. -/
theorem unspent_row (hbacked : Backed S s) (hsingle : Single S s) (hstocked : Stocked s)
    (hissued : s.Issued j i now₀ c) (hunused : ¬ s.Used c.id) :
    ∃ row, s.challenges.lookup c.id = some row ∧ row.consumedAt = none ∧ row.address = c.address ∧
      rebuild S.keys row = c := by
  obtain ⟨row, hrow⟩ := Option.isSome_iff_exists.mp (hstocked.calls j _ hissued)
  rw [hsingle.spent, consumed_of_lookup hrow, Option.not_isSome_iff_eq_none] at hunused
  obtain ⟨j', q, c', hissued', hid, hrebuild⟩ := hbacked.rows c.id row hrow
  obtain ⟨-, i', now', hmade⟩ := hbacked.minted j' _ c' hissued' rfl
  obtain ⟨-, -, -, rfl⟩ := hbacked.made_unique hmade (hbacked.made_of_issued hissued) hid
  have hsame : rebuild S.keys row = c' := by
    have hfresh : c'.used = false := by rw [hmade.eq.2.2]; rfl
    rw [hrebuild, hunused, Option.isSome_none, ← hfresh]
  exact ⟨row, hrow, hunused, congrArg Challenge.address hsame, hsame⟩

theorem others_invariants (hdb : S.prisma = true) {id : String} (hbacked : Backed S s)
    (hsingle : Single S s) (hstocked : Stocked s) (hothers : Others S k id s s') :
    Backed S s' ∧ Single S s' ∧ Stocked s' := by
  obtain ⟨-, as, hrun, hregular, -⟩ := hothers
  exact ⟨(machine S).exec_invariant_along backed_step hrun hregular hbacked,
    (machine S).exec_invariant (single_step hdb) hrun hsingle,
    (machine S).exec_invariant (stocked_step hdb) hrun hstocked⟩

theorem others_issued {id : String} (hissued : s.Issued j i now₀ c)
    (hothers : Others S k id s s') : s'.Issued j i now₀ c := by
  obtain ⟨-, as, hrun, -, -⟩ := hothers
  exact (machine S).exec_invariant (I := fun u => u.Issued j i now₀ c)
    (fun _ _ _ hu hstep => hu.keep (change_of_step hstep).moved) hrun hissued

theorem others_call {id : String} {call : Call} (hcall : s.call? k = some call)
    (hothers : Others S k id s s') : s'.call? k = some call := by
  obtain ⟨-, as, hrun, -, htarget⟩ := hothers
  exact (machine S).exec_invariant_along (I := fun u => u.call? k = some call)
    (fun _ _ _ hu ha hstep => (change_of_step hstep).moved.untouched hu ha) hrun
    ((machine S).along_of_forall s htarget) hcall

/-- The transaction of an accepted challenge commits. -/
theorem signIn_of_issued (hbacked : Backed S s) (hsingle : Single S s) (hstocked : Stocked s)
    (hissued : s.Issued j i now₀ c) (hunused : ¬ s.Used c.id) (now expiresAt : Int)
    {token : String} (htoken : ∀ u ∈ s.sessions, u.tokenHash ≠ S.runtime.sha256 token) :
    ∃ u, signIn S.runtime s now c c.address token expiresAt = .ok u := by
  obtain ⟨row, hrow, hunspent, haddress, -⟩ := unspent_row hbacked hsingle hstocked hissued hunused
  have hwallet := hstocked.wallets c.id row hrow
  rw [haddress] at hwallet
  exact ⟨_, signIn_eq_ok.mpr ⟨row, hrow, hunspent, hwallet, htoken, rfl⟩⟩

theorem signsIn_of_verified (hdb : S.prisma = true) (hbacked : Backed S s) (hsingle : Single S s)
    (hstocked : Stocked s) (hissued : s.Issued j i now₀ c) {i' : Nat} {input : VerifyInput}
    {own : Bool} {t expiresAt : Int} {token : String} (haddress : input.address = c.address)
    (hcall : s.call? k = some ⟨.verify i' input, .verified own c t token expiresAt⟩) :
    SignsIn S k c.id s := by
  refine .inr fun s' now token' hothers hclean => ?_
  obtain ⟨hbacked', hsingle', hstocked'⟩ := others_invariants hdb hbacked hsingle hstocked hothers
  have hcall' := others_call hcall hothers
  obtain ⟨u, hcommit⟩ := signIn_of_issued hbacked' hsingle' hstocked'
    (others_issued hissued hothers) hothers.1 now expiresAt (hclean _ hcall' _ rfl).2
  have hstep : (machine S).step s' (.advance k now token') =
      some (u.turn k ⟨.verify i' input, .signedIn c t token expiresAt⟩) := by
    simp only [machine, serve, hcall', Option.bind_some, haddress, hcommit]
  obtain ⟨row, -, -, -, -, rfl⟩ := signIn_eq_ok.mp hcommit
  exact ⟨_, _, hstep, call?_turn_self (s := { s' with challenges := _, sessions := _ }) hcall', c,
    rfl, rfl⟩

theorem passes_of_made (hm : s.Made S j i now₀ c) (hbacked : Backed S s) {now : Int}
    {input : VerifyInput} (haddress : input.address = c.address) (horigin : input.origin = c.origin)
    (hsignature : S.keys.verify c.address c.message input.signature = true)
    (hlive : now < now₀ + 300000) : Passes S.runtime S.keys c now input := by
  obtain ⟨-, hkey, hc⟩ := hm.eq
  refine ⟨by rw [hc]; rfl, fun t ht => ?_, haddress.symm, horigin.symm, haddress ▸ hkey,
    haddress ▸ hsignature⟩
  rw [(hbacked.made_date hm).2] at ht
  obtain rfl := Option.some.inj ht
  exact hlive

theorem looksUp_of_looking (hdb : S.prisma = true) (hbacked : Backed S s) (hsingle : Single S s)
    (hstocked : Stocked s) (hissued : s.Issued j i now₀ c) {i' : Nat} {input : VerifyInput}
    (hanswers : Answers S.runtime S.keys c input)
    (hcall : s.call? k = some ⟨.verify i' input, .looking⟩) :
    LooksUp S k c.id (now₀ + 300000) s := by
  intro s' now token hothers hlive
  obtain ⟨hbacked', hsingle', hstocked'⟩ := others_invariants hdb hbacked hsingle hstocked hothers
  have hcall' := others_call hcall hothers
  have hissued' := others_issued hissued hothers
  obtain ⟨row, hrow, -, -, hrebuild⟩ := unspent_row hbacked' hsingle' hstocked' hissued' hothers.1
  have hcheck : check S.runtime S.keys c now input = .ok () := check_eq_ok.mpr
    (passes_of_made (hbacked'.made_of_issued hissued') hbacked' hanswers.address hanswers.origin
      hanswers.signature hlive)
  have hlookup : findChallenge S.runtime s' input.challengeId = .ok row :=
    findChallenge_eq_ok.mpr ⟨c.id, hanswers.challengeId, hrow⟩
  have hstep : (machine S).step s' (.advance k now token) =
      some (s'.turn k ⟨.verify i' input, .verified false c now token (sessionExpiry now)⟩) := by
    simp only [machine, serve, hcall', Option.bind_some, hlookup, hrebuild, hcheck]
  refine ⟨_, hstep, ?_⟩
  have hmoved := (change_of_step hstep).moved
  exact signsIn_of_verified hdb (backed_step s' (.advance k now token) _ hbacked' trivial hstep)
    (single_step hdb _ _ _ hsingle' hstep) (stocked_step hdb _ _ _ hstocked' hstep)
    (hissued'.keep hmoved) hanswers.address (call?_turn_self hcall')

/-- The challenge in an instance's map is the one that was made, when nobody has used it. -/
theorem own_of_made (hbacked : Backed S s) (hflagged : Flagged s) (hm : s.Made S j i now₀ c)
    {i' : Nat} {own : Challenge} (hown : (s.memory i').lookup c.id = some own)
    (hunused : ¬ s.Used c.id) (hfree : ¬ s.Signing i' c.id) : own = c := by
  have hunmarked : own.used = false := by
    cases hused : own.used with
    | false => rfl
    | true => exact absurd (hflagged i' c.id own hown hused) (not_or.mpr ⟨hunused, hfree⟩)
  obtain ⟨hid, j', now', hm'⟩ := hbacked.memory i' c.id own hown
  obtain ⟨-, -, -, rfl⟩ := hbacked.made_unique hm' hm hid
  rw [← hunmarked]

theorem accepts_of_own (hbacked : Backed S s)
    (hdatabase : S.prisma = true → Single S s ∧ Stocked s) (hissued : s.Issued j i now₀ c)
    {i' : Nat} (hown : (s.memory i').lookup c.id = some c) {now : Int} (token : String)
    {input : VerifyInput} (hpresents : Presents S.keys c input) (hlive : now < now₀ + 300000) :
    ∃ s', (machine S).step s (.verify i' now token input) = some s' ∧
      SignsIn S s.calls.length c.id s' := by
  have hcheck : check S.runtime S.keys c now input = .ok () := check_eq_ok.mpr
    (passes_of_made (hbacked.made_of_issued hissued) hbacked hpresents.address hpresents.origin
      hpresents.signature hlive)
  have hlookup : (s.memory i').lookup input.challengeId = some c := hpresents.challengeId ▸ hown
  have hstep : (machine S).step s (.verify i' now token input) =
      some ((s.remember i' input.challengeId { c with used := true }).add ⟨.verify i' input,
        if S.prisma then .verified true c now token (sessionExpiry now)
          else .signedIn c now token (sessionExpiry now)⟩) := by
    simp only [machine, serve, hlookup, hcheck]
  refine ⟨_, hstep, ?_⟩
  have hmoved := (change_of_step hstep).moved
  cases hdb : S.prisma with
  | false =>
    simp only [hdb] at hstep
    exact .inl ⟨_, List.getElem?_concat_length, c, rfl, rfl⟩
  | true =>
    obtain ⟨hsingle, hstocked⟩ := hdatabase hdb
    simp only [hdb] at hstep hmoved
    exact signsIn_of_verified hdb (backed_step s (.verify i' now token input) _ hbacked trivial hstep)
      (single_step hdb _ _ _ hsingle hstep) (stocked_step hdb _ _ _ hstocked hstep)
      (hissued.keep hmoved) hpresents.address List.getElem?_concat_length

theorem looks_of_absent (hdb : S.prisma = true) {i' : Nat} (now : Int) (token : String)
    {input : VerifyInput} (hnone : (s.memory i').lookup input.challengeId = none) :
    (machine S).step s (.verify i' now token input) =
      some (s.add ⟨.verify i' input, .looking⟩) := by
  simp only [machine, serve, hnone, hdb, if_true]

end Completeness

/-! ## Over a run -/

/-- What a run keeps in which no transaction spoils a challenge. -/
structure Ready (S : Settings) (s : Service) : Prop where
  backed : Backed S s
  flagged : Flagged s
  database : S.prisma = true → Single S s ∧ Stocked s

section Runs

variable {S : Settings} {s s₀ : Service} {as : List Action}

theorem ready_of_fresh (h : Fresh s.toState) : Ready S s :=
  ⟨backed_of_fresh h, flagged_of_fresh h, fun _ => ⟨single_of_fresh h, stocked_of_fresh h⟩⟩

theorem Ready.step {a : Action} {s' : Service} (h : Ready S s) (hregular : Regular S s a)
    (hspoils : ¬ Spoils S s a) (hstep : (machine S).step s a = some s') : Ready S s' := by
  refine ⟨backed_step s a s' h.backed hregular hstep,
    flagged_step h.flagged h.backed hstep hspoils, fun hdb => ?_⟩
  obtain ⟨hsingle, hstocked⟩ := h.database hdb
  exact ⟨single_step hdb s a s' hsingle hstep, stocked_step hdb s a s' hstocked hstep⟩

/-- Nothing fails in a clean step. -/
theorem Ready.not_spoils {a : Action} (h : Ready S s) (hdb : S.prisma = true)
    (hclean : Clean S s a) : ¬ Spoils S s a := by
  intro hspoils
  cases a with
  | advance k now token =>
    obtain ⟨x, hx, hunused, hblocked⟩ := hspoils
    obtain ⟨call, hc, hmarked⟩ := Option.bind_eq_some_iff.mp hx
    obtain ⟨input, t, expiresAt, haddress, rfl⟩ := marked?_eq_some hmarked
    obtain ⟨⟨call', hmem, hstage⟩, htoken⟩ := hclean _ hc _ rfl
    obtain ⟨j, hj⟩ := List.mem_iff_getElem?.mp hmem
    obtain ⟨-, i, now', hmade⟩ := h.backed.minted j call' _ hj (by rw [hstage]; rfl)
    obtain ⟨hsingle, hstocked⟩ := h.database hdb
    have hissued : s.Issued j i now' x.challenge := by
      obtain ⟨call'', hj', hrequest, -⟩ := hmade
      obtain rfl := Option.some.inj (hj.symm.trans hj')
      rw [Service.Issued, ← hrequest, ← hstage]
      exact hj
    obtain ⟨i'', input', hrequest, -, hpasses, -⟩ := h.backed.accepted k _ x.challenge t hc rfl
    cases hrequest
    have hallows := signIn_ok_iff.mp
      (signIn_of_issued h.backed hsingle hstocked hissued hunused now 0 htoken)
    rw [hpasses.address, haddress] at hallows
    exact hblocked hallows
  | fail => exact hclean
  | issue | verify | restart => exact hspoils

theorem ready_of_clean (hdb : S.prisma = true) (h₀ : Fresh s₀.toState)
    (hrun : (machine S).exec s₀ as = some s) (hregular : (machine S).Along (Regular S) s₀ as)
    (hclean : (machine S).Along (Clean S) s₀ as) : Ready S s :=
  (machine S).exec_invariant_along (I := Ready S)
    (fun _ _ _ h hP hstep => h.step hP.1 (h.not_spoils hdb hP.2) hstep) hrun
    ((machine S).along_and hregular hclean) (ready_of_fresh h₀)

end Runs

/-! ## A mark is for good -/

/-- Instance `i` has marked the challenge. -/
def Service.Marked (s : Service) (i : Nat) (id : String) : Prop :=
  ∃ own, (s.memory i).lookup id = some own ∧ own.used = true

section Marked

variable {S : Settings} {s s' : Service} {i : Nat} {id : String}

theorem marked_step {a : Action} (h : s.Marked i id) (hbacked : Backed S s)
    (hregular : Regular S s a) (ha : a ≠ .restart i) (hstep : (machine S).step s a = some s') :
    s'.Marked i id := by
  obtain ⟨own, hown, hused⟩ := h
  have hchange := change_of_step hstep
  cases hchange with
  | issue i' now id' address origin c hissue =>
    refine ⟨own, (lookup_remember s i' i id' id c).trans ?_, hused⟩
    rw [if_neg ?_]
    · exact hown
    · rintro ⟨rfl, rfl⟩
      -- the UUID was drawn when the challenge was made
      obtain ⟨hid, j, now', call, hcall, hrequest, -⟩ := hbacked.memory i _ own hown
      exact hregular.1 j call hcall ⟨_, _, _, _, hid ▸ hrequest⟩
  | accept i' now token input own' hown' =>
    have hlookup := lookup_remember s i' i input.challengeId id { own' with used := true }
    split at hlookup
    · exact ⟨_, hlookup, rfl⟩
    · exact ⟨own, hlookup.trans hown, hused⟩
  | restart i' =>
    have hne : i ≠ i' := fun hi => ha (hi ▸ rfl)
    refine ⟨own, ?_, hused⟩
    show ((Function.update s.memory i' ∅) i).lookup id = some own
    rw [Function.update_of_ne hne]
    exact hown
  | _ => exact ⟨own, hown, hused⟩

/-- An instance refuses a challenge that it has marked, whoever presents it, and goes on to. -/
theorem marked_for_good {bs : List Action} (h : s.Marked i id) (hbacked : Backed S s)
    (hrun : (machine S).exec s bs = some s') (hregular : (machine S).Along (Regular S) s bs)
    (hstays : Action.restart i ∉ bs) (now : Int) (token : String) (input : VerifyInput)
    (hid : input.challengeId = id) : (machine S).step s' (.verify i now token input) =
      some (s'.add ⟨.verify i input, .threw "Authentication challenge already used"⟩) := by
  have hstays' : (machine S).Along (fun _ a => a ≠ .restart i) s bs :=
    (machine S).along_of_forall s fun a ha hai => hstays (hai ▸ ha)
  obtain ⟨⟨own, hown, hused⟩, -⟩ := (machine S).exec_invariant_along
    (I := fun u => u.Marked i id ∧ Backed S u)
    (fun _ _ _ hu hP hstep => ⟨marked_step hu.1 hu.2 hP.1 hP.2 hstep,
      backed_step _ _ _ hu.2 hP.1 hstep⟩) hrun
    ((machine S).along_and hregular hstays') ⟨h, hbacked⟩
  subst hid
  simp only [machine, serve, hown, check, hused, if_true]

end Marked

/-! ## A wallet and its logins -/

def sampleAddress : Address := "GDVQDOU5CF6S3WZXZRWRPOXD7ZCUVSKEGDSGZXXMA3GKEEWGGOGIBIIC"

def sampleInput : VerifyInput where
  challengeId := "7d444840-9dc0-41d1-b245-5ffdce74fad2"
  address := sampleAddress
  origin := "https://app.example"
  signature :=
    "M0hJEkIN10i45AQ8SMUeZqVnIo/vKMs9L7ZP3+WMCE3rpENvJl+V+pO68FOizFkKedzdxn+jqvI+TTu9zAb4Bg=="

/-- An instance of test settings, on a database. -/
def sampleSettings : Settings where
  runtime :=
    { Workflow.sampleRuntime with
      sha256 := fun s =>
        if s = "ab13a81b27f799165bde028afa1257f79d572d9bee4f0d74232c44c582aabcc5" then
          "2f138734e962cd989b0b61285a3bc36584c5beec07cb52c23eebdaeb85c6a8a7"
        else if s = "115e213fb09fdddb0354d3025d4a218ffb33499d839a303312a917362e33f158" then
          "9609fc283c2a1ecbdb0636fb7e8ada87f3c532066954cebff2e379d20866e7aa"
        else if s = sampleInput.challengeId then
          "b9838c8cc19b75a528d5630c41ea4c9e57302ae71fd0e270fef72e906e3ba42e"
        else "" }
  keys :=
    { fromPublicKey := fun address => address = sampleAddress
      verify := fun address text signature =>
        address = sampleAddress ∧ signature = sampleInput.signature ∧
          text = message sampleInput.challengeId sampleAddress "https://app.example"
            "2030-01-01T10:00:00.000Z" "TESTNET"
      toISOString := fun t => if t = 1893492000000 then "2030-01-01T10:00:00.000Z" else "" }
  origins _ := ["https://app.example"]
  network _ := "TESTNET"
  prisma := true

def sampleChallenge : Challenge :=
  newChallenge sampleSettings.keys "TESTNET" 1893491700000 sampleInput.challengeId sampleAddress
    "https://app.example"

/-- Before any call. -/
def vacant : Service := ⟨⟨fun _ => ∅, ∅, [], []⟩, ∅⟩

theorem fresh_vacant : Fresh vacant.toState := ⟨fun _ => rfl, rfl, rfl, rfl⟩

/-- Instance 0 issues the challenge, from its first statement to its return. -/
def issueSample : List Action :=
  [.issue 0 1893491700000 sampleInput.challengeId sampleAddress "https://app.example",
    .advance 0 1893491700100 "", .advance 0 1893491700200 ""]

/-- The wallet presents it to instance `i`, which draws a session token. -/
def verifySample (i : Nat) : Action :=
  .verify i 1893491760000 "ab13a81b27f799165bde028afa1257f79d572d9bee4f0d74232c44c582aabcc5"
    sampleInput

theorem presents_sample : Presents sampleSettings.keys sampleChallenge sampleInput :=
  ⟨rfl, rfl, rfl, by decide +kernel⟩

/-- **A failed login leaves the challenge usable, unless it fails in its transaction.** With a
    database or without one, in every run without a restart in which no transaction fails that
    has marked its instance's challenge, but for challenges that have their session: what an
    instance has issued it accepts from the wallet before the expiry, until a call has signed
    in with it, or is in its transaction there. -/
theorem accepted_unless_spoiled (S : Settings) (s₀ s : Service) (as : List Action)
    (h₀ : Fresh s₀.toState) (hrun : (machine S).exec s₀ as = some s)
    (hregular : (machine S).Along (Regular S) s₀ as) (hstays : ∀ i, Action.restart i ∉ as)
    (hspoils : (machine S).Along (fun s a => ¬ Spoils S s a) s₀ as) :
    ∀ j i now c, s.Issued j i now c → ¬ s.Used c.id → ¬ s.Signing i c.id →
      Accepts S s i c (now + 300000) := by
  have hstays' : (machine S).Along (fun _ a => ∀ i, a ≠ .restart i) s₀ as :=
    (machine S).along_of_forall s₀ fun a ha i hai => hstays i (hai ▸ ha)
  obtain ⟨hready, hheld⟩ := (machine S).exec_invariant_along (I := fun u => Ready S u ∧ Held S u)
    (fun _ _ _ h hP hstep => ⟨h.1.step hP.1 hP.2.1 hstep, held_step h.2 hstep hP.2.2⟩) hrun
    ((machine S).along_and hregular ((machine S).along_and hspoils hstays'))
    ⟨ready_of_fresh h₀, held_of_fresh h₀⟩
  intro j i now c hissued hunused hfree now' token input hpresents hlive
  have hmade := hready.backed.made_of_issued hissued
  obtain ⟨own, hown⟩ := Option.isSome_iff_exists.mp (hheld j i now c hmade)
  obtain rfl := own_of_made hready.backed hready.flagged hmade hown hunused hfree
  exact accepts_of_own hready.backed hready.database hissued hown token hpresents hlive

/-- A login from another site fails, and so does the lookup of one on another instance. -/
def failuresSample : List Action :=
  [.verify 0 1893491730000 "" { sampleInput with origin := "https://evil.example" },
    .verify 1 1893491740000 "" sampleInput, .fail 2 "Can't reach database server"]

theorem accepted_unless_spoiled_sample : ∃ s,
    (machine sampleSettings).exec vacant (issueSample ++ failuresSample) = some s ∧
      Accepts sampleSettings s 0 sampleChallenge 1893492000000 := by
  have hfacts : ∀ s ∈ (machine sampleSettings).exec vacant (issueSample ++ failuresSample),
      s.Issued 0 0 1893491700000 sampleChallenge ∧ ¬ s.Used sampleChallenge.id ∧
        ¬ s.Signing 0 sampleChallenge.id := by decide +kernel
  obtain ⟨s, hrun⟩ : ∃ s,
      (machine sampleSettings).exec vacant (issueSample ++ failuresSample) = some s :=
    Option.isSome_iff_exists.mp (by decide +kernel)
  obtain ⟨hissued, hunused, hfree⟩ := hfacts s hrun
  have hstays : ∀ i, Action.restart i ∉ issueSample ++ failuresSample := by
    simp [issueSample, failuresSample]
  exact ⟨s, hrun, accepted_unless_spoiled sampleSettings vacant s _ fresh_vacant hrun
    (by decide +kernel) hstays (by decide +kernel) 0 0 1893491700000 sampleChallenge hissued hunused
    hfree⟩

/-- The transaction of the first login fails, with no session and an unspent row left behind; in
    time, the same instance then refuses the wallet. -/
theorem burned_by_a_failed_transaction : Presents sampleSettings.keys sampleChallenge sampleInput ∧
    ∃ s ∈ (machine sampleSettings).exec vacant
        (issueSample ++ [verifySample 0, .fail 1 "Can't reach database server"]),
      s.Issued 0 0 1893491700000 sampleChallenge ∧ ¬ s.Used sampleChallenge.id ∧
      ¬ s.Signing 0 sampleChallenge.id ∧ s.consumed sampleChallenge.id = false ∧
      ∃ s' ∈ (machine sampleSettings).step s (verifySample 0), s'.call? 2 =
        some ⟨.verify 0 sampleInput, .threw "Authentication challenge already used"⟩ :=
  ⟨presents_sample, by decide +kernel⟩

/-- **Wallet logins are bound, single-use and free of the instance.** In every run of any number
    of instances on one database, with any restarts and failures: a call that signed in had an
    issued challenge, with the id, the address, the origin and a signature of the message it was
    given, checked before the five minutes were over; one call at most signs in with a challenge,
    and the session rows are those of the calls that did. Where nothing fails, every instance
    admits an issued challenge that none has signed in with and that it holds in no transaction. -/
theorem sign_in_bound_single_use (S : Settings) (hdb : S.prisma = true) (s₀ s : Service)
    (as : List Action) (h₀ : Fresh s₀.toState) (hrun : (machine S).exec s₀ as = some s)
    (hregular : (machine S).Along (Regular S) s₀ as) :
    (∀ k i input c t token expiresAt,
      s.call? k = some ⟨.verify i input, .signedIn c t token expiresAt⟩ →
      ∃ j i' now, s.Issued j i' now c ∧ Answers S.runtime S.keys c input ∧ c.origin ∈ S.origins i' ∧
        t < now + 300000) ∧
    (∀ id, AtMostOne (Call.SignsIn id) s.calls) ∧
    s.sessions.Perm (s.calls.filterMap (Call.session? S.runtime)) ∧
    ((machine S).Along (Clean S) s₀ as → ∀ j i' now c, s.Issued j i' now c → ¬ s.Used c.id →
      ∀ i, ¬ s.Signing i c.id → Admits S s i c (now + 300000)) := by
  have hbacked := backed_of_exec h₀ hrun hregular
  have hsingle := (machine S).exec_invariant (single_step hdb) hrun (single_of_fresh h₀)
  refine ⟨?_, hsingle.once, hsingle.sessions, ?_⟩
  · intro k i input c t token expiresAt hcall
    obtain ⟨_, _, hrequest, hid, hpasses, j, i', now, hmade⟩ := hbacked.accepted k _ c t hcall rfl
    cases hrequest
    -- its row is that of an issued challenge
    have hconsumed : s.consumed c.id = true := (hsingle.spent c.id).mp ⟨k, _, hcall, c, rfl, rfl⟩
    obtain ⟨row, hrow⟩ : ∃ row, s.challenges.lookup c.id = some row := by
      by_contra hnone
      rw [consumed_of_none (Option.eq_none_iff_forall_ne_some.mpr (not_exists.mp hnone))] at hconsumed
      cases hconsumed
    obtain ⟨j', q, c', hissued, hid', -⟩ := hbacked.rows c.id row hrow
    obtain ⟨-, i'', now', hmade'⟩ := hbacked.minted j' _ c' hissued rfl
    obtain ⟨rfl, rfl, rfl, rfl⟩ := hbacked.made_unique hmade' hmade hid'
    obtain ⟨call, hcall', hq, -⟩ := hmade
    obtain rfl := Option.some.inj (hissued.symm.trans hcall')
    cases hq
    refine ⟨j', i'', now', hissued, ⟨hid, hpasses.address.symm, hpasses.origin.symm, ?_⟩,
      hmade'.eq.1, hpasses.live _ (hbacked.made_date hmade').2⟩
    exact hpasses.address ▸ hpasses.signature
  · intro hclean j i' now c hissued hunused i hfree now' token input hanswers hlive
    have hready := ready_of_clean hdb h₀ hrun hregular hclean
    obtain ⟨hsingle, hstocked⟩ := hready.database hdb
    cases hown : (s.memory i).lookup input.challengeId with
    | some own =>
      -- the instance knows its challenges by the spelling they were issued with
      have hid : input.challengeId = c.id := Option.some.inj
        ((hbacked.spelled i _ own hown).symm.trans hanswers.challengeId)
      rw [hid] at hown
      obtain rfl := own_of_made hready.backed hready.flagged (hbacked.made_of_issued hissued) hown
        hunused hfree
      obtain ⟨s', hstep, hsigns⟩ := accepts_of_own hready.backed hready.database hissued hown
        token ⟨hid, hanswers.address, hanswers.origin, hanswers.signature⟩ hlive
      exact ⟨s', hstep, .inl hsigns⟩
    | none =>
      have hstep := looks_of_absent hdb now' token hown
      refine ⟨_, hstep, .inr ?_⟩
      have hmoved := (change_of_step hstep).moved
      have hbacked' := backed_step s (.verify i now' token input) _ hbacked trivial hstep
      exact looksUp_of_looking hdb hbacked'
        (single_step hdb _ _ _ hsingle hstep) (stocked_step hdb _ _ _ hstocked hstep)
        (hissued.keep hmoved) hanswers List.getElem?_concat_length

/-- The wallet presents the challenge to instance 1, which looks it up and signs it in. -/
def lookupSample (k : Nat) : List Action :=
  [.verify 1 1893491760000 "" sampleInput,
    .advance k 1893491760100 "115e213fb09fdddb0354d3025d4a218ffb33499d839a303312a917362e33f158",
    .advance k 1893491760200 ""]

/-- A first login on instance 0 waits for its transaction; a second one there is refused, and a
    third one, on instance 1, signs in before the first. -/
theorem refused_beside_a_login : Presents sampleSettings.keys sampleChallenge sampleInput ∧
    (∃ s ∈ (machine sampleSettings).exec vacant (issueSample ++ [verifySample 0]),
      s.Issued 0 0 1893491700000 sampleChallenge ∧ ¬ s.Used sampleChallenge.id ∧
      ∃ s' ∈ (machine sampleSettings).exec s
          (verifySample 0 :: lookupSample 3 ++ [.advance 1 1893491760300 ""]),
        s'.calls.map (fun c => c.stage) =
          [.issued sampleChallenge, .threw "Authentication challenge already used",
            .threw "Authentication challenge already used",
            .signedIn sampleChallenge 1893491760100
              "115e213fb09fdddb0354d3025d4a218ffb33499d839a303312a917362e33f158"
              1893492660100]) ∧
    (machine sampleSettings).Along (fun s a => Regular sampleSettings s a ∧ Clean sampleSettings s a)
      vacant (issueSample ++ verifySample 0 :: verifySample 0 :: lookupSample 3 ++
        [.advance 1 1893491760300 ""]) :=
  ⟨presents_sample, by decide +kernel, by decide +kernel⟩

theorem sign_in_bound_single_use_sample :
    (∃ s, (machine sampleSettings).exec vacant (issueSample ++ lookupSample 1) = some s ∧
      (∃ j i now, s.Issued j i now sampleChallenge ∧ 1893491760100 < now + 300000) ∧
      AtMostOne (Call.SignsIn sampleChallenge.id) s.calls) ∧
    ∃ s, (machine sampleSettings).exec vacant issueSample = some s ∧
      Admits sampleSettings s 1 sampleChallenge 1893492000000 := by
  have hcall : ((machine sampleSettings).exec vacant (issueSample ++ lookupSample 1)).bind
      (fun s => s.call? 1) = some ⟨.verify 1 sampleInput, .signedIn sampleChallenge 1893491760100
        "115e213fb09fdddb0354d3025d4a218ffb33499d839a303312a917362e33f158" 1893492660100⟩ := by
    decide +kernel
  have hfacts : ∀ s ∈ (machine sampleSettings).exec vacant issueSample,
      s.Issued 0 0 1893491700000 sampleChallenge ∧ ¬ s.Used sampleChallenge.id ∧
        ¬ s.Signing 1 sampleChallenge.id := by decide +kernel
  constructor
  · obtain ⟨s, hrun, hcall⟩ := Option.bind_eq_some_iff.mp hcall
    obtain ⟨hbound, honce, -⟩ := sign_in_bound_single_use sampleSettings rfl vacant s _ fresh_vacant
      hrun (by decide +kernel)
    obtain ⟨j, i, now, hissued, -, -, htime⟩ := hbound _ _ _ _ _ _ _ hcall
    exact ⟨s, hrun, ⟨j, i, now, hissued, htime⟩, honce _⟩
  · -- instance 1 never held the challenge
    obtain ⟨s, hrun⟩ : ∃ s, (machine sampleSettings).exec vacant issueSample = some s :=
      Option.isSome_iff_exists.mp (by decide +kernel)
    obtain ⟨hissued, hunused, hfree⟩ := hfacts s hrun
    obtain ⟨-, -, -, hadmits⟩ := sign_in_bound_single_use sampleSettings rfl vacant s _ fresh_vacant
      hrun (by decide +kernel)
    exact ⟨s, hrun, hadmits (by decide +kernel) 0 0 1893491700000 sampleChallenge hissued hunused 1
      hfree⟩

end PovDeposit.Api.WalletAuth
