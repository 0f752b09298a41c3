/-
  What a connected wallet stands for.

  `Holds` says what a run of the dialog has behind it at each of its stages: the call it waits
  for, the challenge it was given, the login that its wallet has passed. `Sound` is that, with
  what a tab shows and what its browser stores traced back to a run of `connect`; `Apart` keeps
  the calls of different runs apart.
-/
import PovDeposit.Api.SignIns
import PovDeposit.Web.WalletDialog

namespace PovDeposit.Web.WalletDialog

open PovDeposit.Lib
open PovDeposit.Contract (Address)
open PovDeposit.Api.WalletAuth (Action Backed Call Change Fresh Moved Presents Regular Service
  Settings Single UserSession VerifyInput)

/-! ## What a step does -/

/-- The stage that a run is left in. -/
def Outcome.stage : Outcome → Stage
  | .waits stage => stage
  | .connects session k => .connected session k
  | .throws _ | .disconnects | .drops => .ended

/-- The API's call that a run has to do with. -/
def Stage.call? : Stage → Option Nat
  | .issuing _ k | .verifying _ k => some k
  | .connected _ k => k
  | _ => none

/-- A run that has just been started. -/
def Stage.isNew : Stage → Bool
  | .looking _ | .disconnecting => true
  | _ => false

section Steps

variable {H : Hosting} {w w' : World} {act : WorldAction} {s : Service} {tab tab' : Tab}
  {stored stored' : Option Address}

/-- How the runs of a tab change when it acts. -/
inductive Runs (H : Hosting) (s : Service) (tab tab' : Tab) : Prop where
  | same (hruns : tab'.runs = tab.runs)
  | start (stage : Stage) (hnew : stage.isNew = true) (hruns : tab'.runs = tab.runs ++ [stage])
  | move (r : Nat) (e : Event) (stage : Stage) (o : Outcome) (hrun : tab.runs[r]? = some stage)
      (hreact : stage.react H (H.origin tab.store) s e = some o)
      (hruns : tab'.runs = tab.runs.set r o.stage)

/-- What a tab shows and what its browser stores stay, are cleared, or come from a run. -/
inductive Shows (tab tab' : Tab) (stored stored' : Option Address) : Prop where
  | same (hsession : tab'.session = tab.session) (hstored : stored' = stored)
  | clear (hsession : tab'.session = none) (hstored : stored' = none)
  | connect (x : WalletSession) (k : Option Nat) (hrun : .connected x k ∈ tab'.runs)
      (hsession : tab'.session = some x) (hstored : stored' = some x.address)

theorem settle_runs (tab : Tab) (stored : Option Address) (o : Outcome) (r : Nat) :
    (tab.settle H stored r o).1.runs = tab.runs.set r o.stage ∧
      (tab.settle H stored r o).1.store = tab.store := by
  cases o <;> exact ⟨rfl, rfl⟩

theorem settle_shows (stored : Option Address) (o : Outcome) {r : Nat} {stage : Stage}
    (hrun : tab.runs[r]? = some stage) :
    Shows tab (tab.settle H stored r o).1 stored (tab.settle H stored r o).2 := by
  cases o with
  | waits stage => exact .same rfl rfl
  | connects x k =>
    obtain ⟨hlt, -⟩ := List.getElem?_eq_some_iff.mp hrun
    exact .connect x k (List.mem_set hlt _) rfl rfl
  | throws message => exact .clear rfl rfl
  | disconnects => exact .clear rfl rfl
  | drops => exact .same rfl rfl

theorem tab_step_cases {a : TabAction} (h : tab.step H s stored a = some (tab', stored')) :
    tab'.store = tab.store ∧ Runs H s tab tab' ∧ Shows tab tab' stored stored' := by
  cases a with
  | connect kind =>
    cases h
    exact ⟨rfl, .start _ rfl rfl, .same rfl rfl⟩
  | disconnect =>
    simp only [Tab.step] at h
    split at h
    · cases h
    · cases h
      exact ⟨rfl, .start _ rfl rfl, .same rfl rfl⟩
    · cases h
      exact ⟨rfl, .same rfl, .clear rfl rfl⟩
  | run r e =>
    obtain ⟨stage, hrun, h⟩ := Option.bind_eq_some_iff.mp h
    obtain ⟨o, hreact, hsettle⟩ := Option.map_eq_some_iff.mp h
    obtain ⟨hruns, hstore⟩ := settle_runs (H := H) tab stored o r
    have hshows := settle_shows (H := H) stored o hrun
    rw [hsettle] at hruns hstore hshows
    exact ⟨hstore, .move r e stage o hrun hreact hruns, hshows⟩

/-- A step asks something of the API, or a page comes up, or a tab acts. -/
theorem world_step_cases (h : w.step H act = some w') :
    (∃ a s, w.serves H act = some a ∧ take H.api w.service a = some s ∧
      w' = { w with service := s }) ∨
    (∃ n, w.serves H act = none ∧
      w' = { w with tabs := w.tabs ++ [mounted H n (w.storage n)] }) ∨
    (∃ t r i now drawn tab stage a s, act = .post t r i now drawn ∧ w.serves H act = some a ∧
      w.tabs[t]? = some tab ∧ tab.runs[r]? = some stage ∧
      stage.request (H.origin tab.store) i now drawn = some a ∧ take H.api w.service a = some s ∧
      w' = { w with
        service := s
        tabs := w.tabs.set t
          { tab with runs := tab.runs.set r (stage.sent w.service.calls.length) } }) ∨
    (∃ t tab tab' stored a, w.serves H act = none ∧ w.tabs[t]? = some tab ∧
      tab.step H w.service (w.storage tab.store) a = some (tab', stored) ∧
      w' = { w with
        storage := Function.update w.storage tab.store stored
        tabs := w.tabs.set t tab' }) := by
  cases act with
  | others a =>
    obtain ⟨s, hs, rfl⟩ := Option.map_eq_some_iff.mp h
    exact .inl ⟨a, s, rfl, hs, rfl⟩
  | opens n =>
    cases h
    exact .inr (.inl ⟨n, rfl, rfl⟩)
  | post t r i now drawn =>
    obtain ⟨tab, htab, h⟩ := Option.bind_eq_some_iff.mp h
    obtain ⟨stage, hrun, h⟩ := Option.bind_eq_some_iff.mp h
    obtain ⟨a, ha, h⟩ := Option.bind_eq_some_iff.mp h
    obtain ⟨s, hs, rfl⟩ := Option.map_eq_some_iff.mp h
    have hserves : w.serves H (.post t r i now drawn) = some a := by
      simp only [World.serves, htab, hrun, Option.bind_some]
      exact ha
    exact .inr (.inr (.inl
      ⟨t, r, i, now, drawn, tab, stage, a, s, rfl, hserves, htab, hrun, ha, hs, rfl⟩))
  | tab t a =>
    obtain ⟨tab, htab, h⟩ := Option.bind_eq_some_iff.mp h
    obtain ⟨⟨tab', stored⟩, hstep, rfl⟩ := Option.map_eq_some_iff.mp h
    exact .inr (.inr (.inr ⟨t, tab, tab', stored, a, rfl, htab, hstep, rfl⟩))

/-- The instances move by what the step asks of them. -/
theorem service_of_step (h : w.step H act = some w') :
    (∃ a ∈ w.serves H act, Change H.api w.service a w'.service) ∨ w'.service = w.service := by
  rcases world_step_cases h with ⟨a, s, ha, hs, rfl⟩ | ⟨n, -, rfl⟩ |
    ⟨t, r, i, now, drawn, tab, stage, a, s, -, ha, -, -, -, hs, rfl⟩ |
    ⟨t, tab, tab', stored, a, -, -, -, rfl⟩
  · exact .inl ⟨a, ha, change_of_take hs⟩
  · exact .inr rfl
  · exact .inl ⟨a, ha, change_of_take hs⟩
  · exact .inr rfl

/-- Where run `r` of tab `t` comes from. -/
inductive Came (H : Hosting) (w : World) (act : WorldAction) (w' : World) (t r store : Nat)
    (stage' : Stage) : Prop where
  | old (tab : Tab) (htab : w.tabs[t]? = some tab) (hstore : tab.store = store)
      (hrun : tab.runs[r]? = some stage')
  | started (hnew : stage'.isNew = true)
  | moved (tab : Tab) (stage : Stage) (e : Event) (o : Outcome) (htab : w.tabs[t]? = some tab)
      (hstore : tab.store = store) (hrun : tab.runs[r]? = some stage)
      (hreact : stage.react H (H.origin store) w.service e = some o) (hstage : stage' = o.stage)
      (hservice : w'.service = w.service)
  | sent (tab : Tab) (stage : Stage) (i : Nat) (now : Int) (drawn : String) (a : Action)
      (hact : act = .post t r i now drawn) (htab : w.tabs[t]? = some tab) (hstore : tab.store = store)
      (hrun : tab.runs[r]? = some stage)
      (hrequest : stage.request (H.origin store) i now drawn = some a)
      (htake : take H.api w.service a = some w'.service)
      (hstage : stage' = stage.sent w.service.calls.length)

theorem came_of_step (h : w.step H act = some w') {t r : Nat} {stage' : Stage}
    (htab' : w'.tabs[t]? = some tab') (hrun' : tab'.runs[r]? = some stage') :
    Came H w act w' t r tab'.store stage' := by
  rcases world_step_cases h with ⟨a, s, ha, hs, rfl⟩ | ⟨n, -, rfl⟩ |
    ⟨t', r', i, now, drawn, tab, stage, a, s, hact, -, htab, hrun, ha, hs, rfl⟩ |
    ⟨t', tab, u, stored, a, -, htab, hstep, rfl⟩
  · exact .old tab' htab' rfl hrun'
  · rcases getElem?_of_concat htab' with htab | ⟨-, rfl⟩
    · exact .old tab' htab rfl hrun'
    · cases hrun'
  · obtain ⟨hlt, -⟩ := List.getElem?_eq_some_iff.mp htab
    rcases getElem?_of_set hlt htab' with ⟨rfl, rfl⟩ | ⟨-, htab⟩
    · obtain ⟨hlt, -⟩ := List.getElem?_eq_some_iff.mp hrun
      rcases getElem?_of_set hlt hrun' with ⟨rfl, rfl⟩ | ⟨-, hrun⟩
      · exact .sent tab stage i now drawn a hact htab rfl hrun ha hs rfl
      · exact .old tab htab rfl hrun
    · exact .old tab' htab rfl hrun'
  · obtain ⟨hlt, -⟩ := List.getElem?_eq_some_iff.mp htab
    rcases getElem?_of_set hlt htab' with ⟨rfl, rfl⟩ | ⟨-, htab⟩
    · obtain ⟨hstore, hruns, -⟩ := tab_step_cases hstep
      rw [hstore]
      cases hruns with
      | same hruns => exact .old tab htab rfl (hruns ▸ hrun')
      | start stage hnew hruns =>
        rw [hruns] at hrun'
        rcases getElem?_of_concat hrun' with hrun | ⟨-, rfl⟩
        · exact .old tab htab rfl hrun
        · exact .started hnew
      | move r' e stage o hrun hreact hruns =>
        obtain ⟨hlt, -⟩ := List.getElem?_eq_some_iff.mp hrun
        rw [hruns] at hrun'
        rcases getElem?_of_set hlt hrun' with ⟨rfl, rfl⟩ | ⟨-, hrun⟩
        · exact .moved tab stage e o htab rfl hrun hreact rfl rfl
        · exact .old tab htab rfl hrun
    · exact .old tab' htab rfl hrun'

end Steps


/-! ## What a run has behind it -/

/-- The API has returned this challenge, for the address and the origin. -/
def Offered (s : Service) (origin : String) (address : Address) (challenge : AuthChallenge) : Prop :=
  ∃ j i now c, s.Issued j i now c ∧ c.address = address ∧ c.origin = origin ∧
    challenge = ⟨c.id, c.message⟩

/-- Call `k` has signed the address in, with its signature of the message of a challenge that
    was issued for it and for the origin, before the challenge expired. -/
def Proves (S : Settings) (s : Service) (origin : String) (address : Address) (k : Nat) : Prop :=
  ∃ i input c t token expiresAt j i' now,
    s.call? k = some ⟨.verify i input, .signedIn c t token expiresAt⟩ ∧ s.Issued j i' now c ∧
    Presents S.keys c input ∧ c.address = address ∧ c.origin = origin ∧ origin ∈ S.origins i' ∧
    t < now + 300000

def Stage.Holds (S : Settings) (s : Service) (origin : String) : Stage → Prop
  | .issuing address k => ∃ i now id call, s.call? k = some call ∧
      call.request = .issue i now id address origin
  | .signing address challenge => Offered s origin address challenge
  | .submitting input => input.origin = origin ∧
      ∃ message, Offered s origin input.address ⟨input.challengeId, message⟩
  | .verifying input k => (∃ message, Offered s origin input.address ⟨input.challengeId, message⟩) ∧
      ∃ i call, s.call? k = some call ∧ call.request = .verify i input
  | .connected ⟨.freighter, address⟩ k => ∃ k', k = some k' ∧ Proves S s origin address k'
  | .connected ⟨.rabet, _⟩ k => k = none
  | _ => True

section Holds

variable {H : Hosting} {S : Settings} {s s' : Service} {origin : String} {stage : Stage}

theorem Offered.keep {a : Action} {address : Address} {challenge : AuthChallenge}
    (h : Offered s origin address challenge) (hmoved : Moved s s' a) :
    Offered s' origin address challenge := by
  obtain ⟨j, i, now, c, hissued, hc⟩ := h
  exact ⟨j, i, now, c, hissued.keep hmoved, hc⟩

theorem Proves.keep {a : Action} {address : Address} {k : Nat} (h : Proves S s origin address k)
    (hmoved : Moved s s' a) : Proves S s' origin address k := by
  obtain ⟨i, input, c, t, token, expiresAt, j, i', now, hcall, hissued, hrest⟩ := h
  exact ⟨i, input, c, t, token, expiresAt, j, i', now, hmoved.keep hcall rfl,
    hissued.keep hmoved, hrest⟩

theorem Stage.Holds.keep {a : Action} (h : stage.Holds S s origin) (hmoved : Moved s s' a) :
    stage.Holds S s' origin := by
  unfold Stage.Holds at h ⊢
  split
  · obtain ⟨i, now, id, call, hcall, hrequest⟩ := h
    obtain ⟨call', hcall', hsame⟩ := hmoved.request hcall
    exact ⟨i, now, id, call', hcall', hsame.trans hrequest⟩
  · exact Offered.keep h hmoved
  · obtain ⟨horigin, message, hoffered⟩ := h
    exact ⟨horigin, message, hoffered.keep hmoved⟩
  · obtain ⟨⟨message, hoffered⟩, i, call, hcall, hrequest⟩ := h
    obtain ⟨call', hcall', hsame⟩ := hmoved.request hcall
    exact ⟨⟨message, hoffered.keep hmoved⟩, i, call', hcall', hsame.trans hrequest⟩
  · obtain ⟨k', hk, hproves⟩ := h
    exact ⟨k', hk, hproves.keep hmoved⟩
  · exact h
  · trivial

/-- The answer to an `issue` is the challenge that was asked for. -/
theorem offered_of_answer (hbacked : Backed S s) {address : Address} {k : Nat} {call : Call}
    {c : Api.WalletAuth.Challenge} (h : (Stage.issuing address k).Holds S s origin)
    (hcall : s.call? k = some call) (hstage : call.stage = .issued c) :
    Offered s origin address ⟨c.id, c.message⟩ := by
  obtain ⟨i, now, id, call', hcall', hrequest⟩ := h
  obtain rfl := Option.some.inj (hcall.symm.trans hcall')
  obtain ⟨-, i', now', call', hcall', hq, -⟩ := hbacked.minted k call c hcall (by rw [hstage]; rfl)
  obtain rfl := Option.some.inj (hcall.symm.trans hcall')
  obtain ⟨q, stage⟩ := call
  dsimp only at hrequest hq hstage
  subst hstage
  rw [hrequest] at hq
  cases hq
  exact ⟨k, i, now, c, by rw [Service.Issued, hcall, hrequest], rfl, rfl, rfl⟩

/-- A login that was answered well has proved the address. -/
theorem proves_of_answer (hbacked : Backed S s) {input : VerifyInput} {k : Nat} {call : Call}
    {c : Api.WalletAuth.Challenge} {t : Int} {token : String} {expiresAt : Int}
    (h : (Stage.verifying input k).Holds S s origin) (hcall : s.call? k = some call)
    (hstage : call.stage = .signedIn c t token expiresAt) :
    Proves S s origin input.address k := by
  obtain ⟨⟨message, j, i, now, c', hissued, haddress, horigin, hsame⟩, i', call', hcall',
    hrequest⟩ := h
  obtain rfl := Option.some.inj (hcall.symm.trans hcall')
  obtain ⟨q, stage⟩ := call
  dsimp only at hrequest hstage
  subst hrequest hstage
  obtain ⟨i'', input', hq, hid, hpasses, j', i₀, now₀, hmade⟩ :=
    hbacked.accepted k _ c t hcall rfl
  cases hq
  -- the challenge that was signed is the one that the run was given
  have hmade' := hbacked.made_of_issued hissued
  have hid' : input.challengeId = c'.id := congrArg AuthChallenge.id hsame
  obtain ⟨hspelled, -⟩ := hbacked.minted j _ c' hissued rfl
  have hread : S.runtime.uuid input.challengeId = some c'.id := hid'.symm ▸ hspelled
  obtain ⟨rfl, rfl, rfl, rfl⟩ :=
    hbacked.made_unique hmade' hmade (Option.some.inj (hread.symm.trans hid))
  refine ⟨i', input, c', t, token, expiresAt, j, i, now, hcall, hissued,
    ⟨hid', hpasses.address.symm, hpasses.origin.symm, hpasses.address ▸ hpasses.signature⟩,
    haddress, horigin, horigin ▸ hmade.eq.1, hpasses.live _ (hbacked.made_date hmade).2⟩

theorem holds_of_new (h : stage.isNew = true) : stage.Holds S s origin := by
  cases stage <;> trivial

/-- What a run learns leaves it with what its next stage says. -/
theorem holds_of_react (hbacked : Backed H.api s) (h : stage.Holds H.api s origin) {e : Event}
    {o : Outcome} (hreact : stage.react H origin s e = some o) : o.stage.Holds H.api s origin := by
  unfold Stage.react at hreact
  split at hreact
  · cases hreact
    split <;> trivial
  · cases hreact
    split <;> trivial
  · cases hreact
    split <;> trivial
  · cases hreact
    unfold Outcome.ofExcept
    split <;> trivial
  · cases hreact
    unfold Outcome.ofExcept
    split
    · exact rfl
    · trivial
  · obtain ⟨call, hcall, hreact⟩ := Option.bind_eq_some_iff.mp hreact
    split at hreact
    · rename_i c hstage
      cases hreact
      exact offered_of_answer hbacked h hcall hstage
    · cases hreact
      trivial
    · cases hreact
  · rename_i address challenge error signedMessage
    cases hreact
    unfold Outcome.ofExcept signature
    split
    · rename_i input hinput
      split at hinput
      · cases hinput
      · obtain ⟨text, -, hinput⟩ := Lib.Outcome.bind_eq_ok.mp hinput
        cases hinput
        exact ⟨rfl, challenge.message, h⟩
    · trivial
  · obtain ⟨call, hcall, hreact⟩ := Option.bind_eq_some_iff.mp hreact
    split at hreact
    · rename_i c t token expiresAt hstage
      cases hreact
      exact ⟨_, rfl, proves_of_answer hbacked h hcall hstage⟩
    · cases hreact
      trivial
    · cases hreact
  all_goals first
    | cases hreact
      trivial
    | cases hreact

/-- A request is a new call, whatever comes of it. -/
theorem arrives {a : Action} {q : Api.WalletAuth.Request} (h : Change S s a s')
    (ha : a.arrival = some q) : ∃ call, call.request = q ∧ s'.call? s.calls.length = some call := by
  have hadd : ∀ {u : Service} {call : Call}, u.calls = s.calls →
      (u.add call).call? s.calls.length = some call := fun hu => by
    rw [Service.call?, Service.add, hu]
    exact List.getElem?_concat_length
  cases h with
  | refuse _ q' e ha' =>
    obtain rfl := Option.some.inj (ha.symm.trans ha')
    exact ⟨_, rfl, hadd rfl⟩
  | issue | accept | look =>
    obtain rfl := Option.some.inj ha
    exact ⟨_, rfl, hadd rfl⟩
  | _ => cases ha

/-- A request that has been taken is the call that its run now waits for. -/
theorem holds_of_request {i : Nat} {now : Int} {drawn : String} {a : Action}
    (h : stage.Holds S s' origin) (hrequest : stage.request origin i now drawn = some a)
    (htake : take S s a = some s') : (stage.sent s.calls.length).Holds S s' origin := by
  have hchange := change_of_take htake
  unfold Stage.request at hrequest
  split at hrequest
  · cases hrequest
    obtain ⟨call, hrequest, hcall⟩ := arrives hchange rfl
    exact ⟨i, now, drawn, call, hcall, hrequest⟩
  · cases hrequest
    obtain ⟨call, hrequest, hcall⟩ := arrives hchange rfl
    exact ⟨h.2, i, call, hcall, hrequest⟩
  · cases hrequest

end Holds

/-! ## Along a run of the world -/

/-- Every run has behind it what its stage says, a wallet that a tab shows is one that it has
    connected, and an address in a browser is one that a tab of the browser has. -/
structure Sound (H : Hosting) (w : World) : Prop where
  backed : Backed H.api w.service
  runs : ∀ (t : Nat) (tab : Tab) (r : Nat) (stage : Stage), w.tabs[t]? = some tab →
    tab.runs[r]? = some stage → stage.Holds H.api w.service (H.origin tab.store)
  sessions : ∀ tab ∈ w.tabs, ∀ x, tab.session = some x → ∃ k, .connected x k ∈ tab.runs
  storage : ∀ n address, w.storage n = some address → ∃ tab ∈ w.tabs, tab.store = n ∧
    ∃ kind k, .connected ⟨kind, address⟩ k ∈ tab.runs

/-- No two runs have to do with one call. -/
def Apart (w : World) : Prop :=
  ∀ (t t' : Nat) (tab tab' : Tab) (r r' : Nat) (stage stage' : Stage) (k : Nat),
    w.tabs[t]? = some tab → tab.runs[r]? = some stage → stage.call? = some k →
    w.tabs[t']? = some tab' → tab'.runs[r']? = some stage' → stage'.call? = some k →
    t = t' ∧ r = r'

section Runs

variable {H : Hosting} {w w' : World} {act : WorldAction}

theorem sound_of_fresh (h : (machine H).init w) : Sound H w := by
  obtain ⟨hfresh, hstorage, htabs⟩ := h
  refine ⟨Api.WalletAuth.backed_of_fresh hfresh, ?_, ?_, ?_⟩
  · intro t tab r stage htab
    rw [htabs] at htab
    cases htab
  · intro tab htab
    rw [htabs] at htab
    cases htab
  · intro n address hstored
    rw [hstorage] at hstored
    cases hstored

/-- A run that has connected a wallet stays as it is. -/
theorem connected_stays (h : w.step H act = some w') {t : Nat} {tab : Tab} {x : WalletSession}
    {k : Option Nat} (htab : w.tabs[t]? = some tab) (hrun : .connected x k ∈ tab.runs) :
    ∃ tab', w'.tabs[t]? = some tab' ∧ tab'.store = tab.store ∧ .connected x k ∈ tab'.runs := by
  -- another stage takes the place of a run that is not over
  have hset : ∀ {r : Nat} {stage : Stage} (stage' : Stage), tab.runs[r]? = some stage →
      stage ≠ .connected x k → .connected x k ∈ tab.runs.set r stage' := by
    intro r stage stage' hr hne
    obtain ⟨r', hr'⟩ := List.mem_iff_getElem?.mp hrun
    have hrr : r ≠ r' := by
      rintro rfl
      exact hne (Option.some.inj (hr.symm.trans hr'))
    exact List.mem_iff_getElem?.mpr ⟨r', (List.getElem?_set_ne hrr).trans hr'⟩
  have hself : ∀ u : Tab, (w.tabs.set t u)[t]? = some u := fun u =>
    List.getElem?_set_self (List.getElem?_eq_some_iff.mp htab).1
  rcases world_step_cases h with ⟨a, s, -, hs, rfl⟩ | ⟨n, -, rfl⟩ |
    ⟨t', r, i, now, drawn, u, stage, a, s, -, -, hu, hr, ha, hs, rfl⟩ |
    ⟨t', u, u', stored, a, -, hu, hstep, rfl⟩
  · exact ⟨tab, htab, rfl, hrun⟩
  · exact ⟨tab, getElem?_concat_keep htab, rfl, hrun⟩
  · by_cases ht : t' = t
    · subst ht
      obtain rfl := Option.some.inj (hu.symm.trans htab)
      refine ⟨_, hself _, rfl, hset _ hr ?_⟩
      rintro rfl
      cases ha
    · exact ⟨tab, (List.getElem?_set_ne ht).trans htab, rfl, hrun⟩
  · by_cases ht : t' = t
    · subst ht
      obtain rfl := Option.some.inj (hu.symm.trans htab)
      obtain ⟨hstore, hruns, -⟩ := tab_step_cases hstep
      refine ⟨u', hself _, hstore, ?_⟩
      cases hruns with
      | same hruns => exact hruns ▸ hrun
      | start stage hnew hruns =>
        rw [hruns]
        exact List.mem_append_left _ hrun
      | move r e stage o hr hreact hruns =>
        rw [hruns]
        refine hset _ hr ?_
        rintro rfl
        cases hreact
    · exact ⟨tab, (List.getElem?_set_ne ht).trans htab, rfl, hrun⟩

/-- What a tab shows after a step it showed before, or it has just connected it. -/
theorem session_of_step (h : w.step H act = some w') {t : Nat} {tab' : Tab} {x : WalletSession}
    (htab' : w'.tabs[t]? = some tab') (hx : tab'.session = some x) :
    (∃ tab, w.tabs[t]? = some tab ∧ tab.session = some x) ∨ ∃ k, .connected x k ∈ tab'.runs := by
  rcases world_step_cases h with ⟨a, s, -, hs, rfl⟩ | ⟨n, -, rfl⟩ |
    ⟨t', r, i, now, drawn, u, stage, a, s, -, -, hu, hr, ha, hs, rfl⟩ |
    ⟨t', u, u', stored, a, -, hu, hstep, rfl⟩
  · exact .inl ⟨tab', htab', hx⟩
  · rcases getElem?_of_concat htab' with htab | ⟨-, rfl⟩
    · exact .inl ⟨tab', htab, hx⟩
    · cases hx
  · rcases getElem?_of_set (List.getElem?_eq_some_iff.mp hu).1 htab' with ⟨rfl, rfl⟩ | ⟨-, htab⟩
    · exact .inl ⟨u, hu, hx⟩
    · exact .inl ⟨tab', htab, hx⟩
  · rcases getElem?_of_set (List.getElem?_eq_some_iff.mp hu).1 htab' with ⟨rfl, rfl⟩ | ⟨-, htab⟩
    · obtain ⟨-, -, hshows⟩ := tab_step_cases hstep
      cases hshows with
      | same hsession hstored => exact .inl ⟨u, hu, hsession.symm.trans hx⟩
      | clear hsession hstored =>
        rw [hsession] at hx
        cases hx
      | connect y k hrun hsession hstored =>
        obtain rfl := Option.some.inj (hsession.symm.trans hx)
        exact .inr ⟨k, hrun⟩
    · exact .inl ⟨tab', htab, hx⟩

/-- What a browser stores after a step it stored before, or a tab of it has just connected it. -/
theorem storage_of_step (h : w.step H act = some w') {n : Nat} {address : Address}
    (hstored : w'.storage n = some address) : w.storage n = some address ∨
      ∃ tab' ∈ w'.tabs, tab'.store = n ∧ ∃ kind k, .connected ⟨kind, address⟩ k ∈ tab'.runs := by
  rcases world_step_cases h with ⟨a, s, -, hs, rfl⟩ | ⟨n', -, rfl⟩ |
    ⟨t', r, i, now, drawn, u, stage, a, s, -, -, hu, hr, ha, hs, rfl⟩ |
    ⟨t', u, u', stored, a, -, hu, hstep, rfl⟩
  · exact .inl hstored
  · exact .inl hstored
  · exact .inl hstored
  · have hupdate : Function.update w.storage u.store stored n = some address := hstored
    by_cases hn : n = u.store
    · subst hn
      rw [Function.update_self] at hupdate
      obtain ⟨hstore, -, hshows⟩ := tab_step_cases hstep
      cases hshows with
      | same hsession hsame => exact .inl (hsame.symm.trans hupdate)
      | clear hsession hnone =>
        rw [hnone] at hupdate
        cases hupdate
      | connect y k hrun hsession hsome =>
        obtain rfl := Option.some.inj (hsome.symm.trans hupdate)
        exact .inr ⟨u', List.mem_set (List.getElem?_eq_some_iff.mp hu).1 _, hstore, y.kind, k, hrun⟩
    · rw [Function.update_of_ne hn] at hupdate
      exact .inl hupdate

theorem sound_step (h : Sound H w) (horderly : Orderly H w act) (hstep : w.step H act = some w') :
    Sound H w' := by
  -- the API's calls stay, and move on in order
  have hkeep : ∀ {stage : Stage} {origin : String}, stage.Holds H.api w.service origin →
      stage.Holds H.api w'.service origin := by
    intro stage origin hholds
    rcases service_of_step hstep with ⟨a, -, hchange⟩ | hsame
    · exact hholds.keep hchange.moved
    · exact hsame ▸ hholds
  have hbacked : Backed H.api w'.service := by
    rcases service_of_step hstep with ⟨a, ha, hchange⟩ | hsame
    · exact h.backed.change (horderly a ha) hchange
    · exact hsame ▸ h.backed
  refine ⟨hbacked, ?_, ?_, ?_⟩
  · intro t tab' r stage' htab' hrun'
    cases came_of_step hstep htab' hrun' with
    | old tab htab hstore hrun => exact hkeep (hstore ▸ h.runs t tab r stage' htab hrun)
    | started hnew => exact holds_of_new hnew
    | moved tab stage e o htab hstore hrun hreact hstage hservice =>
      have hholds := h.runs t tab r stage htab hrun
      rw [hstore] at hholds
      exact hstage ▸ hkeep (holds_of_react h.backed hholds hreact)
    | sent tab stage i now drawn a hact htab hstore hrun hrequest htake hstage =>
      have hholds := h.runs t tab r stage htab hrun
      rw [hstore] at hholds
      exact hstage ▸ holds_of_request (hkeep hholds) hrequest htake
  · intro tab' htab' x hx
    obtain ⟨t, ht⟩ := List.mem_iff_getElem?.mp htab'
    rcases session_of_step hstep ht hx with ⟨tab, htab, hx⟩ | hrun
    · obtain ⟨k, hrun⟩ := h.sessions tab (List.mem_of_getElem? htab) x hx
      obtain ⟨tab'', ht', -, hrun'⟩ := connected_stays hstep htab hrun
      obtain rfl := Option.some.inj (ht.symm.trans ht')
      exact ⟨k, hrun'⟩
    · exact hrun
  · intro n address hstored
    rcases storage_of_step hstep hstored with hstored | hnew
    · obtain ⟨tab, htab, rfl, kind, k, hrun⟩ := h.storage n address hstored
      obtain ⟨t, ht⟩ := List.mem_iff_getElem?.mp htab
      obtain ⟨tab', ht', hstore, hrun'⟩ := connected_stays hstep ht hrun
      exact ⟨tab', List.mem_of_getElem? ht', hstore, kind, k, hrun'⟩
    · exact hnew

/-! ### The calls of different runs -/

/-- A run has to do with a call of its own. -/
theorem call?_lt (h : Sound H w) {t r k : Nat} {tab : Tab} {stage : Stage}
    (htab : w.tabs[t]? = some tab) (hrun : tab.runs[r]? = some stage)
    (hk : stage.call? = some k) : k < w.service.calls.length := by
  have hholds := h.runs t tab r stage htab hrun
  have hlt : ∀ call, w.service.call? k = some call → k < w.service.calls.length := fun call hcall =>
    (List.getElem?_eq_some_iff.mp hcall).1
  cases stage with
  | issuing address k' =>
    obtain rfl := Option.some.inj hk
    obtain ⟨i, now, id, call, hcall, -⟩ := hholds
    exact hlt call hcall
  | verifying input k' =>
    obtain rfl := Option.some.inj hk
    obtain ⟨-, i, call, hcall, -⟩ := hholds
    exact hlt call hcall
  | connected x k' =>
    obtain ⟨kind, address⟩ := x
    obtain rfl : k' = some k := hk
    cases kind with
    | freighter =>
      obtain ⟨k', hk', i, input, c, t, token, expiresAt, j, i', now, hcall, -⟩ := hholds
      obtain rfl := Option.some.inj hk'
      exact hlt _ hcall
    | rabet => cases hholds
  | _ => cases hk

theorem call?_of_new {stage : Stage} (h : stage.isNew = true) : stage.call? = none := by
  cases stage <;> trivial

/-- What a run learns brings it no new call. -/
theorem call?_of_react {s : Service} {origin : String} {stage : Stage} {e : Event} {o : Outcome}
    {k : Nat} (h : stage.react H origin s e = some o) (hk : o.stage.call? = some k) :
    stage.call? = some k := by
  have hexcept : ∀ {α : Type} {next : α → Outcome} {x : Except String α},
      (∀ a, (next a).stage.call? = none) → (Outcome.ofExcept next x).stage.call? ≠ some k := by
    intro α next x hnext hsome
    cases x with
    | ok a =>
      have hnone := hnext a
      rw [Outcome.ofExcept] at hsome
      rw [hsome] at hnone
      cases hnone
    | error e => cases hsome
  unfold Stage.react at h
  split at h
  · cases h
    split at hk <;> cases hk
  · cases h
    split at hk <;> cases hk
  · cases h
    split at hk <;> cases hk
  · cases h
    exact absurd hk (hexcept fun _ => rfl)
  · cases h
    exact absurd hk (hexcept fun _ => rfl)
  · obtain ⟨call, -, h⟩ := Option.bind_eq_some_iff.mp h
    split at h
    · cases h
      cases hk
    · cases h
      cases hk
    · cases h
  · cases h
    exact absurd hk (hexcept fun _ => rfl)
  · obtain ⟨call, -, h⟩ := Option.bind_eq_some_iff.mp h
    split at h
    · cases h
      exact hk
    · cases h
      cases hk
    · cases h
  all_goals first
    | cases h
      cases hk
    | cases h

/-- The call of a run after a step was its own before, or has just arrived. -/
theorem call?_of_step (h : w.step H act = some w') {t r k : Nat} {tab' : Tab} {stage' : Stage}
    (htab' : w'.tabs[t]? = some tab') (hrun' : tab'.runs[r]? = some stage')
    (hk : stage'.call? = some k) :
    (∃ tab stage, w.tabs[t]? = some tab ∧ tab.runs[r]? = some stage ∧ stage.call? = some k) ∨
      k = w.service.calls.length ∧ ∃ i now drawn, act = .post t r i now drawn := by
  cases came_of_step h htab' hrun' with
  | old tab htab hstore hrun => exact .inl ⟨tab, stage', htab, hrun, hk⟩
  | started hnew =>
    rw [call?_of_new hnew] at hk
    cases hk
  | moved tab stage e o htab hstore hrun hreact hstage hservice =>
    exact .inl ⟨tab, stage, htab, hrun, call?_of_react hreact (hstage ▸ hk)⟩
  | sent tab stage i now drawn a hact htab hstore hrun hrequest htake hstage =>
    refine .inr ⟨?_, i, now, drawn, hact⟩
    subst hstage
    cases stage <;> cases hrequest <;> exact (Option.some.inj hk).symm

theorem apart_of_fresh (h : (machine H).init w) : Apart w := by
  obtain ⟨-, -, htabs⟩ := h
  intro t t' tab tab' r r' stage stage' k htab
  rw [htabs] at htab
  cases htab

theorem apart_step (h : Apart w) (hsound : Sound H w) (hstep : w.step H act = some w') :
    Apart w' := by
  intro t₁ t₂ tab₁ tab₂ r₁ r₂ stage₁ stage₂ k htab₁ hrun₁ hk₁ htab₂ hrun₂ hk₂
  rcases call?_of_step hstep htab₁ hrun₁ hk₁ with
      ⟨u₁, x₁, hu₁, hx₁, hkx₁⟩ | ⟨hnew₁, i, now, d, hact₁⟩ <;>
    rcases call?_of_step hstep htab₂ hrun₂ hk₂ with
      ⟨u₂, x₂, hu₂, hx₂, hkx₂⟩ | ⟨hnew₂, i', now', d', hact₂⟩
  · exact h t₁ t₂ u₁ u₂ r₁ r₂ x₁ x₂ k hu₁ hx₁ hkx₁ hu₂ hx₂ hkx₂
  · have hlt := call?_lt hsound hu₁ hx₁ hkx₁
    omega
  · have hlt := call?_lt hsound hu₂ hx₂ hkx₂
    omega
  · rw [hact₁] at hact₂
    cases hact₂
    exact ⟨rfl, rfl⟩

theorem invariants_of_exec {w₀ : World} {acts : List WorldAction} (h₀ : (machine H).init w₀)
    (hrun : (machine H).exec w₀ acts = some w) (horderly : (machine H).Along (Orderly H) w₀ acts) :
    Sound H w ∧ Apart w :=
  (machine H).exec_invariant_along (I := fun w => Sound H w ∧ Apart w)
    (fun _ _ _ h hP hstep => ⟨sound_step h.1 hP hstep, apart_step h.2 h.1 hstep⟩) hrun horderly
    ⟨sound_of_fresh h₀, apart_of_fresh h₀⟩

theorem single_of_exec (hdb : H.api.prisma = true) {w₀ : World} {acts : List WorldAction}
    (h₀ : (machine H).init w₀) (hrun : (machine H).exec w₀ acts = some w) :
    Single H.api w.service := by
  refine (machine H).exec_invariant (I := fun w => Single H.api w.service) ?_ hrun
    (Api.WalletAuth.single_of_fresh h₀.1)
  intro w act w' h hstep
  rcases service_of_step hstep with ⟨a, -, hchange⟩ | hsame
  · exact h.change hdb hchange
  · exact hsame ▸ h

end Runs

/-! ## Connected wallets -/

/-- **A wallet that is shown as verified has proved its key.** In every run of any number of tabs
    and browsers, with any number of connects at a time, beside everybody else who calls the API:
    what a tab shows, and the address that a browser stores, come from a connect that has ended
    well. For Freighter that connect has its own login at the API: the address's signature of the
    message of a challenge issued for the address and for the origin of the page, an allowed one,
    before it expired; on a database that login has left its session row, and no two connects
    share a challenge. What a dialog has a wallet sign is the text of such a challenge. -/
theorem wallets_proved (H : Hosting) (w₀ w : World) (acts : List WorldAction)
    (h₀ : (machine H).init w₀) (hrun : (machine H).exec w₀ acts = some w)
    (horderly : (machine H).Along (Orderly H) w₀ acts) :
    (∀ tab ∈ w.tabs, ∀ x, tab.session = some x → ∃ k, .connected x k ∈ tab.runs) ∧
    (∀ n address, w.storage n = some address → ∃ tab ∈ w.tabs, tab.store = n ∧
      ∃ kind k, .connected ⟨kind, address⟩ k ∈ tab.runs) ∧
    (∀ tab ∈ w.tabs, ∀ address challenge, .signing address challenge ∈ tab.runs →
      ∃ j i now c, w.service.Issued j i now c ∧ challenge = ⟨c.id, c.message⟩ ∧
        c.message = Api.WalletAuth.message c.id address (H.origin tab.store) c.expiresAt
          (H.api.network i)) ∧
    (∀ tab ∈ w.tabs, ∀ address k, .connected ⟨.freighter, address⟩ k ∈ tab.runs →
      ∃ k', k = some k' ∧ Proves H.api w.service (H.origin tab.store) address k' ∧
        (H.api.prisma = true → ∃ call u, w.service.call? k' = some call ∧
          call.session? H.api.runtime = some u ∧ u ∈ w.service.sessions ∧ u.address = address)) ∧
    (H.api.prisma = true → ∀ (t t' : Nat) (tab tab' : Tab) (r r' : Nat) (x x' : WalletSession)
      (k k' : Nat) (call call' : Call) (id : String),
      w.tabs[t]? = some tab → tab.runs[r]? = some (.connected x (some k)) →
      w.service.call? k = some call → call.SignsIn id →
      w.tabs[t']? = some tab' → tab'.runs[r']? = some (.connected x' (some k')) →
      w.service.call? k' = some call' → call'.SignsIn id → t = t' ∧ r = r') := by
  obtain ⟨hsound, hapart⟩ := invariants_of_exec h₀ hrun horderly
  have hholds : ∀ tab ∈ w.tabs, ∀ stage ∈ tab.runs,
      stage.Holds H.api w.service (H.origin tab.store) := by
    intro tab htab stage hstage
    obtain ⟨t, ht⟩ := List.mem_iff_getElem?.mp htab
    obtain ⟨r, hr⟩ := List.mem_iff_getElem?.mp hstage
    exact hsound.runs t tab r stage ht hr
  refine ⟨hsound.sessions, hsound.storage, ?_, ?_, ?_⟩
  · intro tab htab address challenge hrun'
    obtain ⟨j, i, now, c, hissued, haddress, horigin, hsame⟩ := hholds tab htab _ hrun'
    refine ⟨j, i, now, c, hissued, hsame, ?_⟩
    have hc := (hsound.backed.made_of_issued hissued).eq.2.2
    rw [← haddress, ← horigin, hc]
    rfl
  · intro tab htab address k hrun'
    obtain ⟨k', hk, hproves⟩ := hholds tab htab _ hrun'
    refine ⟨k', hk, hproves, fun hdb => ?_⟩
    obtain ⟨i, input, c, t, token, expiresAt, j, i', now, hcall, -, hpresents, haddress, -⟩ := hproves
    have hsession := (single_of_exec hdb h₀ hrun).sessions.mem_iff.mpr
      (List.mem_filterMap.mpr ⟨_, List.mem_of_getElem? hcall, rfl⟩)
    exact ⟨_, _, hcall, rfl, hsession, hpresents.address.trans haddress⟩
  · intro hdb t t' tab tab' r r' x x' k k' call call' id htab hr hcall hsigns htab' hr' hcall' hsigns'
    have honce := (single_of_exec hdb h₀ hrun).once id
    obtain rfl := honce k k' call call' hcall hcall' hsigns hsigns'
    exact hapart t t' tab tab' r r' _ _ k htab hr rfl htab' hr' rfl

/-! ## A connect -/

section Sample

open Api.WalletAuth (sampleAddress sampleInput sampleSettings vacant)

def sampleHosting : Hosting where
  api := sampleSettings
  platform := Api.StellarConfig.samplePlatform
  stellarNetwork := some "TESTNET"
  origin _ := "https://app.example"
  stringToNumber _ := .nan

/-- No page is open. -/
def blank : World := ⟨vacant, fun _ => none, []⟩

/-- Freighter is connected in the first tab: instance 0 issues the challenge, instance 1 looks it
    up and signs the wallet in. -/
def connectSample : List WorldAction :=
  [.opens 0, .tab 0 (.connect .freighter), .tab 0 (.run 0 (.installed true)),
    .tab 0 (.run 0 (.network ⟨some "TESTNET", some "Test SDF Network ; September 2015"⟩)),
    .tab 0 (.run 0 (.access none (some sampleAddress))),
    .post 0 0 0 1893491700000 sampleInput.challengeId,
    .others (.advance 0 1893491700100 ""), .others (.advance 0 1893491700200 ""),
    .tab 0 (.run 0 .answer), .tab 0 (.run 0 (.signed none (.string sampleInput.signature))),
    .post 0 0 1 1893491760000 "",
    .others (.advance 1 1893491760100
      "115e213fb09fdddb0354d3025d4a218ffb33499d839a303312a917362e33f158"),
    .others (.advance 1 1893491760200 ""), .tab 0 (.run 0 .answer)]

theorem wallets_proved_connected : ∃ w, (machine sampleHosting).exec blank connectSample = some w ∧
    w.storage 0 = some sampleAddress ∧ ∃ tab ∈ w.tabs,
      tab.status = "Freighter verified on Testnet." ∧
      tab.session = some ⟨.freighter, sampleAddress⟩ ∧
      ∃ k, Proves sampleSettings w.service "https://app.example" sampleAddress k := by
  have hend : ((machine sampleHosting).exec blank connectSample).map
      (fun w => (w.storage 0, w.tabs)) = some (some sampleAddress,
        [⟨0, some ⟨.freighter, sampleAddress⟩, "Freighter verified on Testnet.",
          [.connected ⟨.freighter, sampleAddress⟩ (some 1)]⟩]) := by decide +kernel
  obtain ⟨w, hrun, hw⟩ := Option.map_eq_some_iff.mp hend
  obtain ⟨hstored, htabs⟩ := Prod.ext_iff.mp hw
  dsimp only at hstored htabs
  refine ⟨w, hrun, hstored, _, by rw [htabs]; exact List.mem_singleton_self _, rfl, rfl, ?_⟩
  obtain ⟨-, -, -, hproved, -⟩ := wallets_proved sampleHosting blank w connectSample
    ⟨Api.WalletAuth.fresh_vacant, fun _ => rfl, rfl⟩ hrun (by decide +kernel)
  obtain ⟨k', -, hproves, -⟩ := hproved _ (by rw [htabs]; exact List.mem_singleton_self _)
    sampleAddress _ (List.mem_singleton_self _)
  exact ⟨k', hproves⟩

end Sample

end PovDeposit.Web.WalletDialog
