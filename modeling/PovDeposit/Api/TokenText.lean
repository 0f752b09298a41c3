/-
  The text of a check-in token.

  `consume` looks at the first two dot-separated parts of the text it is given, and at the
  truth of the third. An issued token with a dot behind it, or with a dot and an empty third
  part and more, is read like the token itself. The service without a database remembers the
  texts it has accepted and not the challenges, so it accepts such a challenge again
  (`consumed_twice_in_memory`). Texts of two parts are exactly the issued tokens
  (`tokens_exact_of_two_parts`).
-/
import PovDeposit.Api.Redemption
import PovDeposit.Api.Requests

namespace PovDeposit.Api.Challenges

open PovDeposit.Lib PovDeposit.Lib.Outcome
open CheckIn (newPayload hashNonce readToken Encodes)

/-- A text that is presented has at most two parts. -/
def TwoParts : Action → Prop
  | .consume _ token _ _ => (splitDots token).length ≤ 2
  | _ => True

/-- `token` is what an `issue` returned. -/
def State.Returned (R : Runtime) (s : State) (token : String) : Prop :=
  ∃ j now b r p, s.Issued j now b r p ∧ token = CheckIn.token R p

/-- Of the texts that are accepted, those of two parts are the issued tokens. -/
theorem Backed.returned_iff {R : Runtime} {s : State} (h : Backed R s) {i : Nat} {t t' : Int}
    {token b r : String} {p : CheckInPayload} (hi : s.Consumed i t token b r p t') :
    s.Returned R token ↔ (splitDots token).length = 2 := by
  constructor
  · rintro ⟨j, now, b', r', p', hj, rfl⟩
    rw [CheckIn.splitDots_token (h.issued hj).1]
    rfl
  · intro hlen
    obtain ⟨_, _, b', r', rest, j, now, hq, -, hissued, -, hsplit, -⟩ := h.taken i _ p hi rfl
    cases hq
    rw [hsplit] at hlen
    obtain rfl : rest = [] := List.eq_nil_of_length_eq_zero (by simpa using hlen)
    exact ⟨j, now, b, r, p, hissued, CheckIn.eq_of_splitDots hsplit⟩

/-! ## The service without a database -/

/-- A call that consumed this text. -/
def Call.Accepts (token : String) (c : Call) : Prop :=
  ∃ t b r p t', c = ⟨.consume t token b r, .consumed p t'⟩

/-- Its calls are over at once, and it accepts no text twice. -/
structure Remembered (s : State) : Prop where
  finished : ∀ k c, s.call? k = some c → c.stage.inFlight = false
  used : ∀ i c token, s.call? i = some c → c.Accepts token → token ∈ s.used
  once : ∀ token, AtMostOne (Call.Accepts token) s.calls

theorem remembered_of_fresh {s : State} (h : Fresh s) : Remembered s := by
  have hnone : ∀ k c, s.call? k ≠ some c := by
    intro k c hc
    rw [State.call?, h.calls] at hc
    cases hc
  exact ⟨fun k c hc => absurd hc (hnone k c), fun i c token hc => absurd hc (hnone i c),
    fun token i j c c' hc => absurd hc (hnone i c)⟩

theorem Remembered.add {s : State} (h : Remembered s) {c : Call} (hover : c.stage.inFlight = false)
    (hno : ∀ token, ¬ c.Accepts token) : Remembered (s.add c) := by
  refine ⟨?_, ?_, fun token => (h.once token).concat (hno token)⟩
  · intro k x hx
    rcases call?_of_add hx with hx | ⟨-, rfl⟩
    · exact h.finished k x hx
    · exact hover
  · intro i x token hx haccepts
    rcases call?_of_add hx with hx | ⟨-, rfl⟩
    · exact h.used i x token hx haccepts
    · exact absurd haccepts (hno token)

/-- A text that was not spent is accepted, and spent. -/
theorem Remembered.consume {s : State} (h : Remembered s) {t t' : Int} {token b r : String}
    {p : CheckInPayload} (hused : token ∉ s.used) :
    Remembered ({ s with used := token :: s.used }.add ⟨.consume t token b r, .consumed p t'⟩) := by
  refine ⟨?_, ?_, fun x => ?_⟩
  · intro k c hc
    rcases call?_of_add hc with hc | ⟨-, rfl⟩
    · exact h.finished k c hc
    · rfl
  · intro i c x hc haccepts
    rcases call?_of_add hc with hc | ⟨-, rfl⟩
    · exact List.mem_cons_of_mem _ (h.used i c x hc haccepts)
    · obtain ⟨_, _, _, _, _, hcall⟩ := haccepts
      cases hcall
      exact List.mem_cons_self
  · intro i j c c' hc hc' haccepts haccepts'
    have hold : ∀ k y, s.call? k = some y → y.Accepts x → x ≠ token := by
      rintro k y hy hP rfl
      exact hused (h.used k y x hy hP)
    have hnew : (Call.mk (.consume t token b r) (.consumed p t')).Accepts x → x = token := by
      rintro ⟨_, _, _, _, _, hcall⟩
      cases hcall
      rfl
    rcases call?_of_add hc with hc | ⟨hi, rfl⟩ <;> rcases call?_of_add hc' with hc' | ⟨hj, rfl⟩
    · exact h.once x i j c c' hc hc' haccepts haccepts'
    · exact absurd (hnew haccepts') (hold i c hc haccepts)
    · exact absurd (hnew haccepts) (hold j c' hc' haccepts')
    · rw [hi, hj]

theorem remembered_step {R : Runtime} (s : State) (a : Action) (s' : State) (h : Remembered s)
    (hstep : step R false s a = some s') : Remembered s' := by
  have hidle : ∀ k c, s.call? k = some c → c.stage.inFlight ≠ true := by
    intro k c hc hflight
    rw [h.finished k c hc] at hflight
    cases hflight
  cases change_of_step hstep with
  | draw now nonce b r hmode => cases hmode
  | issueInMemory now nonce b r => exact h.add rfl (by simp [Call.Accepts])
  | refuse now token b r e => exact h.add rfl (by simp [Call.Accepts])
  | read now token b r p hmode => cases hmode
  | consumeInMemory now token b r p hmode hread hused => exact h.consume hused
  | throw _ k c e ha hc hflight => exact absurd hflight (hidle k c hc)
  | find k now q p hc => exact absurd rfl (hidle k _ hc)
  | store k now q p db hc => exact absurd rfl (hidle k _ hc)
  | check k now t token b r p hc => exact absurd rfl (hidle k _ hc)
  | spend k now t t' token b r p db hc => exact absurd rfl (hidle k _ hc)
  | others db => exact ⟨h.finished, h.used, h.once⟩

/-! ## Runs whose texts have two parts -/

/-- The texts of the calls, from the texts that were presented. -/
theorem short_of_exec {R : Runtime} {prisma : Bool} {s₀ s : State} {as : List Action} (h₀ : Fresh s₀)
    (hrun : (machine R prisma).exec s₀ as = some s) (hparts : ∀ a ∈ as, TwoParts a) :
    ∀ i c t token b r, s.call? i = some c → c.request = .consume t token b r →
      (splitDots token).length ≤ 2 := by
  refine (machine R prisma).exec_invariant_along (P := fun _ a => TwoParts a)
    (I := fun u => ∀ i c t token b r, u.call? i = some c → c.request = .consume t token b r →
      (splitDots token).length ≤ 2) ?_ hrun ((machine R prisma).along_of_forall s₀ hparts) ?_
  · intro u a u' hu ha hstep i c' t token b r hc' hq
    rcases (change_of_step hstep).origin hc' with ⟨c, hc, hsame, -, -⟩ |
      ⟨-, now, nonce, b', r', rfl, hreq, -, -⟩ | ⟨-, now, token', b', r', rfl, hreq, -, -⟩
    · exact hu i c t token b r hc (hsame.trans hq)
    · rw [hreq] at hq
      cases hq
    · rw [hreq] at hq
      cases hq
      exact ha
  · intro i c t token b r hc
    rw [State.call?, h₀.calls] at hc
    cases hc

/-- **When accepted texts are issued tokens.** In every run of the service, with a database or
    without one: an accepted text is a token that `issue` returned exactly if it has two
    dot-separated parts; and if every text that is presented has at most two parts, then
    every accepted text is an issued token, and no challenge is consumed twice. -/
theorem tokens_exact_of_two_parts (R : Runtime) (prisma : Bool) (s₀ s : State) (as : List Action)
    (h₀ : Fresh s₀) (hrun : (machine R prisma).exec s₀ as = some s)
    (htrusted : (machine R prisma).Along (Trusted R) s₀ as) :
    (∀ i t token b r p t', s.Consumed i t token b r p t' →
      (s.Returned R token ↔ (splitDots token).length = 2)) ∧
    ((∀ a ∈ as, TwoParts a) →
      (∀ i t token b r p t', s.Consumed i t token b r p t' → s.Returned R token) ∧
      (∀ i j t u token token' b b' r r' p t' u', s.Consumed i t token b r p t' →
        s.Consumed j u token' b' r' p u' → i = j)) := by
  have hbacked := backed_of_exec h₀ hrun htrusted
  refine ⟨fun i t token b r p t' hi => hbacked.returned_iff hi, fun hparts => ?_⟩
  have hshort := short_of_exec h₀ hrun hparts
  -- an accepted text of at most two parts is the token of its payload
  have htoken : ∀ i t token b r p t', s.Consumed i t token b r p t' →
      token = CheckIn.token R p ∧ s.Returned R token := by
    intro i t token b r p t' hi
    obtain ⟨_, _, _, _, rest, j, now, hq, -, hissued, -, hsplit, -⟩ := hbacked.taken i _ p hi rfl
    cases hq
    have hlen := hshort i _ t token b r hi rfl
    rw [hsplit] at hlen
    obtain rfl : rest = [] := List.eq_nil_of_length_eq_zero (by simpa using hlen)
    have htoken : token = CheckIn.token R p := CheckIn.eq_of_splitDots hsplit
    exact ⟨htoken, j, now, b, r, p, hissued, htoken⟩
  refine ⟨fun i t token b r p t' hi => (htoken i t token b r p t' hi).2, ?_⟩
  intro i j t u token token' b b' r r' p t' u' hi hj
  cases prisma with
  | true =>
    have hstored := stored_of_exec h₀ hrun
    exact hstored.spentOnce (hashNonce R p.nonce) i j _ _ hi hj ⟨p, t', rfl, rfl⟩ ⟨p, u', rfl, rfl⟩
  | false =>
    have hremembered : Remembered s :=
      (machine R false).exec_invariant remembered_step hrun (remembered_of_fresh h₀)
    have hsame : token' = token :=
      (htoken j u token' b' r' p u' hj).1.trans (htoken i t token b r p t' hi).1.symm
    subst hsame
    exact hremembered.once token' i j _ _ hi hj ⟨t, b, r, p, t', rfl⟩ ⟨u, b', r', p, u', rfl⟩

/-! ## A text with a dot behind it -/

section Dotted

variable {R : Runtime} {p : CheckInPayload}

theorem splitDots_dotted (h : Encodes R p) :
    splitDots (CheckIn.token R p ++ ".") = [R.encode p, R.sign (R.encode p), ""] := by
  refine CheckIn.splitDots_join (by simp) ?_ ?_
  · simp [h.encoded.2, h.signature.2]
  · rw [CheckIn.token]
    simp only [String.toList_append]
    simp

/-- `consume` reads it like the token. -/
theorem readToken_dotted {b r nonce : String} {now now' : Int}
    (h : Encodes R (newPayload b r nonce now)) (hnow : now' < now + 120000) :
    readToken R (CheckIn.token R (newPayload b r nonce now) ++ ".") b r now' =
      .ok (newPayload b r nonce now) := by
  rw [CheckIn.readToken_eq_ok]
  refine ⟨_, [""], splitDots_dotted h, h.encoded.1, h.signature.1, rfl, h.decoded, rfl, rfl, rfl, ?_⟩
  intro t ht
  cases ht
  exact hnow

theorem ne_dotted (token : String) : token ++ "." ≠ token := by
  intro h
  have hlength := congrArg String.length h
  simp at hlength

/-- The service without a database accepts a text that it does not remember. -/
theorem step_consume_in_memory {s : State} {now : Int} {token b r : String}
    (hread : readToken R token b r now = .ok p) (hused : token ∉ s.used) :
    step R false s (.consume now token b r) = some
      ({ s with used := token :: s.used }.add ⟨.consume now token b r, .consumed p now⟩) := by
  simp only [step, hread, hused, Bool.false_eq_true, if_false]

end Dotted

section Sample

open Workflow (sampleRuntime samplePayload)

theorem tokens_exact_of_two_parts_sample :
    ∃ s, (machine sampleRuntime false).exec vacant
        [issueSample, consumeSample (CheckIn.token sampleRuntime samplePayload)] = some s ∧
      s.Consumed 1 1893488460000 (CheckIn.token sampleRuntime samplePayload)
        "3b241101-e2bb-4255-8caf-4136c566a962" "renter" samplePayload 1893488460000 ∧
      s.Returned sampleRuntime (CheckIn.token sampleRuntime samplePayload) := by
  have hsplit := CheckIn.splitDots_token encodes_sample
  have hread := CheckIn.readToken_token encodes_sample (by decide : (1893488460000 : Int) < _)
  have hissue : step sampleRuntime false vacant issueSample = some (issuedSample vacant.db) := rfl
  have hconsume := step_consume_in_memory (s := issuedSample vacant.db) hread (List.not_mem_nil)
  have hrun := exec_cons hissue (exec_cons hconsume (Machine.exec_nil _ _))
  have htrusted : (machine sampleRuntime false).Along (Trusted sampleRuntime) vacant
      [issueSample, consumeSample (CheckIn.token sampleRuntime samplePayload)] := by
    refine ⟨encodes_sample, fun u hu => ?_⟩
    obtain rfl : issuedSample vacant.db = u := Option.some.inj hu
    exact ⟨trusted_consume (issued_issuedSample vacant.db) hsplit, fun _ _ => trivial⟩
  have hparts : ∀ a ∈ [issueSample, consumeSample (CheckIn.token sampleRuntime samplePayload)],
      TwoParts a := by
    simp only [List.forall_mem_cons, List.not_mem_nil, false_implies, implies_true, and_true]
    exact ⟨trivial, le_of_eq (congrArg List.length hsplit)⟩
  exact ⟨_, hrun, rfl, ((tokens_exact_of_two_parts sampleRuntime false vacant _ _ fresh_vacant hrun
    htrusted).2 hparts).1 1 _ _ _ _ samplePayload _ rfl⟩

/-- Without a database: a challenge, its token, and the token again with a dot behind it. -/
def dottedRun : List Action :=
  [issueSample, consumeSample (CheckIn.token sampleRuntime samplePayload),
    consumeSample (CheckIn.token sampleRuntime samplePayload ++ ".")]

theorem dottedRun_trusted :
    (machine sampleRuntime false).Along (Trusted sampleRuntime) vacant dottedRun := by
  refine ⟨encodes_sample, fun u hu => ?_⟩
  obtain rfl : issuedSample vacant.db = u := Option.some.inj hu
  have hissued := issued_issuedSample vacant.db
  refine ⟨trusted_consume hissued (CheckIn.splitDots_token encodes_sample), fun v hv => ?_⟩
  have hstill := issued_exec ((machine sampleRuntime false).exec_single hv) hissued
  have hsplit := splitDots_dotted carries_sample.encodes
  exact ⟨trusted_consume hstill hsplit, fun _ _ => trivial⟩

/-- The challenge is consumed twice, the second time with a text that is no issued token. -/
theorem consumed_twice_in_memory :
    ∃ s, (machine sampleRuntime false).exec vacant dottedRun = some s ∧
      s.Consumed 1 1893488460000 (CheckIn.token sampleRuntime samplePayload)
        "3b241101-e2bb-4255-8caf-4136c566a962" "renter" samplePayload 1893488460000 ∧
      s.Consumed 2 1893488460000 (CheckIn.token sampleRuntime samplePayload ++ ".")
        "3b241101-e2bb-4255-8caf-4136c566a962" "renter" samplePayload 1893488460000 ∧
      ¬ s.Returned sampleRuntime (CheckIn.token sampleRuntime samplePayload ++ ".") := by
  have hread := CheckIn.readToken_token encodes_sample (by decide : (1893488460000 : Int) < _)
  have hagain := readToken_dotted encodes_sample (by decide : (1893488460000 : Int) < _)
  have hfirst := step_consume_in_memory (s := issuedSample vacant.db) hread (List.not_mem_nil)
  have hnew : CheckIn.token sampleRuntime samplePayload ++ "." ∉
      [CheckIn.token sampleRuntime samplePayload] := by
    rw [List.mem_singleton]
    exact ne_dotted _
  have hsecond := step_consume_in_memory (s := { issuedSample vacant.db with
      used := [CheckIn.token sampleRuntime samplePayload] }.add
        ⟨.consume 1893488460000 (CheckIn.token sampleRuntime samplePayload)
          "3b241101-e2bb-4255-8caf-4136c566a962" "renter", .consumed samplePayload 1893488460000⟩)
    hagain hnew
  have hissue : step sampleRuntime false vacant issueSample = some (issuedSample vacant.db) := rfl
  have hrun := exec_cons hissue (exec_cons hfirst (exec_cons hsecond (Machine.exec_nil _ _)))
  refine ⟨_, hrun, rfl, rfl, fun hreturned => ?_⟩
  have hlength := ((backed_of_exec fresh_vacant hrun dottedRun_trusted).returned_iff
    (p := samplePayload) (i := 2) rfl).mp hreturned
  rw [splitDots_dotted encodes_sample] at hlength
  cases hlength

end Sample

end PovDeposit.Api.Challenges
