/-
  Regular expressions as a backtracking matcher reads them.

  `run` lists the ways to match from a place on, in the order in which the matcher tries them:
  a greedy repetition from long to short, a lazy one from short to long. The match is the head
  of the list. `matchAll` goes through a text from left to right, and on behind each match.

  Repetition is that of a class of characters. Letters are compared without case: in a pattern
  of ASCII characters only ASCII letters have another one of the same letter.

  The last section is about texts: `startsWith` is what a literal matches, and a text that is
  free of a word stays so next to another word that starts alike (`not_startsWith_append`).
-/
import Mathlib.Data.List.Basic

namespace PovDeposit.Lib.Regex

/-- `\w` -/
def isWord (c : Char) : Bool := c.isAlphanum || c = '_'

/-- Two characters that are the same but for case. -/
def sameLetter (c d : Char) : Bool := c.toLower = d.toLower

/-- A place in a text: the character before it, the text from it on, and what the groups
    have matched so far, the latest first. -/
structure Place where
  prev : Option Char
  rest : List Char
  groups : List (Nat × List Char)
  deriving DecidableEq, Repr

inductive Pattern where
  | empty
  | one (p : Char → Bool)
  | many (p : Char → Bool) (greedy : Bool)
  | boundary
  | seq (a b : Pattern)
  | notAhead (a : Pattern)
  | group (i : Nat) (a : Pattern)

/-- A word, in any case. -/
def lit : List Char → Pattern
  | [] => .empty
  | c :: cs => .seq (.one (sameLetter c)) (lit cs)

/-- The places behind zero, one, two and more characters of a class. -/
def ends (p : Char → Bool) (groups : List (Nat × List Char)) : Option Char → List Char → List Place
  | prev, [] => [⟨prev, [], groups⟩]
  | prev, c :: cs => ⟨prev, c :: cs, groups⟩ :: if p c then ends p groups (some c) cs else []

/-- `\b` -/
def atBoundary (s : Place) : Bool := s.prev.any isWord != s.rest.head?.any isWord

/-- Group `i` has matched what is between `s` and `t`. -/
def Place.record (i : Nat) (s t : Place) : Place :=
  { t with groups := (i, s.rest.take (s.rest.length - t.rest.length)) :: t.groups }

def Pattern.run : Pattern → Place → List Place
  | .empty, s => [s]
  | .one p, s =>
      match s.rest with
      | [] => []
      | c :: cs => if p c then [⟨some c, cs, s.groups⟩] else []
  | .many p greedy, s =>
      if greedy then (ends p s.groups s.prev s.rest).reverse else ends p s.groups s.prev s.rest
  | .boundary, s => if atBoundary s then [s] else []
  | .seq a b, s => (a.run s).flatMap b.run
  | .notAhead a, s => if (a.run s).isEmpty then [s] else []
  | .group i a, s => (a.run s).map (s.record i)

/-- The matches in a text, each by the place behind it; the next `n` characters are skipped. -/
def matchAll (r : Pattern) : Option Char → List Char → Nat → List Place
  | prev, [], 0 => (r.run ⟨prev, [], []⟩).head?.toList
  | _, [], _ + 1 => []
  | _, c :: cs, n + 1 => matchAll r (some c) cs n
  | prev, c :: cs, 0 =>
      match (r.run ⟨prev, c :: cs, []⟩).head? with
      | none => matchAll r (some c) cs 0
      -- one character on, even if the match is empty
      | some t => t :: matchAll r (some c) cs (cs.length - t.rest.length)

/-! ## Words -/

/-- Whether a text starts with a word, in any case. -/
def startsWith : List Char → List Char → Bool
  | [], _ => true
  | _ :: _, [] => false
  | w :: ws, c :: cs => sameLetter w c && startsWith ws cs

/-- Whether a word stands somewhere in a text. -/
def contains (w : List Char) : List Char → Bool
  | [] => startsWith w []
  | c :: cs => startsWith w (c :: cs) || contains w cs

/-- Whether a word does not have a character, in any case. -/
def lacks (w : List Char) (d : Char) : Bool := w.all fun c => !sameLetter c d

/-- The character before a place behind `l`. -/
def lastOf (prev : Option Char) : List Char → Option Char
  | [] => prev
  | c :: cs => lastOf (some c) cs

@[simp] theorem lastOf_append (prev : Option Char) (l m : List Char) :
    lastOf prev (l ++ m) = lastOf (lastOf prev l) m := by
  induction l generalizing prev with
  | nil => rfl
  | cons c cs ih => exact ih (some c)

theorem lastOf_mem {l : List Char} (h : l ≠ []) (prev : Option Char) :
    ∃ c ∈ l, lastOf prev l = some c := by
  induction l generalizing prev with
  | nil => exact absurd rfl h
  | cons c cs ih =>
    cases cs with
    | nil => exact ⟨c, List.mem_cons_self .., rfl⟩
    | cons d ds =>
      obtain ⟨e, he, hlast⟩ := ih (by simp) (some c)
      exact ⟨e, List.mem_cons_of_mem _ he, hlast⟩

theorem lacks_cons {w : List Char} {c d : Char} :
    lacks (c :: w) d = true ↔ sameLetter c d = false ∧ lacks w d = true := by
  rw [lacks, List.all_cons, Bool.and_eq_true, Bool.not_eq_true']
  rfl

theorem sameLetter_self (c : Char) : sameLetter c c = true := by simp [sameLetter]

/-- A character that is no letter is the same letter as itself only. -/
theorem sameLetter_eq_false {c d : Char} (hc : c.isAlpha = false) (hne : c ≠ d) :
    sameLetter c d = false := by
  have hsame : c.toLower = c := by
    have hupper : c.isUpper = false := (Bool.or_eq_false_iff.mp hc).1
    exact dif_neg (of_decide_eq_false hupper)
  rw [sameLetter, hsame, decide_eq_false_iff_not]
  intro heq
  unfold Char.toLower at heq
  split at heq
  · -- an upper-case letter becomes a lower-case one
    rename_i hupper
    rw [heq] at hc
    have hlower := Bool.and_eq_false_iff.mp (Bool.or_eq_false_iff.mp hc).2
    simp only [decide_eq_false_iff_not, ge_iff_le, UInt32.le_iff_toNat_le,
      UInt32.toNat_add] at hlower hupper
    simp at hlower hupper
    omega
  · exact hne heq

theorem startsWith_append_self (w l : List Char) : startsWith w (w ++ l) = true := by
  induction w with
  | nil => rfl
  | cons c cs ih => simp [startsWith, sameLetter_self, ih]

theorem startsWith_of_append {w v l : List Char} (h : startsWith (w ++ v) l = true) :
    startsWith w l = true := by
  induction w generalizing l with
  | nil => rfl
  | cons c cs ih =>
    cases l with
    | nil => cases h
    | cons d ds =>
      simp only [List.cons_append, startsWith, Bool.and_eq_true] at h ⊢
      exact ⟨h.1, ih h.2⟩

/-- A word that a text starts with is in its first characters. -/
theorem startsWith_take {w l m : List Char} (h : startsWith w (l ++ m) = true)
    (hlength : w.length ≤ l.length) : startsWith w l = true := by
  induction w generalizing l with
  | nil => rfl
  | cons c cs ih =>
    cases l with
    | nil => simp at hlength
    | cons d ds =>
      simp only [List.cons_append, startsWith, Bool.and_eq_true] at h ⊢
      exact ⟨h.1, ih h.2 (by simpa using hlength)⟩

/-- A word with a character that a text does not have. -/
theorem startsWith_eq_false {w l : List Char} {d : Char} (hd : d ∈ w)
    (hl : ∀ c ∈ l, sameLetter d c = false) : startsWith w l = false := by
  induction w generalizing l with
  | nil => cases hd
  | cons c cs ih =>
    cases l with
    | nil => rfl
    | cons e es =>
      rw [startsWith, Bool.and_eq_false_iff]
      rcases List.mem_cons.mp hd with rfl | hd
      · exact .inl (hl e (List.mem_cons_self ..))
      · exact .inr (ih hd fun x hx => hl x (List.mem_cons_of_mem _ hx))

theorem contains_of_startsWith {w l : List Char} (h : startsWith w l = true) : contains w l = true := by
  cases l with
  | nil => exact h
  | cons c cs => rw [contains, h, Bool.true_or]

/-- What is free of a word is so to its end from any place on. -/
theorem contains_suffix {w m : List Char} (l : List Char) (h : contains w (l ++ m) = false) :
    contains w m = false := by
  induction l with
  | nil => exact h
  | cons c cs ih =>
    rw [List.cons_append, contains, Bool.or_eq_false_iff] at h
    exact ih h.2

/-- A word goes no further than to a character that it lacks. -/
theorem startsWith_append {w l after : List Char} {d : Char} (hw : lacks w d = true) :
    startsWith w (l ++ d :: after) = startsWith w l := by
  induction w generalizing l with
  | nil => rfl
  | cons c cs ih =>
    obtain ⟨hc, hcs⟩ := lacks_cons.mp hw
    cases l with
    | nil => simp [startsWith, hc]
    | cons e es =>
      simp only [List.cons_append, startsWith]
      rw [ih hcs]

/-- A word whose first letter comes in it only once does not start in a text that is free of it
    and goes on with that letter, or ends. -/
theorem not_startsWith_append {c : Char} {w l m : List Char} (hfirst : lacks w c = true)
    (hl : l ≠ []) (hfree : contains (c :: w) l = false) (hm : m = [] ∨ m.head? = some c) :
    startsWith (c :: w) (l ++ m) = false := by
  by_contra hstart
  rw [Bool.not_eq_false] at hstart
  by_cases hlength : (c :: w).length ≤ l.length
  · have hin := contains_of_startsWith (startsWith_take hstart hlength)
    rw [hfree] at hin
    cases hin
  · -- the first character of `m` is compared with a letter of `w`
    obtain ⟨d, ds, rfl⟩ : ∃ d ds, l = d :: ds := List.exists_cons_of_ne_nil hl
    have hshort : ds.length < w.length := by simpa using hlength
    simp only [List.cons_append, startsWith, Bool.and_eq_true] at hstart
    obtain ⟨-, hrest⟩ := hstart
    clear hfree hl hlength
    induction ds generalizing w with
    | nil =>
      cases w with
      | nil => simp at hshort
      | cons e es =>
        rcases hm with rfl | hm
        · cases hrest
        · cases m with
          | nil => cases hm
          | cons x xs =>
            cases hm
            simp only [List.nil_append, startsWith, Bool.and_eq_true] at hrest
            rw [(lacks_cons.mp hfirst).1] at hrest
            cases hrest.1
    | cons x xs ih =>
      cases w with
      | nil => simp at hshort
      | cons e es =>
        simp only [List.cons_append, startsWith, Bool.and_eq_true] at hrest
        exact ih (lacks_cons.mp hfirst).2 (by simpa using hshort) hrest.2

/-! ## Runs -/

/-- Whether a word stands at a word boundary of a text, behind characters of a class only. -/
def standsAt (p : Char → Bool) (w : List Char) : Option Char → List Char → Bool
  | prev, [] => atBoundary ⟨prev, [], []⟩ && startsWith w []
  | prev, c :: cs => (atBoundary ⟨prev, c :: cs, []⟩ && startsWith w (c :: cs)) ||
      (p c && standsAt p w (some c) cs)

/-- Only whether the character before is one of a word counts. -/
theorem standsAt_prev {p : Char → Bool} {w : List Char} {prev prev' : Option Char}
    (h : prev.any isWord = prev'.any isWord) (l : List Char) :
    standsAt p w prev l = standsAt p w prev' l := by
  have hboundary : ∀ rest, atBoundary ⟨prev, rest, []⟩ = atBoundary ⟨prev', rest, []⟩ := by
    intro rest
    simp [atBoundary, h]
  cases l with
  | nil => simp only [standsAt, hboundary]
  | cons c cs => simp only [standsAt, hboundary]

theorem standsAt_eq_false {p : Char → Bool} {w l : List Char} {d : Char} (hd : d ∈ w)
    (hl : ∀ c ∈ l, sameLetter d c = false) (prev : Option Char) :
    standsAt p w prev l = false := by
  induction l generalizing prev with
  | nil => rw [standsAt, startsWith_eq_false hd hl, Bool.and_false]
  | cons c cs ih =>
    rw [standsAt, startsWith_eq_false hd hl, ih fun x hx => hl x (List.mem_cons_of_mem _ hx)]
    simp

/-- Past a character that the word lacks. -/
theorem standsAt_cons {p : Char → Bool} {w₀ : Char} {w : List Char} {d : Char}
    (hw : lacks (w₀ :: w) d = true) (prev : Option Char) (after : List Char) :
    standsAt p (w₀ :: w) prev (d :: after) = (p d && standsAt p (w₀ :: w) (some d) after) := by
  simp [standsAt, startsWith, (lacks_cons.mp hw).1]

/-- Up to a character that the word lacks, and on from it. -/
theorem standsAt_append {p : Char → Bool} {w₀ : Char} {w : List Char} {d : Char}
    (hw : lacks (w₀ :: w) d = true) (prev : Option Char) (l after : List Char) :
    standsAt p (w₀ :: w) prev (l ++ d :: after) = (standsAt p (w₀ :: w) prev l ||
      (l.all p && standsAt p (w₀ :: w) (lastOf prev l) (d :: after))) := by
  induction l generalizing prev with
  | nil => simp [standsAt, startsWith, lastOf]
  | cons c cs ih =>
    have hhere : startsWith (w₀ :: w) (c :: (cs ++ d :: after)) = startsWith (w₀ :: w) (c :: cs) := by
      rw [← List.cons_append, startsWith_append hw]
    have hboundary : atBoundary ⟨prev, c :: (cs ++ d :: after), []⟩ = atBoundary ⟨prev, c :: cs, []⟩ :=
      rfl
    rw [List.cons_append, standsAt, standsAt, ih, hhere, hboundary, List.all_cons, lastOf]
    cases p c with
    | true => simp [Bool.or_assoc]
    | false => simp

theorem run_lit (w : List Char) (s : Place) : (lit w).run s =
    if startsWith w s.rest then
      [⟨lastOf s.prev (s.rest.take w.length), s.rest.drop w.length, s.groups⟩]
    else [] := by
  induction w generalizing s with
  | nil => simp [lit, Pattern.run, startsWith, lastOf]
  | cons c cs ih =>
    obtain ⟨prev, rest, groups⟩ := s
    cases rest with
    | nil => simp [lit, Pattern.run, startsWith]
    | cons d ds =>
      simp only [lit, Pattern.run, startsWith]
      by_cases hd : sameLetter c d = true
      · simp [hd, ih, lastOf]
      · simp [hd]

section Repetition

variable {p q : Char → Bool} {groups : List (Nat × List Char)} {prev : Option Char}

/-- The last of the places is in front of the first character outside of the class. -/
theorem ends_until {l : List Char} {c : Char} (hl : ∀ d ∈ l, p d = true) (hc : p c = false)
    (groups : List (Nat × List Char)) (prev : Option Char) (after : List Char) :
    ∃ inits, ends p groups prev (l ++ c :: after) = inits ++ [⟨lastOf prev l, c :: after, groups⟩] ∧
      ∀ x ∈ inits, ∃ d ds, x.rest = d :: ds ∧ p d = true := by
  induction l generalizing prev with
  | nil => exact ⟨[], by simp [ends, hc, lastOf], by simp⟩
  | cons d ds ih =>
    have hd := hl d (List.mem_cons_self ..)
    obtain ⟨inits, hends, hinits⟩ := ih (fun e he => hl e (List.mem_cons_of_mem _ he)) (some d)
    refine ⟨⟨prev, d :: (ds ++ c :: after), groups⟩ :: inits, ?_, fun x hx => ?_⟩
    · simp [ends, hd, hends, lastOf]
    · rcases List.mem_cons.mp hx with rfl | hx
      · exact ⟨d, _, rfl, hd⟩
      · exact hinits x hx

/-- Characters of a class and then one of another class: there is one way at most. -/
theorem run_until {s : Place} {l after : List Char} {c : Char} (hrest : s.rest = l ++ c :: after)
    (hl : ∀ d ∈ l, p d = true) (hc : p c = false) (hpq : ∀ d, p d = true → q d = false)
    (hq : q c = true) (greedy : Bool) (k : Pattern) :
    (Pattern.seq (.many p greedy) (.seq (.one q) k)).run s = k.run ⟨some c, after, s.groups⟩ := by
  obtain ⟨inits, hends, hinits⟩ := ends_until hl hc s.groups s.prev after
  have hearly : ∀ x ∈ inits, (Pattern.seq (.one q) k).run x = [] := by
    intro x hx
    obtain ⟨d, ds, hd, hpd⟩ := hinits x hx
    simp [Pattern.run, hd, hpq d hpd]
  have hlast : (Pattern.seq (.one q) k).run ⟨lastOf s.prev l, c :: after, s.groups⟩ =
      k.run ⟨some c, after, s.groups⟩ := by
    simp [Pattern.run, hq]
  have hnone : inits.flatMap (Pattern.seq (.one q) k).run = [] := List.flatMap_eq_nil_iff.mpr hearly
  have hnone' : inits.reverse.flatMap (Pattern.seq (.one q) k).run = [] :=
    List.flatMap_eq_nil_iff.mpr fun x hx => hearly x (List.mem_reverse.mp hx)
  show ((Pattern.many p greedy).run s).flatMap (Pattern.seq (.one q) k).run = _
  generalize (Pattern.seq (.one q) k).run = f at *
  cases greedy with
  | true =>
    simp only [Pattern.run, if_true, hrest, hends, List.reverse_append, List.reverse_singleton,
      List.singleton_append, List.flatMap_cons, hnone', List.append_nil]
    exact hlast
  | false =>
    simp only [Pattern.run, Bool.false_eq_true, if_false, hrest, hends, List.flatMap_append, hnone,
      List.nil_append, List.flatMap_singleton]
    exact hlast

/-- Looking ahead for a word behind characters of a class. -/
theorem run_ahead_eq_nil (w : List Char) (greedy : Bool) (s : Place) :
    (Pattern.seq (.many p greedy) (.seq .boundary (lit w))).run s = [] ↔
      standsAt p w s.prev s.rest = false := by
  have hplace : ∀ x : Place, (Pattern.seq .boundary (lit w)).run x = [] ↔
      (atBoundary ⟨x.prev, x.rest, []⟩ && startsWith w x.rest) = false := by
    intro x
    have hsame : atBoundary x = atBoundary ⟨x.prev, x.rest, []⟩ := rfl
    simp only [Pattern.run, hsame]
    split
    · rename_i hb
      simp [run_lit, hb]
    · rename_i hb
      simp [hb]
  have hall : (∀ x ∈ ends p s.groups s.prev s.rest, (Pattern.seq .boundary (lit w)).run x = []) ↔
      standsAt p w s.prev s.rest = false := by
    obtain ⟨prev, rest, groups⟩ := s
    induction rest generalizing prev with
    | nil =>
      simp only [ends, List.mem_singleton, forall_eq, standsAt]
      exact hplace _
    | cons c cs ih =>
      simp only [ends, List.mem_cons, forall_eq_or_imp, standsAt, Bool.or_eq_false_iff]
      refine and_congr (hplace _) ?_
      cases hc : p c with
      | true => simpa using ih (some c)
      | false => simp
  show ((Pattern.many p greedy).run s).flatMap (Pattern.seq .boundary (lit w)).run = [] ↔ _
  rw [List.flatMap_eq_nil_iff, ← hall]
  cases greedy with
  | true => simp [Pattern.run]
  | false => simp [Pattern.run]

/-- Where no way leads on from inside of `l`, the ways start behind it. -/
theorem findSome?_ends {α : Type*} {f : Place → Option α} {l rest : List Char}
    (h : ∀ l₁ l₂, l = l₁ ++ l₂ → l₂ ≠ [] → f ⟨lastOf prev l₁, l₂ ++ rest, groups⟩ = none) :
    (ends (fun _ => true) groups prev (l ++ rest)).findSome? f =
      (ends (fun _ => true) groups (lastOf prev l) rest).findSome? f := by
  induction l generalizing prev with
  | nil => rfl
  | cons c cs ih =>
    have hhere : f ⟨prev, c :: (cs ++ rest), groups⟩ = none := h [] (c :: cs) rfl (by simp)
    simp only [List.cons_append, ends, if_true, List.findSome?_cons, hhere]
    exact ih fun l₁ l₂ hl hne => h (c :: l₁) l₂ (by rw [hl]; rfl) hne

/-- A lazy group goes up to the first place where the word behind it stands. -/
theorem run_lazy {s : Place} {l rest w : List Char} (hrest : s.rest = l ++ rest)
    (hw : startsWith w rest = true)
    (hfirst : ∀ l₁ l₂, l = l₁ ++ l₂ → l₂ ≠ [] → startsWith w (l₂ ++ rest) = false) (i : Nat) :
    ((Pattern.seq (.group i (.many (fun _ => true) false)) (lit w)).run s).head? =
      some ⟨lastOf s.prev (l ++ rest.take w.length), rest.drop w.length, (i, l) :: s.groups⟩ := by
  have hstep : ∀ x : Place, ((lit w).run (s.record i x)).head? =
      if startsWith w x.rest then
        some ⟨lastOf x.prev (x.rest.take w.length), x.rest.drop w.length,
          (i, s.rest.take (s.rest.length - x.rest.length)) :: x.groups⟩
      else none := by
    intro x
    rw [run_lit, apply_ite List.head?]
    rfl
  simp only [Pattern.run, Bool.false_eq_true, if_false, List.head?_flatMap, List.findSome?_map,
    Function.comp_def, hstep]
  rw [hrest, findSome?_ends (fun l₁ l₂ hl hne => if_neg (by simp [hfirst l₁ l₂ hl hne]))]
  have hhere : ∀ rest', rest = rest' → ∃ more, ends (fun _ => true) s.groups (lastOf s.prev l) rest' =
      ⟨lastOf s.prev l, rest', s.groups⟩ :: more := by
    intro rest' _
    cases rest' with
    | nil => exact ⟨[], rfl⟩
    | cons c cs => exact ⟨_, rfl⟩
  obtain ⟨more, hmore⟩ := hhere rest rfl
  rw [hmore, List.findSome?_cons, if_pos hw]
  simp

end Repetition

/-! ## All matches -/

section Matches

variable {r : Pattern} {prev : Option Char} {l rest : List Char}

theorem matchAll_skip (r : Pattern) (prev : Option Char) (l rest : List Char) :
    matchAll r prev (l ++ rest) l.length = matchAll r (lastOf prev l) rest 0 := by
  induction l generalizing prev with
  | nil => rfl
  | cons c cs ih => exact ih (some c)

/-- Where no match starts in `l`, the matches are those behind it. -/
theorem matchAll_none
    (h : ∀ l₁ l₂, l = l₁ ++ l₂ → l₂ ≠ [] → r.run ⟨lastOf prev l₁, l₂ ++ rest, []⟩ = []) :
    matchAll r prev (l ++ rest) 0 = matchAll r (lastOf prev l) rest 0 := by
  induction l generalizing prev with
  | nil => rfl
  | cons c cs ih =>
    have hhere : r.run ⟨prev, c :: (cs ++ rest), []⟩ = [] := h [] (c :: cs) rfl (by simp)
    simp only [List.cons_append, matchAll, hhere, List.head?_nil]
    exact ih fun l₁ l₂ hl hne => h (c :: l₁) l₂ (by rw [hl]; rfl) hne

/-- A match that is not empty, and those behind it. -/
theorem matchAll_match {t : Place} (hl : l ≠ []) (hrest : t.rest = rest)
    (h : (r.run ⟨prev, l ++ rest, []⟩).head? = some t) :
    matchAll r prev (l ++ rest) 0 = t :: matchAll r (lastOf prev l) rest 0 := by
  obtain ⟨c, cs, rfl⟩ := List.exists_cons_of_ne_nil hl
  rw [List.cons_append] at h ⊢
  have hskip : (cs ++ rest).length - t.rest.length = cs.length := by
    rw [hrest, List.length_append]
    omega
  simp only [matchAll, h, hskip]
  exact congrArg (t :: ·) (matchAll_skip r (some c) cs rest)

end Matches

end PovDeposit.Lib.Regex
