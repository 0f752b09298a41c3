/-
  The hashes of inline scripts (apps/api/src/security/csp-hashes.ts).

  One regular expression finds the script elements without a `src` and their bodies. It knows
  nothing of attributes: it passes an element over where `src=` stands at a word boundary
  anywhere before the first `>`, and then goes on right behind the `<` of that element, through
  its attributes and its body.

  `Document` is the shape of the pages: text without `<script`, and elements whose attributes
  have no `>` and whose body has no `</script`. There the attributes decide (`inviting_text`): one
  with a value whose name is `src`, or ends in `-src`, or whose value has a `src=`. `scripts_html`
  says which bodies are found, where no tag inside of an element that is passed over looks like
  one to take (`Quiet`).
-/
import Mathlib.Data.List.Infix
import PovDeposit.Lib.Regex

namespace PovDeposit.Api.CspHashes

open PovDeposit.Lib.Regex

def openTag : List Char := ['<', 's', 'c', 'r', 'i', 'p', 't']

def closeTag : List Char := ['<', '/', 's', 'c', 'r', 'i', 'p', 't', '>']

def srcText : List Char := ['s', 'r', 'c', '=']

/-- `[^>]` -/
def notGt (c : Char) : Bool := c ≠ '>'

/-- `/<script(?![^>]*\bsrc=)[^>]*>([\s\S]*?)<\/script>/gi` -/
def scriptPattern : Pattern :=
  .seq (lit openTag)
    (.seq (.notAhead (.seq (.many notGt true) (.seq .boundary (lit srcText))))
      (.seq (.many notGt true)
        (.seq (.one fun c => c = '>')
          (.seq (.group 1 (.many (fun _ => true) false)) (lit closeTag)))))

/-- `match[1]` of the matches in a document. -/
def scripts (html : String) : List String :=
  (matchAll scriptPattern none html.toList 0).filterMap fun m =>
    (m.groups.lookup 1).map String.ofList

/-- `hashes.add` -/
def addHash (hashes : List String) (hash : String) : List String :=
  if hash ∈ hashes then hashes else hashes ++ [hash]

/-- The token of a script; `digest` is the base64 text of its SHA-256 digest. -/
def token (digest : String → String) (script : String) : String :=
  "'sha256-" ++ digest script ++ "'"

def inlineScriptHashes (digest : String → String) (htmlDocuments : List String) : List String :=
  htmlDocuments.foldl (fun hashes html =>
    (scripts html).foldl (fun hashes script =>
      if script ≠ "" then addHash hashes (token digest script) else hashes) hashes) []

/-! ## Documents -/

/-- White space between attributes. -/
def isGap (c : Char) : Bool := c = ' ' || c = '\t' || c = '\n' || c = '\r'

/-- A bare name or `name="value"`, with the white space before it. -/
structure Attribute where
  gap : List Char
  name : List Char
  value : Option (List Char)
  gap_spaces : gap ≠ [] ∧ gap.all isGap = true
  name_chars : name.all (fun c => c.isAlphanum || c = '-') = true
  value_chars : value.all (fun v => v.all fun c => c ≠ '"' && c ≠ '>') = true

def Attribute.text (a : Attribute) : List Char :=
  a.gap ++ a.name ++
    match a.value with
    | none => []
    | some v => '=' :: '"' :: (v ++ ['"'])

/-- A script element. -/
structure Script where
  attributes : List Attribute
  pad : List Char
  body : List Char
  pad_spaces : pad.all isGap = true
  body_free : contains closeTag.dropLast body = false

def Script.attributeText (s : Script) : List Char := s.attributes.flatMap Attribute.text ++ s.pad

def Script.text (s : Script) : List Char :=
  openTag ++ (s.attributeText ++ '>' :: (s.body ++ closeTag))

/-- Whether it has an attribute named `src`. -/
def Script.hasSrc (s : Script) : Bool :=
  s.attributes.any fun a => a.name.map Char.toLower = ['s', 'r', 'c']

/-- Whether `src=` stands at a word boundary in its name and `=`, or in its value. -/
def Attribute.showsSrc (a : Attribute) : Bool :=
  a.value.any fun v =>
    standsAt notGt srcText none (a.name ++ ['=']) || standsAt notGt srcText none v

/-- The expression takes it for a script with a `src`. -/
def Script.passedOver (s : Script) : Bool := s.attributes.any Attribute.showsSrc

/-- Text between elements; chunks that follow each other count as one. -/
structure Chunk where
  text : List Char
  free : contains openTag text = false

structure Document where
  lead : Chunk
  elements : List (Script × Chunk)

def elementsText (elements : List (Script × Chunk)) : List Char :=
  elements.flatMap fun e => e.1.text ++ e.2.text

def Document.html (d : Document) : String := String.ofList (d.lead.text ++ elementsText d.elements)

def Document.scripts (d : Document) : List Script := d.elements.map Prod.fst

/-! ## Where a match starts -/

/-- A tag to take: `<script` without `src=` at a word boundary before the next `>`. -/
def inviting (l : List Char) : Bool :=
  startsWith openTag l && !standsAt notGt srcText (lastOf none (l.take 7)) (l.drop 7)

/-- No tag that stands inside of the element is one to take. -/
def Script.Quiet (s : Script) : Prop := ∀ l ∈ s.text.tail.tails, inviting l = false

instance (s : Script) : Decidable s.Quiet := inferInstanceAs (Decidable (∀ l ∈ _, _))

theorem lastOf_of_ne_nil {l : List Char} (h : l ≠ []) (prev prev' : Option Char) :
    lastOf prev l = lastOf prev' l := by
  cases l with
  | nil => exact absurd rfl h
  | cons c cs => rfl

/-- No match starts at a text that is not inviting. -/
theorem run_eq_nil {l : List Char} (h : inviting l = false) (prev : Option Char) :
    scriptPattern.run ⟨prev, l, []⟩ = [] := by
  unfold scriptPattern
  rw [Pattern.run, run_lit]
  by_cases hopen : startsWith openTag l = true
  · have hstands : standsAt notGt srcText (lastOf none (l.take 7)) (l.drop 7) = true := by
      simpa [inviting, hopen] using h
    have htake : l.take 7 ≠ [] := by
      cases l with
      | nil => cases hopen
      | cons c cs => simp
    have hahead : ((Pattern.seq (.many notGt true) (.seq .boundary (lit srcText))).run
        ⟨lastOf prev (l.take 7), l.drop 7, []⟩).isEmpty = false := by
      rw [← Bool.not_eq_true, List.isEmpty_iff, run_ahead_eq_nil, Bool.not_eq_false,
        lastOf_of_ne_nil htake prev none]
      exact hstands
    rw [if_pos hopen, List.flatMap_singleton]
    show (Pattern.seq (.notAhead _) _).run ⟨lastOf prev (l.take 7), l.drop 7, []⟩ = []
    rw [Pattern.run, Pattern.run, hahead]
    rfl
  · rw [if_neg hopen]
    rfl

/-- `src=` before the next `>` does not depend on what is behind it. -/
theorem standsAt_until (prev : Option Char) (l after : List Char) :
    standsAt notGt srcText prev (l ++ '>' :: after) = standsAt notGt srcText prev l := by
  unfold srcText
  rw [standsAt_append (by decide), standsAt_cons (by decide)]
  simp [notGt]

/-- Behind the next `>`, what follows does not matter. -/
theorem inviting_append {l : List Char} (hlength : 7 ≤ l.length) (after : List Char) :
    inviting (l ++ '>' :: after) = inviting l := by
  unfold inviting
  rw [startsWith_append (by decide), List.take_append_of_le_length hlength,
    List.drop_append_of_le_length hlength, standsAt_until]

/-- Whether a tag in an element is one to take is decided before the end of the element. -/
theorem inviting_of_suffix {s : Script} {l : List Char} (hsuffix : l <:+ s.text) (hne : l ≠ [])
    (rest : List Char) : inviting (l ++ rest) = inviting l := by
  have hends : s.text = (openTag ++ (s.attributeText ++ '>' :: s.body)) ++ closeTag := by
    simp [Script.text]
  rw [hends] at hsuffix
  have hclose : closeTag = closeTag.dropLast ++ ['>'] := rfl
  rcases List.suffix_or_suffix_of_suffix hsuffix (List.suffix_append ..) with hshort | ⟨k, rfl⟩
  · have hstart : ∀ m ∈ closeTag.tails, m ≠ [] → startsWith openTag (m ++ rest) = false ∧
        startsWith openTag m = false := by
      simp [closeTag, openTag, startsWith, sameLetter]
    obtain ⟨happend, halone⟩ := hstart l ((List.mem_tails _ _).mpr hshort) hne
    simp [inviting, happend, halone]
  · have hlength : 7 ≤ (k ++ closeTag.dropLast).length := by
      rw [List.length_append]
      exact Nat.le_add_left_of_le (by decide)
    rw [hclose, ← List.append_assoc, List.append_assoc _ ['>'], List.singleton_append,
      inviting_append hlength, inviting_append hlength]

/-- No match starts in the text between elements. -/
theorem matchAll_chunk (c : Chunk) (prev : Option Char) {rest : List Char}
    (hrest : rest = [] ∨ rest.head? = some '<') :
    matchAll scriptPattern prev (c.text ++ rest) 0 =
      matchAll scriptPattern (lastOf prev c.text) rest 0 := by
  apply matchAll_none
  intro l₁ l₂ htext hne
  apply run_eq_nil
  have hfree : contains openTag l₂ = false := contains_suffix l₁ (htext ▸ c.free)
  have hstart : startsWith openTag (l₂ ++ rest) = false :=
    not_startsWith_append (by decide) hne hfree hrest
  simp [inviting, hstart]

/-! ## Attributes -/

section Gaps

variable {l rest : List Char}

theorem notGt_of_gap {c : Char} (hc : isGap c = true) : notGt c = true := by
  simp only [isGap, Bool.or_eq_true, decide_eq_true_eq] at hc
  rcases hc with ((rfl | rfl) | rfl) | rfl <;> rfl

theorem isWord_of_gap {c : Char} (hc : isGap c = true) : isWord c = false := by
  simp only [isGap, Bool.or_eq_true, decide_eq_true_eq] at hc
  rcases hc with ((rfl | rfl) | rfl) | rfl <;> decide

theorem lacks_gap {c : Char} (hc : isGap c = true) : lacks srcText c = true := by
  simp only [isGap, Bool.or_eq_true, decide_eq_true_eq] at hc
  rcases hc with ((rfl | rfl) | rfl) | rfl <;> decide

/-- White space has no `src=`. -/
theorem standsAt_gap (hl : l.all isGap = true) (prev : Option Char) :
    standsAt notGt srcText prev (l ++ rest) = standsAt notGt srcText (lastOf prev l) rest := by
  induction l generalizing prev with
  | nil => rfl
  | cons c cs ih =>
    rw [List.all_cons, Bool.and_eq_true] at hl
    obtain ⟨hc, hcs⟩ := hl
    have hrest := ih hcs (some c)
    have hlacks := lacks_gap hc
    unfold srcText at hrest hlacks ⊢
    rw [List.cons_append, standsAt_cons hlacks, notGt_of_gap hc, Bool.true_and, hrest, lastOf]

end Gaps

section Characters

variable (a : Attribute)

theorem Attribute.name_ne {c : Char} (hc : c ∈ a.name) : c ≠ '=' ∧ c ≠ '>' := by
  have hchar := List.all_eq_true.mp a.name_chars c hc
  constructor <;> rintro rfl <;> revert hchar <;> decide

theorem Attribute.gap_notGt : a.gap.all notGt = true :=
  List.all_eq_true.mpr fun c hc => notGt_of_gap (List.all_eq_true.mp a.gap_spaces.2 c hc)

theorem Attribute.name_notGt : a.name.all notGt = true :=
  List.all_eq_true.mpr fun _ hc => decide_eq_true (a.name_ne hc).2

theorem Attribute.value_notGt {v : List Char} (hv : a.value = some v) : v.all notGt = true := by
  have hchars := a.value_chars
  rw [hv, Option.all_some, List.all_eq_true] at hchars
  refine List.all_eq_true.mpr fun c hc => ?_
  exact (Bool.and_eq_true_iff.mp (hchars c hc)).2

end Characters

/-- A name alone is not `src=`. -/
theorem standsAt_name (a : Attribute) (prev : Option Char) :
    standsAt notGt srcText prev a.name = false := by
  have hequals : '=' ∈ srcText := by decide
  refine standsAt_eq_false hequals (fun c hc => ?_) prev
  exact sameLetter_eq_false (by decide) (a.name_ne hc).1.symm

/-- One attribute, and what follows it: white space, or the end. -/
theorem standsAt_attribute (a : Attribute) {rest : List Char}
    (hrest : rest = [] ∨ ∃ c, rest.head? = some c ∧ isGap c = true) (prev : Option Char)
    {b : Bool} (hb : ∀ prev', standsAt notGt srcText prev' rest = b) :
    standsAt notGt srcText prev (a.text ++ rest) = (a.showsSrc || b) := by
  -- in front of the name there is white space, and so no word
  have hgap : (lastOf prev a.gap).any isWord = (none : Option Char).any isWord := by
    obtain ⟨c, hc, hlast⟩ := lastOf_mem a.gap_spaces.1 prev
    rw [hlast]
    exact isWord_of_gap (List.all_eq_true.mp a.gap_spaces.2 c hc)
  have hquote : lacks srcText '"' = true := by decide
  unfold Attribute.text Attribute.showsSrc
  rw [List.append_assoc, List.append_assoc, standsAt_gap a.gap_spaces.2, standsAt_prev hgap]
  cases hvalue : a.value with
  | none =>
    show standsAt notGt srcText none (a.name ++ rest) = b
    rcases hrest with rfl | ⟨c, hhead, hc⟩
    · rw [List.append_nil, standsAt_name, ← hb none]
      rfl
    · obtain ⟨more, rfl⟩ := List.head?_eq_some_iff.mp hhead
      rw [srcText, standsAt_append (lacks_gap hc), ← srcText, standsAt_name, a.name_notGt, hb]
      rfl
  | some v =>
    have hpieces : a.name ++ ('=' :: '"' :: (v ++ ['"']) ++ rest) =
        (a.name ++ ['=']) ++ '"' :: (v ++ '"' :: rest) := by
      simp
    have hopen : ∀ prev' l, standsAt notGt srcText prev' ('"' :: l) = standsAt notGt srcText none l := by
      intro prev' l
      rw [srcText, standsAt_cons hquote]
      exact standsAt_prev (by decide) l
    show standsAt notGt srcText none (a.name ++ ('=' :: '"' :: (v ++ ['"']) ++ rest)) =
      (standsAt notGt srcText none (a.name ++ ['=']) || standsAt notGt srcText none v || b)
    have hall : (a.name ++ ['=']).all notGt = true := by
      rw [List.all_append, a.name_notGt]
      rfl
    rw [hpieces, srcText, standsAt_append hquote, ← srcText, hall, hopen, srcText,
      standsAt_append hquote, ← srcText, a.value_notGt hvalue, hopen, hb, Bool.true_and,
      Bool.true_and, Bool.or_assoc]

theorem standsAt_attributes (attributes : List Attribute) {pad : List Char}
    (hpad : pad.all isGap = true) (prev : Option Char) :
    standsAt notGt srcText prev (attributes.flatMap Attribute.text ++ pad) =
      attributes.any Attribute.showsSrc := by
  induction attributes generalizing prev with
  | nil =>
    have hnone : standsAt notGt srcText prev pad = standsAt notGt srcText (lastOf prev pad) [] := by
      rw [← standsAt_gap hpad, List.append_nil]
    rw [List.flatMap_nil, List.nil_append, hnone, standsAt]
    exact Bool.and_false _
  | cons a as ih =>
    have hrest : as.flatMap Attribute.text ++ pad = [] ∨
        ∃ c, (as.flatMap Attribute.text ++ pad).head? = some c ∧ isGap c = true := by
      cases as with
      | nil =>
        cases pad with
        | nil => exact .inl rfl
        | cons c cs => exact .inr ⟨c, rfl, List.all_eq_true.mp hpad c (List.mem_cons_self ..)⟩
      | cons a' as' =>
        obtain ⟨c, cs, hgap⟩ := List.exists_cons_of_ne_nil a'.gap_spaces.1
        exact .inr ⟨c, by simp [Attribute.text, hgap],
          List.all_eq_true.mp a'.gap_spaces.2 c (by simp [hgap])⟩
    rw [List.flatMap_cons, List.append_assoc, standsAt_attribute a hrest prev ih, List.any_cons]

/-! ## Elements -/

theorem attributeText_notGt (s : Script) : s.attributeText.all notGt = true := by
  have hattribute : ∀ a : Attribute, a.text.all notGt = true := by
    intro a
    unfold Attribute.text
    rw [List.all_append, List.all_append, a.gap_notGt, a.name_notGt]
    cases hvalue : a.value with
    | none => rfl
    | some v => simp [notGt, a.value_notGt hvalue]
  have hpad : s.pad.all notGt = true :=
    List.all_eq_true.mpr fun c hc => notGt_of_gap (List.all_eq_true.mp s.pad_spaces c hc)
  simp [Script.attributeText, hattribute, hpad]

theorem text_append (s : Script) (rest : List Char) : s.text ++ rest =
    openTag ++ (s.attributeText ++ '>' :: (s.body ++ (closeTag ++ rest))) := by
  simp [Script.text]

/-- Of an element's own tag the attributes say whether it is one to take. -/
theorem inviting_text (s : Script) (rest : List Char) :
    inviting (s.text ++ rest) = !s.passedOver := by
  have hlength : openTag.length = 7 := rfl
  rw [inviting, text_append, startsWith_append_self, ← hlength, List.take_left, List.drop_left,
    standsAt_until, Script.attributeText, standsAt_attributes _ s.pad_spaces]
  rfl

/-- An element to take is matched from its `<` to the end of its close tag. -/
theorem run_script {s : Script} (htake : s.passedOver = false) (prev : Option Char)
    (rest : List Char) : (scriptPattern.run ⟨prev, s.text ++ rest, []⟩).head? =
      some ⟨lastOf prev s.text, rest, [(1, s.body)]⟩ := by
  -- behind `<script` there is no `src=` to see
  have hahead : ((Pattern.seq (.many notGt true) (.seq .boundary (lit srcText))).run
      ⟨lastOf prev openTag, s.attributeText ++ '>' :: (s.body ++ (closeTag ++ rest)), []⟩).isEmpty =
        true := by
    have hinviting : inviting (s.text ++ rest) = true := by rw [inviting_text, htake]; rfl
    rw [text_append, inviting, Bool.and_eq_true] at hinviting
    rw [List.isEmpty_iff, run_ahead_eq_nil, lastOf_of_ne_nil (by decide) prev none]
    simpa [openTag] using hinviting.2
  have hfirst : ∀ l₁ l₂, s.body = l₁ ++ l₂ → l₂ ≠ [] →
      startsWith closeTag (l₂ ++ (closeTag ++ rest)) = false := by
    intro l₁ l₂ hbody hne
    have hfree : contains closeTag.dropLast l₂ = false := contains_suffix l₁ (hbody ▸ s.body_free)
    have hword : startsWith closeTag.dropLast (l₂ ++ (closeTag ++ rest)) = false :=
      not_startsWith_append (by decide) hne hfree (.inr rfl)
    by_contra hstart
    rw [Bool.not_eq_false] at hstart
    have hbegins := startsWith_of_append (w := closeTag.dropLast) (v := ['>']) hstart
    rw [hword] at hbegins
    cases hbegins
  have hlazy := run_lazy (s := ⟨some '>', s.body ++ (closeTag ++ rest), []⟩) rfl
    (startsWith_append_self closeTag rest) hfirst 1
  unfold scriptPattern
  rw [Pattern.run, run_lit, if_pos (by rw [text_append]; exact startsWith_append_self ..),
    List.flatMap_singleton]
  show ((Pattern.seq (.notAhead _) _).run ⟨lastOf prev ((s.text ++ rest).take openTag.length),
    (s.text ++ rest).drop openTag.length, []⟩).head? = _
  have hattributes : ∀ c ∈ s.attributeText, notGt c = true :=
    List.all_eq_true.mp (attributeText_notGt s)
  rw [text_append, List.take_left, List.drop_left, Pattern.run, Pattern.run, hahead, if_pos rfl,
    List.flatMap_singleton, run_until rfl hattributes rfl (by simp [notGt]) rfl, hlazy]
  simp [Script.text, closeTag, lastOf]

/-- No match starts in an element that is passed over, if it is quiet. -/
theorem matchAll_passedOver {s : Script} (hover : s.passedOver = true) (hquiet : s.Quiet)
    (prev : Option Char) (rest : List Char) :
    matchAll scriptPattern prev (s.text ++ rest) 0 =
      matchAll scriptPattern (lastOf prev s.text) rest 0 := by
  apply matchAll_none
  intro l₁ l₂ htext hne
  apply run_eq_nil
  cases l₁ with
  | nil =>
    rw [List.nil_append] at htext
    rw [← htext, inviting_text, hover]
    rfl
  | cons c cs =>
    rw [inviting_of_suffix ⟨c :: cs, htext.symm⟩ hne]
    apply hquiet
    rw [List.mem_tails, htext]
    exact List.suffix_append cs l₂

theorem elementsText_head (elements : List (Script × Chunk)) :
    elementsText elements = [] ∨ (elementsText elements).head? = some '<' := by
  cases elements with
  | nil => exact .inl rfl
  | cons e es => exact .inr rfl

/-- The bodies that the expression finds in elements: those of the elements it does not pass
    over. -/
theorem bodies_elements {elements : List (Script × Chunk)}
    (hquiet : ∀ e ∈ elements, e.1.passedOver = true → e.1.Quiet) (prev : Option Char) :
    ((matchAll scriptPattern prev (elementsText elements) 0).filterMap fun m =>
        (m.groups.lookup 1).map String.ofList) =
      ((elements.map Prod.fst).filter (!·.passedOver)).map fun s => String.ofList s.body := by
  induction elements generalizing prev with
  | nil => rfl
  | cons e es ih =>
    obtain ⟨s, c⟩ := e
    have hrest := elementsText_head es
    have ih := ih fun e he => hquiet e (List.mem_cons_of_mem _ he)
    have htext : elementsText ((s, c) :: es) = s.text ++ (c.text ++ elementsText es) := by
      simp [elementsText]
    rw [htext]
    cases hover : s.passedOver with
    | true =>
      rw [matchAll_passedOver hover (hquiet _ (List.mem_cons_self ..) hover), matchAll_chunk c _ hrest,
        ih]
      simp [hover]
    | false =>
      have hmatch : matchAll scriptPattern prev (s.text ++ (c.text ++ elementsText es)) 0 =
          ⟨lastOf prev s.text, c.text ++ elementsText es, [(1, s.body)]⟩ ::
            matchAll scriptPattern (lastOf prev s.text) (c.text ++ elementsText es) 0 :=
        matchAll_match (by simp [Script.text]) rfl (run_script hover _ _)
      rw [hmatch, matchAll_chunk c _ hrest]
      simp [hover, ih]

theorem scripts_html {d : Document} (hquiet : ∀ s ∈ d.scripts, s.passedOver = true → s.Quiet) :
    scripts d.html = (d.scripts.filter (!·.passedOver)).map fun s => String.ofList s.body := by
  have hquiet' : ∀ e ∈ d.elements, e.1.passedOver = true → e.1.Quiet :=
    fun e he => hquiet e.1 (List.mem_map_of_mem he)
  unfold scripts Document.html
  rw [String.toList_ofList, matchAll_chunk d.lead none (elementsText_head _), bodies_elements hquiet']
  rfl

/-! ## The list of hashes -/

theorem mem_addHash {hashes : List String} {hash t : String} :
    t ∈ addHash hashes hash ↔ t ∈ hashes ∨ t = hash := by
  unfold addHash
  split
  · rename_i hmem
    refine ⟨.inl, ?_⟩
    rintro (ht | rfl)
    · exact ht
    · exact hmem
  · simp

theorem addHash_nodup {hashes : List String} (h : hashes.Nodup) (hash : String) :
    (addHash hashes hash).Nodup := by
  unfold addHash
  split
  · exact h
  · rename_i hnot
    refine List.nodup_append.mpr ⟨h, by simp, fun a ha b hb heq => hnot ?_⟩
    rw [← List.mem_singleton.mp hb, ← heq]
    exact ha

/-- What is added for the scripts of one document. -/
theorem foldl_scripts (digest : String → String) (found : List String) {hashes : List String}
    (hnodup : hashes.Nodup) :
    let result := found.foldl (fun hashes script =>
      if script ≠ "" then addHash hashes (token digest script) else hashes) hashes
    result.Nodup ∧ ∀ t, t ∈ result ↔
      t ∈ hashes ∨ ∃ script ∈ found, script ≠ "" ∧ t = token digest script := by
  induction found generalizing hashes with
  | nil => simpa using hnodup
  | cons script more ih =>
    simp only [List.foldl_cons]
    by_cases hempty : script = ""
    · rw [if_neg (by simpa using hempty)]
      obtain ⟨hresult, hmem⟩ := ih hnodup
      refine ⟨hresult, fun t => ?_⟩
      rw [hmem]
      simp [hempty]
    · rw [if_pos hempty]
      obtain ⟨hresult, hmem⟩ := ih (addHash_nodup hnodup (token digest script))
      refine ⟨hresult, fun t => ?_⟩
      rw [hmem, mem_addHash]
      simp [hempty, or_assoc]

/-- The list has each token once, and those of the scripts that are found. -/
theorem inlineScriptHashes_spec (digest : String → String) (htmlDocuments : List String) :
    (inlineScriptHashes digest htmlDocuments).Nodup ∧
      ∀ t, t ∈ inlineScriptHashes digest htmlDocuments ↔
        ∃ html ∈ htmlDocuments, ∃ script ∈ scripts html, script ≠ "" ∧ t = token digest script := by
  have hfold : ∀ hashes : List String, hashes.Nodup →
      let result := htmlDocuments.foldl (fun hashes html =>
        (scripts html).foldl (fun hashes script =>
          if script ≠ "" then addHash hashes (token digest script) else hashes) hashes) hashes
      result.Nodup ∧ ∀ t, t ∈ result ↔ t ∈ hashes ∨
        ∃ html ∈ htmlDocuments, ∃ script ∈ scripts html, script ≠ "" ∧ t = token digest script := by
    induction htmlDocuments with
    | nil => simp
    | cons html more ih =>
      intro hashes hnodup
      obtain ⟨hnodup', hmem'⟩ := foldl_scripts digest (scripts html) hnodup
      obtain ⟨hresult, hmem⟩ := ih _ hnodup'
      refine ⟨hresult, fun t => ?_⟩
      rw [List.foldl_cons, hmem, hmem']
      simp [or_assoc]
  have hresult := hfold [] List.nodup_nil
  simp only [List.not_mem_nil, false_or] at hresult
  exact hresult

theorem token_injective {script script' : String} (h : token id script = token id script') :
    script = script' := by
  unfold token at h
  have hchars := congrArg String.toList h
  exact String.toList_inj.mp (by simpa using hchars)

/-- The list is exact for every digest just when the attributes tell the elements apart, up to
    those with the same body. -/
theorem inline_script_hashes_iff (docs : List Document)
    (hquiet : ∀ d ∈ docs, ∀ s ∈ d.scripts, s.passedOver = true → s.Quiet) :
    (∀ digest : String → String,
      (inlineScriptHashes digest (docs.map Document.html)).Nodup ∧
      ∀ t, t ∈ inlineScriptHashes digest (docs.map Document.html) ↔
        ∃ d ∈ docs, ∃ s ∈ d.scripts, s.hasSrc = false ∧ s.body ≠ [] ∧
          t = token digest (String.ofList s.body)) ↔
    ∀ body, body ≠ [] →
      ((∃ d ∈ docs, ∃ s ∈ d.scripts, s.body = body ∧ s.hasSrc = false) ↔
        ∃ d ∈ docs, ∃ s ∈ d.scripts, s.body = body ∧ s.passedOver = false) := by
  have hfound : ∀ digest t, t ∈ inlineScriptHashes digest (docs.map Document.html) ↔
      ∃ body, body ≠ [] ∧ (∃ d ∈ docs, ∃ s ∈ d.scripts, s.body = body ∧ s.passedOver = false) ∧
        t = token digest (String.ofList body) := by
    intro digest t
    rw [(inlineScriptHashes_spec digest _).2]
    constructor
    · rintro ⟨html, hhtml, script, hscript, hne, rfl⟩
      obtain ⟨d, hd, rfl⟩ := List.mem_map.mp hhtml
      rw [scripts_html (hquiet d hd), List.mem_map] at hscript
      obtain ⟨s, hs, rfl⟩ := hscript
      obtain ⟨hs, hover⟩ := List.mem_filter.mp hs
      exact ⟨s.body, by simpa using hne, ⟨d, hd, s, hs, rfl, by simpa using hover⟩, rfl⟩
    · rintro ⟨body, hne, ⟨d, hd, s, hs, rfl, hover⟩, rfl⟩
      refine ⟨d.html, List.mem_map_of_mem hd, String.ofList s.body, ?_, by simpa using hne, rfl⟩
      rw [scripts_html (hquiet d hd)]
      exact List.mem_map_of_mem (List.mem_filter.mpr ⟨hs, by simpa using hover⟩)
  constructor
  · intro hexact body hne
    -- a digest that keeps texts apart
    have hbody : ∀ {body'}, token id (String.ofList body) = token id (String.ofList body') →
        body' = body := fun h => (String.ofList_inj.mp (token_injective h)).symm
    have hmem := ((hexact id).2 (token id (String.ofList body))).symm.trans (hfound id _)
    constructor
    · rintro ⟨d, hd, s, hs, rfl, hsrc⟩
      obtain ⟨body', -, hover, htoken⟩ := hmem.mp ⟨d, hd, s, hs, hsrc, hne, rfl⟩
      rwa [hbody htoken] at hover
    · intro hover
      obtain ⟨d, hd, s, hs, hsrc, -, htoken⟩ := hmem.mpr ⟨body, hne, hover, rfl⟩
      exact ⟨d, hd, s, hs, hbody htoken, hsrc⟩
  · intro hsame digest
    refine ⟨(inlineScriptHashes_spec digest _).1, fun t => ?_⟩
    rw [hfound]
    constructor
    · rintro ⟨body, hne, hover, rfl⟩
      obtain ⟨d, hd, s, hs, rfl, hsrc⟩ := (hsame body hne).mpr hover
      exact ⟨d, hd, s, hs, hsrc, hne, rfl⟩
    · rintro ⟨d, hd, s, hs, hsrc, hne, rfl⟩
      exact ⟨s.body, hne, (hsame s.body hne).mp ⟨d, hd, s, hs, rfl, hsrc⟩, rfl⟩

/-- ` name`, or ` name="value"` -/
def spaced (name : List Char) (value : Option (List Char))
    (hname : name.all (fun c => c.isAlphanum || c = '-') = true)
    (hvalue : value.all (fun v => v.all fun c => c ≠ '"' && c ≠ '>') = true) : Attribute :=
  ⟨[' '], name, value, by decide, hname, hvalue⟩

/-- A document of elements with nothing between them. -/
def page (elements : List Script) : Document :=
  ⟨⟨[], rfl⟩, elements.map fun s => (s, ⟨[], rfl⟩)⟩

def pushScript : Script :=
  ⟨[], [], "self.__next_f.push([1])".toList, by decide, by decide⟩

def appScript : Script :=
  ⟨[spaced ['s', 'r', 'c'] (some ['/', 'a', 'p', 'p', '.', 'j', 's']) (by decide) (by decide)], [],
    [], by decide, by decide⟩

/-- `<script data-src="x">a</script>` -/
def dataScript : Script :=
  ⟨[spaced ['d', 'a', 't', 'a', '-', 's', 'r', 'c'] (some ['x']) (by decide) (by decide)], [], ['a'],
    by decide, by decide⟩

/-- `<script src>b</script>` -/
def bareScript : Script :=
  ⟨[spaced ['s', 'r', 'c'] none (by decide) (by decide)], [], ['b'], by decide, by decide⟩

/-- `<script src="c">d<script>e</script>` -/
def nestedScript : Script :=
  ⟨[spaced ['s', 'r', 'c'] (some ['c']) (by decide) (by decide)], [],
    ['d', '<', 's', 'c', 'r', 'i', 'p', 't', '>', 'e'], by decide, by decide⟩

theorem inline_script_hashes_next :
    (inlineScriptHashes id [(page [pushScript, appScript]).html]).Nodup ∧
    ∀ t, t ∈ inlineScriptHashes id [(page [pushScript, appScript]).html] ↔
      ∃ d ∈ [page [pushScript, appScript]], ∃ s ∈ d.scripts, s.hasSrc = false ∧ s.body ≠ [] ∧
        t = token id (String.ofList s.body) := by
  have hsame : ∀ d ∈ [page [pushScript, appScript]], ∀ s ∈ d.scripts, s.hasSrc = s.passedOver := by
    decide +kernel
  have hquiet : ∀ d ∈ [page [pushScript, appScript]], ∀ s ∈ d.scripts,
      s.passedOver = true → s.Quiet := by
    decide +kernel
  refine (inline_script_hashes_iff _ hquiet).mpr (fun body _ => ?_) id
  refine exists_congr fun d => and_congr_right fun hd => exists_congr fun s => ?_
  exact and_congr_right fun hs => and_congr_right fun _ => by rw [hsame d hd s hs]

/-- A script that is not allowed, an element with a `src` whose body is, and text of such a body
    that is. -/
theorem inline_script_hashes_inexact :
    (dataScript.hasSrc = false ∧ inlineScriptHashes id [(page [dataScript]).html] = [] ∧
      ¬ ∀ t, t ∈ inlineScriptHashes id [(page [dataScript]).html] ↔
        ∃ s ∈ (page [dataScript]).scripts, s.hasSrc = false ∧ s.body ≠ [] ∧
          t = token id (String.ofList s.body)) ∧
    (bareScript.hasSrc = true ∧
      inlineScriptHashes id [(page [bareScript]).html] = [token id "b"]) ∧
    (nestedScript.hasSrc = true ∧
      inlineScriptHashes id [(page [nestedScript]).html] = [token id "e"]) := by
  have hdata : inlineScriptHashes id [(page [dataScript]).html] = [] := by decide +kernel
  refine ⟨⟨by decide +kernel, hdata, fun hexact => ?_⟩, by decide +kernel, by decide +kernel⟩
  have hmem := (hexact (token id "a")).mpr ⟨dataScript, List.mem_cons_self ..,
    by decide +kernel, by decide +kernel, by decide +kernel⟩
  rw [hdata] at hmem
  cases hmem

end PovDeposit.Api.CspHashes
