import BallerinaSyntax.Proofs.Phrase.Name
import BallerinaSyntax.Grammar.Attachment

/-!
Documentation and deprecation notices as they are written, of text, code and descriptions of
attributes. Text goes on as far as it can, so it is read back if no more of it follows.
-/

namespace BallerinaSyntax

open Grammar Parse

/-! ## Text and code -/

inductive DocumentationPartPhrase where
  | text (t : Token)
  /-- Code between one, two or three backticks, if there is any. -/
  | code (backticks : Nat) (opening : Token) (inner : Option Token) (closing : Token)

namespace DocumentationPartPhrase

/-- The kinds of the tokens of code between this many backticks. -/
structure CodeKinds where
  backticks : Nat
  opening : Kind
  inner : Kind
  closing : Kind
deriving DecidableEq

def codeKinds : List CodeKinds := [
  ⟨1, .singleBacktickInlineCodeStart, .singleBacktickInlineCode, .singleBacktickInlineCodeEnd⟩,
  ⟨2, .doubleBacktickInlineCodeStart, .doubleBacktickInlineCode, .doubleBacktickInlineCodeEnd⟩,
  ⟨3, .tripleBacktickInlineCodeStart, .tripleBacktickInlineCode, .tripleBacktickInlineCodeEnd⟩]

/-- Tokens that begin a part of a text. -/
def starts : List Kind :=
  [.documentationTemplateText, .deprecatedTemplateText] ++ codeKinds.map CodeKinds.opening

def tokens : DocumentationPartPhrase → List Token
  | text t => [t]
  | code _ opening inner closing => opening :: (inner.toList ++ [closing])

def WellFormed : DocumentationPartPhrase → Prop
  | text t => t.kind = .documentationTemplateText ∨ t.kind = .deprecatedTemplateText
  | code backticks opening inner closing =>
    ∃ kinds ∈ codeKinds, kinds.backticks = backticks ∧ opening.kind = kinds.opening ∧
      (∀ t ∈ inner, t.kind = kinds.inner) ∧ closing.kind = kinds.closing

def tree : DocumentationPartPhrase → Nat → DocumentationPart
  | text t, i => .text (t.leaf i)
  | code backticks opening inner closing, i =>
    .code {
      info := .over .inlineCode i (opening :: (inner.toList ++ [closing]))
      backticks := backticks
      code := inner.map (·.leaf (i + 1)) }

theorem tokens_ne_nil (p : DocumentationPartPhrase) : p.tokens ≠ [] := by
  cases p <;> exact List.cons_ne_nil _ _

end DocumentationPartPhrase

/-- The text of these parts, if there are any. -/
def documentationTree (parts : List DocumentationPartPhrase) (i : Nat) : Option DocumentationText :=
  if parts.isEmpty then none
  else some {
    info := .over .documentationText i (parts.flatMap (·.tokens))
    parts := placeAll (·.tokens) (·.tree) parts i }

/-! ## Attributes, documentation and deprecation -/

/-- The description of an attribute. -/
structure DescriptionPhrase where
  opening : Token
  name : Option Token
  closing : Token
  text : List DocumentationPartPhrase

namespace DescriptionPhrase

def tokens (d : DescriptionPhrase) : List Token :=
  d.opening :: (d.name.toList ++ d.closing :: d.text.flatMap (·.tokens))

structure WellFormed (d : DescriptionPhrase) : Prop where
  opening : d.opening.kind = .documentationTemplateAttributeStart
  name : ∀ t ∈ d.name, t.kind = .identifier
  closing : d.closing.kind = .documentationTemplateAttributeEnd
  text : ∀ p ∈ d.text, p.WellFormed

def tree (d : DescriptionPhrase) (i : Nat) : DocumentationAttribute where
  info := .over .documentationAttribute i d.tokens
  marker := d.opening.leaf i
  name := d.name.map fun t => t.named (i + 1)
  description := documentationTree d.text (i + 1 + d.name.toList.length + 1)

end DescriptionPhrase

structure DocumentationPhrase where
  opening : Token
  text : List DocumentationPartPhrase
  attributes : List DescriptionPhrase
  closing : Token

namespace DocumentationPhrase

def tokens (d : DocumentationPhrase) : List Token :=
  d.opening :: (d.text.flatMap (·.tokens) ++ (d.attributes.flatMap (·.tokens) ++ [d.closing]))

structure WellFormed (d : DocumentationPhrase) : Prop where
  opening : d.opening.kind = .documentationTemplateStart
  text : ∀ p ∈ d.text, p.WellFormed
  attributes : ∀ a ∈ d.attributes, a.WellFormed
  closing : d.closing.kind = .documentationTemplateEnd

def tree (d : DocumentationPhrase) (i : Nat) : Documentation where
  info := .over .documentationAttachment i d.tokens
  text := documentationTree d.text (i + 1)
  attributes :=
    placeAll (·.tokens) (·.tree) d.attributes (i + 1 + (d.text.flatMap (·.tokens)).length)

end DocumentationPhrase

structure DeprecationPhrase where
  opening : Token
  text : List DocumentationPartPhrase
  closing : Token

namespace DeprecationPhrase

def tokens (d : DeprecationPhrase) : List Token :=
  d.opening :: (d.text.flatMap (·.tokens) ++ [d.closing])

structure WellFormed (d : DeprecationPhrase) : Prop where
  opening : d.opening.kind = .deprecatedTemplateStart
  text : ∀ p ∈ d.text, p.WellFormed
  closing : d.closing.kind = .deprecatedTemplateEnd

def tree (d : DeprecationPhrase) (i : Nat) : Deprecation where
  info := .over .deprecatedAttachment i d.tokens
  text := documentationTree d.text (i + 1)

end DeprecationPhrase

section Reading

variable {levels : Nat} {r : Recursion} {scope : Scope} {s : State}

/-! ## Reading text back -/

/-- The parser expects code of these kinds, and tells its tokens apart. -/
theorem DocumentationPartPhrase.mem_codeKinds {kinds : CodeKinds} (h : kinds ∈ codeKinds) :
    inlineCodeKinds kinds.backticks = (kinds.inner, kinds.closing) ∧
      kinds.opening ≠ .endOfFileToken ∧ kinds.inner ≠ .endOfFileToken ∧
      kinds.closing ≠ .endOfFileToken ∧ kinds.closing ≠ kinds.inner := by
  have all : ∀ kinds ∈ codeKinds, inlineCodeKinds kinds.backticks = (kinds.inner, kinds.closing) ∧
      kinds.opening ≠ .endOfFileToken ∧ kinds.inner ≠ .endOfFileToken ∧
      kinds.closing ≠ .endOfFileToken ∧ kinds.closing ≠ kinds.inner := by decide
  exact all kinds h

/-- Code of any number of backticks is read back. -/
theorem straight_inlineCode {backticks : Nat} {opening closing : Token} {inner : Option Token}
    (h : (DocumentationPartPhrase.code backticks opening inner closing).WellFormed)
    (hs : scope.buffer.Shows s.position (opening :: (inner.toList ++ [closing]))) :
    Straight r scope s (inlineCode backticks)
      { info := .over .inlineCode s.position (opening :: (inner.toList ++ [closing]))
        backticks := backticks
        code := inner.map (·.leaf (s.position + 1)) }
      (s.position + (opening :: (inner.toList ++ [closing])).length) := by
  obtain ⟨kinds, hk, rfl, ho, hinner, hclosing⟩ := h
  obtain ⟨hread, hopen, hcode, hend, hne⟩ := DocumentationPartPhrase.mem_codeKinds hk
  have hbump : Straight r scope s bump (opening.leaf s.position) (s.position + 1) :=
    .bump (Buffer.Shows.get hs.1) (ho ▸ hopen)
  have hnode : Straight r scope
      (s.goTo (s.position + (opening :: (inner.toList ++ [closing])).length))
      (finish s.mark .inlineCode)
      (.over .inlineCode s.position (opening :: (inner.toList ++ [closing])))
      (s.position + (opening :: (inner.toList ++ [closing])).length) :=
    .finish (s := s.goTo _) _ hs (List.cons_ne_nil _ _) rfl
  unfold inlineCode
  rw [hread]
  cases inner with
  | none =>
    have hget := Buffer.Shows.get hs.2.1
    have hno : scope.kindAt (s.goTo (s.position + 1)) 0 ≠ kinds.inner := by
      rw [Scope.kindAt_zero (s := s.goTo _) hget, hclosing]
      exact hne
    have hoptional : Straight r scope (s.goTo (s.position + 1))
        (optional kinds.inner) none (s.position + 1) := .optional_no hno
    have hexpect : Straight r scope (s.goTo (s.position + 1))
        (expect kinds.closing) _ (s.position + 2) := .expect hget hclosing hend
    exact .look looks_mark (.bind hbump (.bind hoptional (.bind hexpect
      (.bind hnode (.pure _ rfl)))))
  | some t =>
    have hoptional : Straight r scope (s.goTo (s.position + 1))
        (optional kinds.inner) (some (t.leaf (s.position + 1)))
        (s.position + 2) :=
      .optional_yes (Buffer.Shows.get hs.2.1) (hinner t rfl) hcode
    have hexpect : Straight r scope (s.goTo (s.position + 2))
        (expect kinds.closing) _ (s.position + 3) :=
      .expect (Buffer.Shows.get hs.2.2.1) hclosing hend
    exact .look looks_mark (.bind hbump (.bind hoptional (.bind hexpect
      (.bind hnode (.pure _ rfl)))))

theorem DocumentationPartPhrase.WellFormed.straight {p : DocumentationPartPhrase}
    (h : p.WellFormed) (hs : scope.buffer.Shows s.position p.tokens) :
    Straight r scope s documentationPart? (some (p.tree s.position))
      (s.position + p.tokens.length) := by
  cases p with
  | text t =>
    have hget := Buffer.Shows.get hs.1
    have hk : t.kind = .documentationTemplateText ∨ t.kind = .deprecatedTemplateText := h
    have hbump : Straight r scope s bump (t.leaf s.position) (s.position + 1) := by
      refine .bump hget ?_
      rcases hk with hk | hk
      · rw [hk]; decide
      · rw [hk]; decide
    refine .look (looks_kind 0) ?_
    rw [Scope.kindAt_zero hget]
    rcases hk with hk | hk
    · rw [hk]
      exact .bind hbump (.pure _ rfl)
    · rw [hk]
      exact .bind hbump (.pure _ rfl)
  | code backticks opening inner closing =>
    have hread : Straight r scope s (inlineCode backticks) _ _ := straight_inlineCode h hs
    obtain ⟨kinds, hk, rfl, ho, -⟩ := h
    simp only [codeKinds, List.mem_cons, List.not_mem_nil, or_false] at hk
    refine .look (looks_kind 0) ?_
    rw [Scope.kindAt_zero (Buffer.Shows.get hs.1), ho]
    rcases hk with rfl | rfl | rfl
    · exact .bind hread (.pure _ rfl)
    · exact .bind hread (.pure _ rfl)
    · exact .bind hread (.pure _ rfl)

/-- No part of a text begins here. -/
theorem straight_noPart (h : scope.kindAt s 0 ∉ DocumentationPartPhrase.starts) :
    Straight r scope s documentationPart? none s.position := by
  refine .look (looks_kind 0) ?_
  split
  · exact absurd ‹_› fun hk => h (by rw [hk]; decide)
  · exact absurd ‹_› fun hk => h (by rw [hk]; decide)
  · exact absurd ‹_› fun hk => h (by rw [hk]; decide)
  · exact absurd ‹_› fun hk => h (by rw [hk]; decide)
  · exact absurd ‹_› fun hk => h (by rw [hk]; decide)
  · exact .pure _ rfl

/-- Text is read back in front of a token that is no part of it. -/
theorem straight_documentationText {parts : List DocumentationPartPhrase}
    (hw : ∀ p ∈ parts, p.WellFormed)
    (hs : scope.buffer.Shows s.position (parts.flatMap (·.tokens)))
    (hend : (scope.buffer.get (s.position + (parts.flatMap (·.tokens)).length)).kind ∉
      DocumentationPartPhrase.starts)
    (hl : (parts.flatMap (·.tokens)).length + 2 ≤ levels) :
    Straight (recursion levels) scope s documentationText (documentationTree parts s.position)
      (s.position + (parts.flatMap (·.tokens)).length) := by
  have hrow : Row (fun i a j => Straight (recursion levels) scope (s.goTo i) documentationPart?
        (some a) j)
      s.position (placeAll (·.tokens) (·.tree) parts s.position)
      (s.position + (parts.flatMap (·.tokens)).length) := by
    refine .parts (fun _ => True) (fun p _ => ?_) (fun p hp i hshows _ => ?_) hs trivial
    · obtain ⟨t, ts, hts⟩ := List.exists_cons_of_ne_nil p.tokens_ne_nil
      exact ⟨t, ts, hts, trivial⟩
    · exact (hw p hp).straight (s := s.goTo i) hshows
  have hcount : (placeAll (·.tokens) (·.tree) parts s.position).length ≤
      (parts.flatMap (·.tokens)).length :=
    length_placeAll parts s.position fun p _ => p.tokens_ne_nil
  have hmany : Straight (recursion levels) scope s (many documentationPart?)
      (placeAll (·.tokens) (·.tree) parts s.position)
      (s.position + (parts.flatMap (·.tokens)).length) := by
    refine hrow.many (fun _ _ _ hstep => hstep) (straight_noPart hend) ?_
    rw [steps_recursion]
    omega
  cases parts with
  | nil => exact .look looks_mark (.bind hmany (.ite_pos rfl (.pure _ rfl)))
  | cons p parts =>
    have hne : (p :: parts).flatMap (·.tokens) ≠ [] :=
      List.append_ne_nil_of_left_ne_nil p.tokens_ne_nil _
    have hnode : Straight (recursion levels) scope
        (s.goTo (s.position + ((p :: parts).flatMap (·.tokens)).length))
        (finish s.mark .documentationText)
        (.over .documentationText s.position ((p :: parts).flatMap (·.tokens)))
        (s.position + ((p :: parts).flatMap (·.tokens)).length) :=
      .finish (s := s.goTo _) _ hs hne rfl
    exact .look looks_mark (.bind hmany (.ite_neg nofun (.bind hnode (.pure _ rfl))))

/-! ## Reading documentation back -/

theorem DescriptionPhrase.WellFormed.straight {d : DescriptionPhrase} (h : d.WellFormed)
    (hs : scope.buffer.Shows s.position d.tokens)
    (hend : (scope.buffer.get (s.position + d.tokens.length)).kind ∉
      DocumentationPartPhrase.starts) (hl : d.tokens.length + 2 ≤ levels) :
    Straight (recursion levels) scope s documentationAttribute (d.tree s.position)
      (s.position + d.tokens.length) := by
  obtain ⟨ho, hname, hc, hw⟩ := h
  obtain ⟨hopening, hbehind⟩ := id hs
  obtain ⟨hshown, hclosing, htext⟩ := Buffer.Shows.append.mp hbehind
  have hlength : d.tokens.length =
      d.name.toList.length + (d.text.flatMap (·.tokens)).length + 2 := by
    simp [tokens]
    omega
  have hj : s.position + 1 + d.name.toList.length + 1 + (d.text.flatMap (·.tokens)).length =
      s.position + d.tokens.length := by omega
  have hget := Buffer.Shows.get hclosing
  have hbump : Straight (recursion levels) scope s bump (d.opening.leaf s.position)
      (s.position + 1) := .bump (Buffer.Shows.get hopening) (by rw [ho]; decide)
  have hidentifier : Straight (recursion levels) scope (s.goTo (s.position + 1))
      optionalIdentifier
      (d.name.map fun t => t.named (s.position + 1))
      (s.position + 1 + d.name.toList.length) := by
    cases hn : d.name with
    | none =>
      rw [hn] at hget
      refine .look (looks_atKind _) (.ite_neg ?_ (.pure _ rfl))
      rw [Scope.kindAt_zero (s := s.goTo (s.position + 1)) hget, hc]
      exact nofun
    | some t =>
      rw [hn] at hshown
      have hk := hname t hn
      have hfirst := Buffer.Shows.get hshown.1
      refine .look (looks_atKind _) (.ite_pos ?_
        (.bind (straight_bumpName (s := s.goTo (s.position + 1)) hfirst hk) (.pure _ rfl)))
      rw [Scope.kindAt_zero (s := s.goTo (s.position + 1)) hfirst, hk]
      rfl
  have hexpect : Straight (recursion levels) scope
      (s.goTo (s.position + 1 + d.name.toList.length))
      (expect .documentationTemplateAttributeEnd) _
      (s.position + 1 + d.name.toList.length + 1) := .expect hget hc (by decide)
  have hlevels : (d.text.flatMap (·.tokens)).length + 2 ≤ levels := by omega
  have hdescription := straight_documentationText
    (s := s.goTo (s.position + 1 + d.name.toList.length + 1)) hw htext
    (by rw [State.goTo_position, hj]; exact hend) hlevels
  rw [State.goTo_position, hj] at hdescription
  have hnode : Straight (recursion levels) scope (s.goTo (s.position + d.tokens.length))
      (finish s.mark .documentationAttribute)
      (.over .documentationAttribute s.position d.tokens) (s.position + d.tokens.length) :=
    .finish (s := s.goTo _) _ hs (List.cons_ne_nil _ _) rfl
  exact .look looks_mark (.bind hbump (.bind hidentifier (.bind hexpect (.bind hdescription
    (.bind hnode (.pure _ rfl))))))

/-- Documentation is read back. -/
theorem DocumentationPhrase.WellFormed.straight {d : DocumentationPhrase} (h : d.WellFormed)
    (hs : scope.buffer.Shows s.position d.tokens) (hl : d.tokens.length + 2 ≤ levels) :
    Straight (recursion levels) scope s documentation (d.tree s.position)
      (s.position + d.tokens.length) := by
  obtain ⟨ho, hw, hattributes, hc⟩ := h
  obtain ⟨hopening, hbehind⟩ := id hs
  obtain ⟨htext, hbehind⟩ := Buffer.Shows.append.mp hbehind
  obtain ⟨hshown, hclosing, -⟩ := Buffer.Shows.append.mp hbehind
  have hlength : d.tokens.length = (d.text.flatMap (·.tokens)).length +
      (d.attributes.flatMap (·.tokens)).length + 2 := by
    simp [tokens]
    omega
  have hget := Buffer.Shows.get hclosing
  have hbump : Straight (recursion levels) scope s bump (d.opening.leaf s.position)
      (s.position + 1) := .bump (Buffer.Shows.get hopening) (by rw [ho]; decide)
  have hfirst : ∀ a ∈ d.attributes, ∃ t ts, a.tokens = t :: ts ∧
      t.kind ∉ DocumentationPartPhrase.starts := by
    intro a ha
    exact ⟨a.opening, _, rfl, by rw [(hattributes a ha).opening]; decide⟩
  have hstop : (scope.buffer.get (s.position + 1 + (d.text.flatMap (·.tokens)).length +
      (d.attributes.flatMap (·.tokens)).length)).kind ∉ DocumentationPartPhrase.starts := by
    rw [hget, hc]
    decide
  have hrow : Row (fun i a j =>
        scope.kindAt (s.goTo i) 0 = .documentationTemplateAttributeStart ∧
          Straight (recursion levels) scope (s.goTo i) documentationAttribute a j)
      (s.position + 1 + (d.text.flatMap (·.tokens)).length)
      (placeAll (·.tokens) (·.tree) d.attributes
        (s.position + 1 + (d.text.flatMap (·.tokens)).length))
      (s.position + 1 + (d.text.flatMap (·.tokens)).length +
        (d.attributes.flatMap (·.tokens)).length) := by
    refine .parts (fun k => k ∉ DocumentationPartPhrase.starts) hfirst ?_ hshown hstop
    intro a ha i hshows hnext
    have hle : a.tokens.length ≤ (d.attributes.flatMap (·.tokens)).length := length_le_flatMap ha
    have hlevels : a.tokens.length + 2 ≤ levels := by omega
    refine ⟨?_, (hattributes a ha).straight (s := s.goTo i) hshows hnext hlevels⟩
    rw [Scope.kindAt_zero (s := s.goTo i) (Buffer.Shows.get hshows.1), (hattributes a ha).opening]
  have hcount : (placeAll (·.tokens) (·.tree) d.attributes
      (s.position + 1 + (d.text.flatMap (·.tokens)).length)).length ≤
        (d.attributes.flatMap (·.tokens)).length :=
    length_placeAll _ _ fun _ _ => List.cons_ne_nil _ _
  have hmany : Straight (recursion levels) scope
      (s.goTo (s.position + 1 + (d.text.flatMap (·.tokens)).length))
      (many do
        if ← atKind .documentationTemplateAttributeStart then
          return some (← documentationAttribute)
        else return none)
      (placeAll (·.tokens) (·.tree) d.attributes
        (s.position + 1 + (d.text.flatMap (·.tokens)).length))
      (s.position + 1 + (d.text.flatMap (·.tokens)).length +
        (d.attributes.flatMap (·.tokens)).length) := by
    refine hrow.many (fun i a j hstep => ?_) ?_ ?_
    · obtain ⟨hat, hread⟩ := hstep
      exact .look (looks_atKind _) (.ite_pos (beq_iff_eq.mpr hat) (.bind hread (.pure _ rfl)))
    · refine .look (looks_atKind _) (.ite_neg ?_ (.pure _ rfl))
      rw [Scope.kindAt_zero (s := s.goTo _) hget, hc]
      exact nofun
    · rw [steps_recursion]
      omega
  -- The first attribute, or the end if there is none, ends the text before it.
  have hends : (scope.buffer.get (s.position + 1 + (d.text.flatMap (·.tokens)).length)).kind ∉
      DocumentationPartPhrase.starts := by
    cases ha : d.attributes with
    | nil =>
      rw [ha] at hstop
      exact hstop
    | cons a attributes =>
      rw [ha, List.flatMap_cons] at hshown
      rw [Buffer.Shows.get hshown.1, (hattributes a (by rw [ha]; exact List.mem_cons_self)).opening]
      decide
  have hlevels : (d.text.flatMap (·.tokens)).length + 2 ≤ levels := by omega
  have hread := straight_documentationText (s := s.goTo (s.position + 1)) hw htext hends hlevels
  have hj : s.position + 1 + (d.text.flatMap (·.tokens)).length +
      (d.attributes.flatMap (·.tokens)).length + 1 = s.position + d.tokens.length := by omega
  have hclose : Straight (recursion levels) scope
      (s.goTo (s.position + 1 + (d.text.flatMap (·.tokens)).length +
        (d.attributes.flatMap (·.tokens)).length))
      (expectClosing (d.opening.leaf s.position) .documentationTemplateEnd "documentation") _
      (s.position + 1 + (d.text.flatMap (·.tokens)).length +
        (d.attributes.flatMap (·.tokens)).length + 1) := .expectClosing hget hc (by decide)
  rw [hj] at hclose
  have hnode : Straight (recursion levels) scope (s.goTo (s.position + d.tokens.length))
      (finishDelimited s.mark .documentationAttachment
        (d.closing.leaf (s.position + 1 + (d.text.flatMap (·.tokens)).length +
          (d.attributes.flatMap (·.tokens)).length)))
      (.over .documentationAttachment s.position d.tokens) (s.position + d.tokens.length) :=
    .finishDelimited (s := s.goTo _) _ hs (List.cons_ne_nil _ _) rfl rfl
  exact .look looks_mark (.bind hbump (.bind hread (.bind hmany (.bind hclose
    (.bind hnode (.pure _ rfl))))))

/-- A deprecation notice is read back. -/
theorem DeprecationPhrase.WellFormed.straight {d : DeprecationPhrase} (h : d.WellFormed)
    (hs : scope.buffer.Shows s.position d.tokens) (hl : d.tokens.length + 2 ≤ levels) :
    Straight (recursion levels) scope s deprecation (d.tree s.position)
      (s.position + d.tokens.length) := by
  obtain ⟨ho, hw, hc⟩ := h
  obtain ⟨hopening, hbehind⟩ := id hs
  obtain ⟨htext, hclosing, -⟩ := Buffer.Shows.append.mp hbehind
  have hlength : d.tokens.length = (d.text.flatMap (·.tokens)).length + 2 := by simp [tokens]
  have hget := Buffer.Shows.get hclosing
  have hbump : Straight (recursion levels) scope s bump (d.opening.leaf s.position)
      (s.position + 1) := .bump (Buffer.Shows.get hopening) (by rw [ho]; decide)
  have hends : (scope.buffer.get (s.position + 1 + (d.text.flatMap (·.tokens)).length)).kind ∉
      DocumentationPartPhrase.starts := by
    rw [hget, hc]
    decide
  have hlevels : (d.text.flatMap (·.tokens)).length + 2 ≤ levels := by omega
  have hread := straight_documentationText (s := s.goTo (s.position + 1)) hw htext hends hlevels
  have hj : s.position + 1 + (d.text.flatMap (·.tokens)).length + 1 =
      s.position + d.tokens.length := by omega
  have hclose : Straight (recursion levels) scope
      (s.goTo (s.position + 1 + (d.text.flatMap (·.tokens)).length))
      (expectClosing (d.opening.leaf s.position) .deprecatedTemplateEnd "deprecation notice") _
      (s.position + 1 + (d.text.flatMap (·.tokens)).length + 1) :=
    .expectClosing hget hc (by decide)
  rw [hj] at hclose
  have hnode : Straight (recursion levels) scope (s.goTo (s.position + d.tokens.length))
      (finishDelimited s.mark .deprecatedAttachment
        (d.closing.leaf (s.position + 1 + (d.text.flatMap (·.tokens)).length)))
      (.over .deprecatedAttachment s.position d.tokens) (s.position + d.tokens.length) :=
    .finishDelimited (s := s.goTo _) _ hs (List.cons_ne_nil _ _) rfl rfl
  exact .look looks_mark (.bind hbump (.bind hread (.bind hclose (.bind hnode (.pure _ rfl)))))

end Reading

end BallerinaSyntax
