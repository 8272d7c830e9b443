import BallerinaSyntax.Proofs.Phrase.Documentation
import BallerinaSyntax.Proofs.Phrase.Text

/-!
XML literals as they are written. Nothing stands between the items of an element, so it is the kinds
of their first tokens that tell them apart; only text could go on with text, and no two texts stand
side by side.
-/

namespace BallerinaSyntax

open Grammar Parse

/-! ## Names and attributes -/

/-- A name, with or without a namespace, or an expression in its place. -/
inductive XmlNamePhrase where
  | plain (name : Token)
  | prefixed (space separator name : Token)
  | hole (h : HolePhrase)

namespace XmlNamePhrase

def tokens : XmlNamePhrase → List Token
  | plain name => [name]
  | prefixed space separator name => [space, separator, name]
  | hole h => h.tokens

def WellFormed : XmlNamePhrase → Prop
  | plain name => name.kind = .xmlQName
  | prefixed space separator name =>
    space.kind = .xmlQName ∧ separator.kind = .xmlQNameSeparator ∧ name.kind = .xmlQName
  | hole h => h.WellFormed .xmlTagExpressionStart

def tree : XmlNamePhrase → Nat → Tree .xmlQualifiedName
  | plain name, i =>
    .xmlName { info := .over .xmlQualifiedName i [name], space := none, localName := name.leaf i }
  | prefixed space separator name, i =>
    .xmlName {
      info := .over .xmlQualifiedName i [space, separator, name]
      space := some (space.leaf i)
      localName := name.leaf (i + 2) }
  | hole h, i =>
    .xmlNameInterpolation (.over .xmlNameInterpolation i h.tokens) ((Phrase.name h.name).tree (i + 1))

theorem WellFormed.exists_first {n : XmlNamePhrase} (h : n.WellFormed) :
    ∃ t ts, n.tokens = t :: ts ∧ t.kind ∈ [Kind.xmlQName, .xmlTagExpressionStart] := by
  cases n with
  | plain name => exact ⟨name, [], rfl, by rw [show name.kind = _ from h]; decide⟩
  | prefixed space separator name => exact ⟨space, _, rfl, by rw [h.1]; decide⟩
  | hole hole => exact ⟨hole.opening, _, rfl, by rw [HolePhrase.WellFormed.opening h]; decide⟩

end XmlNamePhrase

namespace QuotedPhrase

/-- Text between quotation marks of one sort. -/
def IsXmlString (q : QuotedPhrase) : Prop :=
  (q.opening.kind = .xmlDoubleQuote ∧
    q.WellFormed .xmlDoubleQuotedTemplateString .xmlDoubleQuotedString .xmlDoubleQuoteEnd) ∨
  (q.opening.kind = .xmlSingleQuote ∧
    q.WellFormed .xmlSingleQuotedTemplateString .xmlSingleQuotedString .xmlSingleQuoteEnd)

def xmlString (q : QuotedPhrase) (i : Nat) : Tree .xmlQuotedString :=
  .xmlQuotedString (.over .xmlQuotedString i q.tokens) (q.content i)

end QuotedPhrase

structure XmlAttributePhrase where
  name : XmlNamePhrase
  equals : Token
  value : QuotedPhrase

namespace XmlAttributePhrase

def tokens (a : XmlAttributePhrase) : List Token := a.name.tokens ++ a.equals :: a.value.tokens

structure WellFormed (a : XmlAttributePhrase) : Prop where
  name : a.name.WellFormed
  equals : a.equals.kind = .xmlTagEquals
  value : a.value.IsXmlString

def tree (a : XmlAttributePhrase) (i : Nat) : Tree .xmlAttribute :=
  .xmlAttribute (.over .xmlAttribute i a.tokens) (a.name.tree i)
    (a.value.xmlString (i + a.name.tokens.length + 1))

end XmlAttributePhrase

/-! ## Tags and items -/

/-- A tag at the beginning of an element, which may be all of it. -/
structure XmlTagPhrase where
  opening : Token
  name : XmlNamePhrase
  attributes : List XmlAttributePhrase
  closing : Token

namespace XmlTagPhrase

def tokens (t : XmlTagPhrase) : List Token :=
  t.opening :: (t.name.tokens ++ (t.attributes.flatMap XmlAttributePhrase.tokens ++ [t.closing]))

structure WellFormed (closing : Kind) (t : XmlTagPhrase) : Prop where
  opening : t.opening.kind = .xmlTagOpen
  name : t.name.WellFormed
  attributes : ∀ a ∈ t.attributes, a.WellFormed
  closing : t.closing.kind = closing

/-- The attributes when the tag begins at this index. -/
def attributeTrees (t : XmlTagPhrase) (i : Nat) : List (Tree .xmlAttribute) :=
  placeAll XmlAttributePhrase.tokens XmlAttributePhrase.tree t.attributes
    (i + 1 + t.name.tokens.length)

def tree (kind : Kind) (t : XmlTagPhrase) (i : Nat) : Tree .xmlStartTag :=
  .xmlStartTag (.over kind i t.tokens) (t.name.tree (i + 1)) (.ofList (t.attributeTrees i))

end XmlTagPhrase

structure XmlCloseTagPhrase where
  opening : Token
  name : XmlNamePhrase
  closing : Token

namespace XmlCloseTagPhrase

def tokens (t : XmlCloseTagPhrase) : List Token := t.opening :: (t.name.tokens ++ [t.closing])

structure WellFormed (t : XmlCloseTagPhrase) : Prop where
  opening : t.opening.kind = .xmlTagOpenSlash
  name : t.name.WellFormed
  closing : t.closing.kind = .xmlTagClose

def tree (t : XmlCloseTagPhrase) (i : Nat) : Tree .xmlCloseTag :=
  .xmlCloseTag (.over .xmlCloseTag i t.tokens) (t.name.tree (i + 1))

end XmlCloseTagPhrase

/-- What may stand by itself or in an element and is no element. -/
inductive XmlPiecePhrase where
  | text (t : TextPhrase)
  | cdata (t : Token)
  | instruction (target : Token) (t : TextPhrase)
  | comment (opening : Token) (t : TextPhrase)

namespace XmlPiecePhrase

def isText : XmlPiecePhrase → Bool
  | text _ => true
  | _ => false

def tokens : XmlPiecePhrase → List Token
  | text t => t.tokens
  | cdata t => [t]
  | instruction target t => target :: t.tokens
  | comment opening t => opening :: t.tokens

/-- The text of instructions and comments ends with a token of text, which carries their end. -/
def WellFormed : XmlPiecePhrase → Prop
  | text t => t.WellFormed .xmlTemplateText .xmlText ∧ t.tokens ≠ []
  | cdata t => t.kind = .xmlCdata
  | instruction target t =>
    target.kind = .xmlPi ∧ t.WellFormed .xmlPiTemplateText .xmlPiText ∧ t.last ≠ none
  | comment opening t =>
    opening.kind = .xmlCommentStart ∧ t.WellFormed .xmlCommentTemplateText .xmlCommentText ∧
      t.last ≠ none

/-- A text of which there is at least one token. -/
def textTree (t : TextPhrase) (i : Nat) : Tree .interpolatedText :=
  t.tree (.over .interpolatedText i t.tokens) i

def instructionTree (target : Token) (t : TextPhrase) (i : Nat) : Tree .xmlInstruction :=
  .xmlInstruction (.over .xmlProcessingInstruction i (target :: t.tokens)) (target.leaf i)
    (textTree t (i + 1))

def commentTree (opening : Token) (t : TextPhrase) (i : Nat) : Tree .xmlComment :=
  .xmlComment (.over .xmlComment i (opening :: t.tokens)) (textTree t (i + 1))

def itemTree : XmlPiecePhrase → Nat → Tree .xmlItem
  | text t, i => .itemText (textTree t i)
  | cdata t, i => .itemCdata (t.leaf i)
  | instruction target t, i => .itemInstruction (instructionTree target t i)
  | comment opening t, i => .itemComment (commentTree opening t i)

def contentTree : XmlPiecePhrase → Nat → Tree .xmlContent
  | text t, i => .contentText (textTree t i)
  | cdata t, i => .contentCdata (t.leaf i)
  | instruction target t, i => .contentInstruction (instructionTree target t i)
  | comment opening t, i => .contentComment (commentTree opening t i)

end XmlPiecePhrase

/-! ## Elements -/

mutual

inductive XmlElementPhrase where
  | empty (tag : XmlTagPhrase)
  | full (tag : XmlTagPhrase) (content : XmlContentPhrase) (closeTag : XmlCloseTagPhrase)

inductive XmlContentPhrase where
  | nil
  | piece (head : XmlPiecePhrase) (tail : XmlContentPhrase)
  | element (head : XmlElementPhrase) (tail : XmlContentPhrase)

end

/-- Whether the first item is text. -/
def XmlContentPhrase.startsText : XmlContentPhrase → Bool
  | .piece head _ => head.isText
  | _ => false

mutual

def XmlElementPhrase.tokens : XmlElementPhrase → List Token
  | .empty tag => tag.tokens
  | .full tag content closeTag => tag.tokens ++ (content.tokens ++ closeTag.tokens)

def XmlContentPhrase.tokens : XmlContentPhrase → List Token
  | .nil => []
  | .piece head tail => head.tokens ++ tail.tokens
  | .element head tail => head.tokens ++ tail.tokens

end

mutual

/-- How deep elements nest. -/
def XmlElementPhrase.depth : XmlElementPhrase → Nat
  | .empty _ => 1
  | .full _ content _ => content.depth + 1

def XmlContentPhrase.depth : XmlContentPhrase → Nat
  | .nil => 0
  | .piece _ tail => tail.depth
  | .element head tail => max head.depth tail.depth

end

mutual

/-- All tokens are of the kinds that belong there, and no text stands next to another. The names in
the tags of an element may differ. -/
def XmlElementPhrase.WellFormed : XmlElementPhrase → Prop
  | .empty tag => tag.WellFormed .xmlTagSlashClose
  | .full tag content closeTag =>
    tag.WellFormed .xmlTagClose ∧ content.WellFormed ∧ closeTag.WellFormed

def XmlContentPhrase.WellFormed : XmlContentPhrase → Prop
  | .nil => True
  | .piece head tail =>
    head.WellFormed ∧ (head.isText = true → tail.startsText = false) ∧ tail.WellFormed
  | .element head tail => head.WellFormed ∧ tail.WellFormed

end

mutual

def XmlElementPhrase.tree : XmlElementPhrase → Nat → Tree .xmlElement
  | .empty tag, i =>
    .xmlElement (.over .xmlElement i tag.tokens) (tag.tree .xmlEmptyTag i) .nil .absent
  | .full tag content closeTag, i =>
    .xmlElement (.over .xmlElement i (tag.tokens ++ (content.tokens ++ closeTag.tokens)))
      (tag.tree .xmlStartTag i) (.ofList (content.trees (i + tag.tokens.length)))
      (.present (closeTag.tree (i + tag.tokens.length + content.tokens.length)))

def XmlContentPhrase.trees : XmlContentPhrase → Nat → List (Tree .xmlContent)
  | .nil, _ => []
  | .piece head tail, i => head.contentTree i :: tail.trees (i + head.tokens.length)
  | .element head tail, i =>
    .contentElement (head.tree i) :: tail.trees (i + head.tokens.length)

end

/-! ## Literals -/

inductive XmlItemPhrase where
  | piece (piece : XmlPiecePhrase)
  | element (element : XmlElementPhrase)

namespace XmlItemPhrase

def tokens : XmlItemPhrase → List Token
  | piece p => p.tokens
  | element e => e.tokens

def depth : XmlItemPhrase → Nat
  | piece _ => 0
  | element e => e.depth

def WellFormed : XmlItemPhrase → Prop
  | piece p => p.WellFormed
  | element e => e.WellFormed

def tree : XmlItemPhrase → Nat → Tree .xmlItem
  | piece p, i => p.itemTree i
  | element e, i => .itemElement (e.tree i)

end XmlItemPhrase

structure XmlPhrase where
  opening : Token
  item : XmlItemPhrase
  closing : Token

namespace XmlPhrase

def tokens (x : XmlPhrase) : List Token := x.opening :: (x.item.tokens ++ [x.closing])

structure WellFormed (x : XmlPhrase) : Prop where
  opening : x.opening.kind = .xmlLiteralStart
  item : x.item.WellFormed
  closing : x.closing.kind = .xmlLiteralEnd

def tree (x : XmlPhrase) (i : Nat) : Expression :=
  .xml (.over .xmlLiteral i x.tokens) (x.item.tree (i + 1))

end XmlPhrase

section Reading

variable {levels : Nat} {scope : Scope} {s : State}

/-! ## Reading names and attributes back -/

/-- A name is read back in front of a token that does not separate it from another. -/
theorem XmlNamePhrase.WellFormed.straight {n : XmlNamePhrase} (h : n.WellFormed)
    (hs : scope.buffer.Shows s.position n.tokens)
    (hend : (scope.buffer.get (s.position + n.tokens.length)).kind ≠ .xmlQNameSeparator)
    (hu : s.unwinding = false) (hd : scope.depth + 1 < scope.options.maxNestingDepth)
    (hl : 4 ≤ levels) :
    Straight (recursion levels) scope s xmlQualifiedName (n.tree s.position)
      (s.position + n.tokens.length) := by
  cases n with
  | plain name =>
    have hk : name.kind = .xmlQName := h
    have hget := Buffer.Shows.get hs.1
    have hno : scope.kindAt s 0 ≠ .xmlTagExpressionStart := by
      rw [Scope.kindAt_zero hget, hk]
      decide
    have hspace : ¬(scope.kindAt s 0 == .xmlQName && scope.kindAt s 1 == .xmlQNameSeparator) =
        true := by
      rw [Bool.and_eq_true, beq_iff_eq, beq_iff_eq]
      exact fun hat => hend hat.2
    have hexpect : Straight (recursion levels) scope s (expect .xmlQName) (name.leaf s.position)
        (s.position + 1) := .expect hget hk (by decide)
    have hnode : Straight (recursion levels) scope (s.goTo (s.position + 1))
        (finish s.mark .xmlQualifiedName) (.over .xmlQualifiedName s.position [name])
        (s.position + 1) := .finish (s := s.goTo _) _ hs (List.cons_ne_nil _ _) rfl
    exact .look looks_mark (.bind (.accept_no hno) (.ite_neg nofun
      (.look (looks_atKind _) (.look (looks_isKind _ _) (.ite_neg hspace
        (.give (.bind hexpect (.bind hnode (.pure _ rfl)))))))))
  | prefixed space separator name =>
    obtain ⟨hk, hseparator, hname⟩ := h
    obtain ⟨hspace, hcolon, hlocal, -⟩ := id hs
    have hget := Buffer.Shows.get hspace
    have hgetColon := Buffer.Shows.get hcolon
    have hno : scope.kindAt s 0 ≠ .xmlTagExpressionStart := by
      rw [Scope.kindAt_zero hget, hk]
      decide
    have hat : (scope.kindAt s 0 == .xmlQName && scope.kindAt s 1 == .xmlQNameSeparator) =
        true := by
      have hnext : scope.kindAt s 1 = separator.kind := congrArg Token.kind hgetColon
      rw [Scope.kindAt_zero hget, hk, hnext, hseparator]
      rfl
    have hbump : Straight (recursion levels) scope s bump (space.leaf s.position)
        (s.position + 1) := .bump hget (by rw [hk]; decide)
    have hbump' : Straight (recursion levels) scope (s.goTo (s.position + 1)) bump _
        (s.position + 2) := .bump hgetColon (by rw [hseparator]; decide)
    have hexpect : Straight (recursion levels) scope (s.goTo (s.position + 2)) (expect .xmlQName)
        (name.leaf (s.position + 2)) (s.position + 3) :=
      .expect (Buffer.Shows.get hlocal) hname (by decide)
    have hnode : Straight (recursion levels) scope (s.goTo (s.position + 3))
        (finish s.mark .xmlQualifiedName)
        (.over .xmlQualifiedName s.position [space, separator, name]) (s.position + 3) :=
      .finish (s := s.goTo _) _ hs (List.cons_ne_nil _ _) rfl
    exact .look looks_mark (.bind (.accept_no hno) (.ite_neg nofun
      (.look (looks_atKind _) (.look (looks_isKind _ _) (.ite_pos hat
        (.bind hbump (.bind hbump' (.give (.bind hexpect (.bind hnode (.pure _ rfl)))))))))))
  | hole hole =>
    have hhole : hole.WellFormed .xmlTagExpressionStart := h
    obtain ⟨ho, hname, hc⟩ := hhole
    obtain ⟨hopening, hbehind⟩ := id hs
    have haccept : Straight (recursion levels) scope s (accept .xmlTagExpressionStart) true
        (s.position + 1) := .accept_yes (Buffer.Shows.get hopening) ho (by decide)
    have hvalue : Straight (recursion levels) scope (s.goTo (s.position + 1)) expression _
        (s.position + 2) := straight_holeName hname hc hbehind hu hd hl
    have hexpect : Straight (recursion levels) scope (s.goTo (s.position + 2))
        (expect .expressionEnd) _ (s.position + 3) :=
      .expect (Buffer.Shows.get hbehind.2.1) hc (by decide)
    have hnode : Straight (recursion levels) scope (s.goTo (s.position + 3))
        (finish s.mark .xmlNameInterpolation)
        (.over .xmlNameInterpolation s.position hole.tokens) (s.position + 3) :=
      .finish (s := s.goTo _) _ hs (List.cons_ne_nil _ _) rfl
    exact .look looks_mark (.bind haccept (.ite_pos rfl (.bind hvalue (.bind hexpect
      (.bind hnode (.pure _ rfl))))))

/-- The parser knows both sorts of quotation marks. -/
theorem QuotedPhrase.IsXmlString.exists_kinds {q : QuotedPhrase} (h : q.IsXmlString) :
    ∃ template text stop, quotedKinds? q.opening.kind = some (template, text, stop) ∧
      q.WellFormed template text stop := by
  rcases h with ⟨hk, hw⟩ | ⟨hk, hw⟩
  · exact ⟨_, _, _, by rw [hk, quotedKinds?], hw⟩
  · exact ⟨_, _, _, by rw [hk, quotedKinds?], hw⟩

theorem quotedKinds?_ne {k template text stop : Kind}
    (h : quotedKinds? k = some (template, text, stop)) :
    k ≠ .endOfFileToken ∧ template ∉ [.endOfFileToken, text] ∧ text ≠ .endOfFileToken ∧
      stop ∉ [template, text] ∧ stop ≠ .endOfFileToken := by
  unfold quotedKinds? at h
  split at h
  · cases h
    decide
  · cases h
    decide
  · cases h

theorem QuotedPhrase.IsXmlString.straight {q : QuotedPhrase} (h : q.IsXmlString)
    (hs : scope.buffer.Shows s.position q.tokens) (hu : s.unwinding = false)
    (hd : scope.depth + 1 < scope.options.maxNestingDepth) (hl : q.tokens.length + 2 ≤ levels) :
    Straight (recursion levels) scope s xmlQuotedString (q.xmlString s.position)
      (s.position + q.tokens.length) := by
  obtain ⟨template, text, stop, hkinds, hw⟩ := h.exists_kinds
  obtain ⟨hne, htemplate, htext, hstop, hend⟩ := quotedKinds?_ne hkinds
  obtain ⟨hopening, hbehind⟩ := id hs
  obtain ⟨-, hclosing, -⟩ := Buffer.Shows.append.mp hbehind
  have hget := Buffer.Shows.get hopening
  have hbump : Straight (recursion levels) scope s bump (q.opening.leaf s.position)
      (s.position + 1) := .bump hget hne
  have hcontent := hw.straight_content htemplate htext hstop hs hu hd hl
  have hj : s.position + 1 + q.text.tokens.length + 1 = s.position + q.tokens.length := by
    simp [tokens]
    omega
  have hclose : Straight (recursion levels) scope
      (s.goTo (s.position + 1 + q.text.tokens.length))
      (expectClosing (q.opening.leaf s.position) stop "attribute value") _
      (s.position + 1 + q.text.tokens.length + 1) :=
    .expectClosing (Buffer.Shows.get hclosing) hw.closing hend
  rw [hj] at hclose
  have hnode : Straight (recursion levels) scope (s.goTo (s.position + q.tokens.length))
      (finishDelimited s.mark .xmlQuotedString
        (q.closing.leaf (s.position + 1 + q.text.tokens.length)))
      (.over .xmlQuotedString s.position q.tokens) (s.position + q.tokens.length) :=
    .finishDelimited (s := s.goTo _) _ hs (List.cons_ne_nil _ _) rfl rfl
  refine .look looks_mark (.look (looks_kind 0) ?_)
  rw [Scope.kindAt_zero hget, hkinds]
  exact .bind hbump (.bind hcontent (.bind hclose (.bind hnode (.pure _ rfl))))

namespace XmlAttributePhrase

theorem WellFormed.exists_first {a : XmlAttributePhrase} (h : a.WellFormed) :
    ∃ t ts, a.tokens = t :: ts ∧ t.kind ∈ [Kind.xmlQName, .xmlTagExpressionStart] := by
  obtain ⟨t, ts, hts, hk⟩ := h.name.exists_first
  exact ⟨t, ts ++ a.equals :: a.value.tokens, by rw [tokens, hts]; rfl, hk⟩

theorem WellFormed.straight {a : XmlAttributePhrase} (h : a.WellFormed)
    (hs : scope.buffer.Shows s.position a.tokens) (hu : s.unwinding = false)
    (hd : scope.depth + 1 < scope.options.maxNestingDepth) (hl : a.tokens.length + 2 ≤ levels) :
    Straight (recursion levels) scope s xmlAttribute (a.tree s.position)
      (s.position + a.tokens.length) := by
  obtain ⟨hn, he, hv⟩ := h
  obtain ⟨hshown, hequals, hvalue⟩ := Buffer.Shows.append.mp hs
  have hlength : a.tokens.length = a.name.tokens.length + a.value.tokens.length + 1 := by
    simp [tokens]
    omega
  have hquoted : a.value.tokens.length = a.value.text.tokens.length + 2 := by
    simp [QuotedPhrase.tokens]
  have hget := Buffer.Shows.get hequals
  have hname := hn.straight hshown (by rw [hget, he]; decide) hu hd
    (show 4 ≤ levels by omega)
  have hexpect : Straight (recursion levels) scope (s.goTo (s.position + a.name.tokens.length))
      (expect .xmlTagEquals) _ (s.position + a.name.tokens.length + 1) :=
    .expect hget he (by decide)
  have hlevels : a.value.tokens.length + 2 ≤ levels := by omega
  have hread := hv.straight (s := s.goTo (s.position + a.name.tokens.length + 1)) hvalue hu hd
    hlevels
  have hj : s.position + a.name.tokens.length + 1 + a.value.tokens.length =
      s.position + a.tokens.length := by omega
  rw [State.goTo_position, hj] at hread
  have hnode : Straight (recursion levels) scope (s.goTo (s.position + a.tokens.length))
      (finish s.mark .xmlAttribute) (.over .xmlAttribute s.position a.tokens)
      (s.position + a.tokens.length) :=
    .finish (s := s.goTo _) _ hs (by simp [tokens]) rfl
  exact .look looks_mark (.bind hname (.bind hexpect (.bind hread (.bind hnode (.pure _ rfl)))))

end XmlAttributePhrase

/-! ## Reading tags back -/

/-- The name and the attributes of a tag are read up to the token that closes it. -/
theorem XmlTagPhrase.WellFormed.straight {t : XmlTagPhrase} {closing : Kind}
    (h : t.WellFormed closing) (hc : closing ∈ [Kind.xmlTagSlashClose, .xmlTagClose])
    (hs : scope.buffer.Shows s.position t.tokens) (hu : s.unwinding = false)
    (hd : scope.depth + 1 < scope.options.maxNestingDepth) (hl : t.tokens.length + 2 ≤ levels) :
    Straight (recursion levels) scope s bump (t.opening.leaf s.position) (s.position + 1) ∧
      Straight (recursion levels) scope (s.goTo (s.position + 1)) xmlQualifiedName
        (t.name.tree (s.position + 1)) (s.position + 1 + t.name.tokens.length) ∧
      Straight (recursion levels) scope (s.goTo (s.position + 1 + t.name.tokens.length))
        (many do
          if !(← isUnwinding) && (← atAny [.xmlQName, .xmlTagExpressionStart]) then
            return some (← xmlAttribute)
          else return none)
        (t.attributeTrees s.position) (s.position + (t.tokens.length - 1)) ∧
      scope.buffer.get (s.position + (t.tokens.length - 1)) = t.closing := by
  obtain ⟨ho, hn, hattributes, hclosing⟩ := h
  obtain ⟨hopening, hbehind⟩ := hs
  obtain ⟨hname, hbehind⟩ := Buffer.Shows.append.mp hbehind
  obtain ⟨hshown, hlast, -⟩ := Buffer.Shows.append.mp hbehind
  have hlength : t.tokens.length = t.name.tokens.length +
      (t.attributes.flatMap XmlAttributePhrase.tokens).length + 2 := by
    simp [tokens]
    omega
  have hj : s.position + 1 + t.name.tokens.length +
      (t.attributes.flatMap XmlAttributePhrase.tokens).length =
        s.position + (t.tokens.length - 1) := by omega
  rw [hj] at hlast
  have hget := Buffer.Shows.get hlast
  have stops : ∀ k ∈ [Kind.xmlTagSlashClose, .xmlTagClose],
      k ∉ [Kind.xmlQName, .xmlTagExpressionStart, .xmlQNameSeparator] := by decide
  have hstop := stops _ hc
  have hbump : Straight (recursion levels) scope s bump (t.opening.leaf s.position)
      (s.position + 1) := .bump (Buffer.Shows.get hopening) (by rw [ho]; decide)
  -- Behind the name comes the first attribute, or the end of the tag if there is none.
  have hends : (scope.buffer.get (s.position + 1 + t.name.tokens.length)).kind ≠
      .xmlQNameSeparator := by
    cases ha : t.attributes with
    | nil =>
      rw [ha] at hj
      rw [show s.position + 1 + t.name.tokens.length = s.position + (t.tokens.length - 1) from hj,
        hget, hclosing]
      intro hk
      rw [hk] at hstop
      exact hstop (by decide)
    | cons a attributes =>
      obtain ⟨first, rest, hts, hk⟩ := (hattributes a (by rw [ha]; exact
        List.mem_cons_self)).exists_first
      rw [ha, List.flatMap_cons, hts] at hshown
      rw [Buffer.Shows.get hshown.1]
      intro he
      rw [he] at hk
      exact absurd hk (by decide)
  obtain ⟨first, rest, hts, -⟩ := hn.exists_first
  have hpositive : 0 < t.name.tokens.length := by
    rw [hts]
    exact Nat.succ_pos _
  have hlevels : 4 ≤ levels := by omega
  have hread := hn.straight (s := s.goTo (s.position + 1)) hname hends hu hd hlevels
  have hrow : Row (fun i a j =>
        scope.kindAt (s.goTo i) 0 ∈ [Kind.xmlQName, .xmlTagExpressionStart] ∧
          Straight (recursion levels) scope (s.goTo i) xmlAttribute a j)
      (s.position + 1 + t.name.tokens.length) (t.attributeTrees s.position)
      (s.position + (t.tokens.length - 1)) := by
    rw [← hj]
    refine .parts (fun _ => True) (fun a ha => ?_) (fun a ha i hshows _ => ?_) hshown trivial
    · obtain ⟨first, rest, hts, -⟩ := (hattributes a ha).exists_first
      exact ⟨first, rest, hts, trivial⟩
    · have hle : a.tokens.length ≤ (t.attributes.flatMap XmlAttributePhrase.tokens).length :=
        length_le_flatMap ha
      have hroom : a.tokens.length + 2 ≤ levels := by omega
      refine ⟨?_, (hattributes a ha).straight (s := s.goTo i) hshows hu hd hroom⟩
      obtain ⟨first, rest, hts, hk⟩ := (hattributes a ha).exists_first
      rw [hts] at hshows
      rw [Scope.kindAt_zero (s := s.goTo i) (Buffer.Shows.get hshows.1)]
      exact hk
  refine ⟨hbump, hread, hrow.many (fun i a j hstep => ?_) ?_ ?_, hget⟩
  · obtain ⟨hat, hattribute⟩ := hstep
    refine .look looks_isUnwinding (.look (looks_atAny _) (.ite_pos ?_
      (.bind hattribute (.pure _ rfl))))
    rw [State.goTo_unwinding, hu, List.contains_iff_mem.mpr hat]
    rfl
  · refine .look looks_isUnwinding (.look (looks_atAny _) (.ite_neg ?_ (.pure _ rfl)))
    rw [Bool.and_eq_true, List.contains_iff_mem, Scope.kindAt_zero (s := s.goTo _) hget, hclosing]
    rintro ⟨-, hk⟩
    exact hstop (List.mem_append_left [_] hk)
  · have hcount : (t.attributeTrees s.position).length ≤
        (t.attributes.flatMap XmlAttributePhrase.tokens).length :=
      length_placeAll _ _ fun a ha => by
        obtain ⟨first, rest, hts, -⟩ := (hattributes a ha).exists_first
        rw [hts]
        exact List.cons_ne_nil _ _
    rw [steps_recursion]
    omega

theorem XmlCloseTagPhrase.WellFormed.straight {t : XmlCloseTagPhrase} (h : t.WellFormed)
    (hs : scope.buffer.Shows s.position t.tokens) (hu : s.unwinding = false)
    (hd : scope.depth + 1 < scope.options.maxNestingDepth) (hl : 4 ≤ levels) :
    Straight (recursion levels) scope s xmlCloseTag (t.tree s.position)
      (s.position + t.tokens.length) := by
  obtain ⟨ho, hn, hc⟩ := h
  obtain ⟨hopening, hbehind⟩ := id hs
  obtain ⟨hname, hclosing, -⟩ := Buffer.Shows.append.mp hbehind
  have hget := Buffer.Shows.get hclosing
  have hbump : Straight (recursion levels) scope s bump (t.opening.leaf s.position)
      (s.position + 1) := .bump (Buffer.Shows.get hopening) (by rw [ho]; decide)
  have hread := hn.straight (s := s.goTo (s.position + 1)) hname
    (by rw [State.goTo_position, hget, hc]; decide) hu hd hl
  have hj : s.position + 1 + t.name.tokens.length + 1 = s.position + t.tokens.length := by
    simp [tokens]
    omega
  have hexpect : Straight (recursion levels) scope
      (s.goTo (s.position + 1 + t.name.tokens.length)) (expect .xmlTagClose) _
      (s.position + 1 + t.name.tokens.length + 1) := .expect hget hc (by decide)
  rw [hj] at hexpect
  have hnode : Straight (recursion levels) scope (s.goTo (s.position + t.tokens.length))
      (finish s.mark .xmlCloseTag) (.over .xmlCloseTag s.position t.tokens)
      (s.position + t.tokens.length) :=
    .finish (s := s.goTo _) _ hs (List.cons_ne_nil _ _) rfl
  exact .look looks_mark (.bind hbump (.bind hread (.bind hexpect (.bind hnode (.pure _ rfl)))))

/-! ## Reading pieces back -/

namespace XmlPiecePhrase

/-- The text of instructions and comments is read back, whatever follows it. -/
theorem straight_requiredText {t : TextPhrase} {template text : Kind}
    (hw : t.WellFormed template text) (ht : template ∉ [.endOfFileToken, text])
    (htext : text ≠ .endOfFileToken) (hlast : t.last ≠ none)
    (hs : scope.buffer.Shows s.position t.tokens) (hu : s.unwinding = false)
    (hd : scope.depth + 1 < scope.options.maxNestingDepth) (hl : t.tokens.length + 4 ≤ levels) :
    Straight (recursion levels) scope s (interpolatedText template text true)
      (textTree t s.position) (s.position + t.tokens.length) := by
  have hne : t.tokens ≠ [] := by
    obtain ⟨l, hl⟩ := Option.ne_none_iff_exists'.mp hlast
    rw [TextPhrase.tokens, hl]
    exact List.append_ne_nil_of_right_ne_nil _ (List.cons_ne_nil _ _)
  have hread : Straight (recursion levels) scope s (interpolatedText template text true) _ _ :=
    hw.straight ht htext hs (fun h => absurd h hlast) hu hd hl
  rw [NodeInfo.before_of_ne_nil hne] at hread
  exact hread

theorem straight_text {t : TextPhrase} (h : (text t).WellFormed)
    (hs : scope.buffer.Shows s.position t.tokens)
    (hend : (scope.buffer.get (s.position + t.tokens.length)).kind ∉
      [Kind.xmlTemplateText, .xmlText]) (hu : s.unwinding = false)
    (hd : scope.depth + 1 < scope.options.maxNestingDepth) (hl : t.tokens.length + 4 ≤ levels) :
    Straight (recursion levels) scope s xmlText (textTree t s.position)
      (s.position + t.tokens.length) := by
  obtain ⟨hw, hne⟩ := h
  have hread : Straight (recursion levels) scope s xmlText _ _ :=
    hw.straight (by decide) (by decide) hs (fun _ => ⟨rfl, hend⟩) hu hd hl
  rw [NodeInfo.before_of_ne_nil hne] at hread
  exact hread

theorem straight_instruction {target : Token} {t : TextPhrase}
    (h : (instruction target t).WellFormed)
    (hs : scope.buffer.Shows s.position (instruction target t).tokens) (hu : s.unwinding = false)
    (hd : scope.depth + 1 < scope.options.maxNestingDepth) (hl : t.tokens.length + 4 ≤ levels) :
    Straight (recursion levels) scope s xmlInstruction (instructionTree target t s.position)
      (s.position + (instruction target t).tokens.length) := by
  obtain ⟨hk, hw, hlast⟩ := h
  obtain ⟨htarget, htext⟩ := id hs
  have hbump : Straight (recursion levels) scope s bump (target.leaf s.position)
      (s.position + 1) := .bump (Buffer.Shows.get htarget) (by rw [hk]; decide)
  have hread := straight_requiredText (s := s.goTo (s.position + 1)) hw (by decide) (by decide)
    hlast htext hu hd hl
  have hj : s.position + 1 + t.tokens.length =
      s.position + (instruction target t).tokens.length := by
    rw [tokens, List.length_cons, Nat.add_assoc, Nat.add_comm 1]
  rw [State.goTo_position, hj] at hread
  have hnode : Straight (recursion levels) scope
      (s.goTo (s.position + (instruction target t).tokens.length))
      (finish s.mark .xmlProcessingInstruction)
      (.over .xmlProcessingInstruction s.position (target :: t.tokens))
      (s.position + (instruction target t).tokens.length) :=
    .finish (s := s.goTo _) _ hs (List.cons_ne_nil _ _) rfl
  exact .look looks_mark (.bind hbump (.bind hread (.bind hnode (.pure _ rfl))))

theorem straight_comment {opening : Token} {t : TextPhrase} (h : (comment opening t).WellFormed)
    (hs : scope.buffer.Shows s.position (comment opening t).tokens) (hu : s.unwinding = false)
    (hd : scope.depth + 1 < scope.options.maxNestingDepth) (hl : t.tokens.length + 4 ≤ levels) :
    Straight (recursion levels) scope s xmlComment (commentTree opening t s.position)
      (s.position + (comment opening t).tokens.length) := by
  obtain ⟨hk, hw, hlast⟩ := h
  obtain ⟨hopening, htext⟩ := id hs
  have hbump : Straight (recursion levels) scope s bump (opening.leaf s.position)
      (s.position + 1) := .bump (Buffer.Shows.get hopening) (by rw [hk]; decide)
  have hread := straight_requiredText (s := s.goTo (s.position + 1)) hw (by decide) (by decide)
    hlast htext hu hd hl
  have hj : s.position + 1 + t.tokens.length =
      s.position + (comment opening t).tokens.length := by
    rw [tokens, List.length_cons, Nat.add_assoc, Nat.add_comm 1]
  rw [State.goTo_position, hj] at hread
  have hnode : Straight (recursion levels) scope
      (s.goTo (s.position + (comment opening t).tokens.length)) (finish s.mark .xmlComment)
      (.over .xmlComment s.position (opening :: t.tokens))
      (s.position + (comment opening t).tokens.length) :=
    .finish (s := s.goTo _) _ hs (List.cons_ne_nil _ _) rfl
  exact .look looks_mark (.bind hbump (.bind hread (.bind hnode (.pure _ rfl))))

/-- Kinds of the tokens with which a piece begins. -/
def starts : XmlPiecePhrase → List Kind
  | text _ => [.xmlTemplateText, .xmlText]
  | cdata _ => [.xmlCdata]
  | instruction .. => [.xmlPi]
  | comment .. => [.xmlCommentStart]

theorem WellFormed.exists_first {p : XmlPiecePhrase} (h : p.WellFormed) :
    ∃ t ts, p.tokens = t :: ts ∧ t.kind ∈ p.starts := by
  cases p with
  | text t =>
    obtain ⟨hw, hne⟩ := h
    cases hholes : t.holes with
    | nil =>
      cases hlast : t.last with
      | none => exact absurd (by rw [TextPhrase.tokens, hholes, hlast]; rfl) hne
      | some l =>
        refine ⟨l, [], by rw [tokens, TextPhrase.tokens, hholes, hlast]; rfl, ?_⟩
        rw [hw.last l hlast]
        exact List.mem_cons_of_mem _ List.mem_cons_self
    | cons hole holes =>
      refine ⟨hole.opening, _, by rw [tokens, TextPhrase.tokens, hholes]; rfl, ?_⟩
      rw [(hw.holes hole (by rw [hholes]; exact List.mem_cons_self)).opening]
      exact List.mem_cons_self
  | cdata t => exact ⟨t, [], rfl, List.mem_singleton.mpr h⟩
  | instruction target t => exact ⟨target, _, rfl, List.mem_singleton.mpr h.1⟩
  | comment opening t => exact ⟨opening, _, rfl, List.mem_singleton.mpr h.1⟩

/-- The production that belongs to the piece reads it. -/
def Reads (levels : Nat) (scope : Scope) (s : State) (p : XmlPiecePhrase) : Prop :=
  match p with
  | text t =>
    Straight (recursion levels) scope s xmlText (textTree t s.position)
      (s.position + p.tokens.length)
  | cdata t =>
    Straight (recursion levels) scope s bump (t.leaf s.position) (s.position + p.tokens.length)
  | instruction target t =>
    Straight (recursion levels) scope s xmlInstruction (instructionTree target t s.position)
      (s.position + p.tokens.length)
  | comment opening t =>
    Straight (recursion levels) scope s xmlComment (commentTree opening t s.position)
      (s.position + p.tokens.length)

/-- A piece is read back; behind text there must be no text. -/
theorem WellFormed.reads {p : XmlPiecePhrase} (h : p.WellFormed)
    (hs : scope.buffer.Shows s.position p.tokens)
    (hend : p.isText = true → (scope.buffer.get (s.position + p.tokens.length)).kind ∉
      [Kind.xmlTemplateText, .xmlText]) (hu : s.unwinding = false)
    (hd : scope.depth + 1 < scope.options.maxNestingDepth) (hl : p.tokens.length + 4 ≤ levels) :
    scope.kindAt s 0 ∈ p.starts ∧ Reads levels scope s p := by
  constructor
  · obtain ⟨first, rest, hts, hk⟩ := h.exists_first
    rw [hts] at hs
    rw [Scope.kindAt_zero (Buffer.Shows.get hs.1)]
    exact hk
  · cases p with
    | text t => exact straight_text h hs (hend rfl) hu hd hl
    | cdata t =>
      refine .bump (Buffer.Shows.get hs.1) ?_
      rw [show t.kind = .xmlCdata from h]
      decide
    | instruction target t =>
      exact straight_instruction h hs hu hd (Nat.le_trans (Nat.add_le_add_right (Nat.le_succ _) 4) hl)
    | comment opening t =>
      exact straight_comment h hs hu hd (Nat.le_trans (Nat.add_le_add_right (Nat.le_succ _) 4) hl)

/-- Where a piece begins, the kind of the current token tells which piece it is. -/
@[elab_as_elim]
theorem Reads.byFirst {motive : XmlPiecePhrase → Kind → Prop} {p : XmlPiecePhrase}
    (h : Reads levels scope s p) (hk : scope.kindAt s 0 ∈ p.starts)
    (onText : ∀ t, Reads levels scope s (text t) →
      motive (text t) .xmlTemplateText ∧ motive (text t) .xmlText)
    (onCdata : ∀ t, Reads levels scope s (cdata t) → motive (cdata t) .xmlCdata)
    (onInstruction : ∀ target t, Reads levels scope s (instruction target t) →
      motive (instruction target t) .xmlPi)
    (onComment : ∀ opening t, Reads levels scope s (comment opening t) →
      motive (comment opening t) .xmlCommentStart) : motive p (scope.kindAt s 0) := by
  cases p with
  | text t =>
    rcases List.mem_cons.mp hk with hk | hk
    · exact hk ▸ (onText t h).1
    · exact List.mem_singleton.mp hk ▸ (onText t h).2
  | cdata t => exact List.mem_singleton.mp hk ▸ onCdata t h
  | instruction target t => exact List.mem_singleton.mp hk ▸ onInstruction target t h
  | comment opening t => exact List.mem_singleton.mp hk ▸ onComment opening t h

theorem Reads.straight_content {p : XmlPiecePhrase} (hk : scope.kindAt s 0 ∈ p.starts)
    (h : Reads levels scope s p) :
    Straight (recursion levels) scope s xmlContentItem (some (p.contentTree s.position))
      (s.position + p.tokens.length) := by
  refine .look (looks_kind 0) ?_
  refine h.byFirst hk (fun t h => ?_) (fun t h => .bind h (.pure _ rfl))
    (fun target t h => .bind h (.pure _ rfl)) fun opening t h => .bind h (.pure _ rfl)
  exact ⟨.bind h (.pure _ rfl), .bind h (.pure _ rfl)⟩

theorem Reads.straight_item {p : XmlPiecePhrase} (hk : scope.kindAt s 0 ∈ p.starts)
    (h : Reads levels scope s p) :
    Straight (recursion levels) scope s xmlItem (p.itemTree s.position)
      (s.position + p.tokens.length) := by
  refine .look (looks_kind 0) ?_
  refine h.byFirst hk (fun t h => ?_) (fun t h => .bind h (.pure _ rfl))
    (fun target t h => .bind h (.pure _ rfl)) fun opening t h => .bind h (.pure _ rfl)
  exact ⟨.bind h (.pure _ rfl), .bind h (.pure _ rfl)⟩

end XmlPiecePhrase

/-! ## Reading elements back -/

/-- Wherever the element stands, it is read back. -/
def XmlElementPhrase.Reads (e : XmlElementPhrase) : Prop :=
  ∀ ⦃levels : Nat⦄ ⦃scope : Scope⦄ ⦃s : State⦄, scope.buffer.Shows s.position e.tokens →
    s.unwinding = false → scope.depth + e.depth < scope.options.maxNestingDepth →
    e.tokens.length + 2 ≤ levels →
    Straight (recursion levels) scope s xmlElementBody (e.tree s.position)
      (s.position + e.tokens.length)

theorem XmlElementPhrase.WellFormed.exists_first {e : XmlElementPhrase} (h : e.WellFormed) :
    ∃ t ts, e.tokens = t :: ts ∧ t.kind = .xmlTagOpen := by
  cases e with
  | empty tag => exact ⟨tag.opening, _, rfl, XmlTagPhrase.WellFormed.opening h⟩
  | full tag content closeTag => exact ⟨tag.opening, _, rfl, h.1.opening⟩

/-- An item of an element stands at `i`, and is `a`, and the next one begins at `j`. -/
def IsXmlItem (levels : Nat) (scope : Scope) (s : State) (i : Nat) (a : Tree .xmlContent)
    (j : Nat) : Prop :=
  endsXmlContent (scope.kindAt (s.goTo i) 0) = false ∧
    Straight (recursion levels) scope (s.goTo i) xmlContentItem (some a) j

/-- Items in a row in front of a close tag are the content of an element. -/
theorem straight_xmlContent {items : List (Tree .xmlContent)} {i j : Nat}
    (h : Row (IsXmlItem levels scope s) i items j) (hu : s.unwinding = false)
    (hend : scope.kindAt (s.goTo j) 0 = .xmlTagOpenSlash) (hn : items.length + 1 < levels) :
    Straight (recursion levels) scope (s.goTo i) xmlContent (.ofList items) j := by
  refine .bind (h.loop (fun read i a j hstep => ?_) (fun read => ?_) ?_) (.pure _ rfl)
  · obtain ⟨hgoes, hitem⟩ := hstep
    refine .look looks_isUnwinding (.look (looks_kind 0) (.ite_neg ?_
      (.bind hitem (.pure _ rfl))))
    rw [hgoes, State.goTo_unwinding, hu]
    exact nofun
  · refine .look looks_isUnwinding (.look (looks_kind 0) (.ite_pos ?_ (.pure _ rfl)))
    rw [hend, State.goTo_unwinding, hu]
    rfl
  · rw [steps_recursion]
    omega

/-- Wherever the items stand in front of a close tag, they are items in a row. -/
def XmlContentPhrase.Reads (c : XmlContentPhrase) : Prop :=
  ∀ ⦃levels : Nat⦄ ⦃scope : Scope⦄ ⦃s : State⦄ ⦃i : Nat⦄, scope.buffer.Shows i c.tokens →
    (scope.buffer.get (i + c.tokens.length)).kind = .xmlTagOpenSlash → s.unwinding = false →
    scope.depth + (c.depth + 1) < scope.options.maxNestingDepth → c.tokens.length + 4 ≤ levels →
    Row (IsXmlItem levels scope s) i (c.trees i) (i + c.tokens.length)

namespace XmlContentPhrase

theorem reads_nil : nil.Reads := fun _ _ _ i _ _ _ _ _ => .nil i

/-- What begins here is no text if the first item is none. -/
theorem WellFormed.not_text {c : XmlContentPhrase} {b : Buffer} {i : Nat} (h : c.WellFormed)
    (ht : c.startsText = false) (hs : b.Shows i c.tokens)
    (hend : (b.get (i + c.tokens.length)).kind = .xmlTagOpenSlash) :
    (b.get i).kind ∉ [Kind.xmlTemplateText, .xmlText] := by
  cases c with
  | nil =>
    rw [show (b.get i).kind = .xmlTagOpenSlash from hend]
    decide
  | piece head tail =>
    obtain ⟨first, rest, hts, hk⟩ := h.1.exists_first
    rw [tokens, hts] at hs
    rw [Buffer.Shows.get hs.1]
    cases head with
    | text t => cases ht
    | cdata t => rw [List.mem_singleton.mp hk]; decide
    | instruction target t => rw [List.mem_singleton.mp hk]; decide
    | comment opening t => rw [List.mem_singleton.mp hk]; decide
  | element head tail =>
    obtain ⟨first, rest, hts, hk⟩ := h.1.exists_first
    rw [tokens, hts] at hs
    rw [Buffer.Shows.get hs.1, hk]
    decide

theorem length_trees : ∀ (c : XmlContentPhrase), c.WellFormed → ∀ i,
    (c.trees i).length ≤ c.tokens.length
  | .nil, _, _ => Nat.le_refl _
  | .piece head tail, h, i => by
    have htail := length_trees tail h.2.2 (i + head.tokens.length)
    obtain ⟨first, rest, hts, -⟩ := h.1.exists_first
    rw [trees, tokens, List.length_cons, List.length_append, hts, List.length_cons]
    rw [hts] at htail
    simp only [List.length_cons] at htail
    omega
  | .element head tail, h, i => by
    have htail := length_trees tail h.2 (i + head.tokens.length)
    obtain ⟨first, rest, hts, -⟩ := h.1.exists_first
    rw [trees, tokens, List.length_cons, List.length_append, hts, List.length_cons]
    rw [hts] at htail
    simp only [List.length_cons] at htail
    omega

theorem reads_piece {head : XmlPiecePhrase} {tail : XmlContentPhrase}
    (hw : (piece head tail).WellFormed) (ih : tail.Reads) : (piece head tail).Reads := by
  intro levels scope s i hs hend hu hd hl
  obtain ⟨hhead, htext, htail⟩ := hw
  obtain ⟨hshead, hstail⟩ := Buffer.Shows.append.mp hs
  have hlength : (piece head tail).tokens.length = head.tokens.length + tail.tokens.length :=
    List.length_append
  have hj : i + head.tokens.length + tail.tokens.length =
      i + (piece head tail).tokens.length := by omega
  rw [← hj] at hend ⊢
  have hnext : head.isText = true → (scope.buffer.get (i + head.tokens.length)).kind ∉
      [Kind.xmlTemplateText, .xmlText] := fun h => htail.not_text (htext h) hstail hend
  have hdepth : scope.depth + 1 < scope.options.maxNestingDepth := by omega
  have hroom : head.tokens.length + 4 ≤ levels := by omega
  obtain ⟨hk, hreads⟩ := hhead.reads (s := s.goTo i) hshead hnext hu hdepth hroom
  refine .cons ⟨?_, hreads.straight_content hk⟩ (ih hstail hend hu hd (by omega))
  have starts : ∀ k ∈ head.starts, endsXmlContent k = false := by
    cases head <;> simp [XmlPiecePhrase.starts, endsXmlContent]
  exact starts _ hk

theorem reads_element {head : XmlElementPhrase} {tail : XmlContentPhrase}
    (hw : (element head tail).WellFormed) (ihh : head.Reads) (ih : tail.Reads) :
    (element head tail).Reads := by
  intro levels scope s i hs hend hu hd hl
  obtain ⟨hshead, hstail⟩ := Buffer.Shows.append.mp hs
  have hlength : (element head tail).tokens.length = head.tokens.length + tail.tokens.length :=
    List.length_append
  have hdepth : (element head tail).depth = max head.depth tail.depth := rfl
  have hj : i + head.tokens.length + tail.tokens.length =
      i + (element head tail).tokens.length := by omega
  rw [← hj] at hend ⊢
  have hkind : scope.kindAt (s.goTo i) 0 = .xmlTagOpen := by
    obtain ⟨first, rest, hts, hk⟩ := hw.1.exists_first
    rw [hts] at hshead
    rw [Scope.kindAt_zero (s := s.goTo i) (Buffer.Shows.get hshead.1), hk]
  obtain ⟨n, rfl⟩ := Nat.exists_eq_add_of_le' (Nat.le_trans (Nat.le_add_left 1 _) hl)
  have hinner : ({ scope with depth := scope.depth + 1 } : Scope).depth + head.depth <
      ({ scope with depth := scope.depth + 1 } : Scope).options.maxNestingDepth := by
    change scope.depth + 1 + head.depth < scope.options.maxNestingDepth
    omega
  have hroom : head.tokens.length + 2 ≤ n := by omega
  have hread : Straight (recursion (n + 1)) { scope with depth := scope.depth + 1 } (s.goTo i)
      xmlElement (head.tree i) (i + head.tokens.length) :=
    .call (ihh (s := s.goTo i) hshead hu hinner hroom)
  refine .cons ⟨?_, ?_⟩ (ih hstail hend hu (by omega) (by omega))
  · rw [hkind]
    rfl
  · refine .look (looks_kind 0) ?_
    rw [hkind]
    exact .bind (.nested (by omega) (.bind hread (.pure _ rfl))) (.pure _ rfl)

end XmlContentPhrase

namespace XmlElementPhrase

theorem reads_empty {tag : XmlTagPhrase} (hw : (empty tag).WellFormed) : (empty tag).Reads := by
  intro levels scope s hs hu hd hl
  have hwt : tag.WellFormed .xmlTagSlashClose := hw
  obtain ⟨hbump, hname, hattributes, hget⟩ := hwt.straight (by decide) hs hu hd hl
  have hpositive : tag.tokens.length - 1 + 1 = tag.tokens.length := rfl
  have haccept : Straight (recursion levels) scope
      (s.goTo (s.position + (tag.tokens.length - 1))) (accept .xmlTagSlashClose) true
      (s.position + tag.tokens.length) := .accept_yes hget hwt.closing (by decide)
  have hnode : ∀ k, Straight (recursion levels) scope
      (s.goTo (s.position + tag.tokens.length)) (finish s.mark k) (.over k s.position tag.tokens)
      (s.position + tag.tokens.length) :=
    fun k => .finish (s := s.goTo _) _ hs (List.cons_ne_nil _ _) rfl
  exact .look looks_mark (.bind hbump (.bind hname (.bind hattributes
    (.bind haccept (.ite_pos rfl (.bind (hnode _) (.bind (hnode _) (.pure _ rfl))))))))

theorem reads_full {tag : XmlTagPhrase} {content : XmlContentPhrase}
    {closeTag : XmlCloseTagPhrase} (hw : (full tag content closeTag).WellFormed)
    (ih : content.Reads) : (full tag content closeTag).Reads := by
  intro levels scope s hs hu hd hl
  obtain ⟨hwt, hwcontent, hwc⟩ := hw
  obtain ⟨hstag, hbehind⟩ := Buffer.Shows.append.mp hs
  obtain ⟨hscontent, hsclose⟩ := Buffer.Shows.append.mp hbehind
  have hlength : (full tag content closeTag).tokens.length =
      tag.tokens.length + content.tokens.length + closeTag.tokens.length := by
    rw [tokens, List.length_append, List.length_append, Nat.add_assoc]
  have hclosing : 3 ≤ closeTag.tokens.length := by
    obtain ⟨first, rest, hts, -⟩ := hwc.name.exists_first
    rw [XmlCloseTagPhrase.tokens, hts]
    simp
  have hdepth : (full tag content closeTag).depth = content.depth + 1 := rfl
  have hroom : tag.tokens.length + 2 ≤ levels := by omega
  obtain ⟨hbump, hname, hattributes, hget⟩ := hwt.straight (by decide) hstag hu (by omega) hroom
  have hno : scope.kindAt (s.goTo (s.position + (tag.tokens.length - 1))) 0 ≠
      .xmlTagSlashClose := by
    rw [Scope.kindAt_zero (s := s.goTo _) hget, hwt.closing]
    decide
  have hexpect : Straight (recursion levels) scope
      (s.goTo (s.position + (tag.tokens.length - 1))) (expect .xmlTagClose) _
      (s.position + tag.tokens.length) := .expect hget hwt.closing (by decide)
  have htag : Straight (recursion levels) scope (s.goTo (s.position + tag.tokens.length))
      (finish s.mark .xmlStartTag) (.over .xmlStartTag s.position tag.tokens)
      (s.position + tag.tokens.length) :=
    .finish (s := s.goTo _) _ hstag (List.cons_ne_nil _ _) rfl
  have hkind : scope.kindAt
      (s.goTo (s.position + tag.tokens.length + content.tokens.length)) 0 = .xmlTagOpenSlash := by
    rw [Scope.kindAt_zero (s := s.goTo _) (Buffer.Shows.get hsclose.1), hwc.opening]
  have hrow := ih hscontent hkind hu hd (show _ ≤ levels by omega)
  have hcount := content.length_trees hwcontent (s.position + tag.tokens.length)
  have hread := straight_xmlContent hrow hu hkind (by omega)
  have hclose := hwc.straight
    (s := s.goTo (s.position + tag.tokens.length + content.tokens.length)) hsclose hu
    (show scope.depth + 1 < _ by omega) (show 4 ≤ levels by omega)
  have hj : s.position + tag.tokens.length + content.tokens.length + closeTag.tokens.length =
      s.position + (full tag content closeTag).tokens.length := by omega
  rw [State.goTo_position, hj] at hclose
  have hnode : Straight (recursion levels) scope
      (s.goTo (s.position + (full tag content closeTag).tokens.length)) (finish s.mark .xmlElement)
      (.over .xmlElement s.position (full tag content closeTag).tokens)
      (s.position + (full tag content closeTag).tokens.length) :=
    .finish (s := s.goTo _) _ hs (List.cons_ne_nil _ _) rfl
  have hat : (scope.kindAt
      (s.goTo (s.position + tag.tokens.length + content.tokens.length)) 0 == .xmlTagOpenSlash) =
        true := beq_iff_eq.mpr hkind
  exact .look looks_mark (.bind hbump (.bind hname (.bind hattributes (.bind (.accept_no hno)
    (.ite_neg nofun (.bind hexpect (.bind htag (.bind hread (.look (looks_atKind _)
      (.ite_pos hat (.bind hclose (.bind hnode (.pure _ rfl)))))))))))))

end XmlElementPhrase

mutual

/-- By induction on the element, whose content is a row of items. -/
theorem XmlElementPhrase.WellFormed.reads : ∀ {e : XmlElementPhrase}, e.WellFormed → e.Reads
  | .empty _, h => XmlElementPhrase.reads_empty h
  | .full .., h =>
    XmlElementPhrase.reads_full h (XmlContentPhrase.WellFormed.reads h.2.1)

theorem XmlContentPhrase.WellFormed.reads : ∀ {c : XmlContentPhrase}, c.WellFormed → c.Reads
  | .nil, _ => XmlContentPhrase.reads_nil
  | .piece .., h => XmlContentPhrase.reads_piece h (XmlContentPhrase.WellFormed.reads h.2.2)
  | .element .., h =>
    XmlContentPhrase.reads_element h (XmlElementPhrase.WellFormed.reads h.1)
      (XmlContentPhrase.WellFormed.reads h.2)

end

/-! ## Reading literals back -/

theorem XmlItemPhrase.WellFormed.straight {x : XmlItemPhrase} (h : x.WellFormed)
    (hs : scope.buffer.Shows s.position x.tokens)
    (hend : (scope.buffer.get (s.position + x.tokens.length)).kind = .xmlLiteralEnd)
    (hu : s.unwinding = false) (hd : scope.depth + x.depth + 1 < scope.options.maxNestingDepth)
    (hl : x.tokens.length + 4 ≤ levels) :
    Straight (recursion levels) scope s xmlItem (x.tree s.position)
      (s.position + x.tokens.length) := by
  cases x with
  | piece p =>
    have hnext : p.isText = true → (scope.buffer.get (s.position + p.tokens.length)).kind ∉
        [Kind.xmlTemplateText, .xmlText] := by
      intro _
      rw [show (scope.buffer.get (s.position + p.tokens.length)).kind = .xmlLiteralEnd from hend]
      decide
    obtain ⟨hk, hreads⟩ := XmlPiecePhrase.WellFormed.reads h hs hnext hu hd hl
    exact hreads.straight_item hk
  | element e =>
    obtain ⟨n, rfl⟩ := Nat.exists_eq_add_of_le' (Nat.le_trans (Nat.le_add_left 1 _) hl)
    have hlength : (element e).tokens.length = e.tokens.length := rfl
    have hdepth : (element e).depth = e.depth := rfl
    have hread : Straight (recursion (n + 1)) scope s xmlElement _ _ :=
      .call (XmlElementPhrase.WellFormed.reads h hs hu (by omega) (by omega))
    obtain ⟨first, rest, hts, hk⟩ := XmlElementPhrase.WellFormed.exists_first h
    refine .look (looks_kind 0) ?_
    have hshown : scope.buffer.Shows s.position e.tokens := hs
    rw [hts] at hshown
    rw [Scope.kindAt_zero (Buffer.Shows.get hshown.1), hk]
    exact .bind hread (.pure _ rfl)

/-- An XML literal is read back. -/
theorem XmlPhrase.WellFormed.straight {x : XmlPhrase} (h : x.WellFormed)
    (hs : scope.buffer.Shows s.position x.tokens) (hu : s.unwinding = false)
    (hd : scope.depth + x.item.depth + 1 < scope.options.maxNestingDepth)
    (hl : x.tokens.length + 2 ≤ levels) :
    Straight (recursion levels) scope s xmlLiteral (x.tree s.position)
      (s.position + x.tokens.length) := by
  obtain ⟨ho, hw, hc⟩ := h
  obtain ⟨hopening, hbehind⟩ := id hs
  obtain ⟨hitem, hclosing, -⟩ := Buffer.Shows.append.mp hbehind
  have hget := Buffer.Shows.get hclosing
  have hlength : x.tokens.length = x.item.tokens.length + 2 := by simp [tokens]
  have hbump : Straight (recursion levels) scope s bump (x.opening.leaf s.position)
      (s.position + 1) := .bump (Buffer.Shows.get hopening) (by rw [ho]; decide)
  have hroom : x.item.tokens.length + 4 ≤ levels := by omega
  have hread := hw.straight (s := s.goTo (s.position + 1)) hitem
    (by rw [State.goTo_position, hget, hc]) hu hd hroom
  have hj : s.position + 1 + x.item.tokens.length + 1 = s.position + x.tokens.length := by omega
  have hclose : Straight (recursion levels) scope
      (s.goTo (s.position + 1 + x.item.tokens.length))
      (expectClosing (x.opening.leaf s.position) .xmlLiteralEnd "XML literal") _
      (s.position + 1 + x.item.tokens.length + 1) := .expectClosing hget hc (by decide)
  rw [hj] at hclose
  have hnode : Straight (recursion levels) scope (s.goTo (s.position + x.tokens.length))
      (finishDelimited s.mark .xmlLiteral
        (x.closing.leaf (s.position + 1 + x.item.tokens.length)))
      (.over .xmlLiteral s.position x.tokens) (s.position + x.tokens.length) :=
    .finishDelimited (s := s.goTo _) _ hs (List.cons_ne_nil _ _) rfl rfl
  exact .look looks_mark (.bind hbump (.bind hread (.bind hclose (.bind hnode (.pure _ rfl)))))

end Reading

/-- XML literals, string templates, documentation and deprecation notices are read back where they
stand: all of their tokens are taken, and nothing else changes, so that no error is counted or
recorded. Names in holes take two levels of nesting, and elements one each for those inside. -/
theorem embeddedText_readsBack (levels : Nat) (scope : Scope) (s : State) :
    (∀ x : XmlPhrase, x.WellFormed → scope.buffer.Shows s.position x.tokens →
      s.unwinding = false → scope.depth + x.item.depth + 1 < scope.options.maxNestingDepth →
      x.tokens.length + 2 ≤ levels →
      xmlLiteral (recursion levels) scope s =
        some (x.tree s.position, { s with position := s.position + x.tokens.length })) ∧
    (∀ q : QuotedPhrase, q.IsStringTemplate → scope.buffer.Shows s.position q.tokens →
      s.unwinding = false → scope.depth + 1 < scope.options.maxNestingDepth →
      q.tokens.length + 2 ≤ levels →
      stringTemplate (recursion levels) scope s =
        some (q.stringTemplate s.position, { s with position := s.position + q.tokens.length })) ∧
    (∀ d : DocumentationPhrase, d.WellFormed → scope.buffer.Shows s.position d.tokens →
      d.tokens.length + 2 ≤ levels →
      documentation (recursion levels) scope s =
        some (d.tree s.position, { s with position := s.position + d.tokens.length })) ∧
    (∀ d : DeprecationPhrase, d.WellFormed → scope.buffer.Shows s.position d.tokens →
      d.tokens.length + 2 ≤ levels →
      deprecation (recursion levels) scope s =
        some (d.tree s.position, { s with position := s.position + d.tokens.length })) :=
  ⟨fun _ hw hs hu hd hl => hw.straight hs hu hd hl,
    fun _ hw hs hu hd hl => hw.straight hs hu hd hl,
    fun _ hw hs hl => hw.straight hs hl,
    fun _ hw hs hl => hw.straight hs hl⟩

/-- `<a p:b="{x}!"><!--c-->t<d/></e>` -/
def XmlPhrase.mixed : XmlPhrase where
  opening := .place .xmlLiteralStart "xml`" 0
  item := .element <| .full
    { opening := .place .xmlTagOpen "<" 4
      name := .plain (.place .xmlQName "a" 5)
      attributes := [{
        name := .prefixed (.place .xmlQName "p" 7) (.place .xmlQNameSeparator ":" 8)
          (.place .xmlQName "b" 9)
        equals := .place .xmlTagEquals "=" 10
        value := {
          opening := .place .xmlDoubleQuote "\"" 11
          text := {
            holes := [⟨.place .xmlDoubleQuotedTemplateString "\x7b" 12, .place .identifier "x" 13,
              .place .expressionEnd "\x7d" 14⟩]
            last := some (.place .xmlDoubleQuotedString "!" 15) }
          closing := .place .xmlDoubleQuoteEnd "\"" 16 } }]
      closing := .place .xmlTagClose ">" 17 }
    (.piece (.comment (.place .xmlCommentStart "<!--" 18)
        { holes := [], last := some (.place .xmlCommentText "c-->" 22) })
      (.piece (.text { holes := [], last := some (.place .xmlText "t" 26) })
        (.element (.empty
          { opening := .place .xmlTagOpen "<" 27
            name := .plain (.place .xmlQName "d" 28)
            attributes := []
            closing := .place .xmlTagSlashClose "/>" 29 }) .nil)))
    { opening := .place .xmlTagOpenSlash "</" 31
      name := .plain (.place .xmlQName "e" 33)
      closing := .place .xmlTagClose ">" 34 }
  closing := .place .xmlLiteralEnd "`" 35

/-- A text template that holds a name and nothing behind it. -/
def QuotedPhrase.greeting : QuotedPhrase where
  opening := .place .stringTemplateLiteralStart "string`" 0
  text := {
    holes := [⟨.place .stringTemplateExpressionStart "Hi \x7b\x7b" 7, .place .identifier "x" 12,
      .place .expressionEnd "\x7d\x7d" 13⟩]
    last := none }
  closing := .place .stringTemplateLiteralEnd "`" 15

/-- Documentation with the description of an attribute that has no text. -/
def DocumentationPhrase.described : DocumentationPhrase where
  opening := .place .documentationTemplateStart "documentation\x7b" 0
  text := [.code 2 (.place .doubleBacktickInlineCodeStart "``" 14) none
    (.place .doubleBacktickInlineCodeEnd "``" 16)]
  attributes := [{
    opening := .place .documentationTemplateAttributeStart "P\x7b\x7b" 18
    name := some (.place .identifier "x" 21)
    closing := .place .documentationTemplateAttributeEnd "\x7d\x7d" 22
    text := [] }]
  closing := .place .documentationTemplateEnd "\x7d" 24

def DeprecationPhrase.empty : DeprecationPhrase where
  opening := .place .deprecatedTemplateStart "deprecated\x7b" 0
  text := []
  closing := .place .deprecatedTemplateEnd "\x7d" 11

/-- These tokens, with four levels of nesting. -/
def Scope.showing (ts : List Token) : Scope where
  buffer := .ofSource { tokens := ts ++ [.endOfFile 40] }
  options := { maxNestingDepth := 4 }
  file := "text.bal"

theorem mixedText_readsBack :
    xmlLiteral (recursion 26) (.showing XmlPhrase.mixed.tokens) {} =
        some (XmlPhrase.mixed.tree 0, { position := 24 }) ∧
      stringTemplate (recursion 7) (.showing QuotedPhrase.greeting.tokens) {} =
        some (QuotedPhrase.greeting.stringTemplate 0, { position := 5 }) ∧
      documentation (recursion 9) (.showing DocumentationPhrase.described.tokens) {} =
        some (DocumentationPhrase.described.tree 0, { position := 7 }) ∧
      deprecation (recursion 4) (.showing DeprecationPhrase.empty.tokens) {} =
        some (DeprecationPhrase.empty.tree 0, { position := 2 }) := by
  have hvalue : QuotedPhrase.IsXmlString
      { opening := .place .xmlDoubleQuote "\"" 11
        text := {
          holes := [⟨.place .xmlDoubleQuotedTemplateString "\x7b" 12, .place .identifier "x" 13,
            .place .expressionEnd "\x7d" 14⟩]
          last := some (.place .xmlDoubleQuotedString "!" 15) }
        closing := .place .xmlDoubleQuoteEnd "\"" 16 } := by
    refine .inl ⟨rfl, ⟨fun h hh => ?_, fun l hl => ?_⟩, rfl⟩
    · rw [List.mem_singleton.mp hh]
      exact ⟨rfl, rfl, rfl⟩
    · rw [← Option.some.inj hl]
      rfl
  have hcomment : XmlPiecePhrase.WellFormed (.comment (.place .xmlCommentStart "<!--" 18)
      { holes := [], last := some (.place .xmlCommentText "c-->" 22) }) := by
    refine ⟨rfl, ⟨fun _ hh => absurd hh List.not_mem_nil, fun l hl => ?_⟩, Option.some_ne_none _⟩
    rw [← Option.some.inj hl]
    rfl
  have htext : XmlPiecePhrase.WellFormed
      (.text { holes := [], last := some (.place .xmlText "t" 26) }) := by
    refine ⟨⟨fun _ hh => absurd hh List.not_mem_nil, fun l hl => ?_⟩, List.cons_ne_nil _ _⟩
    rw [← Option.some.inj hl]
    rfl
  have hw : XmlPhrase.mixed.WellFormed := by
    refine ⟨rfl, ⟨⟨rfl, rfl, fun a ha => ?_, rfl⟩, ⟨hcomment, fun h => absurd h Bool.false_ne_true,
      htext, fun _ => rfl, ⟨rfl, rfl, fun _ h => absurd h List.not_mem_nil, rfl⟩, trivial⟩, rfl,
      rfl, rfl⟩, rfl⟩
    rw [List.mem_singleton.mp ha]
    exact ⟨⟨rfl, rfl, rfl⟩, rfl, hvalue⟩
  have hgreeting : QuotedPhrase.greeting.IsStringTemplate := by
    refine ⟨rfl, ⟨fun h hh => ?_, fun _ hl => absurd hl (Option.not_mem_none _)⟩, rfl⟩
    rw [List.mem_singleton.mp hh]
    exact ⟨rfl, rfl, rfl⟩
  have hdescribed : DocumentationPhrase.described.WellFormed := by
    refine ⟨rfl, fun p hp => ?_, fun a ha => ?_, rfl⟩
    · rw [List.mem_singleton.mp hp]
      exact ⟨_, List.mem_cons_of_mem _ List.mem_cons_self, rfl, rfl,
        fun _ ht => absurd ht (Option.not_mem_none _), rfl⟩
    · rw [List.mem_singleton.mp ha]
      refine ⟨rfl, fun t ht => ?_, rfl, fun _ hp => absurd hp List.not_mem_nil⟩
      rw [← Option.some.inj ht]
      rfl
  have hempty : DeprecationPhrase.empty.WellFormed :=
    ⟨rfl, fun _ hp => absurd hp List.not_mem_nil, rfl⟩
  refine ⟨?_, ?_, ?_, ?_⟩
  · exact (embeddedText_readsBack 26 (.showing _) {}).1 _ hw
      (by simp only [XmlPhrase.mixed]; repeat constructor) rfl (by decide) (by decide)
  · exact (embeddedText_readsBack 7 (.showing _) {}).2.1 _ hgreeting (by repeat constructor) rfl
      (by decide) (by decide)
  · exact (embeddedText_readsBack 9 (.showing _) {}).2.2.1 _ hdescribed (by repeat constructor)
      (by decide)
  · exact (embeddedText_readsBack 4 (.showing _) {}).2.2.2 _ hempty (by repeat constructor)
      (by decide)

end BallerinaSyntax
