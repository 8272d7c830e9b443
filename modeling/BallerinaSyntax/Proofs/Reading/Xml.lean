import BallerinaSyntax.Proofs.Reading.Literal
import BallerinaSyntax.Grammar.Xml

/-! The contracts of XML literals and string templates. -/

namespace BallerinaSyntax

open Parse Condition Grammar

/-! ## Text -/

@[simp] theorem pieces_plainText (text : Leaf) : pieces (Tree.plainText text) = pieces text := rfl

theorem builds_interpolation (m : Mark) : Builds m [] solid interpolation :=
  .mark fun _ => .bump (fun _ _ h => h) fun _ => .bind reads_expression fun _ =>
    .bind (reads_expect nofun) fun _ => .node (fun _ => rfl) (by simp)

theorem reads_interpolatedText {template text : Kind} (htemplate : template ≠ .endOfFileToken)
    (htext : text ≠ .endOfFileToken) (textRequired : Bool) :
    Reads (interpolatedText template text textRequired) := by
  refine .marked fun m => .bind (.many ?_) fun holes => .look (looks_atKind _) fun here => ?_
  · refine .of fun m => .look (looks_goesOn _) fun b => .ite (fun hb => ?_) fun _ => .done (by simp)
    refine .bindAt (fun n => (builds_interpolation n).weaken fun scope s hs he => ?_)
      fun _ => .done (by simp)
    have := hs.2.trans hb
    simp_all
  extract_lets node
  have hn : ∀ last, Builds m (pieces holes ++ pieces last) any (node last) := fun _ =>
    .node (fun _ => rfl) (by simp)
  clear_value node
  refine .ite (fun h => ?_) fun _ => .ite (fun _ => ?_) fun _ => .give ((hn _).onward (by simp))
  · refine .bump (fun scope s hs he => ?_) fun _ => .give ((hn _).onward (by simp))
    rw [he, h] at hs
    exact htext (beq_iff_eq.mp hs.2).symm
  · exact .skip (reads_expect htext) fun _ => .give ((hn _).onward (by simp))

theorem builds_missingText (m : Mark) : Builds m [] (erred m) missingText :=
  (builds_placeholder m _).andThen fun _ => .done (.refl _)

theorem reads_stringTemplate : Reads stringTemplate :=
  .marked fun _ => .skipBump fun _ => .bind (reads_interpolatedText (by simp) (by simp) _) fun _ =>
    .bind (reads_expectClosing _ _ nofun) fun _ => .delimited (fun _ => rfl) (by simp)

theorem reads_xmlText : Reads xmlText := reads_interpolatedText (by simp) (by simp) _

theorem reads_xmlComment : Reads xmlComment :=
  .marked fun _ => .skipBump fun _ => .bind (reads_interpolatedText (by simp) (by simp) _) fun _ =>
    .node (fun _ => rfl) (by simp)

theorem builds_xmlInstruction (m : Mark) : Builds m [] solid xmlInstruction :=
  .mark fun _ => .bump (fun _ _ h => h) fun _ => .bind (reads_interpolatedText (by simp) (by simp) _)
    fun _ => .node (fun _ => rfl) (by simp)

/-! ## Tags -/

/-- The tag with which an element begins. -/
@[simp] theorem pieces_xmlStartTag (info : NodeInfo) (name : Tree .xmlQualifiedName)
    (attributes : Tree (.list .xmlAttribute)) :
    pieces (Tree.xmlStartTag info name attributes) =
      [(.node info, name.parts ++ attributes.parts)] := rfl

@[simp] theorem pieces_xmlName (n : XmlName) : pieces (Tree.xmlName n) = pieces n := rfl

theorem reads_xmlQualifiedName : Reads xmlQualifiedName := by
  refine .marked fun m => .skip (reads_accept _) fun _ => .ite (fun _ => ?_) fun _ =>
    .look (looks_atKind _) fun here => .look (looks_isKind _ _) fun separator => ?_
  · exact .bind reads_expression fun _ => .skip (reads_expect nofun) fun _ =>
      .node (fun _ => rfl) (by simp)
  extract_lets node
  have hn : ∀ space, Builds m (pieces space) any (node space) := fun _ =>
    .bind (reads_expect nofun) fun _ => .node (fun _ => rfl) (by simp)
  clear_value node
  refine .ite (fun h => ?_) fun _ => .give ((hn _).onward (by simp))
  refine .bump (fun scope s hs => ?_) fun _ => .skipBump fun _ => .give ((hn _).onward (by simp))
  simp_all [solid]

theorem quotedKinds?_solid {k template text stop : Kind}
    (h : quotedKinds? k = some (template, text, stop)) :
    template ≠ .endOfFileToken ∧ text ≠ .endOfFileToken ∧ stop ≠ .endOfFileToken := by
  unfold quotedKinds? at h
  split at h <;> cases h <;> simp

theorem reads_xmlQuotedString : Reads xmlQuotedString := by
  refine .marked fun m => .look (looks_kind 0) fun k => ?_
  split
  · rename_i template text stop h
    obtain ⟨htemplate, htext, hstop⟩ := quotedKinds?_solid h
    exact .skipBump fun _ => .bind (reads_interpolatedText htemplate htext _) fun _ =>
      .bind (reads_expectClosing _ _ hstop) fun _ => .delimited (fun _ => rfl) (by simp)
  · refine .complain (reads_errorExpected _) (complains_errorExpected _) fun _ => ?_
    exact (builds_missingText m).andThen fun _ => .node (fun _ => rfl) (by simp)

theorem reads_xmlAttribute : Reads xmlAttribute :=
  .marked fun _ => .bind reads_xmlQualifiedName fun _ => .skip (reads_expect nofun) fun _ =>
    .bind reads_xmlQuotedString fun _ => .node (fun _ => rfl) (by simp)

/-! ## Elements -/

@[simp] theorem pieces_contentText (t : Tree .interpolatedText) :
    pieces (Tree.contentText t) = pieces t := rfl

@[simp] theorem pieces_contentElement (t : Tree .xmlElement) :
    pieces (Tree.contentElement t) = pieces t := rfl

@[simp] theorem pieces_contentCdata (token : Leaf) : pieces (Tree.contentCdata token) = pieces token :=
  rfl

@[simp] theorem pieces_contentInstruction (t : Tree .xmlInstruction) :
    pieces (Tree.contentInstruction t) = pieces t := rfl

@[simp] theorem pieces_contentComment (t : Tree .xmlComment) :
    pieces (Tree.contentComment t) = pieces t := rfl

theorem reads_xmlContentItem : Reads xmlContentItem := by
  refine .of fun m => .look (looks_kind 0) fun k => ?_
  split
  · exact .bind reads_xmlText fun _ => .done (by simp)
  · exact .bind reads_xmlText fun _ => .done (by simp)
  · refine .bind (.nested (.of fun _ => .bind reads_xmlElement fun _ => .done (by simp)) fun m => ?_)
      fun _ => .done (by simp)
    exact (builds_missingText m).andThen fun _ => .done (by simp)
  · exact .bump (fun _ _ => solid_of_kind (by simp)) fun _ => .done (by simp)
  · exact .bindAt (fun n => (builds_xmlInstruction n).weaken fun _ _ h => solid_of_kind (by simp) h)
      fun _ => .done (by simp)
  · exact .bind reads_xmlComment fun _ => .done (by simp)
  · exact .skip (reads_bumpUnexpected _) fun _ => .done (by simp)

theorem reads_xmlContent : Reads xmlContent := by
  refine .of fun m => .bind (.of fun m => .loop (fun read => ?_) List.nil_subperm) fun _ =>
    .done (by simp)
  refine .look looks_isUnwinding fun _ => .look (looks_kind 0) fun _ => .ite
    (fun _ => .done (by simp)) fun _ => .bind reads_xmlContentItem fun item => ?_
  cases item with
  | some item => exact .done (by simp)
  | none => exact .done (by simp)

theorem reads_xmlCloseTag : Reads xmlCloseTag :=
  .marked fun _ => .skipBump fun _ => .bind reads_xmlQualifiedName fun _ =>
    .skip (reads_expect nofun) fun _ => .node (fun _ => rfl) (by simp)

theorem reads_xmlElementBody : Reads xmlElementBody := by
  refine .marked fun m => .skipBump fun opening => .bind reads_xmlQualifiedName fun name =>
    .bind (.many ?_) fun attributes => .skip (reads_accept _) fun _ => .ite (fun _ => ?_) fun _ => ?_
  · exact .of fun m => .look looks_isUnwinding fun _ => .look (looks_atAny _) fun _ => .ite
      (fun _ => .bind reads_xmlAttribute fun _ => .done (by simp)) fun _ => .done (by simp)
  · refine .nodeThen (name.parts ++ (Tree.ofList attributes).parts) (by simp) fun info => ?_
    exact .node (fun _ => rfl) (by simp)
  · refine .skip (reads_expect nofun) fun _ =>
      .nodeThen (name.parts ++ (Tree.ofList attributes).parts) (by simp) fun info =>
      .bind reads_xmlContent fun content => .look (looks_atKind _) fun _ => .ite (fun _ => ?_) fun _ => ?_
    · exact .bind reads_xmlCloseTag fun _ => .node (fun _ => rfl) (by simp)
    · exact .skip (reads_reportUnterminated _ _ _) fun _ => .node (fun _ => rfl) (by simp)

/-! ## Literals -/

@[simp] theorem pieces_itemElement (t : Tree .xmlElement) : pieces (Tree.itemElement t) = pieces t :=
  rfl

@[simp] theorem pieces_itemInstruction (t : Tree .xmlInstruction) :
    pieces (Tree.itemInstruction t) = pieces t := rfl

@[simp] theorem pieces_itemComment (t : Tree .xmlComment) : pieces (Tree.itemComment t) = pieces t :=
  rfl

@[simp] theorem pieces_itemCdata (token : Leaf) : pieces (Tree.itemCdata token) = pieces token := rfl

@[simp] theorem pieces_itemText (t : Tree .interpolatedText) : pieces (Tree.itemText t) = pieces t :=
  rfl

theorem reads_xmlItem : Reads xmlItem := by
  refine .of fun m => .look (looks_kind 0) fun k => ?_
  split
  · exact .bind reads_xmlElement fun _ => .done (by simp)
  · exact .bindAt (fun n => (builds_xmlInstruction n).weaken fun _ _ h => solid_of_kind (by simp) h)
      fun _ => .done (by simp)
  · exact .bind reads_xmlComment fun _ => .done (by simp)
  · exact .bump (fun _ _ => solid_of_kind (by simp)) fun _ => .done (by simp)
  · exact .bind reads_xmlText fun _ => .done (by simp)
  · exact .bind reads_xmlText fun _ => .done (by simp)
  · refine .complain (reads_errorExpected _) (complains_errorExpected _) fun _ => ?_
    exact (builds_missingText m).andThen fun _ => .done (by simp)

theorem reads_xmlLiteral : Reads xmlLiteral :=
  .marked fun _ => .skipBump fun _ => .bind reads_xmlItem fun _ =>
    .bind (reads_expectClosing _ _ nofun) fun _ => .delimited (fun _ => rfl) (by simp)

end BallerinaSyntax
