import BallerinaSyntax.Proofs.Reading.Literal
import BallerinaSyntax.Grammar.Parameter

/-! The contracts of attachments, parameters and signatures. -/

namespace BallerinaSyntax

open Parse Condition Grammar

/-! ## Documentation -/

theorem inlineCodeKinds_solid (backticks : Nat) :
    (inlineCodeKinds backticks).1 ≠ .endOfFileToken ∧
      (inlineCodeKinds backticks).2 ≠ .endOfFileToken := by
  unfold inlineCodeKinds
  split <;> simp

theorem reads_inlineCode (backticks : Nat) : Reads (inlineCode backticks) :=
  .marked fun _ => .skipBump fun _ => .bind (reads_optional (inlineCodeKinds_solid backticks).1)
    fun _ => .skip (reads_expect (inlineCodeKinds_solid backticks).2) fun _ =>
    .node (fun _ => rfl) (by simp)

@[simp] theorem pieces_text (token : Leaf) : pieces (DocumentationPart.text token) = pieces token :=
  rfl

@[simp] theorem pieces_code (c : InlineCode) : pieces (DocumentationPart.code c) = pieces c := rfl

theorem reads_documentationPart? : Reads documentationPart? := by
  refine .of fun m => .look (looks_kind 0) fun k => ?_
  have text : k ≠ .endOfFileToken → Builds m [] (fun scope s => any scope s ∧ scope.kindAt s 0 = k)
      (bump >>= fun leaf => pure (some (DocumentationPart.text leaf))) := fun hk =>
    .bump (fun _ _ => solid_of_kind hk) fun _ => .done (by simp)
  have code : ∀ backticks, Builds m [] (fun scope s => any scope s ∧ scope.kindAt s 0 = k)
      (inlineCode backticks >>= fun c => pure (some (DocumentationPart.code c))) := fun backticks =>
    .bind (reads_inlineCode backticks) fun _ => .done (by simp)
  split
  · exact text (by simp)
  · exact text (by simp)
  · exact code 1
  · exact code 2
  · exact code 3
  · exact .done (by simp)

theorem reads_documentationText : Reads documentationText :=
  .marked fun _ => .bind (.many reads_documentationPart?) fun _ =>
    .ite (fun _ => .done (by simp)) fun _ => .node (fun _ => rfl) (by simp)

theorem builds_documentationAttribute (m : Mark) : Builds m [] solid documentationAttribute :=
  .mark fun _ => .bump (fun _ _ h => h) fun _ => .bind reads_optionalIdentifier fun _ =>
    .skip (reads_expect nofun) fun _ => .bind reads_documentationText fun _ =>
    .node (fun _ => rfl) (by simp)

theorem reads_documentation : Reads documentation := by
  refine .marked fun m => .skipBump fun opening => .bind reads_documentationText fun text =>
    .bind (.many ?_) fun attributes => .bind (reads_expectClosing _ _ nofun) fun _ =>
    .delimited (fun _ => rfl) (by simp)
  refine .of fun _ => .ifAt (.bindAt (fun n => ?_) fun _ => .done (by simp)) (.done (by simp))
  exact (builds_documentationAttribute n).weaken fun _ _ h => solid_of_kind (by simp) h

theorem reads_deprecation : Reads deprecation :=
  .marked fun _ => .skipBump fun _ => .bind reads_documentationText fun _ =>
    .bind (reads_expectClosing _ _ nofun) fun _ => .delimited (fun _ => rfl) (by simp)

/-! ## Annotations -/

theorem reads_attachment : Reads attachment :=
  .marked fun _ => .skipBump fun _ => .bind reads_nameReference fun _ =>
    .bind reads_optionalRecord fun _ => .node (fun _ => rfl) (by simp)

theorem reads_attachments : Reads attachments := by
  refine .of fun m => .bind (.many ?attached) fun items => .done (by simp)
  refine .of fun m => .look (looks_goesOn _) fun here => .ite (fun _ => ?_) fun _ => .done (by simp)
  exact .bind reads_attachment fun item => .done (by simp)

/-! ## Metadata -/

theorem reads_reportDuplicate (first second : NodeInfo) (what : String) :
    Reads (reportDuplicate first second what) :=
  .of fun _ => .look (looks_located _ _ _) fun _ => .look (looks_located _ _ _) fun _ =>
    reads_report _ _ _ _

instance : HasParts Attachments where
  parts
    | ⟨documentation, deprecated, annotations⟩ =>
      parts documentation ++ parts deprecated ++ parts annotations

@[simp] theorem pieces_attachments (documentation : Array Documentation)
    (deprecated : Array Deprecation) (annotations : Array (Tree .attachment)) :
    pieces (⟨documentation, deprecated, annotations⟩ : Attachments) =
      pieces documentation ++ (pieces deprecated ++ pieces annotations) := by
  change (_ ++ _ ++ _ : Parts).trees = _
  simp

@[simp] theorem pieces_metadata (t : List Documentation) (u : List Deprecation)
    (v : Tree (.list .attachment)) :
    pieces (Tree.metadata t u v) = pieces t ++ (pieces u ++ pieces v) := by
  change (_ ++ _ ++ _ : Parts).trees = _
  simp

theorem reads_metadata : Reads metadata := by
  refine .of fun m => ?_
  unfold metadata
  extract_lets next
  have hn : ∀ a, Builds m (pieces a) any (next a) := fun a =>
    .look looks_isUnwinding fun unwinding => by cases unwinding <;> exact .done (by simp)
  clear_value next
  refine .andThen (.loop (fun ⟨documented, deprecated, annotations⟩ => ?_) List.nil_subperm)
    fun ⟨documented, deprecated, annotations⟩ => .done (by simp [Attachments.toMetadata])
  refine .look (looks_kind 0) fun k => ?_
  split
  · refine .bind reads_documentation fun doc => ?_
    extract_lets more
    have hm : ∀ u, Builds m (pieces (⟨documented, deprecated, annotations⟩ : Attachments) ++
        pieces doc) any (more u) := fun _ => (hn _).onward <| by
      simpa using subperm_insert (pieces documented) (pieces deprecated ++ pieces annotations) _
    clear_value more
    split
    · exact .skip (reads_reportDuplicate _ _ _) hm
    · exact hm ()
  · refine .bind reads_deprecation fun notice => ?_
    extract_lets more
    have hm : ∀ u, Builds m (pieces (⟨documented, deprecated, annotations⟩ : Attachments) ++
        pieces notice) any (more u) := fun _ => (hn _).onward <| by
      simpa using subperm_insert (pieces documented ++ pieces deprecated) (pieces annotations) _
    clear_value more
    split
    · exact .skip (reads_reportDuplicate _ _ _) hm
    · exact hm ()
  · exact .bind reads_attachment fun a => (hn _).onward (by simp)
  · exact .done (by simp)

/-! ## Parameters -/

@[simp] theorem pieces_simple (t : Tree .simpleParameter) : pieces (Tree.simple t) = pieces t := rfl

theorem reads_simpleParameter : Reads simpleParameter :=
  .marked fun _ => .bind reads_typeName fun _ => .bind reads_identifier fun _ =>
    .node (fun _ => rfl) (by simp)

/-- A parameter reads on behind its annotations. -/
theorem builds_typedParameter (m : Mark) (annotations : Tree (.list .attachment)) :
    Builds m (pieces annotations) any (typedParameter m annotations) := by
  refine .bind reads_typeName fun type => .skip (reads_accept _) fun _ => .ite (fun _ => ?_) fun _ => ?_
  · exact .bind reads_identifier fun _ => .node (fun _ => rfl) (by simp)
  · exact .bind reads_identifier fun _ => .node (fun _ => rfl) (by simp)

theorem reads_tupleMembers : Reads tupleMembers := by
  refine .of fun m => .skipBump fun opening => ?_
  refine .bind (reads_commaList reads_simpleParameter) fun members => ?_
  refine .skip (reads_accept _) fun closed => ?_
  exact .ite (fun _ => .done (by simp)) fun _ => .done (by simp)

theorem reads_parameter : Reads parameter := by
  refine .marked fun m => .bind reads_attachments fun annotations =>
    .look (looks_atKind _) fun tuple => ?_
  extract_lets read behindMembers
  have hr : ∀ t, Builds m (pieces t) any (read t) := fun t => .ite (fun _ => .done (by simp)) fun _ =>
    .skip (reads_accept _) fun _ => .ite (fun _ => .bind reads_expression fun _ =>
      .node (fun _ => rfl) (by simp)) fun _ => .done (by simp)
  clear_value read
  have hb : ∀ members, Builds m (pieces annotations ++ pieces members) any
      (behindMembers members) := by
    rintro (_ | members)
    · exact (builds_typedParameter m annotations).onward (by simp) |>.andThen hr
    · exact .nodeThen (annotations.parts ++ (Tree.ofList members).parts) (by simp) fun info =>
        hr (.tupleParameter info annotations (.ofList members))
  clear_value behindMembers
  refine .ite (fun _ => ?_) fun _ => .give ((hb _).onward (by simp))
  exact .bind (Reads.attempt reads_tupleMembers) fun _ => (hb _).onward (by simp)

theorem reads_parameterList : Reads parameterList :=
  .marked fun _ => .skip (reads_expect nofun) fun _ => .bind (reads_listAfter _ _ reads_parameter)
    fun _ => .bind (reads_expectClosing _ _ nofun) fun _ => .delimited (fun _ => rfl) (by simp)

theorem reads_returnParameter : Reads returnParameter :=
  .marked fun _ => .skipBump fun _ => .bind reads_attachments fun _ => .bind reads_typeName fun _ =>
    .node (fun _ => rfl) (by simp)

theorem reads_optionalReturn : Reads optionalReturn :=
  reads_whenever (.look (looks_atKind _) fun _ => rfl) reads_returnParameter

theorem reads_signature : Reads signature :=
  .marked fun _ => .bind reads_callableName fun _ => .bind reads_parameterList fun _ =>
    .bind reads_optionalReturn fun _ => .node (fun _ => rfl) (by simp)

theorem reads_optionalBody : Reads optionalBody :=
  reads_whenever (.of fun _ => .skip (reads_accept _) fun _ => .done (by simp)) reads_callableBody

instance : HasParts Modifiers := ⟨fun _ => .nil⟩

@[simp] theorem pieces_modifiers (modifiers : Modifiers) : pieces modifiers = [] := rfl

theorem reads_modifiers : Reads modifiers := by
  refine .of fun m => .skip (.many ?_) fun _ => .done (by simp)
  refine .of fun m => .look (looks_atAny _) fun b => .ite (fun hb => ?_) fun _ => .done (by simp)
  refine .bump (fun scope s hs he => ?_) fun _ => .done (by simp)
  rw [he] at hs
  simp [modifierKeywords, ← hs.2] at hb

end BallerinaSyntax
