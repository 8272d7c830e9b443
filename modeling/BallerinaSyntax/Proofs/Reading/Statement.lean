import BallerinaSyntax.Proofs.Reading.Expression
import BallerinaSyntax.Proofs.Reading.Compound
import BallerinaSyntax.Grammar.Statement

/-! The contracts of statements. -/

namespace BallerinaSyntax

open Parse Condition Grammar

/-! ## Definitions of variables -/

theorem reads_startsVariableDefinition : Reads startsVariableDefinition := reads_foresee _

theorem reads_variableDefinition : Reads variableDefinition :=
  .marked fun _ => .bind reads_typeName fun _ => .bind reads_identifier fun _ =>
    .bind (reads_behind _ reads_expression) fun _ => .skip (reads_expect nofun) fun _ =>
    .node (fun _ => rfl) (by simp)

/-! ## Statements led by an expression -/

theorem reads_lastExpression : Reads lastExpression :=
  .of fun _ => .bind reads_expression fun _ => .skip (reads_expect nofun) fun _ => .done (by simp)

/-- Every expression has a node of its own. -/
theorem expression_root (e : Expression) :
    ∃ info inside, e.info? = some info ∧ e.parts = Parts.node info inside := by
  cases e with
  | record t => cases t; exact ⟨_, _, rfl, rfl⟩
  | _ => exact ⟨_, _, rfl, rfl⟩

/-- A missing reference over the tokens of something else, behind an error. -/
theorem Since.replaced {b : Buffer} {m : Mark} {s : State} {info other : NodeInfo} {inside : Parts}
    (h : Since b m [(.node info, inside)] s) (ht : other.tokens = info.tokens)
    (hr : other.range = info.range) (he : other.flags.hasError = true)
    (hm : m.errors < s.errorCount) : Since b m [(.node other, .nil)] s := by
  have hf : info.Fits b inside.trees := (h.fits _ (List.mem_singleton.mpr rfl)).1
  have hw := h.within _ (List.mem_singleton.mpr rfl)
  refine (h.drop List.nil_subperm).single ?_ ?_ (fun _ => hm) ?_ (by simp)
  · simpa [Part.extent, ht] using hf.ordered
  · simpa [Part.extent, ht] using hw
  · refine ⟨?_, ?_, ?_, ?_, by simp, by simp, by simp, fun _ => he, fun _ => he⟩
    · simpa [ht] using hf.ordered
    · simpa [ht] using hf.bounded
    · simpa [ht] using hf.placed
    · simpa [hr, ht] using hf.bytes

/-- A node that is a placeholder tells of an error that was counted. -/
theorem Since.erred_of_missing {b : Buffer} {m : Mark} {s : State} {info : NodeInfo} {inside : Parts}
    (h : Since b m [(.node info, inside)] s) (hm : info.isMissing = true) :
    m.errors < s.errorCount :=
  have hf : info.Fits b inside.trees := (h.fits _ (List.mem_singleton.mpr rfl)).1
  h.noticed _ (List.mem_singleton.mpr rfl) (hf.missing hm)

theorem builds_assignmentTarget (m : Mark) (left : Expression) :
    Builds m (pieces left) any (assignmentTarget left) := by
  unfold assignmentTarget
  extract_lets info flags missing
  obtain ⟨root, inside, hr, hp⟩ := expression_root left
  have hi : info = root := by simp [info, hr]
  have hl : pieces left = [(.node root, inside)] := congrArg Forest.trees hp
  have hm : Builds m (pieces left) (erred m) (missing ()) := by
    intro r scope _ _ s a t hs hP he
    obtain ⟨rfl, rfl⟩ := pure_eq_some.mp he
    rw [hl, ← hi] at hs
    exact hs.replaced rfl rfl rfl hP
  split
  · rename_i target h
    unfold Tree.asReference? at h
    split at h <;> cases h
    intro r scope _ _ s a t hs _ he
    obtain ⟨rfl, rfl⟩ := pure_eq_some.mp he
    exact hs.opened
  · refine .ite (fun _ => .look (looks_located _ _ _) fun _ => ?_) fun h => ?_
    · exact .complain (reads_report _ _) (complains_report _ _) fun _ => hm
    · intro r scope hr hb s a t hs _ he
      refine hm hr hb hs ?_ he
      rw [hl, ← hi] at hs
      exact hs.erred_of_missing (by simpa using h)

/-- A target that is missing is reported, but nothing is taken. -/
theorem assignmentTarget_position {left : Expression} {r : Recursion} {scope : Scope} {s : State}
    {a : Reference} {t : State} (h : assignmentTarget left r scope s = some (a, t)) :
    t.position = s.position := by
  unfold assignmentTarget at h
  cases hl : left.asReference? with
  | some target =>
    rw [hl] at h
    cases h
    rfl
  | none =>
    rw [hl] at h
    change (if _ then _ else _ : Parse Reference) r scope s = _ at h
    split at h
    · obtain ⟨d, u, hd, h⟩ := bind_eq_some.mp h
      cases hd
      obtain ⟨_, v, hv, h⟩ := bind_eq_some.mp h
      rw [report_eq] at hv
      cases hv
      cases h
      simp
    · cases h
      rfl

theorem builds_assignment (m : Mark) (left : Expression) :
    Builds m (pieces left) any (assignment m left) :=
  (builds_assignmentTarget m left).andThen fun _ => .skipBump fun _ => .bind reads_lastExpression
    fun _ => .node (fun _ => rfl) (by simp)

theorem builds_compoundAssignment (m : Mark) (left : Expression) :
    Builds m (pieces left) solid (compoundAssignment m left) := by
  refine ((builds_assignmentTarget m left).weaken fun _ _ _ => trivial).andThenAt
    (R := fun _ => solid) (fun r scope s a t hs he => ?_) fun target => ?_
  · simpa [solid, Scope.kindAt, assignmentTarget_position he] using hs
  · exact .bump (fun _ _ h => h) fun _ => .bind reads_lastExpression fun _ =>
      .node (fun _ => rfl) (by simp)

@[simp] theorem pieces_fork (keyword : Leaf) : pieces (WorkerTarget.fork keyword) = pieces keyword :=
  rfl

@[simp] theorem pieces_workerTarget (n : Identifier) : pieces (WorkerTarget.worker n) = pieces n := rfl

theorem reads_workerTarget : Reads workerTarget :=
  .of fun _ => .ifAt (.bump (fun _ _ => solid_of_kind (by simp)) fun _ => .done (by simp))
    (.bind reads_identifier fun _ => .done (by simp))

theorem builds_workerSend (m : Mark) (value : Expression) :
    Builds m (pieces value) any (workerSend m value) :=
  .skipBump fun _ => .bind reads_workerTarget fun _ => .bind (reads_behind _ reads_expression)
    fun _ => .skip (reads_expect nofun) fun _ => .node (fun _ => rfl) (by simp)

theorem builds_workerReceive (m : Mark) (target : Expression) :
    Builds m (pieces target) any (workerReceive m target) :=
  .skipBump fun _ => .bind reads_identifier fun _ => .bind (reads_behind _ reads_expression)
    fun _ => .skip (reads_expect nofun) fun _ => .node (fun _ => rfl) (by simp)

theorem reads_expressionStatement : Reads expressionStatement := by
  refine .marked fun m => .bind reads_expression fun first => .look (looks_kind 0) fun k =>
    .ite (fun hk => ?_) fun _ => ?_
  · refine (builds_compoundAssignment m first).weaken fun scope s hs he => ?_
    rw [← hs.2, he] at hk
    simp [Kind.isCompoundAssignment] at hk
  · split
    · exact (builds_assignment m first).onward (by simp)
    · exact (builds_workerSend m first).onward (by simp)
    · exact (builds_workerReceive m first).onward (by simp)
    · exact .skip (reads_expect (by decide)) fun _ => .node (fun _ => rfl) (by simp)

/-! ## Destructuring -/

@[simp] theorem pieces_targetReferences (t : Tree (.list .reference)) :
    pieces (Tree.targetReferences t) = pieces t := rfl

@[simp] theorem pieces_targetParameters (t : Tree (.list .simpleParameter)) :
    pieces (Tree.targetParameters t) = pieces t := rfl

theorem builds_destructuringReferences (varKeyword : Leaf) (m : Mark) :
    Builds m (pieces varKeyword) any (destructuringReferences varKeyword m) :=
  .skipBump fun _ => .bind (reads_listUntil _ reads_reference) fun _ =>
    .skip (reads_expectClosing _ _ nofun) fun _ => .skip (reads_expect nofun) fun _ =>
    .bind reads_lastExpression fun _ => .node (fun _ => rfl) (by simp)

theorem builds_varStatement (m : Mark) : Builds m [] solid varStatement := by
  refine .mark fun n => .bump (fun _ _ h => h) fun varKeyword => .look (looks_atKind _) fun _ =>
    .ite (fun _ => (builds_destructuringReferences varKeyword n).onward (by simp)) fun _ => ?_
  exact .bind reads_reference fun _ => .skip (reads_expect nofun) fun _ => .bind reads_lastExpression
    fun _ => .node (fun _ => rfl) (by simp)

theorem reads_destructuringMembers {c : Category} {item : Parse (Tree c)} (h : Reads item) :
    Reads (destructuringMembers item) := by
  refine .of fun m => .skipBump fun opening => .bind (reads_commaList h) fun members => ?_
  refine .look (looks_atKind _) fun closed => .look (looks_isKind _ _) fun assigned => ?_
  exact .ite (fun _ => .skipBump fun close => .done (by simp)) fun _ => .done (by simp)

theorem reads_destructuring? : Reads destructuring? := by
  refine .of fun m => .bind (Reads.attempt (reads_destructuringMembers reads_simpleParameter))
    fun parameters => ?_
  cases parameters with
  | some parameters => exact .done (by simp)
  | none =>
    refine .bind (Reads.attempt (reads_destructuringMembers reads_reference)) fun references => ?_
    cases references with
    | some references => exact .done (by simp)
    | none => exact .done (by simp)

@[simp] theorem pieces_defineVariable (t : Tree .variableDefinition) :
    pieces (Tree.defineVariable t) = pieces t := rfl

theorem reads_parenthesizedStatement : Reads parenthesizedStatement := by
  refine .of fun m => .skip reads_startsVariableDefinition fun _ => .ite
    (fun _ => .bind reads_variableDefinition fun _ => .done (by simp)) fun _ => .mark fun n =>
    .bind reads_destructuring? fun targets => ?_
  cases targets with
  | some targets =>
    exact .skipBump fun _ => .bind reads_lastExpression fun _ => .node (fun _ => rfl) (by simp)
  | none => exact reads_expressionStatement _ _

theorem reads_definitionOrExpression : Reads definitionOrExpression :=
  .of fun _ => .skip reads_startsVariableDefinition fun _ => .ite
    (fun _ => .bind reads_variableDefinition fun _ => .done (by simp)) fun _ =>
    reads_expressionStatement _ _

/-! ## Statements -/

theorem reads_keywordStatement (k : Kind) : Reads (keywordStatement k) :=
  .marked fun _ => .skipBump fun _ => .skip (reads_expect nofun) fun _ =>
    .node (f := id) (fun _ => rfl) (by simp)

theorem reads_throwStatement : Reads throwStatement :=
  .marked fun _ => .skipBump fun _ => .bind reads_lastExpression fun _ =>
    .node (fun _ => rfl) (by simp)

theorem reads_returnStatement : Reads returnStatement := by
  refine .marked fun m => .skipBump fun _ => .bind (reads_whenever ?_ reads_expression) fun _ =>
    .skip (reads_expect nofun) fun _ => .node (fun _ => rfl) (by simp)
  exact .of fun _ => .look (looks_atKind _) fun _ => .done (by simp)

@[simp] theorem pieces_declareNamespace (d : NamespaceDeclaration) :
    pieces (Tree.declareNamespace d) = pieces d := rfl

theorem builds_statementFrom (m : Mark) (start : StatementStart) :
    Builds m [] solid (statementFrom start) := by
  match start with
  | .ifElse => exact reads_ifStatement _ _
  | .matchCases => exact reads_matchStatement _ _
  | .foreach => exact reads_foreachStatement _ _
  | .whileLoop => exact reads_whileStatement _ _
  | .continueLoop => exact .bind (reads_keywordStatement _) fun _ => .done (.refl _)
  | .breakLoop => exact .bind (reads_keywordStatement _) fun _ => .done (.refl _)
  | .forkJoin => exact reads_forkStatement _ _
  | .tryCatch => exact reads_tryStatement _ _
  | .throwError => exact reads_throwStatement _ _
  | .returnValue => exact reads_returnStatement _ _
  | .transaction => exact reads_transactionStatement _ _
  | .abortTransaction => exact .bind (reads_keywordStatement _) fun _ => .done (.refl _)
  | .retryTransaction => exact .bind (reads_keywordStatement _) fun _ => .done (.refl _)
  | .lock => exact reads_lockStatement _ _
  | .declareNamespace => exact .bind reads_namespaceDeclaration fun _ => .done (by simp)
  | .forever => exact reads_foreverStatement _ _
  | .varKeyword => exact builds_varStatement m
  | .parenthesis => exact reads_parenthesizedStatement _ _
  | .typeOrExpression => exact reads_definitionOrExpression _ _
  | .expression => exact reads_expressionStatement _ _

theorem looks_startsReservedCall :
    Looks startsReservedCall fun scope s =>
      scope.kindAt s 0 != .identifier && scope.kindAt s 0 != .foreachKeyword &&
        (Operator.isName scope.options.allowAnyIdentifierNames (scope.kindAt s 0) &&
          scope.kindAt s 1 == .openParenToken) :=
  fun _ _ _ => rfl

theorem reads_statementBody : Reads statementBody := by
  refine .of fun m => .look looks_startsReservedCall fun _ => .ite
    (fun _ => reads_expressionStatement _ _) fun _ => .look (looks_kind 0) fun k => ?_
  split
  · rename_i start h
    refine (builds_statementFrom m start).weaken fun scope s hs he => ?_
    rw [← hs.2, he] at h
    cases h
  · refine .complain (reads_errorExpected _) (complains_errorExpected _) fun _ => ?_
    exact (builds_placeholder m _).andThen fun _ => .done (.refl _)

end BallerinaSyntax
