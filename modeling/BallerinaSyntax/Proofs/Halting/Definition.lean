import BallerinaSyntax.Proofs.Halting.Statement
import BallerinaSyntax.Proofs.Halting.TypeName
import BallerinaSyntax.Grammar.Definition

/-!
Definitions come to an end, and so do the items of a unit. A definition takes a token unless nothing
unwinds, so behind an item reading is always further on.
-/

namespace BallerinaSyntax

open Grammar Parse
open Condition (any solid past lasting_past onward gave turned since)

variable {rank : Nat} {P : Condition}

/-! ## Services -/

theorem halts_resourceParameters (opening : Leaf) : Halts 3 P (resourceParameters opening) := by
  refine .ite (fun _ => .ended) fun _ => .bind (halts_accept _) fun endpointNext => ?_
  refine .ite (fun _ => ?called) fun _ => ?plain
  case called =>
    refine .bind halts_identifier fun caller => .bind (halts_accept _) fun more => ?_
    exact .ite (fun _ => .bind (halts_commaList halts_parameter) fun _ => .ended) fun _ => .ended
  case plain => exact .bind (halts_listUntil _ halts_parameter) fun parameters => .ended

theorem halts_resourceParameterList : Halts 3 P resourceParameterList :=
  .mark fun _ => .bind (halts_expect _) fun _ => .bind (halts_resourceParameters _) fun _ =>
    .bind (halts_expectClosing _ _ _) fun _ => .delimited

theorem halts_resource (m : Mark) (metadata : Metadata) : Halts 3 P (resource m metadata) :=
  .bind halts_identifier fun _ => .bind halts_resourceParameterList fun _ =>
    .bind halts_callableBody fun _ => .node

theorem halts_serviceMember (members : ServiceMembers) : Halts 3 P (serviceMember members) := by
  refine .mark fun m => .bind halts_metadata fun metadata => .skim (looks_kind 0) fun k =>
    .ite (fun _ => ?_) fun _ => .skim (looks_isKind _ _) fun _ => .ite (fun _ => ?_) fun _ =>
    .ite (fun _ => ?_) fun _ => ?_
  · extract_lets endpointBehind
    have he : Halts 3 any (endpointBehind ()) := .bind (halts_endpoint m _) fun _ => .ended
    clear_value endpointBehind
    exact .ite (fun _ => .bind (halts_errorExpected _) fun _ => he) fun _ => he
  · exact .bind (halts_resource m metadata) fun _ => .ended
  · extract_lets variableBehind
    have hv : Halts 3 any (variableBehind ()) := .bind halts_variableDefinition fun _ => .ended
    clear_value variableBehind
    exact .ite (fun _ => .bind (halts_errorExpected _) fun _ => hv) fun _ => hv
  · exact .bind (halts_errorExpected _) fun _ => .bind (halts_skipUntil _ _) fun _ => .ended

theorem serviceMemberSync_settles : ∀ k ∈ serviceMemberSync, k ∈ memberStart ∨
    settlesStatements k = true := by decide

theorem halts_serviceMembers : Halts 3 Condition.members serviceMembers :=
  .withRecovery (.members halts_serviceMember) fun _ _ hs => hs.settles serviceMemberSync_settles

theorem halts_serviceBody : Halts 3 Condition.members serviceBody := by
  refine .mark fun m => .carry Condition.lasting_members (halts_expect _) fun opening => ?_
  extract_lets node
  have hn : ∀ {P} members, Halts 3 P (node members) := fun _ =>
    .bind (halts_expectClosing _ _ _) fun _ => .delimited
  clear_value node
  exact .ite (fun _ => hn _) fun _ => .thenAt halts_serviceMembers fun _ => hn _

theorem halts_serviceBinding : Halts 3 P serviceBinding := by
  refine .mark fun m => .bind halts_bump fun _ => .skim (looks_atKind _) fun _ => ?_
  extract_lets named
  have hn : ∀ record, Halts 3 any (named record) := fun _ => .ite (fun _ => .give .node) fun _ =>
    .bind (halts_commaList halts_nameReference) fun _ => .node
  clear_value named
  exact .ite (fun _ => .bind halts_recordLiteral fun _ => hn _) fun _ => hn _

theorem halts_serviceEndpointType : Halts rank P serviceEndpointType :=
  .bind (halts_accept _) fun _ => .ite (fun _ => .bind halts_nameReference fun _ =>
    .bind (halts_expect _) fun _ => .ended) fun _ => .ended

/-- Behind its keyword the members of a service resume where statements do. -/
theorem takes_service (h : Heading) : Takes (Condition.atKind .serviceKeyword) (service h) := by
  refine .andThenAt (takes_bump.weaken fun _ _ h => solid_of_eq h (by decide))
    (fun _ _ _ => Scope.members_of_lt rfl) fun _ =>
    .carry Condition.lasting_members halts_serviceEndpointType fun _ =>
    .carry Condition.lasting_members halts_identifier fun _ => .skim (looks_atKind _) fun _ => ?_
  extract_lets node
  have hn : ∀ binding, Halts 3 Condition.members (node binding) := fun _ =>
    .thenAt halts_serviceBody fun _ => .modified
  clear_value node
  exact .ite (fun _ => .carry Condition.lasting_members halts_serviceBinding fun _ => hn _)
    fun _ => hn _

/-! ## Other definitions -/

theorem takes_function (h : Heading) : Takes solid (function h) :=
  .bump fun _ => .bind (halts_identifierBefore _) fun _ => .bind halts_signature fun _ =>
    .bind halts_optionalBody fun _ => .modified

theorem halts_finiteTypeUnit : Halts 3 P finiteTypeUnit := by
  refine .skim (looks_kind 0) fun k => .skim (looks_kind 1) fun next => .ite (fun _ => ?_) fun _ => ?_
  · exact .bind halts_simpleLiteral fun _ => .ended
  · exact .bind (halts_typeNameAt _) fun _ => .ended

theorem halts_finiteType : Halts 3 P finiteType :=
  .mark fun _ => .bind (halts_separatedBy nofun halts_finiteTypeUnit) fun _ => .node

theorem takes_typeDefinition (h : Heading) : Takes solid (typeDefinition h) :=
  .bump fun _ => .bind halts_identifier fun _ => .bind halts_finiteType fun _ =>
    .bind (halts_expect _) fun _ => .modified

theorem halts_attachPoints : Halts 3 P attachPoints := by
  refine .bind (halts_accept _) fun opened => .ite (fun _ => ?_) fun _ => .ended
  refine .bind (halts_listUntil _ (halts_expectAny _ _)) fun points => ?_
  exact .bind (halts_expect _) fun _ => .ended

theorem takes_annotationType (h : Heading) : Takes solid (annotationType h) := by
  refine .bump fun _ => .bind halts_attachPoints fun _ => .bind halts_identifier fun _ =>
    .bind (halts_whenever ?_ halts_typeName) fun _ => .bind (halts_expect _) fun _ => .modified
  exact .skim (looks_kind 0) fun _ => .ended

theorem takes_globalEndpoint (h : Heading) :
    Takes (Condition.atKind .endpointKeyword) (globalEndpoint h) :=
  .mark fun m => (takes_endpoint m .nil).andThen (fun _ _ h => h) fun _ => .modified

/-- Types may be nested. -/
def Condition.shallow : Condition := fun scope _ => scope.depth < scope.options.maxNestingDepth

theorem settles_globalVariable (h : Heading) (i : Nat) :
    Settles 3 (fun scope s => startsType (scope.kindAt s 0) = true ∧ Condition.shallow scope s ∧
      i ≤ s.position) (globalVariable h) fun _ => past i := by
  refine .thenAt (R := fun _ => past i) ?_ fun _ => .keep halts_identifier fun _ =>
    .keep (halts_behind (by decide) halts_expression) fun _ => .keep (halts_expect _) fun _ => ?_
  · exact .callEager (by decide) fun _ _ h => ⟨⟨h.1, h.2.1⟩, h.2.2⟩
  · exact Settles.modified.stays (lasting_past i)

/-- Behind a place, or nothing unwinds. -/
def Condition.calm (i : Nat) : Condition := fun scope s =>
  past i scope s ∨ s.unwinding = false

theorem settles_missingDefinition (h : Heading) (i : Nat) :
    Settles rank (Condition.calm i) (missingDefinition h) fun _ => Condition.calm i := by
  refine .thenAt (R := fun _ => Condition.calm i) ?_ fun _ => .thenAt (R := fun _ => Condition.calm i)
    ?_ fun _ => .nodeThen fun _ => .done fun _ _ h => h
  · refine .skim looks_describeCurrent fun _ => settles_errorHere _ _ fun _ _ _ _ h => ?_
    simpa [Condition.calm, past] using h
  · intro _ _ scope s hv hs hc hP
    obtain ⟨n, t, hr, -, -, hu⟩ := settles_skipUntil topLevelStart.contains "a definition" s hv hs hc rfl
    exact ⟨n, t, hr, hP.imp (lasting_past i hr.onward) hu.trans⟩

theorem settles_heading (s₀ : State) :
    Settles rank (Condition.here s₀) heading fun _ => since s₀ := by
  refine .mark fun m => .thenAt (settles_metadata s₀) fun metadata =>
    .thenAt (R := fun _ => since s₀) (.or ?_ (settles_modifiers s₀)) fun _ => .done fun _ _ h => h
  exact (halts_modifiers.stays (lasting_past _)).post fun _ _ _ => .inl

/-- A definition takes a token, unless nothing unwinds. -/
theorem settles_definition (s₀ : State) :
    Settles 3 (fun scope s => s = s₀ ∧ s.unwinding = false ∧ Condition.shallow scope s) definition
      fun _ => Condition.calm s₀.position := by
  refine .thenAt (R := fun _ scope s => s₀.position ≤ s.position ∧
    Condition.calm s₀.position scope s ∧ Condition.shallow scope s) ?_ fun h =>
    .look (looks_kind 0) fun k => ?_
  · intro _ _ scope s hv hs hc hP
    obtain ⟨rfl, hu, hd⟩ := hP
    obtain ⟨h, t, hr, ht⟩ := settles_heading s hv hs hc rfl
    refine ⟨h, t, hr, hr.onward, ht.imp_right fun he => ?_, hd⟩
    rw [he]
    exact hu
  have take : ∀ {α : Type} {p : Parse α} {f : α → Definition}, Takes (Condition.atKind k) p →
      Settles 3 (fun scope s => (s₀.position ≤ s.position ∧ Condition.calm s₀.position scope s ∧
        Condition.shallow scope s) ∧ scope.kindAt s 0 = k) (p >>= fun a => pure (f a))
        fun _ => Condition.calm s₀.position := fun hp =>
    .thenAt (hp.behind fun _ _ h => ⟨h.2, h.1.1⟩) fun _ => .done fun _ _ h => .inl h
  split
  · exact take (takes_service h)
  · exact take ((takes_typeDefinition h).weaken fun _ _ h => solid_of_eq h (by decide))
  · exact take ((takes_annotationType h).weaken fun _ _ h => solid_of_eq h (by decide))
  · exact take (takes_globalEndpoint h)
  · refine .skim (looks_isKind _ _) fun _ => .ite (fun hk => ?_) fun _ => .ite (fun hk => ?_)
      fun _ => ?_
    · have hk := beq_iff_eq.mp (Bool.and_eq_true_iff.mp hk).1
      exact take ((takes_function h).weaken fun _ _ h => solid_of_eq (h.trans hk) (by decide))
    · refine .thenAt ((settles_globalVariable h s₀.position).weaken fun _ _ hs => ?_) fun _ =>
        .done fun _ _ h => .inl h
      exact ⟨by rw [hs.2]; exact hk, hs.1.2.2, hs.1.1⟩
    · exact (settles_missingDefinition h _).weaken fun _ _ hs => hs.1.2.1

/-! ## Items of a unit -/

/-- An item takes a token, unless nothing unwinds. -/
theorem settles_unitItem (items : UnitItems) (s₀ : State) :
    Settles 3 (fun scope s => s = s₀ ∧ s.unwinding = false ∧ Condition.shallow scope s)
      (unitItem items) fun _ => Condition.calm s₀.position := by
  refine .look (looks_kind 0) fun k => ?_
  have first : ∀ {α : Type} {what : String} {p : Parse α} {f : α → UnitItems}, Takes solid p →
      k ≠ .endOfFileToken →
      Settles 3 (fun scope s => (s = s₀ ∧ s.unwinding = false ∧ Condition.shallow scope s) ∧
        scope.kindAt s 0 = k) (requireFirst items what >>= fun _ => p >>= fun a => pure (f a))
        fun _ => Condition.calm s₀.position := by
    intro α what p f hp hk
    refine .thenAt (R := fun _ scope s => solid scope s ∧ s₀.position ≤ s.position) ?_ fun _ =>
      .thenAt (hp.behind fun _ _ h => h) fun _ => .done fun _ _ h => .inl h
    have stays : ∀ scope s index d, solid scope s ∧ s₀.position ≤ s.position →
        solid scope (s.reported scope index d) ∧
          s₀.position ≤ (s.reported scope index d).position :=
      fun _ _ _ _ h => by simpa [solid, Scope.kindAt] using h
    refine .weaken (.ite (fun _ => settles_errorHere _ _ stays) fun _ => .done fun _ _ h => h) ?_
    rintro scope s ⟨⟨rfl, -⟩, h⟩
    exact ⟨solid_of_eq h hk, Nat.le_refl _⟩
  split
  · exact first takes_importDeclaration (by decide)
  · exact first takes_namespaceDeclaration (by decide)
  · exact .thenAt ((settles_definition s₀).weaken fun _ _ h => h.1) fun _ => .done fun _ _ h => h

theorem settles_progressingItem (items : UnitItems) (s₀ : State) :
    Settles 3 (fun scope s => s = s₀ ∧ s.unwinding = false ∧ Condition.shallow scope s ∧
      solid scope s) (Parse.progressing "a definition" (unitItem items))
      fun _ => past s₀.position := by
  refine .progressing (R := fun _ => Condition.calm s₀.position) ?_ ?_ ?_ fun _ _ _ h => h
  · exact (settles_unitItem items s₀).weaken fun _ _ h => ⟨h.1, h.2.1, h.2.2.1⟩
  · rintro scope s ⟨rfl, -, -, hk⟩
    exact ⟨hk, Nat.le_refl _⟩
  · intro _ scope s hc h
    refine h.elim id fun hu => hc.resolve_right fun hn => ?_
    exact Bool.false_ne_true (hn.symm.trans hu)

theorem settles_resynchronize (sync : List Kind) (i : Nat) :
    Settles rank (fun _ s => i ≤ s.position) (resynchronize sync) fun _ _ s =>
      i ≤ s.position ∧ s.unwinding = false :=
  .plain (f := fun scope s => ((), { s with
      position := scope.found sync.contains s, unwinding := false, depthReported := false }))
    (fun _ _ _ => rfl) fun scope s hs h => by
      have hl := Scope.le_found scope sync.contains s
      exact ⟨hl, Scope.found_lt hs.ends _ hs.inside, Nat.le_trans h hl, rfl⟩

/-- All items are read. What unwound one of them ends before the next one, so each takes a token. -/
theorem halts_unitItems : Halts 3 Condition.shallow unitItems := by
  refine .loop (I := fun _ => Condition.shallow) fun items s₁ => .look looks_isUnwinding
    fun unwinding => ?_
  have round : Settles 3 (fun scope s => (s₁.position ≤ s.position ∧ s.unwinding = false) ∧
      Condition.shallow scope s) (atEnd >>= fun stops => if stops = true then pure (.stop items) else
        Parse.progressing "a definition" (unitItem items) >>= fun items => pure (.again items))
      (turned (β := UnitItems) (γ := UnitItems) s₁ (fun _ => Condition.shallow) fun _ => any) := by
    refine .look looks_atEnd fun stops => .ite (fun _ => .done fun _ _ _ => trivial)
      fun hs' => ?_
    refine .thenAt (R := fun _ scope s => past s₁.position scope s ∧ Condition.shallow scope s)
      (fun _ _ scope s hv hs hc h => ?_) fun _ => .done fun _ _ h => ⟨.inl h.1, h.2⟩
    obtain ⟨⟨⟨hl, hu⟩, hd⟩, hk⟩ := h
    have hk : solid scope s := by simpa [solid, ← hk] using hs'
    obtain ⟨a, t, hr, ht⟩ := settles_progressingItem items s hv hs hc ⟨rfl, hu, hd, hk⟩
    exact ⟨a, t, hr, Nat.lt_of_le_of_lt hl ht, hd⟩
  refine .ite (fun _ => .thenAt ?_ fun _ => round) fun hu => round.weaken fun scope s h => ?_
  · intro _ _ scope s hv hs hc h
    obtain ⟨⟨rfl, hd⟩, -⟩ := h
    obtain ⟨a, t, hr, ht⟩ :=
      settles_resynchronize topLevelStart s.position hv hs hc (Nat.le_refl _)
    exact ⟨a, t, hr, ht, hd⟩
  · obtain ⟨⟨rfl, hd⟩, rfl⟩ := h
    exact ⟨⟨Nat.le_refl _, by simpa using hu⟩, hd⟩

end BallerinaSyntax
