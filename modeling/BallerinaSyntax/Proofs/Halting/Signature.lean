import BallerinaSyntax.Proofs.Halting.Literal
import BallerinaSyntax.Grammar.Parameter

/-! Attachments, parameters and signatures come to an end. -/

namespace BallerinaSyntax

open Grammar Parse
open Condition (any solid past onward gave turned since)

variable {rank : Nat} {P : Condition}

/-! ## Documentation -/

theorem takes_inlineCode (backticks : Nat) : Takes solid (inlineCode backticks) :=
  .mark fun _ => .bump fun _ => .bind (halts_optional _) fun _ => .bind (halts_expect _) fun _ =>
    .node

theorem steps_documentationPart : Steps rank documentationPart? := by
  refine fun s₀ => .look (looks_kind 0) fun k => ?_
  have part : ∀ {α : Type} {p : Parse α} {f : α → DocumentationPart}, Takes solid p →
      k ≠ .endOfFileToken →
      Settles rank (fun scope s => Condition.here s₀ scope s ∧ scope.kindAt s 0 = k)
        (p >>= fun a => pure (some (f a))) (gave s₀) := fun hp hk =>
    .takePast (i := s₀.position) (fun _ _ h => ⟨solid_of_eq h.2 hk, congrArg State.position h.1⟩)
      hp fun _ => .done fun _ _ h => .inl h
  split
  · exact part takes_bump (by decide)
  · exact part takes_bump (by decide)
  · exact part (takes_inlineCode 1) (by decide)
  · exact part (takes_inlineCode 2) (by decide)
  · exact part (takes_inlineCode 3) (by decide)
  · exact .done fun _ _ _ => trivial

theorem halts_documentationText : Halts rank P documentationText :=
  .mark fun _ => .bind (.many steps_documentationPart) fun _ => .ite (fun _ => .ended) fun _ => .node

theorem takes_documentationAttribute : Takes solid documentationAttribute :=
  .mark fun _ => .bump fun _ => .bind halts_optionalIdentifier fun _ => .bind (halts_expect _)
    fun _ => .bind halts_documentationText fun _ => .node

theorem takes_documentation : Takes solid documentation := by
  refine .mark fun m => .bump fun opening => .bind halts_documentationText fun text =>
    .bind (.many ?_) fun attributes => .bind (halts_expectClosing _ _ _) fun _ => .delimited
  exact (Picks.whenever (looks_atKind _) (fun _ _ h => solid_of_eq (beq_iff_eq.mp h) (by decide))
    takes_documentationAttribute).steps

theorem takes_deprecation : Takes solid deprecation :=
  .mark fun _ => .bump fun _ => .bind halts_documentationText fun _ =>
    .bind (halts_expectClosing _ _ _) fun _ => .delimited

/-! ## Annotations -/

theorem takes_attachment : Takes solid attachment :=
  .mark fun _ => .bump fun _ => .bind halts_nameReference fun _ => .bind halts_optionalRecord
    fun _ => .node

/-- Annotations are there, or nothing has happened. -/
theorem settles_attachments (s₀ : State) :
    Settles rank (Condition.here s₀) attachments fun _ scope s => past s₀.position scope s ∨
      (s = s₀ ∧ ¬(scope.kindAt s 0 == .atToken && !s.unwinding) = true) :=
  .thenAt ((Picks.goesOn takes_attachment (by decide)).many s₀) fun _ => .done fun _ _ h => h

theorem halts_attachments : Halts rank P attachments := .ofHere settles_attachments

/-! ## Metadata -/

theorem halts_reportDuplicate (first second : NodeInfo) (what : String) :
    Halts rank P (reportDuplicate first second what) :=
  .skim (looks_located _ _ _) fun _ => .skim (looks_located _ _ _) fun _ => halts_report _ _

/-- Attachments are there, or nothing has happened. -/
theorem settles_metadata (s₀ : State) :
    Settles rank (Condition.here s₀) metadata fun _ => since s₀ := by
  unfold metadata
  extract_lets next
  have hn : ∀ {s₁ a}, Settles 3 (past (max s₁.position s₀.position)) (next a)
      (turned s₁ (fun _ => since s₀) fun _ => since s₀) := fun {s₁ a} => by
    refine .skim looks_isUnwinding fun unwinding => ?_
    cases unwinding with
    | true => exact .done fun _ _ h => .inl (Nat.max_lt.mp h).2
    | false => exact .done fun _ _ h => ⟨.inl (Nat.max_lt.mp h).1, .inl (Nat.max_lt.mp h).2⟩
  clear_value next
  refine .thenAt ((Settles.loop (I := fun _ => since s₀) (Q := fun _ => since s₀)
    fun a s₁ => ?_).weaken fun _ _ h => .inr h) fun _ => .done fun _ _ h => h
  refine .look (looks_kind 0) fun k => ?_
  have take : ∀ {α : Type} {p : Parse α} {f : α → Parse (Turn Attachments Attachments)},
      Takes solid p → k ≠ .endOfFileToken →
      (∀ a, Settles 3 (past (max s₁.position s₀.position)) (f a)
        (turned s₁ (fun _ => since s₀) fun _ => since s₀)) →
      Settles rank (fun scope s => (s = s₁ ∧ since s₀ scope s) ∧ scope.kindAt s 0 = k)
        (p >>= f) (turned s₁ (fun _ => since s₀) fun _ => since s₀) := fun hp hk hf =>
    .takeSince (fun _ _ h => ⟨solid_of_eq h.2 hk, h.1⟩) hp hf
  split
  · refine take takes_documentation (by decide) fun doc => ?_
    split
    · exact .keep (halts_reportDuplicate _ _ _) fun _ => hn
    · exact hn
  · refine take takes_deprecation (by decide) fun notice => ?_
    split
    · exact .keep (halts_reportDuplicate _ _ _) fun _ => hn
    · exact hn
  · exact take takes_attachment (by decide) fun _ => hn
  · exact .done fun _ _ h => h.1.2

theorem halts_metadata : Halts rank P metadata := .ofHere settles_metadata

/-! ## Parameters -/

theorem halts_simpleParameter : Halts (rank + 1) P simpleParameter :=
  .mark fun _ => .bind halts_typeName fun _ => .bind halts_identifier fun _ => .node

theorem halts_typedParameter (m : Mark) (annotations : Tree (.list .attachment)) :
    Halts 3 P (typedParameter m annotations) := by
  refine .bind halts_typeName fun type => .bind (halts_accept _) fun rest => .ite (fun _ => ?_)
    fun _ => ?_
  · exact .bind halts_identifier fun _ => .node
  · exact .bind halts_identifier fun _ => .node

theorem takes_tupleMembers : Takes solid tupleMembers :=
  .bump fun _ => .bind (halts_commaList halts_simpleParameter) fun _ => .bind (halts_accept _)
    fun _ => .ite (fun _ => .ended) fun _ => .ended

theorem halts_parameter : Halts 3 P parameter := by
  refine .mark fun m => .bind halts_attachments fun annotations => ?_
  refine .look (looks_atKind _) fun tuple => ?_
  extract_lets read behindMembers
  have hr : ∀ t, Halts 3 any (read t) := fun t => .ite (fun _ => .ended) fun _ =>
    .bind (halts_accept _) fun _ => .ite (fun _ => .bind halts_expression fun _ => .node)
      fun _ => .ended
  clear_value read
  have hb : ∀ {P} members, Halts 3 P (behindMembers members) := by
    rintro P (_ | members)
    · exact .bind (halts_typedParameter m annotations) hr
    · exact .nodeThen fun info => (hr (.tupleParameter info annotations (.ofList members))).weaken
        fun _ _ _ => trivial
  clear_value behindMembers
  refine .ite (fun ht => .thenAt (.attempt (takes_tupleMembers.halts ?_)) fun _ => hb _)
    fun _ => hb _
  exact fun _ _ h => solid_of_eq (beq_iff_eq.mp (h.2.trans ht)) (by decide)

theorem halts_parameterList : Halts rank P parameterList :=
  .mark fun _ => .enclosed (by decide) halts_parameter fun _ _ => .bind (halts_expectClosing _ _ _)
    fun _ => .delimited

theorem takes_returnParameter : Takes solid returnParameter :=
  .mark fun _ => .bump fun _ => .bind halts_attachments fun _ => .bind halts_typeName fun _ => .node

theorem halts_optionalReturn : Halts rank P optionalReturn := takes_returnParameter.wheneverAt nofun

theorem halts_signature : Halts rank P signature :=
  .mark fun _ => .bind halts_callableName fun _ => .bind halts_parameterList fun _ =>
    .bind halts_optionalReturn fun _ => .node

theorem halts_optionalBody : Halts 3 P optionalBody :=
  halts_whenever (.bind (halts_accept _) fun _ => .ended) halts_callableBody

theorem solid_of_modifier {scope : Scope} {s : State}
    (h : modifierKeywords.contains (scope.kindAt s 0) = true) : solid scope s :=
  fun he => by rw [he] at h; cases h

/-- Modifiers are there, or nothing has happened. -/
theorem settles_modifiers (s₀ : State) :
    Settles rank (Condition.here s₀) modifiers fun _ => since s₀ := by
  refine .thenAt ((Picks.whenever (looks_atAny _) (fun _ _ => solid_of_modifier) takes_bump).many s₀)
    fun _ => .done fun _ _ h => h.imp_right And.left

theorem halts_modifiers : Halts rank P modifiers := .ofHere settles_modifiers

end BallerinaSyntax
