import BallerinaSyntax.Proofs.Halting.Callable
import BallerinaSyntax.Proofs.Outcome
import BallerinaSyntax.Proofs.Phrase.Inversion
import BallerinaSyntax.Proofs.Phrase.Unit
import BallerinaSyntax.Program.Definition

/-!
From a unit without an error down to its parts. A unit that is read without an error is a row of
definitions, each read straight on from where the one before it ends, and a list of statements is a
row of statements.
-/

namespace BallerinaSyntax

open Grammar Parse

variable {α : Type} {n i j k : Nat} {scope : Scope} {s t : State}

/-! ## Rows -/

/-- A round that goes straight on moves on, unless something unwinds. -/
theorem Straight.of_progressing {p : Parse α} [Programmed p] {a : α} {what : String}
    (h : Straight (recursion n) scope s (Parse.progressing what p) a j) :
    Straight (recursion n) scope s p a j ∧ (s.unwinding = false → j ≠ s.position) := by
  have hread := h.of_look looks_position
  obtain ⟨b, k, hp, hrest⟩ := hread.of_bind
  have hdecide := (hrest.of_look looks_position).of_look looks_isUnwinding
  by_cases hc : ((s.goTo k).position == s.position && !(s.goTo k).unwinding) = true
  · obtain ⟨_, _, hbump, -⟩ := (hdecide.of_ite_pos hc).of_bind
    have hlooked := ((hbump.of_look (looks_token 0)).of_look looks_describeCurrent).of_look
      looks_position
    obtain ⟨_, _, hreport, -⟩ := (hlooked.of_look (looks_located _ _ _)).of_bind
    exact absurd hreport (complains_report _ _).not_straight
  · obtain ⟨rfl, rfl⟩ := (hdecide.of_ite_neg hc).of_pure
    refine ⟨hp, fun hu hk => hc ?_⟩
    have hk : k = s.position := hk
    rw [State.goTo_position, State.goTo_unwinding, hk, hu, beq_self_eq_true]
    rfl

/-- Rounds that read on, one item or none at a time, read items in a row. -/
theorem Row.of_rounds {step : Nat → α → Nat → Prop}
    {turn : Array α → Parse (Turn (Array α) (Array α))} [∀ read, Programmed (turn read)]
    (hturn : ∀ read i next j, Straight (recursion n) scope (s.goTo i) (turn read) next j →
      (next = .stop read ∧ i = j) ∨ (next = .again read ∧ i = j) ∨
        ∃ a, next = .again (read.push a) ∧ step i a j) {m : Nat} {read out : Array α}
    (h : Straight (recursion n) scope (s.goTo i) (Parse.rounds turn m read) out j) :
    ∃ as, out.toList = read.toList ++ as ∧ Row step i as j := by
  induction m generalizing i read with
  | zero => cases h
  | succ m ih =>
    rcases h.of_rounds with hnext | ⟨next, k, hnext, hrest⟩
    · rcases hturn _ _ _ _ hnext with ⟨hout, rfl⟩ | ⟨hout, -⟩ | ⟨a, hout, -⟩
      · cases hout
        exact ⟨[], (List.append_nil _).symm, .nil _⟩
      · cases hout
      · cases hout
    · rcases hturn _ _ _ _ hnext with ⟨hout, -⟩ | ⟨hout, rfl⟩ | ⟨a, hout, hstep⟩
      · cases hout
      · cases hout
        exact ih hrest
      · cases hout
        obtain ⟨as, hout, hrow⟩ := ih hrest
        refine ⟨a :: as, ?_, .cons hstep hrow⟩
        rw [hout, Array.toList_push, List.append_assoc]
        rfl

/-! ## Statements -/

/-- A skip that reports nothing passes nothing. -/
theorem Straight.of_skipUntil {r : Recursion} {sync : Kind → Bool} {what : String} {m : Nat}
    (h : Straight r scope s (skipUntil sync what) m j) : j = s.position := by
  have hskip : some (m, s.goTo j) = _ := h.symm.trans (skipUntil_eq sync what r scope s rfl)
  have hs := congrArg Prod.snd (Option.some.inj hskip)
  by_cases hm : 0 < scope.found (scope.resume sync) s - s.position
  · have hcount := congrArg State.errorCount hs
    rw [if_pos hm, State.reported_errorCount] at hcount
    exact absurd hcount (Nat.ne_of_lt (Nat.lt_succ_self s.errorCount))
  · have hplace := congrArg State.position hs
    rw [if_neg hm] at hplace
    have hle := scope.le_found (scope.resume sync) s
    exact hplace.trans (Nat.le_antisymm (Nat.sub_eq_zero_iff_le.mp (Nat.eq_zero_of_not_pos hm)) hle)

/-- A round of a list of statements reads one, or leaves everything as it is. -/
theorem Straight.of_statementRound {read : Option Statement}
    (h : Straight (recursion n) scope s statementRound read j) :
    (read = none ∧ s.position = j) ∨
      ∃ x, read = some x ∧ Straight (recursion n) scope s statement x j := by
  have hround := h.of_look (looks_kind 0)
  by_cases hsemicolon : (scope.kindAt s 0 == .semicolonToken) = true
  · obtain ⟨_, _, hbump, -⟩ := (hround.of_ite_pos hsemicolon).of_bind
    have hlooked := ((hbump.of_look (looks_token 0)).of_look looks_describeCurrent).of_look
      looks_position
    obtain ⟨_, _, hreport, -⟩ := (hlooked.of_look (looks_located _ _ _)).of_bind
    exact absurd hreport (complains_report _ _).not_straight
  have hstart := (hround.of_ite_neg hsemicolon).of_look (looks_isName _)
  by_cases hnone : (!startsStatement (scope.kindAt s 0) &&
      !Operator.isName scope.options.allowAnyIdentifierNames (scope.kindAt s 0)) = true
  · obtain ⟨_, k, hskip, hrest⟩ := (hstart.of_ite_pos hnone).of_bind
    obtain ⟨rfl, hj⟩ := hrest.of_pure
    exact .inl ⟨rfl, hskip.of_skipUntil.symm.trans hj⟩
  · obtain ⟨x, k, hread, hrest⟩ := (hstart.of_ite_neg hnone).of_bind
    obtain ⟨rfl, rfl⟩ := hrest.of_pure
    exact .inr ⟨x, rfl, hread.of_progressing.1⟩

instance (read : Array Statement) : Programmed (statementsTurn read) := by
  unfold statementsTurn
  refine .andThen fun ends => @Programmed.ite _ _ _ _ _ inferInstance (.andThen fun x => ?_)
  exact x.casesOn (.ofPure _) fun x => .ofPure _

/-- The scope of the statements in a list. -/
def Scope.inList (scope : Scope) : Scope :=
  { scope with recovery := statementSync :: scope.recovery }

/-- A round of the loop over statements ends the list, reads a statement, or does nothing. -/
theorem Straight.of_statementsTurn {read : Array Statement}
    {next : Turn (Array Statement) (Array Statement)}
    (h : Straight (recursion n) scope s (statementsTurn read) next j) :
    (next = .stop read ∧ s.position = j) ∨ (next = .again read ∧ s.position = j) ∨
      ∃ x, next = .again (read.push x) ∧ Straight (recursion n) scope s statement x j := by
  have hround := h.of_look (looks_atListEnd _)
  by_cases hend : (s.unwinding || scope.kindAt s 0 == .closeBraceToken ||
      scope.kindAt s 0 == .endOfFileToken) = true
  · exact .inl ((hround.of_ite_pos hend).of_pure.imp_left Eq.symm)
  · obtain ⟨x, k, hread, hrest⟩ := (hround.of_ite_neg hend).split
      (Programmed.onward statementRound n scope) fun x => by
        cases x with
        | none => exact .pure _
        | some x => exact .pure _
    rcases hread.of_statementRound with ⟨rfl, rfl⟩ | ⟨x, rfl, hstatement⟩
    · exact .inr (.inl (hrest.of_pure.imp_left Eq.symm))
    · obtain ⟨rfl, rfl⟩ := hrest.of_pure
      exact .inr (.inr ⟨x, rfl, hstatement⟩)

/-- Statements that are read without an error stand in a row. -/
theorem Straight.of_statements {read : Tree (.list .statement)}
    (h : Straight (recursion n) scope s statements read j) :
    ∃ xs : List Statement, read = .ofList xs ∧
      Row (fun i x j => Straight (recursion n) scope.inList (s.goTo i) statement x j)
        s.position xs j := by
  rw [statements_eq] at h
  obtain ⟨out, k, hloop, hrest⟩ := h.of_bind
  obtain ⟨rfl, rfl⟩ := hrest.of_pure
  have hrounds : Straight (recursion n) scope.inList (s.goTo s.position)
      (Parse.rounds statementsTurn (recursion n).steps #[]) out k := hloop
  obtain ⟨xs, hout, hrow⟩ := Row.of_rounds (fun _ _ _ _ hturn => hturn.of_statementsTurn) hrounds
  rw [List.nil_append] at hout
  exact ⟨xs, congrArg Tree.ofList hout, hrow⟩

/-! ## Functions -/

/-- A body that begins with a statement and is read without an error is a row of statements. -/
theorem Straight.of_body {opening first : Token} {body : Tree .callableBody}
    (hopen : scope.buffer.get s.position = opening) (ho : opening.kind = .openBraceToken)
    (hfirst : scope.buffer.get (s.position + 1) = first) (hf : startsStatement first.kind = true)
    (hu : s.unwinding = false) (hl : 3 ≤ n)
    (h : Straight (recursion n) scope s callableBody body j) :
    ∃ m info, ∃ xs : List Statement, ∃ k, n = m + 1 ∧
      body = .callableBody info .nil (.ofList xs) .nil ∧
      Row (fun i x j => Straight (recursion m) scope.deeper.inList (s.goTo i) statement x j)
        (s.position + 1) xs k := by
  obtain ⟨m, rfl, hrule⟩ := h.of_call
  obtain ⟨-, hinner⟩ := hrule.of_nested
  have hsteps : 1 ≤ (recursion m).steps := by
    rw [steps_recursion]
    omega
  have hbrace : Straight (recursion m) scope.deeper s (Parse.expect .openBraceToken)
      (opening.leaf s.position) (s.position + 1) := .expect hopen ho (by decide)
  have hpresent : ¬(opening.leaf s.position).missing = true := Bool.false_ne_true
  have hendpoints : Straight (recursion m) scope.deeper (s.goTo (s.position + 1)) localEndpoints []
      (s.position + 1) := straight_noEndpoints hfirst hf hu hsteps
  have hworkers : ¬(scope.deeper.kindAt (s.goTo (s.position + 1)) 0 == .workerKeyword) = true := by
    change ¬((scope.buffer.get (s.position + 1)).kind == .workerKeyword) = true
    rw [hfirst, beq_of_startsStatement hf (by decide)]
    exact Bool.false_ne_true
  have hbehind := (hinner.of_look looks_mark).of_bindTo hbrace |>.of_ite_neg hpresent
  have hword := (hbehind.of_bindTo hendpoints).of_look (looks_atKind _)
  obtain ⟨workers, k, hnone, hrest⟩ := (hword.of_ite_neg hworkers).of_bind
  obtain ⟨rfl, rfl⟩ := hnone.of_pure
  obtain ⟨read, l, hread, hrest⟩ := (hrest.of_ite_neg hworkers).of_bind
  obtain ⟨xs, rfl, hrow⟩ := hread.of_statements
  obtain ⟨close, _, -, hrest⟩ := hrest.of_bind
  obtain ⟨info, _, -, hrest⟩ := hrest.of_bind
  exact ⟨m, info, xs, l, rfl, hrest.of_pure.1.symm, hrow⟩

/-- A function is read from its brace on as its body is. -/
theorem Straight.of_function {heading : Heading} {f : FunctionDefinition}
    {keyword name opening closing brace : Token}
    (hs : scope.buffer.Shows s.position [keyword, name, opening, closing, brace])
    (hk : keyword.kind = .functionKeyword) (hn : name.kind = .identifier)
    (ho : opening.kind = .openParenToken) (hc : closing.kind = .closeParenToken)
    (hb : brace.kind = .openBraceToken)
    (h : Straight (recursion n) scope s (function heading) f j) :
    ∃ body k, f.body = some body ∧
      Straight (recursion n) scope (s.goTo (s.position + 4)) callableBody body k := by
  obtain ⟨hkeyword, hname, hopening, hclosing, hbrace, -⟩ := hs
  have hword : Straight (recursion n) scope s Parse.bump _ _ :=
    .bump (Buffer.Shows.get hkeyword) (by rw [hk]; decide)
  have hreceiver : Straight (recursion n) scope (s.goTo (s.position + 1)) _ none (s.position + 1) :=
    straight_noReceiver (s := s.goTo (s.position + 1)) (Buffer.Shows.get hopening) ho
  obtain ⟨info, info', hsignature⟩ := @straight_signature scope (s.goTo (s.position + 1)) n
    _ _ _ _ ⟨hname, hopening, hclosing, hbrace, trivial⟩ hn ho hc hb
  have hsemicolon : Straight (recursion n) scope (s.goTo (s.position + 4)) (accept .semicolonToken)
      false (s.position + 4) := by
    refine .accept_no ?_
    rw [Scope.kindAt_zero (Buffer.Shows.get hbrace), hb]
    decide
  have hbehind := ((h.of_bindTo hword).of_bindTo hreceiver).of_bindTo hsignature
  obtain ⟨present, k, hoptional, hrest⟩ := hbehind.of_bind
  have hthere := hoptional.of_bindTo (.bind hsemicolon (.pure _ rfl))
  obtain ⟨body, l, hbody, hpresent⟩ := (hthere.of_ite_pos rfl).of_bind
  obtain ⟨rfl, rfl⟩ := hpresent.of_pure
  obtain ⟨_, _, -, hrest⟩ := hrest.of_bind
  obtain ⟨rfl, -⟩ := hrest.of_pure
  exact ⟨body, l, rfl, hbody⟩

/-- Where the word `function` stands before a name, a definition is the function that begins
there. -/
theorem Straight.of_definition {d : Definition} {keyword name : Token}
    (hs : scope.buffer.Shows s.position [keyword, name]) (hk : keyword.kind = .functionKeyword)
    (hn : name.kind = .identifier) (hr : 1 ≤ (recursion n).steps)
    (h : Straight (recursion n) scope s definition d j) :
    ∃ f, d = .function f ∧
      Straight (recursion n) scope s (function ⟨s.mark, .metadata [] [] .nil, {}⟩) f j := by
  have hkind : scope.kindAt s 0 = .functionKeyword :=
    (Scope.kindAt_zero (Buffer.Shows.get hs.1)).trans hk
  have hkind' : scope.kindAt (s.goTo s.position) 0 = .functionKeyword := hkind
  have hheading := h.of_bindTo (straight_heading (by rw [hkind]; decide) hr)
  have hword := hheading.of_look (looks_kind 0)
  rw [hkind'] at hword
  have hnext := hword.of_look (looks_isKind _ _)
  obtain ⟨f, k, hfunction, hrest⟩ := (hnext.of_ite_pos (by
    change (_ && !((scope.buffer.get (s.position + 1)).kind == .openParenToken)) = true
    rw [Buffer.Shows.get hs.2.1, hn]
    rfl)).of_bind
  obtain ⟨rfl, rfl⟩ := hrest.of_pure
  exact ⟨f, rfl, hfunction⟩

/-! ## Units -/

/-- What a round of a unit does if nothing unwinds. -/
def unitRound (items : UnitItems) : Parse (Turn UnitItems UnitItems) := do
  if ← atEnd then return .stop items
  return .again (← progressing "a definition" (unitItem items))

/-- A round of the loop over the items of a unit. -/
def unitTurn (items : UnitItems) : Parse (Turn UnitItems UnitItems) := do
  if ← isUnwinding then resynchronize topLevelStart
  unitRound items

theorem unitItems_eq : unitItems = loop unitTurn {} := rfl

instance (items : UnitItems) : Programmed (unitRound items) := by unfold unitRound; infer_instance

/-- Errors are never uncounted in a unit. -/
theorem unitTurn_errors {items : UnitItems} {next : Turn UnitItems UnitItems}
    (h : unitTurn items (recursion n) scope s = some (next, t)) : s.errorCount ≤ t.errorCount := by
  have hround : ∀ {u : State}, unitRound items (recursion n) scope u = some (next, t) →
      u.errorCount ≤ t.errorCount :=
    fun hr => (Programmed.onward (unitRound items) n scope hr).errors
  unfold unitTurn at h
  rw [looks_isUnwinding.bind_eq] at h
  by_cases hu : s.unwinding = true
  · rw [if_pos hu] at h
    obtain ⟨_, u, hresume, h⟩ := bind_eq_some.mp h
    cases hresume
    have hle := hround h
    exact hle
  · rw [if_neg hu] at h
    exact hround h

theorem rounds_unitTurn_errors {m : Nat} {items read : UnitItems}
    (h : Parse.rounds unitTurn m items (recursion n) scope s = some (read, t)) :
    s.errorCount ≤ t.errorCount := by
  induction m generalizing items s with
  | zero => cases h
  | succ m ih =>
    obtain ⟨next, u, hnext, hrest⟩ := bind_eq_some.mp h
    have herrors := unitTurn_errors hnext
    cases next with
    | again items => exact Nat.le_trans herrors (ih hrest)
    | stop read =>
      obtain ⟨-, rfl⟩ := pure_eq_some.mp hrest
      exact herrors

/-- An import or a namespace is read that goes from one index to another one. -/
inductive ReadsImport (n : Nat) (scope : Scope) (i : Nat) : ImportItem → Nat → Prop
  | package {d : ImportDeclaration} {j : Nat} (begins : (scope.buffer.get i).kind = .importKeyword)
      (reads : Straight (recursion n) scope (State.goTo {} i) importDeclaration d j) (moves : j ≠ i) :
      ReadsImport n scope i (.package d) j
  | xmlNamespace {d : NamespaceDeclaration} {j : Nat}
      (begins : (scope.buffer.get i).kind = .xmlnsKeyword)
      (reads : Straight (recursion n) scope (State.goTo {} i) namespaceDeclaration d j)
      (moves : j ≠ i) : ReadsImport n scope i (.xmlNamespace d) j

/-- The tokens at which no definition is read. -/
def noDefinition : List Kind := [.endOfFileToken, .importKeyword, .xmlnsKeyword]

/-- A definition is read that goes from one index to another one. -/
structure ReadsDefinition (n : Nat) (scope : Scope) (i : Nat) (d : Definition) (j : Nat) : Prop where
  begins : (scope.buffer.get i).kind ∉ noDefinition
  reads : Straight (recursion n) scope (State.goTo {} i) definition d j
  moves : j ≠ i

/-- An import stands in front of all definitions. -/
theorem Straight.of_requireFirst {items : UnitItems} {what : String} {x : Unit}
    (h : Straight (recursion n) scope s (requireFirst items what) x j) :
    items.definitions = #[] ∧ s.position = j := by
  by_cases hd : items.definitions.isEmpty = true
  · exact ⟨Array.isEmpty_iff.mp hd, (h.of_ite_neg (by rw [hd]; decide)).of_pure.2⟩
  · rw [Bool.not_eq_true] at hd
    exact absurd (h.of_ite_pos (by rw [hd]; rfl)) (complains_errorHere _ _).not_straight

/-- An item is an import in front of all definitions, or a definition. -/
theorem Straight.of_unitItem {items next : UnitItems}
    (h : Straight (recursion n) scope (State.goTo {} i) (unitItem items) next j) (hj : j ≠ i)
    (he : (scope.buffer.get i).kind ≠ .endOfFileToken) :
    (∃ x, items.definitions = #[] ∧ next = { items with imports := items.imports.push x } ∧
      ReadsImport n scope i x j) ∨
    ∃ d, next = { items with definitions := items.definitions.push d } ∧
      ReadsDefinition n scope i d j := by
  have hitem := h.of_look (looks_kind 0)
  split at hitem
  · rename_i hk
    obtain ⟨_, k, hfirst, hrest⟩ := hitem.of_bind
    obtain ⟨hnone, rfl⟩ := hfirst.of_requireFirst
    obtain ⟨d, l, hread, hrest⟩ := hrest.of_bind
    obtain ⟨rfl, rfl⟩ := hrest.of_pure
    exact .inl ⟨_, hnone, rfl, .package hk hread hj⟩
  · rename_i hk
    obtain ⟨_, k, hfirst, hrest⟩ := hitem.of_bind
    obtain ⟨hnone, rfl⟩ := hfirst.of_requireFirst
    obtain ⟨d, l, hread, hrest⟩ := hrest.of_bind
    obtain ⟨rfl, rfl⟩ := hrest.of_pure
    exact .inl ⟨_, hnone, rfl, .xmlNamespace hk hread hj⟩
  · rename_i himport hxmlns
    obtain ⟨d, k, hread, hrest⟩ := hitem.of_bind
    obtain ⟨rfl, rfl⟩ := hrest.of_pure
    refine .inr ⟨d, rfl, fun hk => ?_, hread, hj⟩
    simp only [noDefinition, List.mem_cons, List.not_mem_nil, or_false] at hk
    rcases hk with hk | hk | hk
    · exact he hk
    · exact himport hk
    · exact hxmlns hk

/-- The rest of a unit without an error, from an index on: imports in a row, behind them definitions
in a row, and the end of the file. -/
structure RestOfUnit (n : Nat) (scope : Scope) (i : Nat) (imports : List ImportItem)
    (definitions : List Definition) (t : State) : Prop where
  rows : ∃ k, Row (ReadsImport n scope) i imports k ∧
    Row (ReadsDefinition n scope) k definitions t.position
  clean : t = State.goTo {} t.position
  ends : (scope.buffer.get t.position).kind = .endOfFileToken

/-- The rounds of a unit without an error read imports in a row and definitions in a row. -/
theorem RestOfUnit.of_rounds {m : Nat} {items read : UnitItems}
    (h : Parse.rounds unitTurn m items (recursion n) scope (State.goTo {} i) = some (read, t))
    (ht : t.errorCount = 0) :
    ∃ imports definitions, read.imports.toList = items.imports.toList ++ imports ∧
      read.definitions.toList = items.definitions.toList ++ definitions ∧
      (items.definitions ≠ #[] → imports = []) ∧
      RestOfUnit n scope i imports definitions t := by
  induction m generalizing items i with
  | zero => cases h
  | succ m ih =>
    obtain ⟨next, u, hnext, hrest⟩ := bind_eq_some.mp h
    have herrors : u.errorCount ≤ t.errorCount := by
      cases next with
      | again items => exact rounds_unitTurn_errors hrest
      | stop read =>
        obtain ⟨-, rfl⟩ := pure_eq_some.mp hrest
        exact Nat.le_refl _
    have hclean : u.errorCount = 0 := by omega
    have hrunning : ¬(State.goTo {} i).unwinding = true := Bool.false_ne_true
    unfold unitTurn at hnext
    rw [looks_isUnwinding.bind_eq, run_if_neg hrunning] at hnext
    have hround := Leads.straight (Programmed.onward (unitRound items) n scope) hnext hclean
    have hmoved : u = State.goTo {} u.position :=
      (Programmed.onward (unitRound items) n scope hnext).quiet hclean
    have hturn := hround.of_look looks_atEnd
    by_cases hend : (scope.kindAt (State.goTo {} i) 0 == .endOfFileToken) = true
    · obtain ⟨rfl, hplace⟩ := (hturn.of_ite_pos hend).of_pure
      obtain ⟨rfl, rfl⟩ := pure_eq_some.mp hrest
      have hplace : i = u.position := hplace
      have hkind : (scope.buffer.get i).kind = .endOfFileToken := beq_iff_eq.mp hend
      exact ⟨[], [], (List.append_nil _).symm, (List.append_nil _).symm, fun _ => rfl,
        ⟨i, .nil _, hplace ▸ .nil _⟩, hmoved, hplace ▸ hkind⟩
    · obtain ⟨more, k, hitem, hagain⟩ := (hturn.of_ite_neg hend).of_bind
      obtain ⟨rfl, rfl⟩ := hagain.of_pure
      rw [hmoved] at hrest
      obtain ⟨imports, definitions, himports, hdefinitions, honly, ⟨k, his, hds⟩, hstop, hlast⟩ :=
        ih hrest
      obtain ⟨hread, hprogress⟩ := hitem.of_progressing
      rcases hread.of_unitItem (hprogress rfl) (fun hk => hend (beq_iff_eq.mpr hk)) with
        ⟨x, hnone, rfl, hx⟩ | ⟨d, rfl, hd⟩
      · refine ⟨x :: imports, definitions, ?_, hdefinitions, fun hn => absurd hnone hn,
          ⟨k, .cons hx his, hds⟩, hstop, hlast⟩
        rw [himports, Array.toList_push, List.append_assoc]
        rfl
      · obtain rfl := honly Array.push_ne_empty
        obtain ⟨-⟩ := his
        refine ⟨[], d :: definitions, himports, ?_, fun _ => rfl, ⟨i, .nil _, .cons hd hds⟩, hstop,
          hlast⟩
        rw [hdefinitions, Array.toList_push, List.append_assoc]
        rfl

end BallerinaSyntax
