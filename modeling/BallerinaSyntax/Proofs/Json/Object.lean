import BallerinaSyntax.Options.Json
import BallerinaSyntax.Proofs.Json.Reading

/-!
Options from any JSON object. The members with a known name decide on the answer, each of them
given once at most and with a value that fits; the others only have to be there, whatever their
values are. What is written for some options is such an object.
-/

namespace BallerinaSyntax.Options

open JsonText

/-! ## What an object says -/

/-- The values that are given for a field. -/
def valuesOf (field : String) (members : List Member) : List Value :=
  members.filterMap fun (name, value) => if string? name = some field then some value else none

/-- What the values of a field come to: none leaves the field out, and a second one is refused. -/
def single? {α : Type} (read : Value → Option α) : List Value → Option (Option α)
  | [] => some none
  | [value] => (read value).map some
  | _ => none

/-- The options that the members of an object give, if every name is a string and no field is
given twice or with a value that it cannot have. -/
def ofMembers? (members : List Member) : Option Options :=
  if members.all fun (name, _) => (string? name).isSome then do
    let depth ← single? (·.whole?.filter (· < Nat.pow 2 32)) (valuesOf depthField members)
    let diagnostics ← single? (·.whole?.filter (· < Nat.pow 2 64))
      (valuesOf diagnosticsField members)
    let names ← single? Value.bool? (valuesOf namesField members)
    return ⟨depth.getD 200, diagnostics.getD 100, names.getD true⟩
  else none

/-! ## One member after the other -/

/-- Gives a field its value, unless it has one. -/
def fill? {α : Type} (seen : Option α) (value : Option α) : Option (Option α) :=
  if seen.isSome then none else value.map some

def Given.add? (g : Given) (field : String) (value : Value) : Option Given :=
  if field = depthField then
    (fill? g.depth (value.whole?.filter (· < depthLimit))).map fun n => { g with depth := n }
  else if field = diagnosticsField then
    (fill? g.diagnostics (value.whole?.filter (· < diagnosticsLimit))).map fun n =>
      { g with diagnostics := n }
  else if field = namesField then
    (fill? g.names value.bool?).map fun b => { g with names := b }
  else some g

def Given.addMember? (g : Given) (member : Member) : Option Given :=
  (string? member.1).bind fun field => g.add? field member.2

/-- What a field comes to that may have a value already. -/
def collect? {α : Type} (read : Value → Option α) : Option α → List Value → Option (Option α)
  | seen, [] => some seen
  | seen, value :: rest => (fill? seen (read value)).bind fun seen => collect? read seen rest

theorem collect?_none {α : Type} (read : Value → Option α) (values : List Value) :
    collect? read none values = single? read values := by
  match values with
  | [] => rfl
  | [value] => cases h : read value <;> simp [collect?, single?, fill?, h]
  | value :: _ :: _ => cases h : read value <;> simp [collect?, single?, fill?, h]

theorem fields_distinct : depthField ≠ diagnosticsField ∧ depthField ≠ namesField ∧
    diagnosticsField ≠ namesField := by
  decide

/-- Adding one member after the other comes to what the fields come to one by one. -/
theorem foldlM_addMember? (members : List Member) (g : Given) :
    members.foldlM Given.addMember? g =
      if members.all fun (name, _) => (string? name).isSome then do
        let depth ← collect? (·.whole?.filter (· < depthLimit)) g.depth
          (valuesOf depthField members)
        let diagnostics ← collect? (·.whole?.filter (· < diagnosticsLimit)) g.diagnostics
          (valuesOf diagnosticsField members)
        let names ← collect? Value.bool? g.names (valuesOf namesField members)
        return ⟨depth, diagnostics, names⟩
      else none := by
  obtain ⟨hdn, hdb, hnb⟩ := fields_distinct
  induction members generalizing g with
  | nil => rfl
  | cons member members ih =>
    obtain ⟨name, value⟩ := member
    rw [List.foldlM_cons]
    cases hf : string? name with
    | none => simp [Given.addMember?, hf]
    | some field =>
      have hv : ∀ known, valuesOf known ((name, value) :: members) =
          if field = known then value :: valuesOf known members else valuesOf known members := by
        intro known
        by_cases hk : field = known <;> simp [valuesOf, hf, hk]
      simp only [Given.addMember?, hf, hv, Option.bind_some, List.all_cons, Option.isSome_some,
        Bool.true_and, Given.add?, ih]
      by_cases ha : (members.all fun (name, _) => (string? name).isSome) = true
      case neg => simp [ha]
      simp only [if_pos ha]
      -- the field that the member names, if it is known, is the only one that comes to more
      by_cases hd : field = depthField
      · simp only [hd, if_true, if_neg hdn, if_neg hdb, collect?]
        cases fill? g.depth (value.whole?.filter (· < depthLimit)) <;> simp
      by_cases hn : field = diagnosticsField
      · simp only [hn, if_true, if_neg hdn.symm, if_neg hnb, collect?]
        cases fill? g.diagnostics (value.whole?.filter (· < diagnosticsLimit)) <;> simp
      by_cases hb : field = namesField
      · simp only [hb, if_true, if_neg hdb.symm, if_neg hnb.symm, collect?]
        cases fill? g.names value.bool? <;> simp
      · simp [hd, hn, hb]

/-! ## Reading an object -/

section Reading

variable {rest : List Char}

/-- The value of a field, behind its name, is read as what it adds to the fields so far. -/
theorem readField_value (g : Given) (field : String) (after before : Blanks) (value : Value)
    (h : EndsNumber rest) :
    (readField g field (after.text ++ ':' :: (before.text ++ (value.text ++ rest)))).toOption =
      (g.add? field value).map (·, rest) := by
  have hw : ∀ {limit : Nat}, limit ≤ wordLimit →
      (readWhole limit (before.text ++ (value.text ++ rest))).toOption =
        (value.whole?.filter (· < limit)).map (·, rest) :=
    fun hl => readWhole_value before value hl h
  rw [readField, Given.add?]
  split
  · cases g.depth <;>
      simp [fill?, skipColon_blanks, hw (show depthLimit ≤ wordLimit by decide), Function.comp_def]
  split
  · cases g.diagnostics <;>
      simp [fill?, skipColon_blanks, hw (Nat.le_refl diagnosticsLimit), Function.comp_def]
  split
  · cases g.names <;> simp [fill?, skipColon_blanks, readBool_value, Function.comp_def]
  · simp [skipColon_blanks, skipValue_value before value h]

/-- A member is read as what it adds; behind it the object ends or goes on. -/
theorem readMembers_member (steps : Nat) (g : Given) (label : Label) (before : Blanks)
    (value : Value) (h : EndsNumber rest) :
    (readMembers (steps + 1) g (label.text ++ (before.text ++ (value.text ++ rest)))).toOption =
      (g.addMember? (label.name, value)).bind fun g =>
        Except.toOption (do
          match skipBlanks rest with
          | [] => throw .truncated
          | '\x7d' :: rest => return (g, rest)
          | ',' :: rest => readMembers steps g rest
          | _ => throw .malformed) := by
  have hv := fun field => readField_value g field label.after before value h
  simp only [Label.text, List.append_assoc, List.cons_append]
  rw [readMembers, skipBlanks_blanks, skipBlanks_cons (by decide)]
  simp only [toOption_bind, List.nil_append, readString_quoted, Given.addMember?]
  cases string? label.name with
  | none => rfl
  | some field =>
    simp only [Option.map_some, Option.bind_some, hv]
    cases g.add? field value <;> rfl

/-- Members are read as what they add one after the other. -/
theorem readMembers_fields : ∀ (fields : Fields) (steps : Nat) (g : Given) (rest : List Char),
    fields.members.length ≤ steps → (readMembers steps g (fields.text ++ rest)).toOption =
      (fields.members.foldlM Given.addMember? g).map (·, rest)
  | .last label before value after, steps + 1, g, rest, _ => by
    have he : EndsNumber (after.text ++ '\x7d' :: rest) :=
      .blanks (endsNumber_cons (by decide) rest) after
    simp only [Fields.text, List.append_assoc, List.singleton_append]
    rw [readMembers_member _ _ _ _ _ he, skipBlanks_blanks, skipBlanks_cons (by decide)]
    simp only [Fields.members, List.foldlM_cons, List.foldlM_nil]
    cases g.addMember? (label.name, value) <;> rfl
  | .more label before value after more, steps + 1, g, rest, hs => by
    have ih := fun g => readMembers_fields more steps g rest (Nat.le_of_succ_le_succ hs)
    have he : EndsNumber (after.text ++ ',' :: (more.text ++ rest)) :=
      .blanks (endsNumber_cons (by decide) _) after
    simp only [Fields.text, List.append_assoc, List.cons_append]
    rw [readMembers_member _ _ _ _ _ he, skipBlanks_blanks, skipBlanks_cons (by decide)]
    simp only [ih, Fields.members, List.foldlM_cons]
    cases g.addMember? (label.name, value) <;> rfl

/-- Each member takes up a character. -/
theorem length_members_lt : ∀ (fields : Fields) (rest : List Char),
    fields.members.length < (skipBlanks (fields.text ++ rest)).length
  | .last label before value after, rest => by
    simp only [Fields.text, Label.text, List.append_assoc, List.cons_append, skipBlanks_blanks]
    rw [skipBlanks_cons (by decide)]
    simp only [Fields.members, List.length_cons, List.length_append]
    omega
  | .more label before value after more, rest => by
    have ih := length_members_lt more rest
    have hd : (skipBlanks (more.text ++ rest)).length ≤ (more.text ++ rest).length :=
      (List.dropWhile_suffix isBlank).length_le
    simp only [Fields.text, Label.text, List.append_assoc, List.cons_append, skipBlanks_blanks]
    rw [skipBlanks_cons (by decide)]
    simp only [Fields.members, List.length_cons, List.length_append] at hd ⊢
    omega

theorem ofMembers?_eq (members : List Member) :
    ofMembers? members = (members.foldlM Given.addMember? {}).map Given.toOptions := by
  have hd : depthLimit = Nat.pow 2 32 := rfl
  have hn : diagnosticsLimit = Nat.pow 2 64 := rfl
  rw [foldlM_addMember?, ofMembers?]
  simp only [collect?_none, hd, hn]
  split
  · simp [Given.toOptions, Function.comp_def]
  · rfl

/-- What is left to be read of an object and what is behind it. -/
theorem ofJson_brace (before : Blanks) (rest : List Char) :
    ofJson (String.ofList (before.text ++ '\x7b' :: rest)) = (do
      let (g, rest) ←
        match skipBlanks rest with
        | '\x7d' :: rest => pure ({}, rest)
        | rest => readMembers (rest.length + 1) {} rest
      if (skipBlanks rest).isEmpty then return g.toOptions else throw .malformed) := by
  rw [ofJson, String.toList_ofList, skipBlanks_blanks, skipBlanks_cons (by decide)]
  rfl

theorem readMembers_skipBlanks (steps : Nat) (g : Given) (text : List Char) :
    readMembers steps g (skipBlanks text) = readMembers steps g text := by
  cases steps with
  | zero => rfl
  | succ steps => simp only [readMembers, skipBlanks_skipBlanks]

/-- An object is read as what its members say. -/
theorem toOption_ofJson (before : Blanks) {value : Value} (after : Blanks) {members : List Member}
    (h : value.members? = some members) :
    (ofJson (String.ofList (before.text ++ (value.text ++ after.text)))).toOption =
      ofMembers? members := by
  have ha : skipBlanks after.text = [] := by
    have := skipBlanks_blanks after []
    rwa [List.append_nil] at this
  cases value with
  | emptyObject inside =>
    cases h
    rw [Value.text, List.cons_append, List.append_assoc, ofJson_brace, skipBlanks_blanks,
      List.singleton_append, skipBlanks_cons (by decide)]
    simp only [pure_bind, ha]
    rfl
  | object fields =>
    cases h
    have hl := length_members_lt fields after.text
    obtain ⟨more, hf⟩ := fields.exists_first after.text
    have hr := readMembers_fields fields _ {} after.text (Nat.le_succ_of_le hl.le)
    rw [Value.text, List.cons_append, ofJson_brace]
    rw [← readMembers_skipBlanks, hf] at hr
    rw [hf, ofMembers?_eq]
    refine (toOption_bind _ _).trans ?_
    simp only [hr]
    cases fields.members.foldlM Given.addMember? {} <;> simp [ha]
  | null | bool | number | string | emptyArray | array => cases h

end Reading

/-! ## What is written -/

/-- The object that some options are written as. -/
def written (o : Options) : Value :=
  .object <|
    .more ⟨{}, spelled depthField.toList, {}⟩ {}
      (.number { whole := Whole.ofNat o.maxNestingDepth }) {} <|
    .more ⟨{}, spelled diagnosticsField.toList, {}⟩ {}
      (.number { whole := Whole.ofNat o.maxDiagnostics }) {} <|
    .last ⟨{}, spelled namesField.toList, {}⟩ {} (.bool o.allowAnyIdentifierNames) {}

theorem toJson_eq (o : Options) : o.toJson = String.ofList o.written.text := by
  have hb : (if o.allowAnyIdentifierNames then "true" else "false" : String).toList =
      (Value.bool o.allowAnyIdentifierNames).text := by
    cases o.allowAnyIdentifierNames <;> rfl
  apply String.toList_injective
  rw [written, Value.text, Fields.text, Fields.text, Fields.text]
  delta toJson
  simp only [String.toList_append, String.toList_ofList, hb, Whole.text_ofNat, Label.text,
    quoted_spelled, List.append_assoc, List.nil_append, List.cons_append]
  rfl

theorem ofMembers?_written {o : Options} (hd : o.maxNestingDepth < Nat.pow 2 32)
    (hn : o.maxDiagnostics < Nat.pow 2 64) : o.written.members?.bind ofMembers? = some o := by
  obtain ⟨depth, diagnostics, names⟩ := o
  obtain ⟨hdn, hdb, hnb⟩ := fields_distinct
  have hw : ∀ {n limit : Nat}, n < limit →
      (Value.number { whole := Whole.ofNat n }).whole?.filter (· < limit) = some n := by
    intro n limit h
    simp [Value.whole?, Numeral.whole?, Whole.ofNat_value, Option.filter, h]
  simp only [written, Value.members?, Fields.members, Option.bind_some, ofMembers?, List.all_cons,
    List.all_nil, string?_spelled, valuesOf, List.filterMap_cons, List.filterMap_nil,
    Option.some.injEq, hdn, hdb, hnb, hdn.symm, hdb.symm, hnb.symm, if_true, if_false, single?,
    hw hd, hw hn]
  rfl

/-- Options are read back from what they are written as. Of any JSON object, whatever its white
space and the values that nobody asked for, the known fields are read, the defaults stand for the
ones that are left out, and there is an error if one is given twice or with a value that does not
fit. -/
theorem ofJson_as_written :
    (∀ o : Options, o.maxNestingDepth < Nat.pow 2 32 → o.maxDiagnostics < Nat.pow 2 64 →
      ofJson o.toJson = .ok o) ∧
    ∀ (before : Blanks) (value : Value) (after : Blanks) (members : List Member),
      value.members? = some members →
        (ofJson (String.ofList (before.text ++ (value.text ++ after.text)))).toOption =
          ofMembers? members := by
  refine ⟨fun o hd hn => ?_, fun before _ after _ => toOption_ofJson before after⟩
  have ho : (ofJson o.toJson).toOption = some o := by
    have := toOption_ofJson {} {} (show o.written.members? = some _ from rfl)
    rw [List.append_nil, List.nil_append, ← toJson_eq] at this
    exact this.trans (ofMembers?_written hd hn)
  cases h : ofJson o.toJson with
  | error e => simp [h] at ho
  | ok o' => simpa [h] using ho

/-- An object with an unknown field, in whose value a known name is given, and a known field in
whose name a letter is escaped. -/
def roundabout : Value :=
  .object <|
    .more ⟨{ text := ['\n', ' '] }, spelled "depth".toList, {}⟩ { text := [' '] }
      (.array <|
        .more {} .null {} <|
        .more {} (.object (.last ⟨{}, spelled diagnosticsField.toList, {}⟩ {}
          (.string (spelled "\x7d, 1".toList)) {})) {} <|
        .last { text := [' '] } (.number {
          negative := true
          whole := { text := ['1'] }
          exponent := some { mark := 'E', digits := { text := ['4', '0', '0'] } } }) {}) {} <|
    .last ⟨{ text := ['\t'] }, .unit ⟨'0', '0', '6', 'd', by decide⟩ ::
      spelled "axDiagnostics".toList, { text := [' '] }⟩ {} (.number { whole := Whole.ofNat 7 }) {}

theorem ofJson_roundabout :
    let largest : Options := ⟨4294967295, 18446744073709551615, false⟩
    ofJson largest.toJson = .ok largest ∧
      (ofJson (String.ofList (roundabout.text ++ [' ']))).toOption = some ⟨200, 7, true⟩ := by
  refine ⟨ofJson_as_written.1 _ (by decide) (by decide), ?_⟩
  exact (ofJson_as_written.2 {} roundabout { text := [' '] } _ rfl).trans (by decide)

end BallerinaSyntax.Options
