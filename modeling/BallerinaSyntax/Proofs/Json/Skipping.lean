import BallerinaSyntax.Proofs.Json.Grammar
import Mathlib.Data.List.DropRight

/-!
Values that nobody asked for. Skipping a value ends right behind its text, however deep the value
is and whatever is in it; a number alone has to be told from what stands behind it.
-/

namespace BallerinaSyntax.JsonText

variable {rest : List Char} {c d : Char}

/-! ## White space -/

@[simp] theorem skipBlanks_blanks (b : Blanks) (rest : List Char) :
    skipBlanks (b.text ++ rest) = skipBlanks rest :=
  List.dropWhile_append_of_pos fun c hc => List.all_eq_true.mp b.blank c hc

theorem skipBlanks_cons (h : isBlank c = false) (rest : List Char) :
    skipBlanks (c :: rest) = c :: rest := by
  simp [skipBlanks, h]

@[simp] theorem skipBlanks_skipBlanks (text : List Char) :
    skipBlanks (skipBlanks text) = skipBlanks text :=
  List.dropWhile_idempotent isBlank text

theorem blank_cases (h : isBlank c = true) : c = ' ' ∨ c = '\n' ∨ c = '\t' ∨ c = '\r' := by
  simpa [isBlank, or_assoc] using h

theorem ne_of_class {p : Char → Bool} (hc : p c = true) (hd : p d = false) : c ≠ d := by
  rintro rfl
  rw [hc] at hd
  cases hd

/-! ## Numbers -/

theorem digit_not_blank (h : c.isDigit = true) : isBlank c = false := by
  cases hb : isBlank c with
  | false => rfl
  | true => rcases blank_cases hb with rfl | rfl | rfl | rfl <;> cases h

/-- A number is over before this text, which would not go on with it. -/
def EndsNumber (rest : List Char) : Prop :=
  ∀ c ∈ rest.head?, c.isDigit = false ∧ c ≠ '.' ∧ isExponentMark c = false

theorem endsNumber_cons (h : c.isDigit = false ∧ c ≠ '.' ∧ isExponentMark c = false)
    (rest : List Char) : EndsNumber (c :: rest) := by
  intro d hd
  obtain rfl : c = d := by simpa using hd
  exact h

theorem EndsNumber.blanks (h : EndsNumber rest) (b : Blanks) : EndsNumber (b.text ++ rest) := by
  cases ht : b.text with
  | nil => exact h
  | cons c blanks =>
    have hb : isBlank c = true := List.all_eq_true.mp b.blank c (by simp [ht])
    refine endsNumber_cons ?_ _
    rcases blank_cases hb with rfl | rfl | rfl | rfl <;> decide

namespace Digits

theorem eq_cons (d : Digits) : ∃ c digits, d.text = c :: digits ∧ c.isDigit = true := by
  obtain ⟨c, digits, h⟩ := List.exists_cons_of_ne_nil d.nonempty
  exact ⟨c, digits, h, List.all_eq_true.mp d.digits c (by simp [h])⟩

theorem startsWithDigit (d : Digits) (rest : List Char) :
    startsWithDigit (d.text ++ rest) = true := by
  obtain ⟨c, digits, h, hc⟩ := d.eq_cons
  simpa [JsonText.startsWithDigit, h] using hc

theorem skipDigits (d : Digits) (h : JsonText.startsWithDigit rest = false) :
    skipDigits (d.text ++ rest) = rest := by
  have hd : ∀ c ∈ d.text, c.isDigit = true := fun c hc => List.all_eq_true.mp d.digits c hc
  rw [JsonText.skipDigits, List.dropWhile_append_of_pos hd]
  cases rest with
  | nil => rfl
  | cons c rest =>
    have hc : c.isDigit = false := by simpa [JsonText.startsWithDigit] using h
    simp [hc]

end Digits

theorem EndsNumber.startsWithDigit (h : EndsNumber rest) : startsWithDigit rest = false := by
  cases rest with
  | nil => rfl
  | cons c rest => simpa [JsonText.startsWithDigit] using (h c rfl).1

theorem skipSign_sign (s : Sign) (d : Digits) (rest : List Char) :
    skipSign (s.text ++ (d.text ++ rest)) = d.text ++ rest := by
  obtain ⟨c, digits, h, hc⟩ := d.eq_cons
  cases s with
  | plus | minus => rfl
  | absent =>
    have hp : c ≠ '+' := ne_of_class hc (by decide)
    have hm : c ≠ '-' := ne_of_class hc (by decide)
    simp [Sign.text, h, skipSign, hp, hm]

theorem skipExponent_exponent (e : Exponent) (h : EndsNumber rest) :
    skipExponent (e.sign.text ++ (e.digits.text ++ rest)) = .ok rest := by
  rw [skipExponent, skipSign_sign, e.digits.startsWithDigit,
    e.digits.skipDigits h.startsWithDigit]
  rfl

theorem mark_not_digit {e : Exponent} : e.mark.isDigit = false := by
  rcases (by simpa [isExponentMark] using e.isMark : e.mark = 'e' ∨ e.mark = 'E') with h | h <;>
    rw [h] <;> decide

theorem exponent_startsWithDigit (e : Option Exponent) (h : EndsNumber rest) :
    startsWithDigit (e.elim [] Exponent.text ++ rest) = false := by
  cases e with
  | none => exact h.startsWithDigit
  | some e => exact mark_not_digit

theorem skipFraction_fraction (d : Digits) (e : Option Exponent) (h : EndsNumber rest) :
    skipFraction (d.text ++ (e.elim [] Exponent.text ++ rest)) = .ok rest := by
  rw [skipFraction, d.startsWithDigit, d.skipDigits (exponent_startsWithDigit e h), if_pos rfl]
  cases e with
  | none =>
    cases rest with
    | nil => rfl
    | cons c rest => simp [(h c rfl).2.2]
  | some e =>
    simp only [Option.elim_some, Exponent.text, List.cons_append, List.append_assoc, e.isMark,
      if_true]
    exact skipExponent_exponent e h

theorem Numeral.tail_startsWithDigit (n : Numeral) (h : EndsNumber rest) :
    startsWithDigit (n.tail ++ rest) = false := by
  rw [Numeral.tail, List.append_assoc]
  cases n.fraction with
  | none => exact exponent_startsWithDigit n.exponent h
  | some d => rfl

/-- Skips what is behind the whole part of a number. -/
def skipTail : List Char → Result (List Char)
  | '.' :: rest => skipFraction rest
  | c :: rest => if isExponentMark c then skipExponent rest else .ok (c :: rest)
  | [] => .ok []

theorem skipNumber_whole (w : Whole) (h : startsWithDigit rest = false) :
    skipNumber (w.text ++ rest) = skipTail rest := by
  obtain ⟨c, digits, hw, hc⟩ := w.eq_cons
  rw [hw, List.cons_append]
  by_cases hz : c = '0'
  · subst hz
    have hd : digits = [] := by simpa [hw] using w.lead
    subst hd
    simp only [List.nil_append, skipNumber, h]
    rfl
  · have hr : skipDigits (digits ++ rest) = rest := by
      have := w.skipDigits h
      rwa [hw, List.cons_append, skipDigits, List.dropWhile_cons_of_pos hc] at this
    simp only [skipNumber, hc, hr]
    rfl

theorem skipTail_tail (n : Numeral) (h : EndsNumber rest) :
    skipTail (n.tail ++ rest) = .ok rest := by
  obtain ⟨negative, whole, fraction, exponent⟩ := n
  simp only [Numeral.tail, List.append_assoc]
  cases fraction with
  | some d => exact skipFraction_fraction d exponent h
  | none =>
    cases exponent with
    | none =>
      cases rest with
      | nil => rfl
      | cons c rest =>
        obtain ⟨-, hp, hm⟩ := h c rfl
        simp [skipTail, hm]
    | some e =>
      have hp : e.mark ≠ '.' := ne_of_class e.isMark (by decide)
      simp only [Option.elim_some, Option.elim_none, Exponent.text, List.nil_append,
        List.cons_append, List.append_assoc, skipTail, e.isMark, if_true]
      exact skipExponent_exponent e h

theorem skipNumber_numeral (n : Numeral) (h : EndsNumber rest) :
    skipNumber (n.whole.text ++ (n.tail ++ rest)) = .ok rest := by
  rw [skipNumber_whole n.whole (n.tail_startsWithDigit h), skipTail_tail n h]

/-! ## Strings -/

namespace HexDigits

theorem byteLength_append (h : HexDigits) (rest : List Char) :
    4 ≤ byteLength (h.text ++ rest) := by
  have := h.first.utf8Size_pos
  have := h.second.utf8Size_pos
  have := h.third.utf8Size_pos
  have := h.fourth.utf8Size_pos
  simp only [byteLength, text, List.cons_append, List.nil_append, List.foldr_cons]
  omega

theorem readHex (h : HexDigits) (rest : List Char) :
    readHex (h.text ++ rest) = .ok (h.value, rest) := by
  have hl := h.byteLength_append rest
  have hx := h.isHex
  simp only [List.all_cons, List.all_nil, Bool.and_true, Bool.and_eq_true,
    Option.isSome_iff_exists] at hx
  obtain ⟨⟨a, ha⟩, ⟨b, hb⟩, ⟨c, hc⟩, ⟨d, hd⟩⟩ := hx
  have hv : h.value = ((a * 16 + b) * 16 + c) * 16 + d := by
    simp [value, text, ha, hb, hc, hd]
  have ht : h.text ++ rest = h.first :: h.second :: h.third :: h.fourth :: rest := rfl
  rw [ht] at hl ⊢
  simp only [JsonText.readHex, if_neg (Nat.not_lt.mpr hl), ha, hb, hc, hd, hv]

end HexDigits

theorem plain_cases (h : isPlain c = true) : ¬ c < ' ' ∧ c ≠ '"' ∧ c ≠ '\\' := by
  simpa [isPlain, and_assoc] using h

theorem ne_u_of_simpleEscape? (h : (simpleEscape? c).isSome = true) : c ≠ 'u' := by
  rintro rfl
  cases h

/-- A part of a string is skipped in one step. -/
theorem skipStringFrom_part (p : StringPart) (steps : Nat) (rest : List Char) :
    skipStringFrom (steps + 1) (p.text ++ rest) = skipStringFrom steps rest := by
  cases p with
  | plain c hp =>
    obtain ⟨hs, hq, hb⟩ := plain_cases hp
    simp [StringPart.text, skipStringFrom, hs]
  | escape c hc =>
    have hu := ne_u_of_simpleEscape? hc
    simp [StringPart.text, skipStringFrom, skipEscape, hc, bind, Except.bind]
  | unit h =>
    simp [StringPart.text, skipStringFrom, skipEscape, h.readHex, bind, Except.bind, Except.map]

theorem skipStringFrom_quoted (parts : List StringPart) {steps : Nat} (h : parts.length < steps)
    (rest : List Char) : skipStringFrom steps (quoted parts ++ rest) = .ok rest := by
  induction parts generalizing steps with
  | nil =>
    obtain ⟨steps, rfl⟩ := Nat.exists_eq_add_of_lt h
    rfl
  | cons p parts ih =>
    obtain ⟨steps, rfl⟩ := Nat.exists_eq_succ_of_ne_zero (Nat.ne_zero_of_lt h)
    have := ih (Nat.succ_lt_succ_iff.mp h)
    rw [quoted, List.append_assoc] at this ⊢
    rw [List.flatMap_cons, List.append_assoc, skipStringFrom_part, this]

theorem StringPart.length_pos (p : StringPart) : 0 < p.text.length := by
  cases p <;> exact Nat.succ_pos _

theorem length_le_quoted (parts : List StringPart) : parts.length < (quoted parts).length := by
  induction parts with
  | nil => exact Nat.one_pos
  | cons p parts ih =>
    have := p.length_pos
    simp only [quoted, List.flatMap_cons, List.length_append, List.length_cons] at ih ⊢
    omega

theorem skipString_quoted (parts : List StringPart) (rest : List Char) :
    skipString (quoted parts ++ rest) = .ok rest := by
  refine skipStringFrom_quoted parts ?_ rest
  have := length_le_quoted parts
  rw [List.length_append]
  omega

/-! ## Values -/

theorem skipWord_append (word rest : List Char) : skipWord word (word ++ rest) = .ok rest := by
  induction word with
  | nil => rfl
  | cons c word ih => simpa only [List.cons_append, skipWord, if_true] using ih

/-- A value begins with a character that neither is blank nor ends an array. -/
theorem Value.exists_first (v : Value) :
    ∃ c text, v.text = c :: text ∧ isBlank c = false ∧ c ≠ ']' := by
  have first : ∀ {c : Char} {text : List Char}, v.text = c :: text →
      isBlank c = false ∧ c ≠ ']' → ∃ c text, v.text = c :: text ∧ isBlank c = false ∧ c ≠ ']' :=
    fun h hc => ⟨_, _, h, hc⟩
  cases v with
  | null => exact first rfl (by decide)
  | bool b => cases b <;> exact first rfl (by decide)
  | number n =>
    cases hn : n.negative with
    | true => exact first (by rw [Value.text, Numeral.text, hn]; rfl) (by decide)
    | false =>
      obtain ⟨c, digits, hw, hc⟩ := n.whole.eq_cons
      exact first (by rw [Value.text, Numeral.text, hn, hw]; rfl)
        ⟨digit_not_blank hc, ne_of_class hc (by decide)⟩
  | string | emptyArray | array | emptyObject | object => exact first rfl (by decide)

theorem skipValueIn_blanks (steps : Nat) (b : Blanks) (rest : List Char) :
    skipValueIn steps (b.text ++ rest) = skipValueIn steps rest := by
  cases steps with
  | zero => rfl
  | succ steps => simp only [skipValueIn, skipBlanks_blanks]

theorem skipValueIn_digit (h : c.isDigit = true) (steps : Nat) (text : List Char) :
    skipValueIn (steps + 1) (c :: text) = skipNumber (c :: text) := by
  rw [skipValueIn, skipBlanks_cons (digit_not_blank h)]
  -- no other way of beginning a value begins with a digit
  split
  case h_9 heq =>
    obtain ⟨rfl, rfl⟩ := List.cons.inj heq
    exact if_pos h
  all_goals
    rename_i heq
    cases heq <;> cases h

theorem skipElements_skipBlanks (steps : Nat) (text : List Char) :
    skipElements steps (skipBlanks text) = skipElements steps text := by
  cases steps with
  | zero => rfl
  | succ steps =>
    cases steps with
    | zero => rfl
    | succ steps => simp only [skipElements, skipValueIn, skipBlanks_skipBlanks]

theorem skipMembers_skipBlanks (steps : Nat) (text : List Char) :
    skipMembers steps (skipBlanks text) = skipMembers steps text := by
  cases steps with
  | zero => rfl
  | succ steps => simp only [skipMembers, skipBlanks_skipBlanks]

/-- The colon is found behind a name and blanks. -/
theorem skipColon_blanks (b : Blanks) (rest : List Char) :
    skipColon (b.text ++ ':' :: rest) = .ok rest := by
  rw [skipColon, skipBlanks_blanks, skipBlanks_cons (by decide)]
  rfl

/-- What is left to be skipped of the fields of an object behind a name. -/
theorem skipMembers_label (steps : Nat) (l : Label) (rest : List Char) :
    skipMembers (steps + 1) (l.text ++ rest) = (do
      match skipBlanks (← skipValueIn steps rest) with
      | [] => throw .truncated
      | '\x7d' :: rest => return rest
      | ',' :: rest => skipMembers steps rest
      | _ => throw .malformed) := by
  simp only [Label.text, List.append_assoc, List.cons_append, List.nil_append]
  rw [skipMembers, skipBlanks_blanks, skipBlanks_cons (by decide)]
  have behind (f : List Char → Result (List Char)) :
      (skipString (quoted l.name ++ (l.after.text ++ ':' :: rest)) >>= fun rest =>
        skipColon rest >>= f) = f rest := by
    rw [skipString_quoted]
    change skipColon _ >>= f = f rest
    rw [skipColon_blanks]
    rfl
  exact behind _

theorem Elements.exists_first (elements : Elements) (rest : List Char) :
    ∃ c more, skipBlanks (elements.text ++ rest) = c :: more ∧ c ≠ ']' := by
  have first : ∀ (before : Blanks) (value : Value) (rest : List Char),
      ∃ c more, skipBlanks (before.text ++ (value.text ++ rest)) = c :: more ∧ c ≠ ']' := by
    intro before value rest
    obtain ⟨c, text, hv, hb, hc⟩ := value.exists_first
    rw [skipBlanks_blanks, hv, List.cons_append, skipBlanks_cons hb]
    exact ⟨c, _, rfl, hc⟩
  cases elements with
  | last before value after =>
    simpa only [Elements.text, List.append_assoc] using first before value _
  | more before value after more =>
    simpa only [Elements.text, List.append_assoc] using first before value _

theorem Fields.exists_first (fields : Fields) (rest : List Char) :
    ∃ more, skipBlanks (fields.text ++ rest) = '"' :: more := by
  cases fields with
  | last | more =>
    simp only [Fields.text, Label.text, List.append_assoc, List.cons_append, skipBlanks_blanks]
    exact ⟨_, skipBlanks_cons (by decide) _⟩

mutual

/-- How many calls of the skipping functions may be open while a value is skipped. -/
def Value.levels : Value → Nat
  | .array elements => elements.levels + 1
  | .object fields => fields.levels + 1
  | _ => 1

def Elements.levels : Elements → Nat
  | .last _ value _ => value.levels + 1
  | .more _ value _ rest => max value.levels rest.levels + 1

def Fields.levels : Fields → Nat
  | .last _ _ value _ => value.levels + 1
  | .more _ _ value _ rest => max value.levels rest.levels + 1

end

mutual

theorem skipValueIn_value : ∀ (v : Value) {steps : Nat} {rest : List Char}, v.levels ≤ steps →
    EndsNumber rest → skipValueIn steps (v.text ++ rest) = .ok rest
  | .null, steps + 1, rest, _, _ => by
    change skipValueIn _ ('n' :: ("ull".toList ++ rest)) = _
    rw [skipValueIn, skipBlanks_cons (by decide)]
    exact skipWord_append ..
  | .bool true, steps + 1, rest, _, _ => by
    change skipValueIn _ ('t' :: ("rue".toList ++ rest)) = _
    rw [skipValueIn, skipBlanks_cons (by decide)]
    exact skipWord_append ..
  | .bool false, steps + 1, rest, _, _ => by
    change skipValueIn _ ('f' :: ("alse".toList ++ rest)) = _
    rw [skipValueIn, skipBlanks_cons (by decide)]
    exact skipWord_append ..
  | .number n, steps + 1, rest, _, h => by
    have hn := skipNumber_numeral n h
    rw [Value.text, Numeral.text, List.append_assoc, List.append_assoc]
    cases n.negative with
    | true =>
      change skipValueIn _ ('-' :: (n.whole.text ++ (n.tail ++ rest))) = _
      rw [skipValueIn, skipBlanks_cons (by decide)]
      exact hn
    | false =>
      obtain ⟨c, digits, hw, hc⟩ := n.whole.eq_cons
      rw [hw, List.cons_append] at hn
      change skipValueIn _ (n.whole.text ++ (n.tail ++ rest)) = _
      rw [hw, List.cons_append, skipValueIn_digit hc, hn]
  | .string parts, steps + 1, rest, _, _ => by
    change skipValueIn _ ('"' :: (quoted parts ++ rest)) = _
    rw [skipValueIn, skipBlanks_cons (by decide)]
    exact skipString_quoted ..
  | .emptyArray inside, steps + 1, rest, _, _ => by
    rw [Value.text, List.cons_append, List.append_assoc, skipValueIn, skipBlanks_cons (by decide)]
    simp only [skipBlanks_blanks]
    rw [List.singleton_append, skipBlanks_cons (by decide)]
    rfl
  | .array elements, steps + 1, rest, hs, _ => by
    have he := skipElements_elements elements (Nat.le_of_succ_le_succ hs) rest
    obtain ⟨c, more, hf, hc⟩ := elements.exists_first rest
    rw [← skipElements_skipBlanks, hf] at he
    rw [Value.text, List.cons_append, skipValueIn, skipBlanks_cons (by decide)]
    simp only [hf]
    split
    case h_1 heq => exact absurd (List.cons.inj heq).1 hc
    case h_2 heq => cases heq
    case h_3 => exact he
  | .emptyObject inside, steps + 1, rest, _, _ => by
    rw [Value.text, List.cons_append, List.append_assoc, skipValueIn, skipBlanks_cons (by decide)]
    simp only [skipBlanks_blanks]
    rw [List.singleton_append, skipBlanks_cons (by decide)]
    rfl
  | .object fields, steps + 1, rest, hs, _ => by
    have hf := skipMembers_fields fields (Nat.le_of_succ_le_succ hs) rest
    obtain ⟨more, hm⟩ := fields.exists_first rest
    rw [← skipMembers_skipBlanks, hm] at hf
    rw [Value.text, List.cons_append, skipValueIn, skipBlanks_cons (by decide)]
    simp only [hm]
    exact hf

theorem skipElements_elements : ∀ (elements : Elements) {steps : Nat}, elements.levels ≤ steps →
    ∀ rest, skipElements steps (elements.text ++ rest) = .ok rest
  | .last before value after, steps + 1, hs, rest => by
    have he : EndsNumber (after.text ++ ']' :: rest) :=
      .blanks (endsNumber_cons (by decide) rest) after
    have hv := skipValueIn_value value (Nat.le_of_succ_le_succ hs) he
    simp only [Elements.text, List.append_assoc, List.singleton_append]
    rw [skipElements, skipValueIn_blanks, hv]
    simp only [bind, Except.bind, skipBlanks_blanks]
    rw [skipBlanks_cons (by decide)]
    rfl
  | .more before value after more, steps + 1, hs, rest => by
    have hl : max value.levels more.levels ≤ steps := Nat.le_of_succ_le_succ hs
    have he : EndsNumber (after.text ++ ',' :: (more.text ++ rest)) :=
      .blanks (endsNumber_cons (by decide) _) after
    have hv := skipValueIn_value value (show value.levels ≤ steps by omega) he
    have hm := skipElements_elements more (show more.levels ≤ steps by omega) rest
    simp only [Elements.text, List.append_assoc, List.cons_append]
    rw [skipElements, skipValueIn_blanks, hv]
    simp only [bind, Except.bind, skipBlanks_blanks]
    rw [skipBlanks_cons (by decide)]
    exact hm

theorem skipMembers_fields : ∀ (fields : Fields) {steps : Nat}, fields.levels ≤ steps →
    ∀ rest, skipMembers steps (fields.text ++ rest) = .ok rest
  | .last label before value after, steps + 1, hs, rest => by
    have he : EndsNumber (after.text ++ '\x7d' :: rest) :=
      .blanks (endsNumber_cons (by decide) rest) after
    have hv := skipValueIn_value value (Nat.le_of_succ_le_succ hs) he
    simp only [Fields.text, List.append_assoc, List.singleton_append]
    rw [skipMembers_label, skipValueIn_blanks, hv]
    simp only [bind, Except.bind, skipBlanks_blanks]
    rw [skipBlanks_cons (by decide)]
    rfl
  | .more label before value after more, steps + 1, hs, rest => by
    have hl : max value.levels more.levels ≤ steps := Nat.le_of_succ_le_succ hs
    have he : EndsNumber (after.text ++ ',' :: (more.text ++ rest)) :=
      .blanks (endsNumber_cons (by decide) _) after
    have hv := skipValueIn_value value (show value.levels ≤ steps by omega) he
    have hm := skipMembers_fields more (show more.levels ≤ steps by omega) rest
    simp only [Fields.text, List.append_assoc, List.cons_append]
    rw [skipMembers_label, skipValueIn_blanks, hv]
    simp only [bind, Except.bind, skipBlanks_blanks]
    rw [skipBlanks_cons (by decide)]
    exact hm

end

mutual

theorem Value.levels_le : ∀ v : Value, v.levels ≤ v.text.length
  | .array elements => Nat.succ_le_succ elements.levels_le
  | .object fields => Nat.succ_le_succ fields.levels_le
  | .null | .bool _ | .number _ | .string _ | .emptyArray _ | .emptyObject _ => by
    obtain ⟨c, text, h, -⟩ := Value.exists_first _
    rw [h]
    exact Nat.succ_pos _

theorem Elements.levels_le : ∀ elements : Elements, elements.levels ≤ elements.text.length
  | .last before value after => by
    have := value.levels_le
    simp only [Elements.levels, Elements.text, List.length_append, List.length_singleton]
    omega
  | .more before value after rest => by
    have := value.levels_le
    have := rest.levels_le
    simp only [Elements.levels, Elements.text, List.length_append, List.length_cons]
    omega

theorem Fields.levels_le : ∀ fields : Fields, fields.levels ≤ fields.text.length
  | .last label before value after => by
    have := value.levels_le
    simp only [Fields.levels, Fields.text, List.length_append, List.length_singleton]
    omega
  | .more label before value after rest => by
    have := value.levels_le
    have := rest.levels_le
    simp only [Fields.levels, Fields.text, List.length_append, List.length_cons]
    omega

end

/-- A value is skipped up to its end. -/
theorem skipValue_value (before : Blanks) (v : Value) (h : EndsNumber rest) :
    skipValue (before.text ++ (v.text ++ rest)) = .ok rest := by
  have := v.levels_le
  rw [skipValue, skipValueIn_blanks]
  refine skipValueIn_value v ?_ h
  simp only [List.length_append]
  omega

end BallerinaSyntax.JsonText
