import BallerinaSyntax.Proofs.Json.Skipping

/-!
Values that are asked for. A name is read as the string that it stands for, a whole number as its
value and a truth value as itself; every other value is an error, as are a number that is too
large and a name with half a pair in it.
-/

namespace BallerinaSyntax.JsonText

variable {rest : List Char}

/-! ## What reading gives

Which error it is does not matter here, only whether there is one. -/

section ToOption

variable {α β : Type}

@[simp] theorem toOption_ok (a : α) : (Except.ok a : Result α).toOption = some a := rfl

@[simp] theorem toOption_error (e : ReadError) : (Except.error e : Result α).toOption = none := rfl

@[simp] theorem toOption_pure (a : α) : (pure a : Result α).toOption = some a := rfl

@[simp] theorem toOption_throw (e : ReadError) : (throw e : Result α).toOption = none := rfl

@[simp] theorem toOption_bind (r : Result α) (f : α → Result β) :
    (r >>= f).toOption = r.toOption.bind fun a => (f a).toOption := by
  cases r <;> rfl

@[simp] theorem toOption_map (f : α → β) (r : Result α) :
    (f <$> r).toOption = r.toOption.map f := by
  cases r <;> rfl

end ToOption

/-! ## Strings -/

/-- The second half of a pair cannot stand by itself. -/
theorem readCodePoint_low {low : HexDigits} (h : low.isLow = true) (rest : List Char) :
    readCodePoint (low.text ++ rest) = .error .malformed := by
  simp only [HexDigits.isLow, Bool.and_eq_true, decide_eq_true_eq] at h
  simp [readCodePoint, low.readHex, bind, Except.bind, h]
  rfl

theorem readCodePoint_single {h : HexDigits} (hh : h.isHigh = false) (hl : h.isLow = false)
    (rest : List Char) : readCodePoint (h.text ++ rest) = .ok (Char.ofNat h.value, rest) := by
  simp only [HexDigits.isHigh, HexDigits.isLow, Bool.and_eq_false_iff, decide_eq_false_iff_not,
    Nat.not_le] at hh hl
  have hn : ¬ (0xDC00 ≤ h.value ∧ h.value ≤ 0xDFFF) := by omega
  have ho : h.value < 0xD800 ∨ 0xDBFF < h.value := by omega
  simp [readCodePoint, h.readHex, bind, Except.bind, hn, ho]
  rfl

/-- What is left to be read behind the first half of a pair. -/
theorem readCodePoint_high {high : HexDigits} (h : high.isHigh = true) (rest : List Char) :
    readCodePoint (high.text ++ rest) = (do
      match rest with
      | [] => throw .truncated
      | '\\' :: [] => throw .truncated
      | '\\' :: 'u' :: rest =>
        let (low, rest) ← readHex rest
        if low < 0xDC00 || 0xDFFF < low then throw .malformed
        else return (Char.ofNat ((high.value - 0xD800) * 1024 + (low - 0xDC00) + 0x10000), rest)
      | _ => throw .malformed) := by
  simp only [HexDigits.isHigh, Bool.and_eq_true, decide_eq_true_eq] at h
  have hn : ¬ (0xDC00 ≤ high.value ∧ high.value ≤ 0xDFFF) := by omega
  have ho : ¬ (high.value < 0xD800 ∨ 0xDBFF < high.value) := by omega
  rw [readCodePoint, HexDigits.readHex]
  change (if _ then _ else if _ then _ else _) = _
  simp only [Bool.and_eq_true, decide_eq_true_eq, Bool.or_eq_true]
  exact (if_neg hn).trans (if_neg ho)

theorem readCodePoint_pair {high low : HexDigits} (hh : high.isHigh = true) (rest : List Char) :
    (readCodePoint (high.text ++ '\\' :: 'u' :: (low.text ++ rest))).toOption =
      if low.isLow then some (high.pair low, rest) else none := by
  rw [readCodePoint_high hh]
  simp only [HexDigits.readHex, HexDigits.isLow]
  by_cases hl : 0xDC00 ≤ low.value ∧ low.value ≤ 0xDFFF
  · have hw : ¬ (low.value < 0xDC00 ∨ 0xDFFF < low.value) := by omega
    simp [hl, hw, HexDigits.pair]
  · have hw : low.value < 0xDC00 ∨ 0xDFFF < low.value := by omega
    simp [hl, hw]

theorem quoted_cons (p : StringPart) (parts : List StringPart) (rest : List Char) :
    quoted (p :: parts) ++ rest = p.text ++ (quoted parts ++ rest) := by
  simp [quoted]

/-- The first half of a pair cannot stand by itself. -/
theorem readCodePoint_unpaired {high : HexDigits} {parts : List StringPart}
    (hh : high.isHigh = true) (hp : ∀ low more, parts = .unit low :: more → False)
    (rest : List Char) : (readCodePoint (high.text ++ (quoted parts ++ rest))).toOption = none := by
  rw [readCodePoint_high hh]
  cases parts with
  | nil => rfl
  | cons p parts =>
    rw [quoted_cons]
    cases p with
    | plain c hc =>
      obtain ⟨-, -, hb⟩ := plain_cases hc
      simp [StringPart.text, hb]
    | escape c hc =>
      have hu := ne_u_of_simpleEscape? hc
      simp [StringPart.text, hu]
    | unit low => exact absurd rfl (hp low parts)

section Parts

variable (steps : Nat) (seen rest : List Char)

theorem readStringFrom_plain {c : Char} (hp : isPlain c = true) :
    readStringFrom (steps + 1) seen (c :: rest) = readStringFrom steps (c :: seen) rest := by
  obtain ⟨hs, hq, hb⟩ := plain_cases hp
  simp [readStringFrom, hs]

theorem readStringFrom_escape {c d : Char} (hc : simpleEscape? c = some d) :
    readStringFrom (steps + 1) seen ('\\' :: c :: rest) =
      readStringFrom steps (d :: seen) rest := by
  have hu := ne_u_of_simpleEscape? (Option.isSome_of_eq_some hc)
  simp [readStringFrom, readEscape, hc, bind, Except.bind]

theorem readStringFrom_unit (text : List Char) :
    (readStringFrom (steps + 1) seen ('\\' :: 'u' :: text)).toOption =
      (readCodePoint text).toOption.bind fun (c, rest) =>
        (readStringFrom steps (c :: seen) rest).toOption := by
  simp [readStringFrom, readEscape]

end Parts

/-- A string is read as what it stands for. -/
theorem readStringFrom_quoted (parts : List StringPart) (steps : Nat) (seen rest : List Char)
    (hs : parts.length < steps) : (readStringFrom steps seen (quoted parts ++ rest)).toOption =
      (decode? parts).map fun chars => (seen.reverse ++ chars, rest) := by
  fun_induction decode? parts generalizing steps seen <;>
    obtain ⟨steps, rfl⟩ := Nat.exists_eq_succ_of_ne_zero (Nat.ne_zero_of_lt hs)
  case case1 => simp [quoted, readStringFrom]
  case case2 c hp parts ih =>
    rw [quoted_cons, StringPart.text, List.singleton_append, readStringFrom_plain _ _ _ hp,
      ih _ _ (Nat.lt_of_succ_lt_succ hs)]
    simp [Function.comp_def]
  case case3 c hc parts ih =>
    obtain ⟨d, hd⟩ := Option.isSome_iff_exists.mp hc
    rw [quoted_cons, StringPart.text, List.cons_append, List.singleton_append,
      readStringFrom_escape _ _ _ hd, ih _ _ (Nat.lt_of_succ_lt_succ hs)]
    simp [hd, Function.comp_def]
  case case4 high hh low parts hl ih =>
    have hs : parts.length < steps := by
      simp only [List.length_cons] at hs
      omega
    simp [quoted_cons, StringPart.text, readStringFrom_unit, readCodePoint_pair hh, hl, ih _ _ hs,
      Function.comp_def]
  case case5 high hh low parts hl =>
    simp [quoted_cons, StringPart.text, readStringFrom_unit, readCodePoint_pair hh, hl]
  case case6 high parts hh hp =>
    rw [quoted_cons, StringPart.text, List.cons_append, List.cons_append, readStringFrom_unit,
      readCodePoint_unpaired hh hp]
    rfl
  case case7 h parts hh hl =>
    rw [quoted_cons, StringPart.text, List.cons_append, List.cons_append, readStringFrom_unit,
      readCodePoint_low hl]
    rfl
  case case8 h parts hh hl ih =>
    have hr := readCodePoint_single (Bool.eq_false_iff.mpr hh) (Bool.eq_false_iff.mpr hl)
      (quoted parts ++ rest)
    simp [quoted_cons, StringPart.text, readStringFrom_unit, hr,
      ih _ _ (Nat.lt_of_succ_lt_succ hs), Function.comp_def]

theorem readString_quoted (parts : List StringPart) (rest : List Char) :
    (readString (quoted parts ++ rest)).toOption = (string? parts).map (·, rest) := by
  have hl := length_le_quoted parts
  have := readStringFrom_quoted parts ((quoted parts ++ rest).length + 1) [] rest
    (by rw [List.length_append]; omega)
  rw [readString, toOption_bind, this, string?]
  cases decode? parts <;> rfl

/-! ## Whole numbers -/

/-- Digits that all go into a word are its value. -/
theorem takeDigits_all : ∀ (digits : List Char) (significand taken : Nat),
    (takeDigits significand taken digits).2.2 = [] →
      (takeDigits significand taken digits).1 = Nat.ofDigitChars 10 digits significand
  | [], _, _, _ => rfl
  | c :: digits, significand, taken, h => by
    rw [takeDigits] at h ⊢
    split at h
    case isTrue hf =>
      rw [if_pos hf, takeDigits_all digits _ _ h, Nat.ofDigitChars_cons, Nat.mul_comm]
    case isFalse => cases h

theorem le_ofDigitChars (digits : List Char) (n : Nat) : n ≤ Nat.ofDigitChars 10 digits n := by
  induction digits generalizing n with
  | nil => exact Nat.le_refl n
  | cons c digits ih =>
    rw [Nat.ofDigitChars_cons]
    have := ih (10 * n + (c.toNat - '0'.toNat))
    omega

/-- All digits of a number that fits a word go into it. -/
theorem takeDigits_fits : ∀ (digits : List Char) (significand taken : Nat),
    Nat.ofDigitChars 10 digits significand < wordLimit →
      (takeDigits significand taken digits).2.2 = []
  | [], _, _, _ => rfl
  | c :: digits, significand, taken, h => by
    rw [Nat.ofDigitChars_cons, Nat.mul_comm] at h
    have hf := Nat.lt_of_le_of_lt (le_ofDigitChars digits _) h
    rw [takeDigits, if_pos hf]
    exact takeDigits_fits digits _ _ h

/-- What was read, if it is a whole number below a limit. -/
def below? (limit : Nat) : Number × List Char → Option (Nat × List Char)
  | (.whole n, rest) => if n < limit then some (n, rest) else none
  | (.other, _) => none

/-- Reads what is behind the whole part of a number, of which `excess` did not fit a word. -/
def readTail (positive : Bool) (significand : Nat) (excess : List Char) :
    List Char → Result (Number × List Char)
  | '.' :: rest => readFraction significand excess.length rest
  | rest =>
    match rest.head?.filter isExponentMark with
    | some _ => readExponent significand excess.length rest.tail
    | none =>
      if excess.isEmpty then return (if positive then .whole significand else .other, rest)
      else finish significand excess.length rest

theorem Digits.takeWhile (d : Digits) (h : JsonText.startsWithDigit rest = false) :
    (d.text ++ rest).takeWhile Char.isDigit = d.text := by
  have hd : ∀ c ∈ d.text, c.isDigit = true := fun c hc => List.all_eq_true.mp d.digits c hc
  rw [List.takeWhile_append_of_pos hd]
  cases rest with
  | nil => simp
  | cons c rest =>
    have hc : c.isDigit = false := by simpa [JsonText.startsWithDigit] using h
    simp [hc]

theorem readNumber_whole (positive : Bool) (w : Whole) (h : startsWithDigit rest = false) :
    readNumber positive (w.text ++ rest) =
      readTail positive (takeDigits 0 0 w.text).1 (takeDigits 0 0 w.text).2.2 rest := by
  have ht := w.takeWhile h
  have hs := w.skipDigits h
  obtain ⟨c, digits, hw, hc⟩ := w.eq_cons
  unfold readNumber
  rw [ht, hs]
  obtain ⟨significand, taken, excess⟩ := takeDigits 0 0 w.text
  dsimp only
  rw [hw, List.cons_append]
  by_cases hz : c = '0'
  · subst hz
    have hd : digits = [] := by simpa [hw] using w.lead
    subst hd
    cases rest with
    | nil => rfl
    | cons d rest =>
      have hd : d.isDigit = false := by simpa [startsWithDigit] using h
      simp only [List.nil_append, hd]
      rfl
  · split
    case h_1 heq => cases heq
    case h_2 heq => exact absurd (List.cons.inj heq).1 hz
    case h_3 heq =>
      obtain ⟨rfl, -⟩ := List.cons.inj heq
      simp only [hc]
      rfl

section Other

variable (limit significand : Nat) (exponent : Int)

theorem finish_below? (rest : List Char) :
    (finish significand exponent rest).toOption.bind (below? limit) = none := by
  rw [finish]
  split <;> rfl

theorem readExponent_below? (text : List Char) :
    (readExponent significand exponent text).toOption.bind (below? limit) = none := by
  simp only [readExponent]
  repeat' split
  all_goals first
    | rfl
    | exact finish_below? ..

theorem readFraction_below? (text : List Char) :
    (readFraction significand exponent text).toOption.bind (below? limit) = none := by
  simp only [readFraction]
  repeat' split
  all_goals first
    | rfl
    | exact finish_below? ..
    | exact readExponent_below? ..

end Other

/-- A number is whole if nothing is behind its whole part, which fits a word, nor a sign in front
of it. -/
theorem readTail_tail (n : Numeral) (limit significand : Nat) (excess : List Char)
    (h : EndsNumber rest) :
    (readTail (!n.negative) significand excess (n.tail ++ rest)).toOption.bind (below? limit) =
      if n.negative || n.fraction.isSome || n.exponent.isSome || !excess.isEmpty then none
      else if significand < limit then some (significand, rest) else none := by
  obtain ⟨negative, whole, fraction, exponent⟩ := n
  simp only [Numeral.tail, List.append_assoc]
  cases fraction with
  | some d =>
    rw [if_pos (by simp)]
    exact readFraction_below? ..
  | none =>
    cases exponent with
    | some e =>
      have hp : e.mark ≠ '.' := ne_of_class e.isMark (by decide)
      have hr := readExponent_below? limit significand excess.length
        (e.sign.text ++ e.digits.text ++ rest)
      rw [if_pos (by simp)]
      simpa [readTail, Exponent.text, Option.filter, e.isMark, hp] using hr
    | none =>
      have hr := finish_below? limit significand excess.length rest
      have ht : readTail (!negative) significand excess rest =
          if excess.isEmpty then .ok (if !negative then .whole significand else .other, rest)
          else finish significand excess.length rest := by
        cases rest with
        | nil => rfl
        | cons c rest =>
          obtain ⟨-, hp, hm⟩ := h c rfl
          simp [readTail, Option.filter, hp, hm, pure, Except.pure]
      simp only [Option.elim_none, List.nil_append, ht]
      cases excess <;> cases negative <;> first | exact hr | rfl

theorem readNumber_numeral (n : Numeral) {limit : Nat} (hl : limit ≤ wordLimit)
    (h : EndsNumber rest) :
    (readNumber (!n.negative) (n.whole.text ++ (n.tail ++ rest))).toOption.bind (below? limit) =
      (n.whole?.filter (· < limit)).map (·, rest) := by
  rw [readNumber_whole _ _ (n.tail_startsWithDigit h), readTail_tail n limit _ _ h, Numeral.whole?,
    Whole.value]
  cases hn : n.negative || n.fraction.isSome || n.exponent.isSome with
  | true => rfl
  | false =>
    generalize hd : n.whole.text = digits
    by_cases hf : (takeDigits 0 0 digits).2.2 = []
    · by_cases hn : Nat.ofDigitChars 10 digits 0 < limit <;>
        simp [hf, takeDigits_all digits 0 0 hf, Option.filter, hn]
    · have hv : wordLimit ≤ Nat.ofDigitChars 10 digits 0 :=
        Nat.not_lt.mp fun hv => hf (takeDigits_fits digits 0 0 hv)
      have hn : ¬ Nat.ofDigitChars 10 digits 0 < limit := by omega
      simp [hf, Option.filter, hn]

/-! ## Values -/

theorem readWhole_blanks (limit : Nat) (b : Blanks) (rest : List Char) :
    readWhole limit (b.text ++ rest) = readWhole limit rest := by
  simp only [readWhole, skipBlanks_blanks]

theorem readBool_blanks (b : Blanks) (rest : List Char) :
    readBool (b.text ++ rest) = readBool rest := by
  simp only [readBool, skipBlanks_blanks]

/-- What is left to be done with a number for which a whole number is wanted. -/
theorem toOption_below? (r : Result (Number × List Char)) (limit : Nat) :
    (do
      let (number, rest) ← r
      match number with
      | .whole n => if n < limit then return (n, rest) else throw .mismatch
      | .other => throw .mismatch : Result (Nat × List Char)).toOption =
      r.toOption.bind (below? limit) := by
  rw [toOption_bind]
  congr
  funext ⟨number, rest⟩
  cases number with
  | other => rfl
  | whole n => by_cases hn : n < limit <;> simp [below?, hn]

theorem readWhole_minus (limit : Nat) (text : List Char) :
    (readWhole limit ('-' :: text)).toOption =
      (readNumber false text).toOption.bind (below? limit) := by
  rw [← toOption_below?, readWhole, skipBlanks_cons (by decide)]
  rfl

theorem readWhole_digit {c : Char} (hc : c.isDigit = true) (limit : Nat) (text : List Char) :
    (readWhole limit (c :: text)).toOption =
      (readNumber true (c :: text)).toOption.bind (below? limit) := by
  have hm : c ≠ '-' := ne_of_class hc (by decide)
  rw [← toOption_below?, readWhole, skipBlanks_cons (digit_not_blank hc)]
  split
  · contradiction
  · rename_i h
    exact absurd (List.cons.inj h).1 hm
  · rename_i h
    obtain ⟨rfl, -⟩ := List.cons.inj h
    exact congrArg Except.toOption (if_pos hc)

theorem readWhole_reject {c : Char} (h : isBlank c = false ∧ c ≠ '-' ∧ c.isDigit = false)
    (limit : Nat) (text : List Char) : (readWhole limit (c :: text)).toOption = none := by
  obtain ⟨hb, hm, hd⟩ := h
  simp [readWhole, skipBlanks_cons hb, hd]

theorem readBool_reject {c : Char} (h : isBlank c = false ∧ c ≠ 't' ∧ c ≠ 'f')
    (text : List Char) : (readBool (c :: text)).toOption = none := by
  obtain ⟨hb, ht, hf⟩ := h
  simp [readBool, skipBlanks_cons hb, ht, hf]

/-- A value is read as a whole number if it is one and small enough. -/
theorem readWhole_value (before : Blanks) (v : Value) {limit : Nat} (hl : limit ≤ wordLimit)
    (h : EndsNumber rest) :
    (readWhole limit (before.text ++ (v.text ++ rest))).toOption =
      (v.whole?.filter (· < limit)).map (·, rest) := by
  rw [readWhole_blanks]
  cases v with
  | number n =>
    have hn := readNumber_numeral n hl h
    rw [Value.text, Numeral.text, List.append_assoc, List.append_assoc, Value.whole?]
    cases hm : n.negative with
    | true =>
      rw [hm] at hn
      exact (readWhole_minus limit _).trans hn
    | false =>
      rw [hm] at hn
      obtain ⟨c, digits, hw, hc⟩ := n.whole.eq_cons
      rw [hw, List.cons_append] at hn
      change (readWhole limit (n.whole.text ++ (n.tail ++ rest))).toOption = _
      rw [hw]
      exact (readWhole_digit hc limit _).trans hn
  | bool b => cases b <;> exact readWhole_reject (by decide) ..
  | null | string | emptyArray | array | emptyObject | object =>
    exact readWhole_reject (by decide) ..

/-- A value is read as a truth value if it is one. -/
theorem readBool_value (before : Blanks) (v : Value) (rest : List Char) :
    (readBool (before.text ++ (v.text ++ rest))).toOption = v.bool?.map (·, rest) := by
  rw [readBool_blanks]
  cases v with
  | bool b =>
    cases b with
    | true =>
      change (readBool ('t' :: ("rue".toList ++ rest))).toOption = _
      rw [readBool, skipBlanks_cons (by decide)]
      exact (toOption_bind _ _).trans (by rw [skipWord_append]; rfl)
    | false =>
      change (readBool ('f' :: ("alse".toList ++ rest))).toOption = _
      rw [readBool, skipBlanks_cons (by decide)]
      exact (toOption_bind _ _).trans (by rw [skipWord_append]; rfl)
  | number n =>
    rw [Value.text, Numeral.text, List.append_assoc]
    cases n.negative with
    | true => exact readBool_reject (by decide) _
    | false =>
      obtain ⟨c, digits, hw, hc⟩ := n.whole.eq_cons
      rw [hw]
      exact readBool_reject
        ⟨digit_not_blank hc, ne_of_class hc (by decide), ne_of_class hc (by decide)⟩ _
  | null | string | emptyArray | array | emptyObject | object =>
    exact readBool_reject (by decide) ..

/-! ## The plainest texts -/

/-- A string in which every character stands for itself. -/
def spelled (text : List Char) (h : text.all isPlain = true := by decide) : List StringPart :=
  text.pmap (fun c hc => .plain c hc) fun c hc => List.all_eq_true.mp h c hc

theorem quoted_spelled (text : List Char) (h : text.all isPlain = true) :
    quoted (spelled text h) = text ++ ['"'] := by
  induction text with
  | nil => rfl
  | cons c text ih =>
    have := ih (by simp_all)
    simpa [quoted, spelled, StringPart.text] using this

theorem decode?_spelled (text : List Char) (h : text.all isPlain = true) :
    decode? (spelled text h) = some text := by
  induction text with
  | nil => rfl
  | cons c text ih =>
    have := ih (by simp_all)
    simp_all [spelled, decode?]

theorem string?_spelled (field : String) (h : field.toList.all isPlain = true) :
    string? (spelled field.toList h) = some field := by
  rw [string?, decode?_spelled, Option.map_some, String.ofList_toList]

theorem toDigits_head? (n : Nat) (h : 0 < n) : (Nat.toDigits 10 n).head? ≠ some '0' := by
  induction n using Nat.strongRecOn with
  | ind n ih =>
    rw [Nat.toDigits_eq_if (by decide)]
    split
    case isTrue hn =>
      have hc : ∀ n < 10, 0 < n → Nat.digitChar n ≠ '0' := by decide
      simpa using hc n hn h
    case isFalse hn =>
      rw [List.head?_append_of_ne_nil _ Nat.toDigits_ne_nil]
      exact ih (n / 10) (by omega) (by omega)

/-- A whole number in its shortest digits. -/
def Whole.ofNat (n : Nat) : Whole where
  text := Nat.toDigits 10 n
  digits := List.all_eq_true.mpr fun _ => Nat.isDigit_of_mem_toDigits (by decide) (by decide)
  nonempty := Nat.toDigits_ne_nil
  lead := by
    rcases Nat.eq_zero_or_pos n with rfl | hn
    · exact .inl rfl
    · exact .inr (toDigits_head? n hn)

theorem Whole.ofNat_value (n : Nat) : (Whole.ofNat n).value = n := Nat.ofDigitChars_ten_toDigits

theorem Whole.text_ofNat (n : Nat) :
    (Value.number { whole := Whole.ofNat n }).text = (toString n).toList := by
  rw [Value.text, Numeral.text, Nat.toString_eq_ofList_toDigits, String.toList_ofList]
  exact List.append_nil _

end BallerinaSyntax.JsonText
