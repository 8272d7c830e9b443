import BallerinaSyntax.Diagnostic.Basic
import Mathlib.Data.List.Infix

/-!
Placeholders put in one after another, and all at once. Filling a template replaces one placeholder
after another in the whole text, the arguments put in so far included. That is the same as scanning
the template once if no placeholder ever shows up that the template does not have itself; and
if no argument but the first has a brace, then only if.
-/

namespace BallerinaSyntax.Template

/-! ## Placeholders at the beginning of a text -/

/-- A placeholder is told by the digits behind its brace. -/
theorem digits_of_isPrefix {i : Nat} {text : List Char} (h : placeholder i <+: text) :
    text.tail.takeWhile Char.isDigit = Nat.toDigits 10 i := by
  obtain ⟨rest, rfl⟩ := h
  have hd : ∀ c ∈ Nat.toDigits 10 i, c.isDigit = true := fun c hc =>
    Nat.isDigit_of_mem_toDigits (by decide) (by decide) hc
  simp [placeholder, List.takeWhile_append_of_pos hd]

theorem placeholder_unique {i j : Nat} {text : List Char} (hi : placeholder i <+: text)
    (hj : placeholder j <+: text) : i = j := by
  have h := (digits_of_isPrefix hi).symm.trans (digits_of_isPrefix hj)
  have := congrArg (fun digits => Nat.ofDigitChars 10 digits 0) h
  simpa using this

/-- A placeholder has a brace only at its beginning. -/
theorem brace_not_mem_tail (i : Nat) : '\x7b' ∉ (placeholder i).tail := by
  intro h
  rcases List.mem_append.mp h with h | h
  · have := Nat.isDigit_of_mem_toDigits (by decide) (by decide) h
    exact absurd this (by decide)
  · exact absurd h (by decide)

theorem braces_placeholder (i : Nat) : (placeholder i).count '\x7b' = 1 := by
  change ('\x7b' :: (placeholder i).tail).count '\x7b' = 1
  rw [List.count_cons_self, List.count_eq_zero_of_not_mem (brace_not_mem_tail i)]

theorem placeholder_eq_cons (i : Nat) : placeholder i = '\x7b' :: (placeholder i).tail := rfl

theorem not_placeholder_isPrefix {c : Char} (h : c ≠ '\x7b') (i : Nat) (rest : List Char) :
    ¬ placeholder i <+: c :: rest := by
  rw [placeholder_eq_cons, List.cons_prefix_cons]
  exact fun hp => h hp.1.symm

/-- A text is read from left to right in placeholders and single characters. -/
theorem scan_induction {motive : List Char → Prop} (marked : Nat → Prop) (nil : motive [])
    (mark : ∀ i rest, marked i → motive rest → motive (placeholder i ++ rest))
    (other : ∀ c rest, (∀ i, marked i → ¬ placeholder i <+: c :: rest) → motive rest →
      motive (c :: rest)) (text : List Char) : motive text := by
  induction hn : text.length using Nat.strongRecOn generalizing text with
  | _ n ih =>
    subst hn
    by_cases h : ∃ i, marked i ∧ placeholder i <+: text
    · obtain ⟨i, hi, rest, rfl⟩ := h
      refine mark i rest hi (ih _ ?_ rest rfl)
      rw [placeholder_eq_cons, List.cons_append, List.length_cons, List.length_append]
      omega
    · cases text with
      | nil => exact nil
      | cons c rest =>
        exact other c rest (fun i hi hp => h ⟨i, hi, hp⟩) (ih _ (Nat.lt_succ_self _) rest rfl)

/-! ## Replacing one placeholder -/

section Replace

variable {i j : Nat} {value rest : List Char}

theorem replaceFrom_append (pattern value seen rest : List Char) :
    replaceFrom pattern value seen.length (seen ++ rest) = replace pattern value rest := by
  induction seen with
  | nil => rfl
  | cons c seen ih => simpa only [List.length_cons, List.cons_append, replaceFrom] using ih

theorem replace_placeholder (i : Nat) (value rest : List Char) :
    replace (placeholder i) value (placeholder i ++ rest) =
      value ++ replace (placeholder i) value rest := by
  have h := replaceFrom_append (placeholder i) value (placeholder i).tail rest
  have hp : (placeholder i).isPrefixOf ('\x7b' :: ((placeholder i).tail ++ rest)) = true :=
    List.isPrefixOf_iff_prefix.mpr (List.prefix_append (placeholder i) rest)
  change replaceFrom _ _ 0 ('\x7b' :: ((placeholder i).tail ++ rest)) = _
  rw [replaceFrom, hp, if_pos (by rfl), ← h, List.length_tail]

theorem replace_other {c : Char} (h : ¬ placeholder i <+: c :: rest) :
    replace (placeholder i) value (c :: rest) = c :: replace (placeholder i) value rest := by
  have hp : (placeholder i).isPrefixOf (c :: rest) = false := by
    simpa [← List.isPrefixOf_iff_prefix] using h
  simp [replace, replaceFrom, hp]

/-- A text without a brace is left as it is. -/
theorem replace_plain {text : List Char} (h : '\x7b' ∉ text) (rest : List Char) :
    replace (placeholder i) value (text ++ rest) = text ++ replace (placeholder i) value rest := by
  induction text with
  | nil => rfl
  | cons c text ih =>
    obtain ⟨hc, ht⟩ := not_or.mp (List.mem_cons.not.mp h)
    rw [List.cons_append, replace_other (not_placeholder_isPrefix (Ne.symm hc) _ _), ih ht,
      List.cons_append]

/-- A different placeholder is left as it is. -/
theorem replace_placeholder_of_ne (h : j ≠ i) (rest : List Char) :
    replace (placeholder i) value (placeholder j ++ rest) =
      placeholder j ++ replace (placeholder i) value rest := by
  have hp : ¬ placeholder i <+: placeholder j ++ rest := fun hi =>
    h (placeholder_unique (List.prefix_append ..) hi)
  rw [placeholder_eq_cons j, List.cons_append] at hp ⊢
  rw [replace_other hp, replace_plain (brace_not_mem_tail j), List.cons_append]

end Replace

/-! ## How often a placeholder occurs -/

/-- At how many places of a text a pattern begins. -/
def occurrences (pattern text : List Char) : Nat := text.tails.countP (pattern.isPrefixOf ·)

section Occurrences

variable {i j : Nat} {c : Char} {rest : List Char}

@[simp] theorem occurrences_nil (i : Nat) : occurrences (placeholder i) [] = 0 := rfl

theorem occurrences_cons (pattern : List Char) (c : Char) (rest : List Char) :
    occurrences pattern (c :: rest) =
      occurrences pattern rest + if pattern <+: c :: rest then 1 else 0 := by
  simp only [occurrences, List.tails_cons, List.countP_cons, List.isPrefixOf_iff_prefix]

theorem occurrences_eq_zero_iff {pattern text : List Char} :
    occurrences pattern text = 0 ↔ ¬ pattern <:+: text := by
  simp only [occurrences, List.countP_eq_zero, List.mem_tails, List.isPrefixOf_iff_prefix,
    List.infix_iff_prefix_suffix, not_exists, not_and]
  exact forall_congr' fun t => ⟨fun h hp hs => h hs hp, fun h hs hp => h hp hs⟩

theorem occurrences_other (h : ¬ placeholder i <+: c :: rest) :
    occurrences (placeholder i) (c :: rest) = occurrences (placeholder i) rest := by
  rw [occurrences_cons, if_neg h, Nat.add_zero]

/-- What begins in the second part of a text begins in the text. -/
theorem occurrences_le_append (pattern text rest : List Char) :
    occurrences pattern rest ≤ occurrences pattern (text ++ rest) := by
  induction text with
  | nil => exact Nat.le_refl _
  | cons c text ih =>
    rw [List.cons_append, occurrences_cons]
    exact Nat.le_add_right_of_le ih

theorem occurrences_plain {text : List Char} (h : '\x7b' ∉ text) (rest : List Char) :
    occurrences (placeholder i) (text ++ rest) = occurrences (placeholder i) rest := by
  induction text with
  | nil => rfl
  | cons c text ih =>
    obtain ⟨hc, ht⟩ := not_or.mp (List.mem_cons.not.mp h)
    rw [List.cons_append, occurrences_other (not_placeholder_isPrefix (Ne.symm hc) _ _), ih ht]

theorem occurrences_placeholder (i : Nat) (rest : List Char) :
    occurrences (placeholder i) (placeholder i ++ rest) =
      occurrences (placeholder i) rest + 1 := by
  have hp : placeholder i <+: '\x7b' :: ((placeholder i).tail ++ rest) :=
    List.prefix_append (placeholder i) rest
  change occurrences _ ('\x7b' :: ((placeholder i).tail ++ rest)) = _
  rw [occurrences_cons, if_pos hp, occurrences_plain (brace_not_mem_tail i)]

theorem occurrences_placeholder_of_ne (h : j ≠ i) (rest : List Char) :
    occurrences (placeholder i) (placeholder j ++ rest) = occurrences (placeholder i) rest := by
  have hp : ¬ placeholder i <+: '\x7b' :: ((placeholder j).tail ++ rest) := fun hi =>
    h (placeholder_unique (List.prefix_append (placeholder j) rest) hi)
  change occurrences _ ('\x7b' :: ((placeholder j).tail ++ rest)) = _
  rw [occurrences_other hp, occurrences_plain (brace_not_mem_tail j)]

/-- No placeholder goes across a character that is neither a brace nor a digit. -/
theorem occurrences_separated (hc : c ∉ placeholder i) (text rest : List Char) :
    occurrences (placeholder i) (text ++ c :: rest) =
      occurrences (placeholder i) text + occurrences (placeholder i) rest := by
  induction text with
  | nil =>
    have hb : c ≠ '\x7b' := by
      rintro rfl
      exact hc List.mem_cons_self
    rw [List.nil_append, occurrences_other (not_placeholder_isPrefix hb _ _), occurrences_nil,
      Nat.zero_add]
  | cons d text ih =>
    have hp : placeholder i <+: d :: (text ++ c :: rest) ↔ placeholder i <+: d :: text := by
      refine ⟨fun hp => ?_, fun hp => hp.trans (List.prefix_append (d :: text) _)⟩
      have hs : (d :: text) ++ [c] <+: d :: (text ++ c :: rest) := ⟨rest, by simp⟩
      rcases List.prefix_or_prefix_of_prefix hp hs with h | h
      · rcases List.prefix_concat_iff.mp h with h | h
        · exact absurd (h ▸ List.mem_append_right _ (List.mem_singleton_self c)) hc
        · exact h
      · exact absurd (h.subset (List.mem_append_right _ (List.mem_singleton_self c))) hc
    rw [List.cons_append, occurrences_cons, occurrences_cons, ih]
    simp only [hp]
    omega

/-- Where a placeholder does not begin, nothing is replaced. -/
theorem replace_append {value text : List Char}
    (h : occurrences (placeholder i) (text ++ rest) = occurrences (placeholder i) rest) :
    replace (placeholder i) value (text ++ rest) = text ++ replace (placeholder i) value rest := by
  induction text with
  | nil => rfl
  | cons c text ih =>
    have hr := occurrences_le_append (placeholder i) text rest
    rw [List.cons_append, occurrences_cons] at h
    have hc : ¬ placeholder i <+: c :: (text ++ rest) := by
      intro hc
      rw [if_pos hc] at h
      omega
    rw [if_neg hc] at h
    rw [List.cons_append, replace_other hc, ih h, List.cons_append]

/-- Replacing a placeholder takes none away from another one. -/
theorem occurrences_le_replace (h : j ≠ i) (value text : List Char) :
    occurrences (placeholder j) text ≤
      occurrences (placeholder j) (replace (placeholder i) value text) := by
  induction text using scan_induction fun k => k = i ∨ k = j with
  | nil => exact Nat.le_refl _
  | mark k rest hk ih =>
    rcases hk with rfl | rfl
    · rw [replace_placeholder, occurrences_placeholder_of_ne h.symm]
      exact Nat.le_trans ih (occurrences_le_append ..)
    · rw [replace_placeholder_of_ne h, occurrences_placeholder, occurrences_placeholder]
      exact Nat.succ_le_succ ih
  | other c rest hk ih =>
    rw [replace_other (hk i (.inl rfl)), occurrences_other (hk j (.inr rfl))]
    exact Nat.le_trans ih (occurrences_le_append _ [c] _)

/-- How many braces a text has when a placeholder was replaced in it. -/
theorem braces_replace (i : Nat) (value text : List Char) :
    (replace (placeholder i) value text).count '\x7b' + occurrences (placeholder i) text =
      text.count '\x7b' + occurrences (placeholder i) text * value.count '\x7b' := by
  induction text using scan_induction fun k => k = i with
  | nil => simp [replace, replaceFrom]
  | mark k rest hk ih =>
    subst hk
    rw [replace_placeholder, occurrences_placeholder, List.count_append, List.count_append,
      braces_placeholder, Nat.add_mul]
    omega
  | other c rest hk ih =>
    rw [replace_other (hk i rfl), occurrences_other (hk i rfl), List.count_cons, List.count_cons]
    omega

end Occurrences

/-! ## All placeholders at once -/

/-- The argument whose placeholder a text begins with, and its number. -/
def leading? (args : List (List Char)) (text : List Char) : Option (List Char × Nat) :=
  args.zipIdx.find? fun a => (placeholder a.2).isPrefixOf text

/-- Scans a text once from left to right and puts in the argument of every placeholder that has
one; `skip` counts the characters still covered by the last placeholder. -/
def substituteFrom (args : List (List Char)) : Nat → List Char → List Char
  | _, [] => []
  | skip + 1, _ :: rest => substituteFrom args skip rest
  | 0, c :: rest =>
    match leading? args (c :: rest) with
    | some (value, i) => value ++ substituteFrom args ((placeholder i).length - 1) rest
    | none => c :: substituteFrom args 0 rest

/-- The text of a template with its arguments, none of which is looked into. -/
def substitute (template : String) (args : List String) : String :=
  String.ofList (substituteFrom (args.map String.toList) 0 template.toList)

section Substitute

variable {args : List (List Char)} {i n : Nat} {rest text : List Char}

theorem leading?_placeholder (hi : i < args.length) (h : placeholder i <+: text) :
    leading? args text = some (args[i], i) := by
  have hm : (args[i], i) ∈ args.zipIdx :=
    List.mk_mem_zipIdx_iff_getElem?.mpr (List.getElem?_eq_getElem hi)
  cases hf : leading? args text with
  | none =>
    have := List.find?_eq_none.mp hf _ hm
    exact absurd (List.isPrefixOf_iff_prefix.mpr h) this
  | some a =>
    have hj : placeholder a.2 <+: text :=
      List.isPrefixOf_iff_prefix.mp (List.find?_eq_some_iff_append.mp hf).1
    have ha : args[a.2]? = some a.1 :=
      List.mem_zipIdx_iff_getElem?.mp (List.mem_of_find?_eq_some hf)
    obtain rfl := placeholder_unique h hj
    rw [List.getElem?_eq_getElem hi] at ha
    rw [Option.some.inj ha]

theorem leading?_eq_none (h : ∀ i < args.length, ¬ placeholder i <+: text) :
    leading? args text = none := by
  refine List.find?_eq_none.mpr fun a ha hp => ?_
  obtain ⟨hi, -⟩ := List.getElem?_eq_some_iff.mp (List.mem_zipIdx_iff_getElem?.mp ha)
  exact h a.2 hi (List.isPrefixOf_iff_prefix.mp hp)

@[simp] theorem substituteFrom_nil (args : List (List Char)) (skip : Nat) :
    substituteFrom args skip [] = [] := by
  cases skip <;> rfl

theorem substituteFrom_append (args : List (List Char)) (seen rest : List Char) :
    substituteFrom args seen.length (seen ++ rest) = substituteFrom args 0 rest := by
  induction seen with
  | nil => rfl
  | cons c seen ih => simpa only [List.length_cons, List.cons_append, substituteFrom] using ih

theorem substituteFrom_placeholder (hi : i < args.length) (rest : List Char) :
    substituteFrom args 0 (placeholder i ++ rest) = args[i] ++ substituteFrom args 0 rest := by
  have h := substituteFrom_append args (placeholder i).tail rest
  have hf := leading?_placeholder hi (List.prefix_append (placeholder i) rest)
  rw [placeholder_eq_cons, List.cons_append] at hf ⊢
  rw [substituteFrom, hf, ← h, List.length_tail]

theorem substituteFrom_other {c : Char} (h : ∀ i < args.length, ¬ placeholder i <+: c :: rest) :
    substituteFrom args 0 (c :: rest) = c :: substituteFrom args 0 rest := by
  rw [substituteFrom, leading?_eq_none h]

theorem substituteFrom_plain {text : List Char} (h : '\x7b' ∉ text) (rest : List Char) :
    substituteFrom args 0 (text ++ rest) = text ++ substituteFrom args 0 rest := by
  induction text with
  | nil => rfl
  | cons c text ih =>
    obtain ⟨hc, ht⟩ := not_or.mp (List.mem_cons.not.mp h)
    rw [List.cons_append,
      substituteFrom_other fun i _ => not_placeholder_isPrefix (Ne.symm hc) i _, ih ht,
      List.cons_append]

/-- A placeholder without an argument is left as it is. -/
theorem substituteFrom_beyond (hi : args.length ≤ i) (rest : List Char) :
    substituteFrom args 0 (placeholder i ++ rest) =
      placeholder i ++ substituteFrom args 0 rest := by
  have hp : ∀ j < args.length, ¬ placeholder j <+: placeholder i ++ rest := by
    intro j hj hp
    have := placeholder_unique hp (List.prefix_append ..)
    omega
  rw [placeholder_eq_cons, List.cons_append] at hp ⊢
  rw [substituteFrom_other hp, substituteFrom_plain (brace_not_mem_tail i), List.cons_append]

theorem substituteFrom_no_args (text : List Char) : substituteFrom [] 0 text = text := by
  induction text with
  | nil => rfl
  | cons c rest ih => rw [substituteFrom_other (fun _ h => absurd h (Nat.not_lt_zero _)), ih]

/-! ### One argument more -/

/-- The first `n` arguments put into a text. -/
def part (args : List (List Char)) (n : Nat) (text : List Char) : List Char :=
  substituteFrom (args.take n) 0 text

/-- A text is read in the placeholders of the first arguments, the one behind them, and single
characters, and putting in one argument more tells them apart. -/
theorem part_induction {motive : List Char → Prop} (hn : n < args.length) (nil : motive [])
    (done : ∀ value rest (i : Nat), i < n →
      part args n (placeholder i ++ rest) = value ++ part args n rest →
      part args (n + 1) (placeholder i ++ rest) = value ++ part args (n + 1) rest →
      motive rest → motive (placeholder i ++ rest))
    (next : ∀ rest, part args n (placeholder n ++ rest) = placeholder n ++ part args n rest →
      part args (n + 1) (placeholder n ++ rest) = args[n] ++ part args (n + 1) rest →
      motive rest → motive (placeholder n ++ rest))
    (other : ∀ c rest, ¬ placeholder n <+: c :: rest →
      part args n (c :: rest) = c :: part args n rest →
      part args (n + 1) (c :: rest) = c :: part args (n + 1) rest →
      motive rest → motive (c :: rest)) (text : List Char) : motive text := by
  have hl : ∀ {k}, k ≤ args.length → (args.take k).length = k := List.length_take_of_le
  induction text using scan_induction fun i => i < n + 1 with
  | nil => exact nil
  | mark i rest hi ih =>
    rcases Nat.lt_succ_iff_lt_or_eq.mp hi with hi | rfl
    · refine done args[i] rest i hi ?_ ?_ ih
      · rw [part, substituteFrom_placeholder (by rw [hl (by omega)]; exact hi), List.getElem_take]
        rfl
      · rw [part, substituteFrom_placeholder (by rw [hl (by omega)]; omega), List.getElem_take]
        rfl
    · refine next rest ?_ ?_ ih
      · rw [part, substituteFrom_beyond (by rw [hl (by omega)])]
        rfl
      · rw [part, substituteFrom_placeholder (by rw [hl (by omega)]; omega), List.getElem_take]
        rfl
  | other c rest hi ih =>
    refine other c rest (hi n (Nat.lt_succ_self n)) ?_ ?_ ih
    · refine substituteFrom_other fun i h => hi i ?_
      rw [hl (by omega)] at h
      omega
    · refine substituteFrom_other fun i h => hi i ?_
      rwa [hl (by omega)] at h

/-- A placeholder that the template has is still there before its turn. -/
theorem occurrences_le_part (hn : n < args.length) (text : List Char) :
    occurrences (placeholder n) text ≤ occurrences (placeholder n) (part args n text) := by
  induction text using part_induction hn with
  | nil => simp [part]
  | done value rest i hi h _ ih =>
    rw [h, occurrences_placeholder_of_ne (Nat.ne_of_lt hi)]
    exact Nat.le_trans ih (occurrences_le_append ..)
  | next rest h _ ih =>
    rw [h, occurrences_placeholder, occurrences_placeholder]
    exact Nat.succ_le_succ ih
  | other c rest hc h _ ih =>
    rw [h, occurrences_other hc]
    exact Nat.le_trans ih (occurrences_le_append _ [c] _)

/-- If no other placeholder shows up, replacing one puts in its argument. -/
theorem replace_part (hn : n < args.length)
    (h : occurrences (placeholder n) (part args n text) = occurrences (placeholder n) text) :
    replace (placeholder n) args[n] (part args n text) = part args (n + 1) text := by
  induction text using part_induction hn with
  | nil => simp [part, replace, replaceFrom]
  | done value rest i hi hd hd' ih =>
    have hr := occurrences_le_part hn rest
    have ha := occurrences_le_append (placeholder n) value (part args n rest)
    rw [hd, occurrences_placeholder_of_ne (Nat.ne_of_lt hi)] at h
    rw [hd, hd', replace_append (by omega), ih (by omega)]
  | next rest hd hd' ih =>
    rw [hd, occurrences_placeholder, occurrences_placeholder] at h
    rw [hd, hd', replace_placeholder, ih (Nat.succ.inj h)]
  | other c rest hc hd hd' ih =>
    have hr := occurrences_le_part hn rest
    have ha := occurrences_le_append (placeholder n) [c] (part args n rest)
    rw [hd, occurrences_other hc] at h
    rw [List.singleton_append] at ha
    have hp : replace (placeholder n) args[n] ([c] ++ part args n rest) =
        [c] ++ replace (placeholder n) args[n] (part args n rest) :=
      replace_append (by rw [List.singleton_append]; omega)
    rw [hd, hd', ← List.singleton_append, hp, ih (by omega)]
    rfl

/-- How many braces a text has when one argument more was put in. -/
theorem braces_part (hn : n < args.length) (text : List Char) :
    (part args (n + 1) text).count '\x7b' + occurrences (placeholder n) text =
      (part args n text).count '\x7b' +
        occurrences (placeholder n) text * args[n].count '\x7b' := by
  induction text using part_induction hn with
  | nil => simp [part]
  | done value rest i hi hd hd' ih =>
    rw [hd, hd', occurrences_placeholder_of_ne (Nat.ne_of_lt hi), List.count_append,
      List.count_append]
    omega
  | next rest hd hd' ih =>
    rw [hd, hd', occurrences_placeholder, List.count_append, List.count_append,
      braces_placeholder, Nat.add_mul]
    omega
  | other c rest hc hd hd' ih =>
    rw [hd, hd', occurrences_other hc, List.count_cons, List.count_cons]
    omega

end Substitute

/-! ## One after another and all at once -/

/-- Whether no placeholder shows up while the arguments before its own are put in: it then occurs
as often as in the template. -/
def Settled (template : String) (args : List String) : Prop :=
  ∀ i < args.length, occurrences (placeholder i) (substitute template (args.take i)).toList =
    occurrences (placeholder i) template.toList

instance (template : String) (args : List String) : Decidable (Settled template args) :=
  inferInstanceAs (Decidable (∀ i < args.length, _))

section Fill

variable {args : List (List Char)} {n : Nat} {text : List Char}

/-- The text in which the first `n` placeholders were replaced, one after another. -/
def replaced (args : List (List Char)) (n : Nat) (text : List Char) : List Char :=
  fillFrom 0 text (args.take n)

theorem fillFrom_append (i : Nat) (text value : List Char) (args : List (List Char)) :
    fillFrom i text (args ++ [value]) =
      replace (placeholder (i + args.length)) value (fillFrom i text args) := by
  induction args generalizing i text with
  | nil => rfl
  | cons a args ih =>
    rw [List.cons_append, fillFrom, ih, List.length_cons, fillFrom, Nat.add_right_comm,
      Nat.add_assoc]

theorem replaced_succ (hn : n < args.length) (text : List Char) :
    replaced args (n + 1) text = replace (placeholder n) args[n] (replaced args n text) := by
  rw [replaced, List.take_succ_eq_append_getElem hn, fillFrom_append,
    List.length_take_of_le (Nat.le_of_lt hn), Nat.zero_add]
  rfl

/-- As long as no other placeholder has shown up, both ways have come to the same text. -/
theorem replaced_eq_part (hn : n ≤ args.length) (h : ∀ i < n,
    occurrences (placeholder i) (part args i text) = occurrences (placeholder i) text) :
    replaced args n text = part args n text := by
  induction n with
  | zero => exact (substituteFrom_no_args text).symm
  | succ n ih =>
    have hp := ih (by omega) fun i hi => h i (by omega)
    rw [replaced_succ hn, hp, replace_part hn (h n (Nat.lt_succ_self n))]

/-- A placeholder that the template has is still there before its turn. -/
theorem occurrences_le_replaced {i : Nat} (hn : n ≤ args.length) (hi : n ≤ i) (text : List Char) :
    occurrences (placeholder i) text ≤ occurrences (placeholder i) (replaced args n text) := by
  induction n with
  | zero => exact Nat.le_refl _
  | succ n ih =>
    rw [replaced_succ hn]
    exact Nat.le_trans (ih (by omega) (by omega)) (occurrences_le_replace (by omega) ..)

/-- Once another placeholder has shown up, a brace is missing that no later argument brings
back. -/
theorem settled_or_fewer_braces (hp : ∀ value ∈ args.tail, '\x7b' ∉ value) (hn : n ≤ args.length)
    (text : List Char) :
    (∀ i < n, occurrences (placeholder i) (part args i text) = occurrences (placeholder i) text) ∨
      (replaced args n text).count '\x7b' < (part args n text).count '\x7b' := by
  induction n with
  | zero => exact .inl fun i hi => absurd hi (Nat.not_lt_zero i)
  | succ n ih =>
    have hr := braces_replace n args[n] (replaced args n text)
    have hb := braces_part hn text
    have hm := occurrences_le_part hn text
    have ho := occurrences_le_replaced (Nat.le_of_succ_le hn) (Nat.le_refl n) text
    rw [← replaced_succ hn] at hr
    by_cases hn0 : n = 0
    · subst hn0
      exact .inl fun i hi => by
        obtain rfl := Nat.lt_one_iff.mp hi
        rw [part, List.take_zero, substituteFrom_no_args]
    · have hz : args[n].count '\x7b' = 0 := by
        obtain ⟨m, rfl⟩ := Nat.exists_eq_succ_of_ne_zero hn0
        have hm : m < args.tail.length := by
          rw [List.length_tail]
          omega
        exact List.count_eq_zero_of_not_mem (hp _ (List.getElem_tail hm ▸ List.getElem_mem hm))
      rw [hz, Nat.mul_zero] at hr hb
      rcases ih (Nat.le_of_succ_le hn) with h | h
      · rw [replaced_eq_part (Nat.le_of_succ_le hn) h] at hr ho
        rcases Nat.eq_or_lt_of_le hm with he | hl
        · refine .inl fun i hi => ?_
          rcases Nat.lt_succ_iff_lt_or_eq.mp hi with hi | rfl
          · exact h i hi
          · exact he.symm
        · exact .inr (by omega)
      · exact .inr (by omega)

end Fill

section

variable {template : String} {args : List String}

theorem toList_fill (template : String) (args : List String) : (fill template args).toList =
    replaced (args.map String.toList) (args.map String.toList).length template.toList := by
  rw [fill, String.toList_ofList, replaced, List.take_length]

theorem toList_substitute_take (template : String) (args : List String) (n : Nat) :
    (substitute template (args.take n)).toList =
      part (args.map String.toList) n template.toList := by
  rw [substitute, String.toList_ofList, part, List.map_take]

theorem settled_iff : Settled template args ↔ ∀ i < (args.map String.toList).length,
    occurrences (placeholder i) (part (args.map String.toList) i template.toList) =
      occurrences (placeholder i) template.toList := by
  simp only [Settled, toList_substitute_take, List.length_map]

theorem fill_of_settled (h : Settled template args) :
    fill template args = substitute template args := by
  rw [← String.toList_inj, toList_fill, replaced_eq_part (Nat.le_refl _) (settled_iff.mp h),
    List.length_map, ← toList_substitute_take, List.take_length]

theorem settled_of_fill (hp : ∀ arg ∈ args.tail, '\x7b' ∉ arg.toList)
    (h : fill template args = substitute template args) : Settled template args := by
  have hv : ∀ value ∈ (args.map String.toList).tail, '\x7b' ∉ value := by
    intro value hm
    rw [← List.map_tail] at hm
    obtain ⟨arg, ha, rfl⟩ := List.mem_map.mp hm
    exact hp arg ha
  rcases settled_or_fewer_braces hv (Nat.le_refl _) template.toList with hs | hl
  · exact settled_iff.mpr hs
  · rw [← toList_fill, h, List.length_map, ← toList_substitute_take, List.take_length] at hl
    exact absurd hl (Nat.lt_irrefl _)

/-- The template of a message about skipped tokens, cut at its placeholders. -/
theorem unexpectedSkipped_pieces : Message.unexpectedSkipped.template.toList =
    "Unexpected ".toList ++ (placeholder 0 ++ ("; skipped ".toList ++ (placeholder 1 ++
      (" token(s) while looking for ".toList ++ (placeholder 2 ++ (".".toList ++ [])))))) := by
  decide

theorem settled_unexpectedSkipped {found count goal : String} (hc : '\x7b' ∉ count.toList) :
    Settled Message.unexpectedSkipped.template [found, count, goal] ↔
      ¬ placeholder 1 <:+: found.toList ∧ ¬ placeholder 2 <:+: found.toList := by
  have ht : ∀ i < 3, occurrences (placeholder i) Message.unexpectedSkipped.template.toList = 1 := by
    decide
  have h1 : occurrences (placeholder 1)
      (part [found.toList, count.toList, goal.toList] 1
        Message.unexpectedSkipped.template.toList) =
      occurrences (placeholder 1) found.toList + 1 := by
    rw [unexpectedSkipped_pieces, part, substituteFrom_plain (by decide),
      substituteFrom_placeholder (by simp), substituteFrom_plain (by decide),
      substituteFrom_beyond (by simp), substituteFrom_plain (by decide),
      substituteFrom_beyond (by simp), substituteFrom_plain (by decide), substituteFrom_nil,
      occurrences_plain (by decide)]
    exact occurrences_separated (by decide) ..
  have h2 : occurrences (placeholder 2)
      (part [found.toList, count.toList, goal.toList] 2
        Message.unexpectedSkipped.template.toList) =
      occurrences (placeholder 2) found.toList + 1 := by
    rw [unexpectedSkipped_pieces, part, substituteFrom_plain (by decide),
      substituteFrom_placeholder (by simp), substituteFrom_plain (by decide),
      substituteFrom_placeholder (by simp), substituteFrom_plain (by decide),
      substituteFrom_beyond (by simp), substituteFrom_plain (by decide), substituteFrom_nil,
      occurrences_plain (by decide)]
    refine (occurrences_separated (c := ';') (by decide) _ (" skipped ".toList ++ _)).trans ?_
    rw [occurrences_plain (by decide)]
    exact congrArg _ (occurrences_plain hc _)
  rw [settled_iff, ← occurrences_eq_zero_iff, ← occurrences_eq_zero_iff]
  constructor
  · intro h
    have hs1 := h 1 (by simp)
    have hs2 := h 2 (by simp)
    rw [List.map_cons, List.map_cons, List.map_cons, List.map_nil] at hs1 hs2
    rw [h1, ht 1 (by decide)] at hs1
    rw [h2, ht 2 (by decide)] at hs2
    exact ⟨Nat.succ.inj hs1, Nat.succ.inj hs2⟩
  · rintro ⟨hs1, hs2⟩ i hi
    match i, hi with
    | 0, _ => exact congrArg _ (substituteFrom_no_args _)
    | 1, _ => exact h1.trans (by rw [hs1, ht 1 (by decide)])
    | 2, _ => exact h2.trans (by rw [hs2, ht 2 (by decide)])

/-- A message about skipped tokens quotes the first of them verbatim exactly if that does not look
like a placeholder for one of the other arguments. -/
theorem unexpectedSkipped_verbatim_iff {found count goal : String} (hc : '\x7b' ∉ count.toList)
    (hg : '\x7b' ∉ goal.toList) :
    (Diagnostic.ofMessage .unexpectedSkipped [found, count, goal]).text =
        "Unexpected " ++ found ++ "; skipped " ++ count ++ " token(s) while looking for " ++ goal ++
          "." ↔
      ¬ placeholder 1 <:+: found.toList ∧ ¬ placeholder 2 <:+: found.toList := by
  have hs : substitute Message.unexpectedSkipped.template [found, count, goal] =
      "Unexpected " ++ found ++ "; skipped " ++ count ++ " token(s) while looking for " ++ goal ++
        "." := by
    rw [← String.toList_inj, substitute, unexpectedSkipped_pieces,
      substituteFrom_plain (by decide), substituteFrom_placeholder (by simp),
      substituteFrom_plain (by decide), substituteFrom_placeholder (by simp),
      substituteFrom_plain (by decide), substituteFrom_placeholder (by simp),
      substituteFrom_plain (by decide)]
    simp
  have ht : ∀ arg ∈ [found, count, goal].tail, '\x7b' ∉ arg.toList := by
    simp [hc, hg]
  rw [← hs, ← settled_unexpectedSkipped hc]
  exact ⟨settled_of_fill ht, fill_of_settled⟩

/-- Filling a template is putting all arguments in at once if no placeholder shows up on the way,
and if no argument but the first has a brace, then only if. -/
theorem fill_simultaneous (template : String) (args : List String) :
    (Settled template args → fill template args = substitute template args) ∧
      ((∀ arg ∈ args.tail, '\x7b' ∉ arg.toList) →
        (fill template args = substitute template args ↔ Settled template args)) :=
  ⟨fill_of_settled, fun hp => ⟨settled_of_fill hp, fill_of_settled⟩⟩

/-- A name in braces is no placeholder of a message if no argument has its number. -/
theorem bracedName_simultaneous :
    let args := ["identifier '\x7b7\x7d'", "2", "']'"]
    Settled Message.unexpectedSkipped.template args ∧
      (∀ arg ∈ args.tail, '\x7b' ∉ arg.toList) ∧
        fill Message.unexpectedSkipped.template args =
          substitute Message.unexpectedSkipped.template args := by
  intro args
  have h : Settled Message.unexpectedSkipped.template args :=
    (settled_unexpectedSkipped (by decide)).mpr (by decide)
  have hp : ∀ arg ∈ args.tail, '\x7b' ∉ arg.toList := by decide
  have hb := fill_simultaneous Message.unexpectedSkipped.template args
  exact ⟨h, hp, (hb.2 hp).mpr h⟩

/-- A name that looks like the placeholder of a later argument is lost. -/
theorem bracedName_rewritten :
    fill Message.unexpectedSkipped.template ["identifier '\x7b1\x7d'", "2", "']'"] ≠
      substitute Message.unexpectedSkipped.template ["identifier '\x7b1\x7d'", "2", "']'"] := by
  intro h
  have hs := settled_of_fill (by decide) h
  exact ((settled_unexpectedSkipped (by decide)).mp hs).1 (by decide)

end

end BallerinaSyntax.Template
