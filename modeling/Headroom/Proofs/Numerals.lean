import Headroom.Proofs.Literals

/-!
Numerals within JSON. The text of a number is read as one, with as many digits as there may be
(`IsNumeral.reads`). Digits are gathered as far as they fit into 64 bits (`gather_front`), so of a
whole number of that size every digit is kept (`ofText?_toDigits`).
-/
namespace Headroom.Json

open Headroom.Decimal (spanDigits digit? digitsValue)

theorem start_word {b : UInt8} (letter : isWordByte b = true) :
    Lexing.start b = (.word [b], []) := by
  unfold Lexing.start
  split
  case h_12 => exact if_pos letter
  all_goals exact absurd letter (by decide)

theorem collected_word (done word rest : List UInt8) (letters : ∀ b ∈ word, isWordByte b) :
    tokensFrom (.word done) [] (word ++ rest) =
      tokensFrom (.word (word.reverse ++ done)) [] rest := by
  induction word generalizing done with
  | nil => rfl
  | cons b word ih =>
    have step : Lexing.step b (.word done) = (.word (b :: done), []) := by
      simp [Lexing.step, letters b List.mem_cons_self]
    rw [List.cons_append, tokensFrom_quiet step,
      ih _ fun b m => letters b (List.mem_cons_of_mem _ m)]
    simp

/-- A run of letters, digits, signs and points is one token. -/
theorem Reads.word {word : List UInt8} (letters : ∀ b ∈ word, isWordByte b) (nonempty : word ≠ [])
    (sound : Token.ofWord word ≠ .broken) : Reads word [Token.ofWord word] := by
  intro rest stops
  have collected : tokens (word ++ rest) = tokensFrom (.word word.reverse) [] rest := by
    obtain ⟨b, more, rfl⟩ := List.exists_cons_of_ne_nil nonempty
    have first : Lexing.step b .ready = (.word [b], []) := start_word (letters b List.mem_cons_self)
    rw [tokens, List.cons_append, tokensFrom_quiet first,
      collected_word _ _ _ fun b m => letters b (List.mem_cons_of_mem _ m), List.reverse_cons]
  rw [collected]
  cases rest with
  | nil => simp [tokensFrom, Lexing.finish, tokens]
  | cons b rest =>
    have other : isWordByte b = false := stops b rfl
    have step : Lexing.step b (.word word.reverse) =
        ((Lexing.start b).1, Token.ofWord word :: (Lexing.start b).2) := by
      simp only [Lexing.step, other, List.reverse_reverse]
      rfl
    have first : Lexing.step b .ready = Lexing.start b := rfl
    simp only [tokens, tokensFrom, step, first]
    rw [tokensFrom_done, tokensFrom_done _ ((Lexing.start b).2.reverse ++ [])]
    simp

theorem digit?_of_isDigit {c : Char} (digit : c.isDigit) :
    digit? c = some (c.toNat - '0'.toNat) := by
  simp only [Char.isDigit, Bool.and_eq_true, decide_eq_true_eq] at digit
  exact if_pos digit

theorem digit?_of_not_isDigit {c : Char} (other : ¬ c.isDigit) : digit? c = none := by
  simp only [Char.isDigit, Bool.and_eq_true, decide_eq_true_eq] at other
  exact if_neg other

/-- Text that does not go on with a digit. -/
def EndsDigits (rest : List Char) : Prop := ∀ c ∈ rest.head?, ¬ c.isDigit

theorem spanDigits_append {digits rest : List Char} (all : ∀ c ∈ digits, c.isDigit)
    (ends : EndsDigits rest) :
    spanDigits (digits ++ rest) = (digits.map (·.toNat - '0'.toNat), rest) := by
  induction digits with
  | nil =>
    cases rest with
    | nil => rfl
    | cons c rest => simp [spanDigits, digit?_of_not_isDigit (ends c rfl)]
  | cons c digits ih =>
    simp [spanDigits, digit?_of_isDigit (all c List.mem_cons_self),
      ih fun c m => all c (List.mem_cons_of_mem _ m)]

theorem spanDigits_all {digits : List Char} (all : ∀ c ∈ digits, c.isDigit) :
    spanDigits digits = (digits.map (·.toNat - '0'.toNat), []) := by
  have ends : EndsDigits [] := by rintro c ⟨⟩
  simpa using spanDigits_append all ends

theorem digitsValue_map (digits : List Char) :
    digitsValue 0 (digits.map (·.toNat - '0'.toNat)) = Nat.ofDigitChars 10 digits 0 := by
  rw [digitsValue, List.foldl_map, Nat.ofDigitChars_eq_foldl]

/-- Digits without a needless zero before them. -/
structure IsWhole (digits : List Char) : Prop where
  all : ∀ c ∈ digits, c.isDigit
  nonempty : digits ≠ []
  plain : digits.head? = some '0' → digits = ['0']

theorem head?_toDigits {n : Nat} (positive : n ≠ 0) : (Nat.toDigits 10 n).head? ≠ some '0' := by
  induction n using Nat.strongRecOn with
  | _ n ih =>
    rw [Nat.toDigits_eq_if (by decide)]
    split
    · rename_i small
      have digits : ∀ n < 10, n ≠ 0 → [Nat.digitChar n].head? ≠ some '0' := by decide
      exact digits n small positive
    · rename_i large
      have shorter := ih (n / 10) (by omega) (by omega)
      rwa [List.head?_append_of_ne_nil _ Nat.toDigits_ne_nil]

theorem isWhole_toDigits (n : Nat) : IsWhole (Nat.toDigits 10 n) where
  all _ member := Nat.isDigit_of_mem_toDigits (by decide) (by decide) member
  nonempty := Nat.toDigits_ne_nil
  plain zero := by
    by_cases positive : n = 0
    · subst positive
      rfl
    · exact absurd zero (head?_toDigits positive)

/-- What may follow the digits of a numeral last. -/
inductive IsExponent : List Char → Prop where
  | absent : IsExponent []
  | present (sign : Char) {digits : List Char} (known : sign = '+' ∨ sign = '-')
      (all : ∀ c ∈ digits, c.isDigit) (nonempty : digits ≠ []) :
      IsExponent ('e' :: sign :: digits)

/-- What may follow the first digits of a numeral. -/
inductive IsTail : List Char → Prop where
  | plain {rest : List Char} (exponent : IsExponent rest) : IsTail rest
  | point {fraction rest : List Char} (all : ∀ c ∈ fraction, c.isDigit)
      (nonempty : fraction ≠ []) (exponent : IsExponent rest) : IsTail ('.' :: (fraction ++ rest))

/-- The text of a number without a sign. -/
inductive IsMagnitude : List Char → Prop where
  | mk {digits tail : List Char} (whole : IsWhole digits) (rest : IsTail tail) :
      IsMagnitude (digits ++ tail)

/-- The text of a number. -/
inductive IsNumeral : List Char → Prop where
  | positive {text : List Char} (magnitude : IsMagnitude text) : IsNumeral text
  | negative {text : List Char} (magnitude : IsMagnitude text) : IsNumeral ('-' :: text)

theorem IsExponent.ends {rest : List Char} (exponent : IsExponent rest) : EndsDigits rest := by
  cases exponent with
  | absent => rintro c ⟨⟩
  | present sign known all nonempty =>
    rintro c ⟨⟩
    decide

theorem IsExponent.read {rest : List Char} (exponent : IsExponent rest) :
    ∃ value, Decimal.exponent? rest = some value := by
  cases exponent with
  | absent => exact ⟨0, rfl⟩
  | @present sign digits known all nonempty =>
    have span := spanDigits_all all
    obtain ⟨d, more, rfl⟩ := List.exists_cons_of_ne_nil nonempty
    obtain rfl | rfl := known
    · exact ⟨_, by simp [Decimal.exponent?, Decimal.takeSign, span]; rfl⟩
    · exact ⟨_, by simp [Decimal.exponent?, Decimal.takeSign, span]; rfl⟩

theorem IsTail.ends {tail : List Char} (rest : IsTail tail) : EndsDigits tail := by
  cases rest with
  | plain exponent => exact exponent.ends
  | point all nonempty exponent =>
    rintro c ⟨⟩
    decide

theorem ofText?_negative (text : List Char) :
    Numeral.ofText? ('-' :: text) = Numeral.ofSpan? true (spanDigits text) := rfl

theorem ofText?_positive {digits : List Char} (whole : IsWhole digits) (tail : List Char) :
    Numeral.ofText? (digits ++ tail) = Numeral.ofSpan? false (spanDigits (digits ++ tail)) := by
  obtain ⟨c, rest, rfl⟩ := List.exists_cons_of_ne_nil whole.nonempty
  rw [Numeral.ofText?]
  rintro more minus
  obtain rfl := (List.cons.inj minus).1
  exact absurd (whole.all '-' List.mem_cons_self) (by decide)

/-- The values of digits: one, or more of which the first is not zero. -/
inductive IsSpan : List Nat → Prop where
  | one (d : Nat) : IsSpan [d]
  | more (d next : Nat) (rest : List Nat) : IsSpan ((d + 1) :: next :: rest)

theorem IsWhole.span {digits : List Char} (whole : IsWhole digits) :
    IsSpan (digits.map (·.toNat - '0'.toNat)) := by
  match digits, whole with
  | [], whole => exact absurd rfl whole.nonempty
  | [c], _ => exact .one _
  | c :: next :: rest, whole =>
    have digit := whole.all c List.mem_cons_self
    simp only [Char.isDigit, Bool.and_eq_true, decide_eq_true_eq, ge_iff_le,
      UInt32.le_iff_toNat_le] at digit
    have other : c.toNat ≠ '0'.toNat := by
      intro zero
      cases whole.plain (by rw [Char.toNat_inj.mp zero]; rfl)
    have above : '0'.toNat < c.toNat := Nat.lt_of_le_of_ne digit.1 (Ne.symm other)
    obtain ⟨d, value⟩ := Nat.exists_eq_succ_of_ne_zero (Nat.sub_ne_zero_of_lt above)
    rw [List.map_cons, List.map_cons, value]
    exact .more _ _ _

section

variable {values : List Nat} (span : IsSpan values) (negative : Bool)
include span

theorem ofSpan?_whole :
    Numeral.ofSpan? negative (values, []) = some (.ofDigits negative values [] 0 true) := by
  cases span with
  | one d => cases d <;> rfl
  | more d next rest => rfl

theorem ofSpan?_exponent (rest : List Char) :
    Numeral.ofSpan? negative (values, 'e' :: rest) =
      (Decimal.exponent? ('e' :: rest)).map fun exponent =>
        .ofDigits negative values [] exponent false := by
  cases span with
  | one d => cases d <;> rfl
  | more d next rest => rfl

theorem ofSpan?_point {fraction : List Nat} (some : fraction ≠ []) {text rest : List Char}
    (spanned : spanDigits text = (fraction, rest)) :
    Numeral.ofSpan? negative (values, '.' :: text) =
      (Decimal.exponent? rest).map fun exponent =>
        .ofDigits negative values fraction exponent false := by
  obtain ⟨first, more, rfl⟩ := List.exists_cons_of_ne_nil some
  cases span with
  | one d => cases d <;> simp only [Numeral.ofSpan?, spanned]
  | more d next rest => simp only [Numeral.ofSpan?, spanned]

theorem ofSpan?_isSome {tail : List Char} (rest : IsTail tail) :
    ∃ n, Numeral.ofSpan? negative (values, tail) = some n := by
  cases rest with
  | plain exponent =>
    obtain ⟨value, read⟩ := exponent.read
    cases exponent with
    | absent => exact ⟨_, ofSpan?_whole span negative⟩
    | present sign known all some =>
      rw [ofSpan?_exponent span, read]
      exact ⟨_, rfl⟩
  | point all some exponent =>
    obtain ⟨value, read⟩ := exponent.read
    rw [ofSpan?_point span negative (fun none => some (List.map_eq_nil_iff.mp none))
      (spanDigits_append all exponent.ends), read]
    exact ⟨_, rfl⟩

end

/-- Every text of a number is read as one. -/
theorem IsNumeral.read {text : List Char} (numeral : IsNumeral text) :
    ∃ n, Numeral.ofText? text = some n := by
  cases numeral with
  | positive magnitude =>
    obtain ⟨whole, rest⟩ := magnitude
    rw [ofText?_positive whole, spanDigits_append whole.all rest.ends]
    exact ofSpan?_isSome whole.span false rest
  | negative magnitude =>
    obtain ⟨whole, rest⟩ := magnitude
    rw [ofText?_negative, spanDigits_append whole.all rest.ends]
    exact ofSpan?_isSome whole.span true rest

theorem digitsValue_append (start : Nat) (front rest : List Nat) :
    digitsValue start (front ++ rest) = digitsValue (digitsValue start front) rest :=
  List.foldl_append

theorem le_digitsValue (start : Nat) (digits : List Nat) : start ≤ digitsValue start digits := by
  induction digits generalizing start with
  | nil => exact Nat.le_refl _
  | cons d rest ih =>
    have further := ih (10 * start + d)
    rw [digitsValue, List.foldl_cons]
    exact Nat.le_trans (by omega) further

/-- The digits that are gathered are the longest front that fits. -/
theorem gather_front (start : UInt64) (digits : List Nat) :
    ∃ front, digits = front ++ (gather start digits).2 ∧
      (gather start digits).1.toNat = digitsValue start.toNat front ∧
      ∀ d ∈ (gather start digits).2.head?,
        UInt64.size ≤ 10 * (gather start digits).1.toNat + d := by
  induction digits generalizing start with
  | nil => exact ⟨[], rfl, rfl, by simp [gather]⟩
  | cons d rest ih =>
    rw [gather]
    split
    · rename_i fits
      have next : (10 * start.toNat + d).toUInt64.toNat = 10 * start.toNat + d :=
        UInt64.toNat_ofNat_of_lt' fits
      obtain ⟨front, whole, value, stops⟩ := ih (10 * start.toNat + d).toUInt64
      refine ⟨d :: front, by rw [List.cons_append, ← whole], ?_, stops⟩
      rw [value, next]
      rfl
    · rename_i full
      exact ⟨[], rfl, rfl, by simpa using full⟩

/-- All digits are gathered where their value is one of 64 bits. -/
theorem gather_eq {start : UInt64} {digits : List Nat}
    (small : digitsValue start.toNat digits < UInt64.size) :
    gather start digits = ((digitsValue start.toNat digits).toUInt64, []) := by
  obtain ⟨front, whole, value, stops⟩ := gather_front start digits
  generalize gather start digits = gathered at whole value stops ⊢
  obtain ⟨significand, left⟩ := gathered
  cases left with
  | nil =>
    rw [List.append_nil] at whole
    rw [whole, ← value, Nat.toUInt64, UInt64.ofNat_toNat]
  | cons d rest =>
    have beyond : UInt64.size ≤ digitsValue start.toNat digits := by
      calc UInt64.size
          ≤ 10 * significand.toNat + d := stops d rfl
        _ ≤ digitsValue (10 * significand.toNat + d) rest := le_digitsValue _ rest
        _ = digitsValue start.toNat digits := by
          rw [whole, digitsValue_append, ← value]
          rfl
    exact absurd small (Nat.not_lt.mpr beyond)

/-- The digits of a whole number of 64 bits are read as that number. -/
theorem ofText?_toDigits {n : Nat} (small : n < UInt64.size) :
    Numeral.ofText? (Nat.toDigits 10 n) = some ⟨false, n.toUInt64, 0, true⟩ ∧
      Numeral.ofText? ('-' :: Nat.toDigits 10 n) = some ⟨true, n.toUInt64, 0, true⟩ := by
  have whole := isWhole_toDigits n
  have spanned := spanDigits_all whole.all
  have value : digitsValue 0 ((Nat.toDigits 10 n).map (·.toNat - '0'.toNat)) = n := by
    rw [digitsValue_map, Nat.ofDigitChars_ten_toDigits]
  have gathered (negative : Bool) :
      Numeral.ofDigits negative ((Nat.toDigits 10 n).map (·.toNat - '0'.toNat)) [] 0 true =
        ⟨negative, n.toUInt64, 0, true⟩ := by
    rw [Numeral.ofDigits, gather_eq (by rwa [UInt64.toNat_zero, value]), UInt64.toNat_zero, value]
    rfl
  constructor
  · have positive := ofText?_positive whole []
    rw [List.append_nil] at positive
    rw [positive, spanned, ofSpan?_whole whole.span, gathered]
  · rw [ofText?_negative, spanned, ofSpan?_whole whole.span, gathered]

/-- The characters of numerals. -/
def IsNumeralChar (c : Char) : Prop := c.isDigit ∨ c ∈ ['+', '-', '.', 'e']

theorem IsExponent.chars {rest : List Char} (exponent : IsExponent rest) :
    ∀ c ∈ rest, IsNumeralChar c := by
  cases exponent with
  | absent => rintro c ⟨⟩
  | present sign known all nonempty =>
    simp only [List.mem_cons]
    rintro c (rfl | rfl | digit)
    · exact .inr (by decide)
    · obtain rfl | rfl := known <;> exact .inr (by decide)
    · exact .inl (all c digit)

theorem IsTail.chars {tail : List Char} (rest : IsTail tail) : ∀ c ∈ tail, IsNumeralChar c := by
  cases rest with
  | plain exponent => exact exponent.chars
  | point all nonempty exponent =>
    simp only [List.mem_cons, List.mem_append]
    rintro c (rfl | digit | later)
    · exact .inr (by decide)
    · exact .inl (all c digit)
    · exact exponent.chars c later

theorem IsMagnitude.chars {text : List Char} (magnitude : IsMagnitude text) :
    ∀ c ∈ text, IsNumeralChar c := by
  obtain ⟨whole, rest⟩ := magnitude
  simp only [List.mem_append]
  rintro c (digit | later)
  · exact .inl (whole.all c digit)
  · exact rest.chars c later

theorem IsNumeral.chars {text : List Char} (numeral : IsNumeral text) :
    ∀ c ∈ text, IsNumeralChar c := by
  cases numeral with
  | positive magnitude => exact magnitude.chars
  | negative magnitude => exact List.forall_mem_cons.mpr ⟨.inr (by decide), magnitude.chars⟩

theorem IsNumeral.nonempty {text : List Char} (numeral : IsNumeral text) : text ≠ [] := by
  cases numeral with
  | positive magnitude =>
    obtain ⟨whole, rest⟩ := magnitude
    exact fun none => whole.nonempty (List.append_eq_nil_iff.mp none).1
  | negative magnitude => rintro ⟨⟩

/-- A character of a numeral is one byte, which may stand in a word. -/
theorem IsNumeralChar.byte {c : Char} (char : IsNumeralChar c) :
    String.utf8EncodeChar c = [c.toNat.toUInt8] ∧ isWordByte c.toNat.toUInt8 ∧
      Char.ofNat c.toNat.toUInt8.toNat = c := by
  have word : c.toNat < 128 ∧ isWordByte c.toNat.toUInt8 := by
    obtain digit | sign := char
    · simp only [Char.isDigit, Bool.and_eq_true, decide_eq_true_eq, ge_iff_le,
        UInt32.le_iff_toNat_le] at digit
      have digits : ∀ n ≤ 57, 48 ≤ n → n < 128 ∧ isWordByte n.toUInt8 := by decide
      exact digits c.toNat digit.2 digit.1
    · simp only [List.mem_cons, List.not_mem_nil, or_false] at sign
      obtain rfl | rfl | rfl | rfl := sign <;> decide
  refine ⟨utf8EncodeChar_ascii word.1, word.2, ?_⟩
  rw [Nat.toUInt8_eq, UInt8.toNat_ofNat_of_lt' (Nat.lt_trans word.1 (by decide)), Char.ofNat_toNat]

theorem utf8_word {chars : List Char} (all : ∀ c ∈ chars, IsNumeralChar c) :
    (∀ b ∈ utf8 chars, isWordByte b) ∧ (utf8 chars).map (fun b => Char.ofNat b.toNat) = chars := by
  induction chars with
  | nil => exact ⟨by rintro b ⟨⟩, rfl⟩
  | cons c chars ih =>
    obtain ⟨bytes, letter, same⟩ := (all c List.mem_cons_self).byte
    obtain ⟨letters, more⟩ := ih fun c m => all c (List.mem_cons_of_mem _ m)
    rw [utf8_cons, bytes, List.singleton_append]
    exact ⟨List.forall_mem_cons.mpr ⟨letter, letters⟩, by rw [List.map_cons, same, more]⟩

/-- A numeral is read as its number. -/
theorem IsNumeral.word {text : List Char} (numeral : IsNumeral text) {n : Numeral}
    (read : Numeral.ofText? text = some n) : Token.ofWord (utf8 text) = .number n := by
  have other (word : String) (wrong : Numeral.ofText? word.toList = none) :
      String.ofList text ≠ word := by
    rintro rfl
    rw [String.toList_ofList, read] at wrong
    cases wrong
  unfold Token.ofWord
  rw [(utf8_word numeral.chars).2]
  dsimp only
  split
  · rename_i same
    exact absurd same (other "null" (by decide))
  · rename_i same
    exact absurd same (other "true" (by decide))
  · rename_i same
    exact absurd same (other "false" (by decide))
  · rw [read]

/-- A text of a number is one token. -/
theorem IsNumeral.reads {text : List Char} (numeral : IsNumeral text) {n : Numeral}
    (read : Numeral.ofText? text = some n) : Reads (utf8 text) [.number n] := by
  have token := numeral.word read
  rw [← token]
  refine .word (utf8_word numeral.chars).1 ?_ (by rw [token]; rintro ⟨⟩)
  intro none
  have back := (utf8_word numeral.chars).2
  rw [none] at back
  exact numeral.nonempty back.symm

end Headroom.Json
