import Headroom.Json.Printer
import Headroom.Json.Token
import Mathlib.Data.List.Basic

/-!
Texts within JSON. A text is written as a literal that escapes some of its characters and
keeps the bytes of the others; whatever the text, its literal is read as one token, and the
token holds the text again (`Reads.quote`).
-/
namespace Headroom.Json

/-- The bytes that characters are written with. -/
def utf8 (chars : List Char) : List UInt8 := chars.flatMap String.utf8EncodeChar

@[simp] theorem utf8_nil : utf8 [] = [] := rfl

@[simp] theorem utf8_cons (c : Char) (chars : List Char) :
    utf8 (c :: chars) = String.utf8EncodeChar c ++ utf8 chars := rfl

@[simp] theorem utf8_append (first second : List Char) :
    utf8 (first ++ second) = utf8 first ++ utf8 second :=
  List.flatMap_append

theorem toList_eq_data (bytes : ByteArray) : bytes.toList = bytes.data.toList := by
  have loop (i : Nat) (done : List UInt8) :
      ByteArray.toList.loop bytes i done = done.reverse ++ bytes.data.toList.drop i := by
    fun_induction ByteArray.toList.loop bytes i done with
    | case1 i done inside ih =>
      have inside : i < bytes.data.toList.length := by simpa using inside
      rw [ih, List.drop_eq_getElem_cons inside]
      simp [ByteArray.get!, getElem!_pos bytes.data i (by simpa using inside)]
    | case2 i done outside =>
      rw [List.drop_eq_nil_of_le (by simpa using outside), List.append_nil]
  exact loop 0 []

theorem toUTF8_toList (text : String) : text.toUTF8.toList = utf8 text.toList := by
  rw [toList_eq_data, String.toUTF8_eq_toByteArray, ← String.utf8Encode_toList, List.utf8Encode,
    List.toList_data_toByteArray]
  rfl

/-- The bytes of a text are read as that text. -/
theorem fromUTF8?_utf8 (text : String) :
    String.fromUTF8? ⟨(utf8 text.toList).toArray⟩ = some text := by
  have bytes : (⟨(utf8 text.toList).toArray⟩ : ByteArray) = text.toByteArray := by
    rw [← toUTF8_toList, toList_eq_data, Array.toArray_toList, String.toUTF8_eq_toByteArray]
  rw [bytes, String.fromUTF8?, dif_pos text.isValidUTF8]
  rfl

/-- The text that bytes are read as is written with these bytes. -/
theorem toUTF8_of_fromUTF8? {bytes : List UInt8} {text : String}
    (read : String.fromUTF8? ⟨bytes.toArray⟩ = some text) : text.toUTF8.toList = bytes := by
  rw [String.fromUTF8?] at read
  split at read
  · cases read
    rw [toList_eq_data]
    rfl
  · cases read

theorem utf8EncodeChar_ascii {c : Char} (ascii : c.toNat < 128) :
    String.utf8EncodeChar c = [c.toNat.toUInt8] := by
  have low : c.val.toNat ≤ 0x7f := Nat.le_of_lt_succ ascii
  simp only [String.utf8EncodeChar, if_pos low]
  rfl

/-- Bytes of ASCII are read as a text. -/
theorem fromUTF8?_ascii {bytes : List UInt8} (ascii : ∀ b ∈ bytes, b.toNat < 128) :
    ∃ text, String.fromUTF8? ⟨bytes.toArray⟩ = some text := by
  have written : utf8 (bytes.map fun b => Char.ofNat b.toNat) = bytes := by
    induction bytes with
    | nil => rfl
    | cons b rest ih =>
      have here := ascii b List.mem_cons_self
      have valid : b.toNat.isValidChar := .inl (by omega)
      have same : (Char.ofNat b.toNat).toNat = b.toNat := by
        rw [Char.ofNat, dif_pos valid]
        rfl
      have low : (Char.ofNat b.toNat).toNat < 128 := by rwa [same]
      rw [List.map_cons, utf8_cons, ih fun b' member => ascii b' (List.mem_cons_of_mem _ member),
        utf8EncodeChar_ascii low, same]
      simp
  have read := fromUTF8?_utf8 (String.ofList (bytes.map fun b => Char.ofNat b.toNat))
  rw [String.toList_ofList, written] at read
  exact ⟨_, read⟩

/-- The bytes of a character beyond ASCII are beyond it as well. -/
theorem le_of_mem_utf8EncodeChar {c : Char} (beyond : 128 ≤ c.toNat) :
    ∀ b ∈ String.utf8EncodeChar c, 128 ≤ b := by
  have high : ¬ c.val.toNat ≤ 0x7f := Nat.not_le.mpr beyond
  have top (n k : Nat) (small : n < 128) (big : 128 ≤ k) (fits : n + k < 256) :
      128 ≤ UInt8.ofNat (n + k) := by
    rw [UInt8.le_iff_toNat_le, UInt8.toNat_ofNat_of_lt' fits]
    exact Nat.le_trans big (Nat.le_add_left _ _)
  simp only [String.utf8EncodeChar, if_neg high]
  split
  · simp only [List.mem_cons, List.not_mem_nil, or_false]
    rintro b (rfl | rfl)
    · exact top _ _ (by omega) (by decide) (by omega)
    · exact top _ _ (by omega) (by decide) (by omega)
  · split
    · simp only [List.mem_cons, List.not_mem_nil, or_false]
      rintro b (rfl | rfl | rfl) <;> exact top _ _ (by omega) (by decide) (by omega)
    · simp only [List.mem_cons, List.not_mem_nil, or_false]
      rintro b (rfl | rfl | rfl | rfl) <;> exact top _ _ (by omega) (by decide) (by omega)

/-- Tokens that have been read stay the first. -/
theorem tokensFrom_done (place : Lexing) (done : List Token) (bytes : List UInt8) :
    tokensFrom place done bytes = done.reverse ++ tokensFrom place [] bytes := by
  induction bytes generalizing place done with
  | nil => simp [tokensFrom]
  | cons b rest ih =>
    simp only [tokensFrom]
    rw [ih, ih _ ((place.step b).2.reverse ++ [])]
    simp

/-- A byte that completes no token. -/
theorem tokensFrom_quiet {place next : Lexing} {b : UInt8} (quiet : place.step b = (next, []))
    (rest : List UInt8) : tokensFrom place [] (b :: rest) = tokensFrom next [] rest := by
  simp [tokensFrom, quiet]

/-- Text that does not go on with a word. -/
def Stops (rest : List UInt8) : Prop := ∀ b ∈ rest.head?, isWordByte b = false

/-- Bytes are read as tokens, whatever comes after them that goes on with no word. -/
def Reads (bytes : List UInt8) (expected : List Token) : Prop :=
  ∀ rest, Stops rest → tokens (bytes ++ rest) = expected ++ tokens rest

theorem Stops.append {bytes rest : List UInt8} (first : Stops bytes) (second : Stops rest) :
    Stops (bytes ++ rest) := by
  cases bytes with
  | nil => exact second
  | cons b more => exact first

theorem reads_nil : Reads [] [] := fun _ _ => rfl

/-- What is followed by no word is read by itself. -/
theorem Reads.append {first second : List UInt8} {early late : List Token}
    (reads : Reads first early) (stops : Stops second) (after : Reads second late) :
    Reads (first ++ second) (early ++ late) := by
  intro rest here
  rw [List.append_assoc, reads _ (stops.append here), after rest here, List.append_assoc]

/-- A mark is read as its token, whatever follows. -/
theorem Reads.mark {b : UInt8} {token : Token} (mark : Lexing.start b = (.ready, [token]))
    {bytes : List UInt8} {later : List Token} (after : Reads bytes later) :
    Reads (b :: bytes) (token :: later) := by
  intro rest stops
  have step : Lexing.step b .ready = (.ready, [token]) := mark
  rw [List.cons_append, tokens, tokensFrom, step]
  dsimp only
  rw [tokensFrom_done]
  exact congrArg (token :: ·) (after rest stops)

/-- A blank is passed over. -/
theorem Reads.blank {b : UInt8} (blank : Lexing.start b = (.ready, [])) {bytes : List UInt8}
    {later : List Token} (after : Reads bytes later) : Reads (b :: bytes) later := by
  intro rest stops
  have step : Lexing.step b .ready = (.ready, []) := blank
  exact (tokensFrom_quiet step _).trans (after rest stops)

/-- How a character may stand in a literal. -/
inductive Stands (c : Char) : List UInt8 → Prop where
  | short (letter byte : UInt8) (known : shortEscape? letter = some byte) (other : letter ≠ 0x75)
      (same : String.utf8EncodeChar c = [byte]) : Stands c [0x5C, letter]
  | unit (high low : UInt8) (digits : (hexDigit? high).isSome ∧ (hexDigit? low).isSome)
      (value : codeUnit? 48 48 high low = some c.toNat) (control : c.toNat < 0x20) :
      Stands c [0x5C, 0x75, 48, 48, high, low]
  | plain (bare : ∀ b ∈ String.utf8EncodeChar c, b ≠ 0x22 ∧ b ≠ 0x5C ∧ ¬ b < 0x20) :
      Stands c (String.utf8EncodeChar c)

/-- The hexadecimal escape of a control character is read as its number. -/
theorem codeUnit?_hexLetter : ∀ n < 0x20,
    ((hexDigit? (hexLetter (n / 16)).toNat.toUInt8).isSome ∧
      (hexDigit? (hexLetter (n % 16)).toNat.toUInt8).isSome) ∧
    codeUnit? 48 48 (hexLetter (n / 16)).toNat.toUInt8 (hexLetter (n % 16)).toNat.toUInt8 =
      some n := by
  decide

theorem hexLetter_ascii : ∀ n < 16, (hexLetter n).toNat < 128 := by
  decide

/-- A control character without a letter of its own stands as its number. -/
theorem stands_control {c : Char} (control : c.toNat < 0x20) :
    Stands c
      (utf8 ['\x5c', 'u', '0', '0', hexLetter (c.toNat / 16), hexLetter (c.toNat % 16)]) := by
  obtain ⟨digits, value⟩ := codeUnit?_hexLetter c.toNat control
  have bytes : utf8 ['\x5c', 'u', '0', '0', hexLetter (c.toNat / 16), hexLetter (c.toNat % 16)] =
      [0x5C, 0x75, 48, 48, (hexLetter (c.toNat / 16)).toNat.toUInt8,
        (hexLetter (c.toNat % 16)).toNat.toUInt8] := by
    simp only [utf8_cons, utf8_nil,
      utf8EncodeChar_ascii (hexLetter_ascii (c.toNat / 16) (by omega)),
      utf8EncodeChar_ascii (hexLetter_ascii (c.toNat % 16) (by omega))]
    rfl
  rw [bytes]
  exact .unit _ _ digits value control

/-- No byte of a printed character means anything within a literal. -/
theorem bare_of_printed {c : Char} (quote : c ≠ '\x22') (slash : c ≠ '\x5c')
    (printed : ¬ c.toNat < 0x20) :
    ∀ b ∈ String.utf8EncodeChar c, b ≠ 0x22 ∧ b ≠ 0x5C ∧ ¬ b < 0x20 := by
  intro b member
  by_cases ascii : c.toNat < 128
  · rw [utf8EncodeChar_ascii ascii, List.mem_singleton] at member
    have value : b.toNat = c.toNat := by
      rw [member, Nat.toUInt8_eq, UInt8.toNat_ofNat_of_lt' (Nat.lt_trans ascii (by decide))]
    have quote : b.toNat ≠ 0x22 := fun same => quote (Char.toNat_inj.mp (value ▸ same))
    have slash : b.toNat ≠ 0x5C := fun same => slash (Char.toNat_inj.mp (value ▸ same))
    refine ⟨fun same => quote (by rw [same]; rfl), fun same => slash (by rw [same]; rfl), ?_⟩
    rw [UInt8.lt_iff_toNat_lt, value]
    exact printed
  · have high := le_of_mem_utf8EncodeChar (Nat.not_lt.mp ascii) b member
    rw [UInt8.le_iff_toNat_le] at high
    refine ⟨?_, ?_, ?_⟩
    · rintro rfl
      exact absurd high (by decide)
    · rintro rfl
      exact absurd high (by decide)
    · rw [UInt8.lt_iff_toNat_lt]
      exact Nat.not_lt.mpr (Nat.le_trans (by decide) high)

theorem stands_escapeChar (c : Char) : Stands c (utf8 (escapeChar c)) := by
  unfold escapeChar
  split
  · exact .short 0x22 0x22 rfl (by decide) (by decide)
  · exact .short 0x5C 0x5C rfl (by decide) (by decide)
  · exact .short 0x62 0x08 rfl (by decide) (by decide)
  · exact .short 0x66 0x0C rfl (by decide) (by decide)
  · exact .short 0x6E 0x0A rfl (by decide) (by decide)
  · exact .short 0x72 0x0D rfl (by decide) (by decide)
  · exact .short 0x74 0x09 rfl (by decide) (by decide)
  · rename_i quote slash _ _ _ _ _
    split
    · exact stands_control ‹_›
    · rw [utf8_cons, utf8_nil, List.append_nil]
      exact .plain (bare_of_printed quote slash ‹_›)

/-- A character within a literal is collected with its escape. -/
theorem Stands.collected {c : Char} {bytes : List UInt8} (stands : Stands c bytes)
    (done rest : List UInt8) :
    tokensFrom (.literal done) [] (bytes ++ rest) =
      tokensFrom (.literal (bytes.reverse ++ done)) [] rest := by
  cases stands with
  | short letter byte known other same =>
    have escape : Lexing.step letter (.escape (0x5C :: done)) =
        (.literal (letter :: 0x5C :: done), []) := by
      simp [Lexing.step, other, known]
    exact (tokensFrom_quiet rfl _).trans (tokensFrom_quiet escape rest)
  | unit high low digits value control =>
    have third (done : List UInt8) :
        Lexing.step high (.hex 2 done) = (.hex 1 (high :: done), []) := by
      simp [Lexing.step, digits.1]
    have last (done : List UInt8) :
        Lexing.step low (.hex 1 done) = (.literal (low :: done), []) := by
      simp [Lexing.step, digits.2]
    calc tokensFrom (.literal done) [] ([0x5C, 0x75, 48, 48, high, low] ++ rest)
        = tokensFrom (.hex 2 (48 :: 48 :: 0x75 :: 0x5C :: done)) [] (high :: low :: rest) := rfl
      _ = tokensFrom (.hex 1 (high :: 48 :: 48 :: 0x75 :: 0x5C :: done)) [] (low :: rest) :=
        tokensFrom_quiet (third _) _
      _ = tokensFrom (.literal (low :: high :: 48 :: 48 :: 0x75 :: 0x5C :: done)) [] rest :=
        tokensFrom_quiet (last _) _
  | plain bare =>
    revert done
    generalize String.utf8EncodeChar c = bytes at bare
    induction bytes with
    | nil => exact fun done => rfl
    | cons b more ih =>
      intro done
      obtain ⟨quote, slash, printed⟩ := bare b List.mem_cons_self
      have step : Lexing.step b (.literal done) = (.literal (b :: done), []) := by
        simp [Lexing.step, quote, slash, printed]
      rw [List.cons_append, tokensFrom_quiet step,
        ih fun b' m => bare b' (List.mem_cons_of_mem _ m)]
      simp

theorem expand_plain {b : UInt8} (other : b ≠ 0x5C) (done rest : List UInt8) :
    expand done (b :: rest) = expand (b :: done) rest := by
  rw [expand]
  · rintro _ _ _ _ _ rfl
    exact absurd rfl other
  · rintro _ _ rfl
    exact absurd rfl other
  · rintro rfl
    exact absurd rfl other

theorem expand_short {letter byte : UInt8} (known : shortEscape? letter = some byte)
    (other : letter ≠ 0x75) (done rest : List UInt8) :
    expand done (0x5C :: letter :: rest) = expand (byte :: done) rest := by
  rw [expand, known]
  rintro _ _ _ _ _ rfl
  exact absurd rfl other

/-- The escape of a character stands for the bytes of the character. -/
theorem Stands.expanded {c : Char} {bytes : List UInt8} (stands : Stands c bytes)
    (done rest : List UInt8) :
    expand done (bytes ++ rest) = expand ((String.utf8EncodeChar c).reverse ++ done) rest := by
  cases stands with
  | short letter byte known other same =>
    rw [same]
    exact expand_short known other done rest
  | unit high low digits value control =>
    have point : Char.ofNat c.toNat = c := Char.ofNat_toNat c
    have leading : ¬ (0xD800 ≤ c.toNat ∧ c.toNat < 0xDC00) := by omega
    have trailing : ¬ (0xDC00 ≤ c.toNat ∧ c.toNat < 0xE000) := by omega
    simp only [List.cons_append, List.nil_append]
    rw [expand, value]
    simp only [if_neg leading, if_neg trailing, point]
  | plain bare =>
    revert done
    generalize String.utf8EncodeChar c = bytes at bare
    induction bytes with
    | nil => exact fun done => rfl
    | cons b more ih =>
      intro done
      rw [List.cons_append, expand_plain (bare b List.mem_cons_self).2.1,
        ih fun b' m => bare b' (List.mem_cons_of_mem _ m)]
      simp

/-- The inside of a literal. -/
def escaped (text : String) : List UInt8 := utf8 (text.toList.flatMap escapeChar)

theorem collected_flatMap (chars : List Char) (done rest : List UInt8) :
    tokensFrom (.literal done) [] (utf8 (chars.flatMap escapeChar) ++ rest) =
      tokensFrom (.literal ((utf8 (chars.flatMap escapeChar)).reverse ++ done)) [] rest := by
  induction chars generalizing done with
  | nil => rfl
  | cons c chars ih =>
    rw [List.flatMap_cons, utf8_append, List.append_assoc,
      (stands_escapeChar c).collected done, ih]
    simp

theorem expand_flatMap (chars : List Char) (done : List UInt8) :
    expand done (utf8 (chars.flatMap escapeChar)) = some (done.reverse ++ utf8 chars) := by
  induction chars generalizing done with
  | nil => simp [expand]
  | cons c chars ih =>
    rw [List.flatMap_cons, utf8_append, (stands_escapeChar c).expanded done, ih]
    simp

theorem literalText?_escaped (text : String) : literalText? (escaped text) = some text := by
  rw [literalText?, escaped, expand_flatMap, List.reverse_nil, List.nil_append, Option.bind_some,
    fromUTF8?_utf8]

/-- A literal is read as one token, which holds its text. -/
theorem Reads.quote (text : String) :
    Reads (quote text).toUTF8.toList [.string (some text)] := by
  intro rest _
  have bytes : (Json.quote text).toUTF8.toList = 0x22 :: (escaped text ++ [0x22]) := by
    rw [toUTF8_toList, Json.quote, String.toList_ofList, List.cons_append, utf8_cons, utf8_append]
    rfl
  have closed : tokensFrom (.literal (escaped text).reverse) [] (0x22 :: rest) =
      .string (literalText? (escaped text)) :: tokens rest := by
    simp only [tokensFrom, Lexing.step, if_true]
    rw [tokensFrom_done]
    simp [tokens]
  calc tokens ((Json.quote text).toUTF8.toList ++ rest)
      = tokensFrom (.literal []) [] (escaped text ++ 0x22 :: rest) := by
        rw [bytes, List.cons_append, List.append_assoc]
        exact tokensFrom_quiet rfl _
    _ = tokensFrom (.literal (escaped text).reverse) [] (0x22 :: rest) := by
        rw [escaped, collected_flatMap, List.append_nil]
    _ = .string (some text) :: tokens rest := by
        rw [closed, literalText?_escaped]

end Headroom.Json
