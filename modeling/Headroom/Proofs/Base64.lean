import Headroom.Codec.Base64

/-!
Base64 text is read as the bytes it was written from, whatever their number
(`decode?_encode`). Its letters are ASCII and none of them is a blank.
-/
namespace Headroom.Codec.Base64

theorem value?_letter : ∀ n < 64, value? (letter n) = some n := by
  decide

theorem letter_ne_filler : ∀ n < 64, letter n ≠ filler := by
  decide

/-- The bytes that base64 text is made of. -/
inductive IsLetter : UInt8 → Prop where
  | value (n : Nat) (small : n < 64) : IsLetter (letter n)
  | filler : IsLetter filler

theorem isLetter_of_mem_encode (bytes : List UInt8) : ∀ b ∈ encode bytes, IsLetter b := by
  induction bytes using encode.induct with
  | case1 a b c rest ih =>
    have := a.toNat_lt
    have := b.toNat_lt
    have := c.toNat_lt
    simp only [encode, List.mem_cons]
    rintro _ (rfl | rfl | rfl | rfl | later)
    · exact .value _ (by omega)
    · exact .value _ (by omega)
    · exact .value _ (by omega)
    · exact .value _ (by omega)
    · exact ih _ later
  | case2 a b =>
    have := a.toNat_lt
    have := b.toNat_lt
    simp only [encode, List.mem_cons, List.not_mem_nil, or_false]
    rintro _ (rfl | rfl | rfl | rfl)
    · exact .value _ (by omega)
    · exact .value _ (by omega)
    · exact .value _ (by omega)
    · exact .filler
  | case3 a =>
    have := a.toNat_lt
    simp only [encode, List.mem_cons, List.not_mem_nil, or_false]
    rintro _ (rfl | rfl | rfl | rfl)
    · exact .value _ (by omega)
    · exact .value _ (by omega)
    · exact .filler
    · exact .filler
  | case4 => simp [encode]

/-- A byte is found again in the number of its group. -/
theorem toUInt8_eq_of_mod {n : Nat} {b : UInt8} (same : n % 256 = b.toNat) : n.toUInt8 = b := by
  apply UInt8.toNat_inj.mp
  rw [Nat.toUInt8_eq, UInt8.toNat_ofNat', same]

theorem decodeFour?_letters {n : Nat} (small : n < 16777216) :
    decodeFour? (letter (n / 262144)) (letter (n / 4096 % 64)) (letter (n / 64 % 64))
        (letter (n % 64)) =
      some [(n / 65536).toUInt8, (n / 256).toUInt8, n.toUInt8] := by
  have whole : ((n / 262144 * 64 + n / 4096 % 64) * 64 + n / 64 % 64) * 64 + n % 64 = n := by
    omega
  simp only [decodeFour?, value?_letter _ (show n / 262144 < 64 by omega),
    value?_letter _ (show n / 4096 % 64 < 64 by omega),
    value?_letter _ (show n / 64 % 64 < 64 by omega),
    value?_letter _ (show n % 64 < 64 by omega), Option.bind_eq_bind, Option.bind_some, whole]
  rfl

theorem decodeThree?_letters {n : Nat} (small : n < 262144) (spare : n % 4 = 0) :
    decodeThree? (letter (n / 4096)) (letter (n / 64 % 64)) (letter (n % 64)) =
      some [(n / 1024).toUInt8, (n / 4).toUInt8] := by
  have whole : (n / 4096 * 64 + n / 64 % 64) * 64 + n % 64 = n := by
    omega
  simp only [decodeThree?, value?_letter _ (show n / 4096 < 64 by omega),
    value?_letter _ (show n / 64 % 64 < 64 by omega),
    value?_letter _ (show n % 64 < 64 by omega), Option.bind_eq_bind, Option.bind_some, whole,
    if_pos spare]
  rfl

theorem decodeTwo?_letters {n : Nat} (small : n < 4096) (spare : n % 16 = 0) :
    decodeTwo? (letter (n / 64)) (letter (n % 64)) = some [(n / 16).toUInt8] := by
  have whole : n / 64 * 64 + n % 64 = n := by
    omega
  simp only [decodeTwo?, value?_letter _ (show n / 64 < 64 by omega),
    value?_letter _ (show n % 64 < 64 by omega), Option.bind_eq_bind, Option.bind_some, whole,
    if_pos spare]
  rfl

theorem encode_cons (a b c : UInt8) (rest : List UInt8) :
    encode (a :: b :: c :: rest) = encode [a, b, c] ++ encode rest := rfl

/-- A full group is read as its three bytes, whatever follows it. -/
theorem decodeOnto_full (a b c : UInt8) (done rest : List UInt8) :
    decodeOnto done (encode [a, b, c] ++ rest) = decodeOnto (c :: b :: a :: done) rest := by
  have := a.toNat_lt
  have := b.toNat_lt
  have := c.toNat_lt
  generalize same : (a.toNat * 256 + b.toNat) * 256 + c.toNat = n
  have written : encode [a, b, c] ++ rest = letter (n / 262144) :: letter (n / 4096 % 64) ::
      letter (n / 64 % 64) :: letter (n % 64) :: rest := by
    rw [encode, same]
    rfl
  have full : ¬ (rest.isEmpty ∧ letter (n % 64) = filler) := fun last =>
    letter_ne_filler _ (Nat.mod_lt _ (by decide)) last.2
  have group := decodeFour?_letters (show n < 16777216 by omega)
  have first : (n / 65536).toUInt8 = a := toUInt8_eq_of_mod (by omega)
  have second : (n / 256).toUInt8 = b := toUInt8_eq_of_mod (by omega)
  have third : n.toUInt8 = c := toUInt8_eq_of_mod (by omega)
  rw [first, second, third] at group
  rw [written, decodeOnto, if_neg full, group]
  rfl

/-- Only the last group may be incomplete, and its fillers tell how much is missing. -/
theorem decodeOnto_encode (bytes done : List UInt8) :
    decodeOnto done (encode bytes) = some (done.reverse ++ bytes) := by
  induction bytes using encode.induct generalizing done with
  | case1 a b c rest ih =>
    rw [encode_cons, decodeOnto_full, ih]
    simp
  | case2 a b =>
    have := a.toNat_lt
    have := b.toNat_lt
    generalize same : (a.toNat * 256 + b.toNat) * 4 = n
    have third : letter (n % 64) ≠ filler := letter_ne_filler _ (Nat.mod_lt _ (by decide))
    have first : (n / 1024).toUInt8 = a := toUInt8_eq_of_mod (by omega)
    have second : (n / 4).toUInt8 = b := toUInt8_eq_of_mod (by omega)
    rw [encode, same, decodeOnto, if_pos ⟨rfl, rfl⟩, if_neg third,
      decodeThree?_letters (by omega) (by omega), first, second, Option.map_some]
  | case3 a =>
    have := a.toNat_lt
    generalize same : a.toNat * 16 = n
    have first : (n / 16).toUInt8 = a := toUInt8_eq_of_mod (by omega)
    rw [encode, same, decodeOnto, if_pos ⟨rfl, rfl⟩, if_pos rfl,
      decodeTwo?_letters (by omega) (by omega), first, Option.map_some]
  | case4 => simp [encode, decodeOnto]

theorem decode?_encode (bytes : List UInt8) : decode? (encode bytes) = some bytes :=
  decodeOnto_encode bytes []

end Headroom.Codec.Base64
