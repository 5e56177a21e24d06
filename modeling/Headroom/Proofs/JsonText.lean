import Headroom.Json.Raw
import Headroom.Proofs.FloatText

/-!
Values as JSON text. What is written of a value is read as the tokens of the value
(`tokens_render`), on one line or over several, and they build its tree
(`ofBytes?_of_tokens`), whatever the value holds.
-/
namespace Headroom.Json

/-- A word is read as its token. -/
theorem reads_word {word : String} {token : Token}
    (written : Token.ofWord (utf8 word.toList) = token) (sound : token ≠ .broken)
    (letters : (utf8 word.toList).all isWordByte) (nonempty : utf8 word.toList ≠ []) :
    Reads word.toUTF8.toList [token] := by
  rw [toUTF8_toList, ← written]
  exact .word (List.all_eq_true.mp letters) nonempty (written ▸ sound)

theorem reads_null : Reads "null".toUTF8.toList [.null] :=
  reads_word (by decide) (by decide) (by decide) (by decide)

/-- The token that a number is read as: null for a float that is no number. -/
def Number.token (n : Number) : Token := Token.ofWord n.render.toUTF8.toList

/-- A whole number is written with its digits, behind a minus where it is below zero. -/
theorem Number.render_integer (i : Int) :
    (Number.integer i).render.toList =
      if i < 0 then '-' :: Nat.toDigits 10 i.natAbs else Nat.toDigits 10 i.natAbs := by
  rw [render, Int.toString_eq_repr, Int.repr_eq_if]
  split
  · rename_i above
    rw [if_neg (Int.not_lt.mpr above), Nat.toList_repr, show i.toNat = i.natAbs by omega]
  · rename_i below
    rw [if_pos (Int.not_le.mp below), String.toList_append, Nat.toList_repr,
      show (-i).toNat = i.natAbs by omega]
    rfl

theorem Number.isNumeral_integer (i : Int) : IsNumeral (Number.integer i).render.toList := by
  have digits : IsMagnitude (Nat.toDigits 10 i.natAbs) := by
    simpa using IsMagnitude.mk (isWhole_toDigits i.natAbs) (.plain .absent)
  rw [render_integer]
  split
  · exact .negative digits
  · exact .positive digits

/-- A whole number of 64 bits is read as itself. -/
theorem Number.token_integer {i : Int} (small : i.natAbs < UInt64.size) :
    (Number.integer i).token = .number ⟨decide (i < 0), i.natAbs.toUInt64, 0, true⟩ := by
  have read : Numeral.ofText? (Number.integer i).render.toList =
      some ⟨decide (i < 0), i.natAbs.toUInt64, 0, true⟩ := by
    rw [render_integer]
    split
    · rename_i below
      rw [decide_eq_true below, (ofText?_toDigits small).2]
    · rename_i above
      rw [decide_eq_false above, (ofText?_toDigits small).1]
  rw [token, toUTF8_toList, (isNumeral_integer i).word read]

/-- A number is read as one token, which is a number or null. -/
theorem Number.reads (n : Number) :
    ((∃ value, n.token = .number value) ∨ n.token = .null) ∧
      Reads n.render.toUTF8.toList [n.token] := by
  have written : n.render = "null" ∨ IsNumeral n.render.toList := by
    cases n with
    | integer i => exact .inr (isNumeral_integer i)
    | float x => exact Decimal.jsonNotation_isNumeral x
  obtain null | numeral := written
  · have word : n.token = .null := by
      rw [token, null, toUTF8_toList]
      decide
    rw [word, null]
    exact ⟨.inr rfl, reads_null⟩
  · obtain ⟨value, read⟩ := numeral.read
    have token : n.token = .number value := by
      rw [token, toUTF8_toList]
      exact numeral.word read
    rw [token, toUTF8_toList]
    exact ⟨.inl ⟨value, rfl⟩, numeral.reads read⟩

theorem toUTF8_append (first second : String) :
    (first ++ second).toUTF8.toList = first.toUTF8.toList ++ second.toUTF8.toList := by
  rw [toUTF8_toList, toUTF8_toList, toUTF8_toList, String.toList_append, utf8_append]

mutual
/-- The tokens of a value. -/
def tokensOf : Json → List Token
  | .null => [.null]
  | .bool value => [.bool value]
  | .number n => [n.token]
  | .string text => [.string (some text)]
  | .array [] => [.openArray, .closeArray]
  | .array (item :: rest) => .openArray :: (item.tokensOf ++ itemTokens rest ++ [.closeArray])
  | .object [] => [.openObject, .closeObject]
  | .object ((key, value) :: rest) =>
    .openObject :: .string (some key) :: .colon ::
      (value.tokensOf ++ memberTokens rest ++ [.closeObject])

def itemTokens : List Json → List Token
  | [] => []
  | item :: rest => .comma :: (item.tokensOf ++ itemTokens rest)

def memberTokens : List (String × Json) → List Token
  | [] => []
  | (key, value) :: rest =>
    .comma :: .string (some key) :: .colon :: (value.tokensOf ++ memberTokens rest)
end

/-- Text that begins with a mark. -/
theorem stops_of_mark {b : UInt8} {rest : List UInt8} (mark : isWordByte b = false) :
    Stops (b :: rest) := by
  rintro _ ⟨⟩
  exact mark

theorem renderItems_cons (item : Json) (rest : List Json) :
    (renderItems (item :: rest)).toUTF8.toList =
      0x2C :: (item.render.toUTF8.toList ++ (renderItems rest).toUTF8.toList) := by
  rw [renderItems, toUTF8_append, toUTF8_append, List.append_assoc, toUTF8_toList ","]
  rfl

theorem renderMembers_cons (key : String) (value : Json) (rest : List (String × Json)) :
    (renderMembers ((key, value) :: rest)).toUTF8.toList =
      0x2C :: ((quote key).toUTF8.toList ++
        0x3A :: (value.render.toUTF8.toList ++ (renderMembers rest).toUTF8.toList)) := by
  simp only [renderMembers, toUTF8_append, List.append_assoc]
  rw [toUTF8_toList ",", toUTF8_toList ":"]
  rfl

/-- What is written of further items begins with a mark, if there is anything. -/
theorem stops_renderItems (items : List Json) : Stops (renderItems items).toUTF8.toList := by
  cases items with
  | nil =>
    rw [renderItems, toUTF8_toList]
    rintro b ⟨⟩
  | cons item rest =>
    rw [renderItems_cons]
    exact stops_of_mark rfl

theorem stops_renderMembers (members : List (String × Json)) :
    Stops (renderMembers members).toUTF8.toList := by
  cases members with
  | nil =>
    rw [renderMembers, toUTF8_toList]
    rintro b ⟨⟩
  | cons member rest =>
    rw [renderMembers_cons]
    exact stops_of_mark rfl

mutual
/-- What is written of a value is read as its tokens. -/
theorem reads_render : (j : Json) → Reads j.render.toUTF8.toList j.tokensOf
  | .null => reads_null
  | .bool true => reads_word (by decide) (by decide) (by decide) (by decide)
  | .bool false => reads_word (by decide) (by decide) (by decide) (by decide)
  | .number n => n.reads.2
  | .string text => .quote text
  | .array [] => by
    rw [render, toUTF8_toList]
    exact .mark rfl (.mark rfl reads_nil)
  | .array (item :: rest) => by
    have bytes : (Json.array (item :: rest)).render.toUTF8.toList =
        0x5B :: (item.render.toUTF8.toList ++ (renderItems rest).toUTF8.toList ++ [0x5D]) := by
      simp only [render, toUTF8_append, List.append_assoc]
      rw [toUTF8_toList "[", toUTF8_toList "]"]
      rfl
    have inside := (reads_render item).append (stops_renderItems rest) (reads_renderItems rest)
    rw [bytes]
    exact .mark rfl (inside.append (stops_of_mark rfl) (.mark rfl reads_nil))
  | .object [] => by
    rw [render, toUTF8_toList]
    exact .mark rfl (.mark rfl reads_nil)
  | .object ((key, value) :: rest) => by
    have bytes : (Json.object ((key, value) :: rest)).render.toUTF8.toList =
        0x7B :: ((quote key).toUTF8.toList ++ 0x3A ::
          (value.render.toUTF8.toList ++ (renderMembers rest).toUTF8.toList ++ [0x7D])) := by
      simp only [render, toUTF8_append, List.append_assoc]
      rw [toUTF8_toList "\x7b", toUTF8_toList ":", toUTF8_toList "\x7d"]
      rfl
    have inside := (reads_render value).append (stops_renderMembers rest) (reads_renderMembers rest)
    rw [bytes]
    exact .mark rfl ((Reads.quote key).append (stops_of_mark rfl)
      (.mark rfl (inside.append (stops_of_mark rfl) (.mark rfl reads_nil))))

theorem reads_renderItems :
    (items : List Json) → Reads (renderItems items).toUTF8.toList (itemTokens items)
  | [] => by
    rw [renderItems, toUTF8_toList]
    exact reads_nil
  | item :: rest => by
    rw [renderItems_cons]
    exact .mark rfl
      ((reads_render item).append (stops_renderItems rest) (reads_renderItems rest))

theorem reads_renderMembers :
    (members : List (String × Json)) →
      Reads (renderMembers members).toUTF8.toList (memberTokens members)
  | [] => by
    rw [renderMembers, toUTF8_toList]
    exact reads_nil
  | (key, value) :: rest => by
    rw [renderMembers_cons]
    exact .mark rfl ((Reads.quote key).append (stops_of_mark rfl) (.mark rfl
      ((reads_render value).append (stops_renderMembers rest) (reads_renderMembers rest))))
end

theorem tokens_render (j : Json) : tokens j.render.toUTF8.toList = j.tokensOf := by
  have whole := reads_render j [] (by rintro b ⟨⟩)
  rwa [List.append_nil, show tokens [] = [] from rfl, List.append_nil] at whole

/-- The start of a line is passed over. -/
theorem Reads.lineStart (depth : Nat) {bytes : List UInt8} {later : List Token}
    (after : Reads bytes later) : Reads ((lineStart depth).toUTF8.toList ++ bytes) later := by
  have blanks (n : Nat) : Reads (utf8 (List.replicate n ' ') ++ bytes) later := by
    induction n with
    | zero => exact after
    | succ n ih =>
      rw [List.replicate_succ, utf8_cons, List.append_assoc]
      exact .blank rfl ih
  rw [Json.lineStart, toUTF8_append, toUTF8_toList, toUTF8_toList, Decimal.pushn_toList,
    List.append_assoc]
  exact .blank rfl (blanks _)

theorem stops_lineStart (depth : Nat) (rest : List UInt8) :
    Stops ((lineStart depth).toUTF8.toList ++ rest) := by
  rw [lineStart, toUTF8_append, List.append_assoc, toUTF8_toList "\n"]
  exact stops_of_mark rfl

theorem stops_renderItemLines (depth : Nat) (items : List Json) :
    Stops (renderItemLines depth items).toUTF8.toList := by
  cases items with
  | nil =>
    rw [renderItemLines, toUTF8_toList]
    rintro b ⟨⟩
  | cons item rest =>
    simp only [renderItemLines, toUTF8_append, List.append_assoc, toUTF8_toList ","]
    exact stops_of_mark rfl

theorem stops_renderMemberLines (depth : Nat) (members : List (String × Json)) :
    Stops (renderMemberLines depth members).toUTF8.toList := by
  cases members with
  | nil =>
    rw [renderMemberLines, toUTF8_toList]
    rintro b ⟨⟩
  | cons member rest =>
    simp only [renderMemberLines, toUTF8_append, List.append_assoc, toUTF8_toList ","]
    exact stops_of_mark rfl

mutual
/-- What is written of a value over several lines is read as the same tokens. -/
theorem reads_renderLines (depth : Nat) :
    (j : Json) → Reads (j.renderLines depth).toUTF8.toList j.tokensOf
  | .null => reads_render .null
  | .bool value => reads_render (.bool value)
  | .number n => reads_render (.number n)
  | .string text => reads_render (.string text)
  | .array [] => reads_render (.array [])
  | .object [] => reads_render (.object [])
  | .array (item :: rest) => by
    have bytes : ((Json.array (item :: rest)).renderLines depth).toUTF8.toList =
        0x5B :: ((lineStart (depth + 1)).toUTF8.toList ++
          ((item.renderLines (depth + 1)).toUTF8.toList ++
            (renderItemLines (depth + 1) rest).toUTF8.toList ++
              ((lineStart depth).toUTF8.toList ++ [0x5D]))) := by
      simp only [renderLines, toUTF8_append, List.append_assoc]
      rw [toUTF8_toList "[", toUTF8_toList "]"]
      rfl
    have inside := (reads_renderLines (depth + 1) item).append (stops_renderItemLines _ rest)
      (reads_renderItemLines (depth + 1) rest)
    rw [bytes]
    exact .mark rfl (.lineStart _
      (inside.append (stops_lineStart _ _) (.lineStart _ (.mark rfl reads_nil))))
  | .object ((key, value) :: rest) => by
    have bytes : ((Json.object ((key, value) :: rest)).renderLines depth).toUTF8.toList =
        0x7B :: ((lineStart (depth + 1)).toUTF8.toList ++ ((quote key).toUTF8.toList ++
          0x3A :: 0x20 :: ((value.renderLines (depth + 1)).toUTF8.toList ++
            (renderMemberLines (depth + 1) rest).toUTF8.toList ++
              ((lineStart depth).toUTF8.toList ++ [0x7D])))) := by
      simp only [renderLines, toUTF8_append, List.append_assoc]
      rw [toUTF8_toList "\x7b", toUTF8_toList ": ", toUTF8_toList "\x7d"]
      rfl
    have inside := (reads_renderLines (depth + 1) value).append (stops_renderMemberLines _ rest)
      (reads_renderMemberLines (depth + 1) rest)
    rw [bytes]
    exact .mark rfl (.lineStart _ ((Reads.quote key).append (stops_of_mark rfl)
      (.mark rfl (.blank rfl
        (inside.append (stops_lineStart _ _) (.lineStart _ (.mark rfl reads_nil)))))))

theorem reads_renderItemLines (depth : Nat) :
    (items : List Json) → Reads (renderItemLines depth items).toUTF8.toList (itemTokens items)
  | [] => reads_renderItems []
  | item :: rest => by
    have bytes : (renderItemLines depth (item :: rest)).toUTF8.toList =
        0x2C :: ((lineStart depth).toUTF8.toList ++ ((item.renderLines depth).toUTF8.toList ++
          (renderItemLines depth rest).toUTF8.toList)) := by
      simp only [renderItemLines, toUTF8_append, List.append_assoc]
      rw [toUTF8_toList ","]
      rfl
    rw [bytes]
    exact .mark rfl (.lineStart _ ((reads_renderLines depth item).append
      (stops_renderItemLines _ rest) (reads_renderItemLines depth rest)))

theorem reads_renderMemberLines (depth : Nat) :
    (members : List (String × Json)) →
      Reads (renderMemberLines depth members).toUTF8.toList (memberTokens members)
  | [] => reads_renderMembers []
  | (key, value) :: rest => by
    have bytes : (renderMemberLines depth ((key, value) :: rest)).toUTF8.toList =
        0x2C :: ((lineStart depth).toUTF8.toList ++ ((quote key).toUTF8.toList ++
          0x3A :: 0x20 :: ((value.renderLines depth).toUTF8.toList ++
            (renderMemberLines depth rest).toUTF8.toList))) := by
      simp only [renderMemberLines, toUTF8_append, List.append_assoc]
      rw [toUTF8_toList ",", toUTF8_toList ": "]
      rfl
    rw [bytes]
    exact .mark rfl (.lineStart _ ((Reads.quote key).append (stops_of_mark rfl) (.mark rfl
      (.blank rfl ((reads_renderLines depth value).append (stops_renderMemberLines _ rest)
        (reads_renderMemberLines depth rest))))))
end

theorem tokens_pretty (j : Json) : tokens j.pretty.toUTF8.toList = j.tokensOf := by
  have whole := reads_renderLines 0 j [] (by rintro b ⟨⟩)
  rwa [List.append_nil, show tokens [] = [] from rfl, List.append_nil] at whole

mutual
/-- The tree that a value is read as. -/
def raw : Json → Raw
  | .null => .null
  | .bool value => .bool value
  | .number n =>
    match n.token with
    | .number value => .number value
    | _ => .null
  | .string text => .string (some text)
  | .array items => .array (rawItems items)
  | .object members => .object (rawMembers members)

def rawItems : List Json → List Raw
  | [] => []
  | item :: rest => item.raw :: rawItems rest

def rawMembers : List (String × Json) → List (Option String × Raw)
  | [] => []
  | (key, value) :: rest => (some key, value.raw) :: rawMembers rest
end

/-- The first item of an array is read like any value. -/
theorem run_firstItem (j : Json) (outer : List Frame) (rest : List Token) :
    (Building.expectItem outer).run (j.tokensOf ++ rest) =
      (Building.expectValue (.items [] :: outer)).run (j.tokensOf ++ rest) := by
  cases j with
  | number n =>
    rw [tokensOf]
    obtain ⟨value, token⟩ | token := n.reads.1
    · rw [token]
      rfl
    · rw [token]
      rfl
  | array items => cases items <;> rfl
  | object members => cases members <;> rfl
  | _ => rfl

mutual
/-- The tokens of a value build its tree. -/
theorem run_tokensOf : (j : Json) → (outer : List Frame) → (rest : List Token) →
    (Building.expectValue outer).run (j.tokensOf ++ rest) =
      (Building.complete j.raw outer).run rest
  | .null, _, _ | .bool _, _, _ | .string _, _, _ => rfl
  | .number n, outer, rest => by
    rw [tokensOf, raw]
    obtain ⟨value, token⟩ | token := n.reads.1
    · rw [token]
      rfl
    · rw [token]
      rfl
  | .array [], _, _ | .object [], _, _ => rfl
  | .array (item :: items), outer, rest => by
    have opened : (Building.expectValue outer).run ((Json.array (item :: items)).tokensOf ++ rest) =
        (Building.expectItem outer).run
          (item.tokensOf ++ (itemTokens items ++ .closeArray :: rest)) := by
      rw [tokensOf, List.cons_append, List.append_assoc, List.append_assoc]
      rfl
    rw [opened, run_firstItem, run_tokensOf item, run_itemTokens items]
    rfl
  | .object ((key, value) :: members), outer, rest => by
    have opened : (Building.expectValue outer).run
          ((Json.object ((key, value) :: members)).tokensOf ++ rest) =
        (Building.expectValue (.members [] (some key) :: outer)).run
          (value.tokensOf ++ (memberTokens members ++ .closeObject :: rest)) := by
      simp only [tokensOf, List.cons_append, List.append_assoc]
      rfl
    rw [opened, run_tokensOf value, run_memberTokens members]
    rfl

theorem run_itemTokens : (items : List Json) → (done : List Raw) → (value : Raw) →
    (outer : List Frame) → (rest : List Token) →
    (Building.complete value (.items done :: outer)).run (itemTokens items ++ .closeArray :: rest) =
      (Building.complete (.array (done.reverse ++ value :: rawItems items)) outer).run rest
  | [], done, value, outer, rest => by
    rw [rawItems, ← List.reverse_cons]
    rfl
  | item :: items, done, value, outer, rest => by
    have next : (Building.complete value (.items done :: outer)).run
          (itemTokens (item :: items) ++ .closeArray :: rest) =
        (Building.expectValue (.items (value :: done) :: outer)).run
          (item.tokensOf ++ (itemTokens items ++ .closeArray :: rest)) := by
      rw [itemTokens, List.cons_append, List.append_assoc]
      rfl
    rw [next, run_tokensOf item, run_itemTokens items, rawItems, List.reverse_cons,
      List.append_assoc]
    rfl

theorem run_memberTokens : (members : List (String × Json)) →
    (done : List (Option String × Raw)) → (key : Option String) → (value : Raw) →
    (outer : List Frame) → (rest : List Token) →
    (Building.complete value (.members done key :: outer)).run
        (memberTokens members ++ .closeObject :: rest) =
      (Building.complete (.object (done.reverse ++ (key, value) :: rawMembers members)) outer).run
        rest
  | [], done, key, value, outer, rest => by
    rw [rawMembers, ← List.reverse_cons]
    rfl
  | (name, item) :: members, done, key, value, outer, rest => by
    have next : (Building.complete value (.members done key :: outer)).run
          (memberTokens ((name, item) :: members) ++ .closeObject :: rest) =
        (Building.expectValue (.members ((key, value) :: done) (some name) :: outer)).run
          (item.tokensOf ++ (memberTokens members ++ .closeObject :: rest)) := by
      simp only [memberTokens, List.cons_append, List.append_assoc]
      rfl
    rw [next, run_tokensOf item, run_memberTokens members, rawMembers, List.reverse_cons,
      List.append_assoc]
    rfl
end

/-- A text with the tokens of a value is read as its tree. -/
theorem ofBytes?_of_tokens {bytes : List UInt8} {j : Json} (same : tokens bytes = j.tokensOf) :
    Raw.ofBytes? bytes = some j.raw := by
  have built := run_tokensOf j [] []
  rw [List.append_nil] at built
  rw [Raw.ofBytes?, same, built]
  rfl

theorem Raw.ofString?_render (j : Json) : Raw.ofString? j.render = some j.raw :=
  ofBytes?_of_tokens (tokens_render j)

/-- What is printed is read as what its tree is read as. -/
theorem ofString?_render (j : Json) : ofString? j.render = j.raw.toJson? :=
  ofString?_of_raw (Raw.ofString?_render j)

end Headroom.Json
