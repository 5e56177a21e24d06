import Headroom.Configuration.Value

/-!
Settings files in YAML, as far as settings use it: block mappings and sequences,
flow collections on one line, plain and quoted scalars on one line, comments, and
one document. Anchors, tags, block scalars and scalars over several lines are
refused.
-/
namespace Headroom.Configuration.Yaml

def isBlank (c : Char) : Bool := c == ' ' || c == '\t'

def skipBlanks (text : List Char) : List Char := text.dropWhile isBlank

/-- A text without the blanks at its end. -/
def dropTrailing (text : List Char) : List Char := (text.reverse.dropWhile isBlank).reverse

/-- Whether nothing follows on the line but a comment. -/
def endsLine (text : List Char) : Bool :=
  match text with
  | [] => true
  | c :: _ =>
    match skipBlanks text with
    | [] => true
    | '#' :: _ => isBlank c
    | _ => false

/-- The value of digits in a base, within 63 bits. -/
def based? (base : Nat) (digits : List Char) : Option Int :=
  let digit? (c : Char) : Option Nat :=
    (if '0' ≤ c ∧ c ≤ '9' then some (c.toNat - 48)
    else if 'a' ≤ c.toLower ∧ c.toLower ≤ 'f' then some (c.toLower.toNat - 87)
    else none).filter (· < base)
  match digits.mapM digit? with
  | none | some [] => none
  | some digits =>
    let value := digits.foldl (fun value digit => value * base + digit) 0
    if value < Nat.pow 2 63 then some value else none

/-- What a plain scalar stands for. The words for infinity and for no number that
begin with a point make the document unreadable. -/
def plain? (text : List Char) : Option Value :=
  let whole : Option Int :=
    match text with
    | '0' :: 'x' :: digits => based? 16 digits
    | '0' :: 'o' :: digits => based? 8 digits
    | _ => Value.readInteger? (-Nat.pow 2 63) (Nat.pow 2 63) (String.ofList text)
  match whole with
  | some value => some (.integer value)
  | none =>
    match String.ofList text with
    | "" | "~" | "null" => some .nothing
    | "true" => some (.bool true)
    | "false" => some (.bool false)
    | ".inf" | ".Inf" | ".INF" | "+.inf" | "+.Inf" | "+.INF" | "-.inf" | "-.Inf" | "-.INF"
    | ".nan" | ".NAN" => none
    | word =>
      match Decimal.readFloat? word with
      | some value => some (.float value)
      | none => some (.text word)

/-- Whether a plain scalar may begin so. -/
def beginsPlain : List Char → Bool
  | [] => false
  | c :: rest =>
    if c ∈ ['-', '?', ':'] then rest.head?.any fun next => !isBlank next
    else c ∉ [',', '[', ']', '\x7b', '\x7d', '#', '&', '*', '!', '|', '>', '\x27', '\x22', '%',
      '@', '\x60']

/-- The characters of a code point of so many hexadecimal digits, and the rest. -/
def codePoint? (width : Nat) (text : List Char) : Option (Char × List Char) :=
  if text.length < width then none
  else
    match based? 16 (text.take width) with
    | some point =>
      if point.toNat.isValidChar then some (Char.ofNat point.toNat, text.drop width) else none
    | none => none

/-- What follows a backslash in double quotes: the character it stands for. -/
def escape? : List Char → Option (Char × List Char)
  | 'x' :: rest => codePoint? 2 rest
  | 'u' :: rest => codePoint? 4 rest
  | 'U' :: rest => codePoint? 8 rest
  | c :: rest =>
    let known : List (Char × Nat) :=
      [('0', 0), ('a', 7), ('b', 8), ('t', 9), ('\t', 9), ('n', 10), ('v', 11), ('f', 12),
        ('r', 13), ('e', 27), (' ', 32), ('\x22', 34), ('/', 47), ('\x5c', 92), ('N', 0x85),
        ('_', 0xA0), ('L', 0x2028), ('P', 0x2029)]
    (known.lookup c).map fun point => (Char.ofNat point, rest)
  | [] => none

/-- The inside of double quotes. -/
def doubleQuoted : (fuel : Nat) → (done : List Char) → List Char → Option (String × List Char)
  | fuel + 1, done, c :: rest =>
    if c = '\x22' then some (String.ofList done.reverse, rest)
    else if c = '\x5c' then (escape? rest).bind fun (c, rest) => doubleQuoted fuel (c :: done) rest
    else doubleQuoted fuel (c :: done) rest
  | _, _, _ => none

/-- The inside of single quotes, where a quote is written twice. -/
def singleQuoted (done : List Char) : List Char → Option (String × List Char)
  | '\x27' :: '\x27' :: rest => singleQuoted ('\x27' :: done) rest
  | '\x27' :: rest => some (String.ofList done.reverse, rest)
  | c :: rest => singleQuoted (c :: done) rest
  | [] => none

/-- A quoted scalar, if the text begins with one. -/
def quoted? : List Char → Option (String × List Char)
  | '\x22' :: rest => doubleQuoted (rest.length + 1) [] rest
  | '\x27' :: rest => singleQuoted [] rest
  | _ => none

/-- The plain scalar at the front of a text, up to a colon or a comment, and inside
a flow collection up to its punctuation too. -/
def takePlain (inFlow : Bool) (done : List Char) : List Char → List Char × List Char
  | [] => (dropTrailing done.reverse, [])
  | c :: rest =>
    let stops :=
      (c == ':' && (rest.head?.all fun next => isBlank next || (inFlow && next == ','))) ||
      (c == '#' && done.head?.any isBlank) ||
      (inFlow && c ∈ [',', '[', ']', '\x7b', '\x7d'])
    if stops then (dropTrailing done.reverse, c :: rest) else takePlain inFlow (c :: done) rest

/-- The key that a scalar makes: a text, or a whole number. -/
def key? (text : List Char) : Option String :=
  match plain? text with
  | some (.text key) => some key
  | some (.integer value) => some (toString value)
  | _ => none

/-- A key and what follows its colon. -/
def takeKey (inFlow : Bool) (text : List Char) : Option (String × List Char) :=
  let found : Option (String × List Char) :=
    match quoted? text with
    | some (key, rest) => some (key, skipBlanks rest)
    | none =>
      if beginsPlain text then
        let (scalar, rest) := takePlain inFlow [] text
        (key? scalar).map (·, rest)
      else none
  match found with
  | some (key, ':' :: rest) =>
    if rest.head?.all fun next => isBlank next || (inFlow && next ∈ [',', '\x7d']) then
      some (key, skipBlanks rest)
    else none
  | _ => none

mutual
def readFlow : (fuel : Nat) → List Char → Option (Value × List Char)
  | 0, _ => none
  | fuel + 1, text =>
    match text with
    | '[' :: rest => (readItems fuel (skipBlanks rest)).map fun (items, rest) => (.list items, rest)
    | '\x7b' :: rest =>
      (readMembers fuel [] (skipBlanks rest)).map fun (members, rest) => (.table members, rest)
    | text =>
      match quoted? text with
      | some (value, rest) => some (.text value, rest)
      | none =>
        if beginsPlain text then
          let (scalar, rest) := takePlain true [] text
          (plain? scalar).map (·, rest)
        else none

def readItems : (fuel : Nat) → List Char → Option (List Value × List Char)
  | 0, _ => none
  | _ + 1, ']' :: rest => some ([], rest)
  | fuel + 1, text => do
    let (item, rest) ← readFlow fuel text
    match skipBlanks rest with
    | ']' :: rest => return ([item], rest)
    | ',' :: rest =>
      let (items, rest) ← readItems fuel (skipBlanks rest)
      return (item :: items, rest)
    | _ => none

def readMembers : (fuel : Nat) → (done : List (String × Value)) → List Char →
    Option (List (String × Value) × List Char)
  | 0, _, _ => none
  | _ + 1, done, '\x7d' :: rest => some (done, rest)
  | fuel + 1, done, text => do
    let (key, rest) ← takeKey true text
    let (value, rest) ←
      match rest with
      | ',' :: _ | '\x7d' :: _ => some (Value.nothing, rest)
      | rest => readFlow fuel rest
    let done ← if done.any (·.1 == key) then none else some (done ++ [(key, value)])
    match skipBlanks rest with
    | '\x7d' :: rest => return (done, rest)
    | ',' :: rest => readMembers fuel done (skipBlanks rest)
    | _ => none
end

/-- A value that stands on one line. -/
def inlineValue? (text : List Char) : Option Value :=
  match text with
  | '[' :: _ | '\x7b' :: _ => do
    let (value, rest) ← readFlow (text.length + 1) text
    if endsLine rest then some value else none
  | text =>
    match quoted? text with
    | some (value, rest) => if endsLine rest then some (.text value) else none
    | none =>
      if beginsPlain text then
        let (scalar, rest) := takePlain false [] text
        match rest with
        | ':' :: _ => none
        | _ => plain? scalar
      else none

/-- A line that is neither blank nor a comment, without its indentation. -/
structure Line where
  indent : Nat
  text : List Char
  deriving DecidableEq, Repr

/-- The rest of a sequence item's line, with the depth at which it stands. -/
def item? (line : Line) : Option Line :=
  match line.text with
  | ['-'] => some ⟨line.indent + 1, []⟩
  | '-' :: c :: rest =>
    if isBlank c then
      let inner := skipBlanks rest
      let width := rest.length - inner.length + 2
      some ⟨line.indent + width, if endsLine (c :: rest) then [] else inner⟩
    else none
  | _ => none

mutual
/-- The block at the front of the lines, which stands at the depth of its first line. -/
def readBlock : (fuel : Nat) → List Line → Option (Value × List Line)
  | _, [] => none
  | 0, _ => none
  | fuel + 1, line :: rest =>
    if (item? line).isSome then
      (readSequence fuel line.indent (line :: rest)).map fun (items, rest) => (.list items, rest)
    else if (takeKey false line.text).isSome then
      (readMapping fuel line.indent [] (line :: rest)).map fun (members, rest) =>
        (.table members, rest)
    else (inlineValue? line.text).map (·, rest)

/-- The value after a key or a dash whose line is done: a block that stands deeper,
or nothing. -/
def readInner : (fuel : Nat) → (outer : Nat) → List Line → Option (Value × List Line)
  | 0, _, _ => none
  | _ + 1, _, [] => some (.nothing, [])
  | fuel + 1, outer, line :: rest =>
    if outer < line.indent then readBlock fuel (line :: rest) else some (.nothing, line :: rest)

/-- The items of a sequence at a depth. -/
def readSequence : (fuel : Nat) → (depth : Nat) → List Line → Option (List Value × List Line)
  | 0, _, _ => none
  | _ + 1, _, [] => some ([], [])
  | fuel + 1, depth, line :: rest =>
    if line.indent < depth then some ([], line :: rest)
    else if depth < line.indent then none
    else
      match item? line with
      | none => some ([], line :: rest)
      | some inner => do
        let (item, rest) ←
          if inner.text.isEmpty then readInner fuel depth rest
          else readBlock fuel (inner :: rest)
        let (items, rest) ← readSequence fuel depth rest
        return (item :: items, rest)

/-- The members of a mapping at a depth; a sequence under a key may stand at the
same depth as the key. -/
def readMapping : (fuel : Nat) → (depth : Nat) → (done : List (String × Value)) → List Line →
    Option (List (String × Value) × List Line)
  | 0, _, _, _ => none
  | _ + 1, _, done, [] => some (done, [])
  | fuel + 1, depth, done, line :: rest =>
    if line.indent < depth then some (done, line :: rest)
    else if depth < line.indent then none
    else do
      let (key, text) ← takeKey false line.text
      let (value, rest) ←
        if text.isEmpty ∨ text.head? = some '#' then
          match rest with
          | next :: _ =>
            if next.indent = depth ∧ (item? next).isSome then
              (readSequence fuel depth rest).map fun (items, rest) => (Value.list items, rest)
            else readInner fuel depth rest
          | [] => some (.nothing, [])
        else (inlineValue? text).map (·, rest)
      if done.any (·.1 == key) then none
      else readMapping fuel depth (done ++ [(key, value)]) rest
end

/-- A line with its depth; a tab may not stand in the indentation. -/
def line? (text : List Char) : Option Line :=
  let inner := text.dropWhile (· == ' ')
  if inner.head? = some '\t' then none
  else some ⟨text.length - inner.length, dropTrailing inner⟩

/-- The lines of the one document in a text. A line of three dashes may begin it
and a line of three points may end it. -/
def documentLines? (text : String) : Option (List Line) := do
  let lines := ((text.replace "\r\n" "\n").splitOn "\n").map String.toList
  let lines := lines.filter fun line => !endsLine (' ' :: line)
  let lines ← lines.mapM line?
  let isMarker (mark : Char) (line : Line) : Bool :=
    line.indent == 0 && line.text == [mark, mark, mark]
  let lines :=
    match lines with
    | first :: rest => if isMarker '-' first then rest else first :: rest
    | [] => []
  let lines :=
    match lines.getLast? with
    | some last => if isMarker '.' last then lines.dropLast else lines
    | none => []
  if lines.any fun line => isMarker '-' line || isMarker '.' line then none else some lines

/-- The value that a document holds; an empty one holds an empty table. -/
def read? (document : String) : Option Value := do
  match ← documentLines? document with
  | [] => return .table []
  | lines =>
    let size := (lines.map fun line => line.text.length + 2).foldl (· + ·) 0
    match ← readBlock (4 * size) lines with
    | (value, []) => return value
    | _ => none

end Headroom.Configuration.Yaml
