import Headroom.Configuration.Value

/-!
Settings files in TOML: tables under headers, dotted keys, arrays, inline tables,
the four kinds of strings, whole numbers in four bases, other numbers and truth
values. Dates are not among the values. A key may be set once, and a table may be
opened once.
-/
namespace Headroom.Configuration.Toml

def isBlank (c : Char) : Bool := c == ' ' || c == '\t'

def skipBlanks (text : List Char) : List Char := text.dropWhile isBlank

/-- Control characters, which stand in no comment and no string; a tab may. -/
def isControl (c : Char) : Bool := (c.toNat < 0x20 && c != '\t') || c.toNat == 0x7F

/-- Skip a comment, up to the end of its line. -/
def skipComment : List Char → Option (List Char)
  | '#' :: rest =>
    let comment := rest.takeWhile (· != '\n')
    if comment.any isControl then none else some (rest.dropWhile (· != '\n'))
  | rest => some rest

/-- The end of a line: blanks, a comment, and the line feed or the end of the text. -/
def endLine (text : List Char) : Option (List Char) := do
  match ← skipComment (skipBlanks text) with
  | [] => some []
  | '\n' :: rest => some rest
  | _ => none

/-- Skip blanks, comments and line feeds. -/
def skipGaps : (fuel : Nat) → List Char → Option (List Char)
  | 0, text => some text
  | fuel + 1, text => do
    match ← skipComment (skipBlanks text) with
    | '\n' :: rest => skipGaps fuel rest
    | rest => some rest

/-- The character of a code point written in hexadecimal digits. -/
def codePoint? (digits : List Char) : Option Char := do
  let point ← digits.foldlM (fun point c => do
    let digit ←
      if '0' ≤ c ∧ c ≤ '9' then some (c.toNat - 48)
      else if 'a' ≤ c ∧ c ≤ 'f' then some (c.toNat - 87)
      else if 'A' ≤ c ∧ c ≤ 'F' then some (c.toNat - 55)
      else none
    return point * 16 + digit) 0
  if point.isValidChar then some (Char.ofNat point) else none

/-- What follows a backslash: the character it stands for. -/
def escape? : List Char → Option (Char × List Char)
  | 'b' :: rest => some ('\x08', rest)
  | 't' :: rest => some ('\t', rest)
  | 'n' :: rest => some ('\n', rest)
  | 'f' :: rest => some ('\x0c', rest)
  | 'r' :: rest => some ('\r', rest)
  | '\x22' :: rest => some ('\x22', rest)
  | '\x5c' :: rest => some ('\x5c', rest)
  | 'u' :: rest =>
    if 4 ≤ rest.length then (codePoint? (rest.take 4)).map (·, rest.drop 4) else none
  | 'U' :: rest =>
    if 8 ≤ rest.length then (codePoint? (rest.take 8)).map (·, rest.drop 8) else none
  | _ => none

/-- The inside of a string on one line, up to its closing quote. -/
def readQuoted (quote : Char) (fuel : Nat) (done : List Char) (text : List Char) :
    Option (String × List Char) :=
  match fuel, text with
  | fuel + 1, c :: rest =>
    if c = quote then some (String.ofList done.reverse, rest)
    else if c = '\x5c' ∧ quote = '\x22' then
      (escape? rest).bind fun (c, rest) => readQuoted quote fuel (c :: done) rest
    else if isControl c then none
    else readQuoted quote fuel (c :: done) rest
  | _, _ => none

/-- The blanks and line feeds after a backslash that ends a line. -/
def skipFold (text : List Char) : Option (List Char) :=
  match skipBlanks text with
  | '\n' :: rest => some (rest.dropWhile fun c => isBlank c || c == '\n')
  | _ => none

/-- The inside of a string over several lines, up to three quotes; one or two more
quotes right before them belong to the string. -/
def readLong (quote : Char) (fuel : Nat) (done : List Char) (text : List Char) :
    Option (String × List Char) :=
  match fuel, text with
  | fuel + 1, c :: rest =>
    if c = quote then
      let quotes := (c :: rest).takeWhile (· == quote)
      if 3 ≤ quotes.length then
        if quotes.length ≤ 5 then
          some (String.ofList (done.reverse ++ quotes.drop 3), (c :: rest).drop quotes.length)
        else none
      else readLong quote fuel (quotes ++ done) ((c :: rest).drop quotes.length)
    else if c = '\x5c' ∧ quote = '\x22' then
      match skipFold rest with
      | some rest => readLong quote fuel done rest
      | none => (escape? rest).bind fun (c, rest) => readLong quote fuel (c :: done) rest
    else if isControl c ∧ c ≠ '\n' then none
    else readLong quote fuel (c :: done) rest
  | _, _ => none

/-- A string of any kind, from its opening quote. -/
def readString (quote : Char) (rest : List Char) : Option (String × List Char) :=
  match rest with
  | a :: b :: rest =>
    if a = quote ∧ b = quote then
      let inside :=
        match rest with
        | '\n' :: rest => rest
        | rest => rest
      readLong quote (inside.length + 1) [] inside
    else readQuoted quote (rest.length + 3) [] (a :: b :: rest)
  | rest => readQuoted quote (rest.length + 1) [] rest

/-- Digits with underscores only between them. -/
def plainDigits? (isDigit : Char → Bool) (text : List Char) : Option (List Char) :=
  let parts := (String.ofList text).splitOn "_"
  if parts.all fun part => !part.isEmpty && part.all isDigit then
    some (text.filter (· != '_'))
  else none

def isDecimal (c : Char) : Bool := '0' ≤ c && c ≤ '9'

/-- A whole number in a base, from its digits. -/
def basedInteger? (base : Nat) (digits : List Char) : Option Value := do
  let valueOf (c : Char) : Nat :=
    if isDecimal c then c.toNat - 48 else (c.toLower.toNat - 97) + 10
  let isDigit (c : Char) : Bool := (isDecimal c || ('a' ≤ c.toLower && c.toLower ≤ 'f')) &&
    valueOf c < base
  let digits ← plainDigits? isDigit digits
  let value := digits.foldl (fun value c => value * base + valueOf c) 0
  if value < Nat.pow 2 63 then some (.integer value) else none

/-- Decimal digits without a needless leading zero. -/
def wholePart? (text : List Char) : Option (List Char) :=
  match plainDigits? isDecimal text with
  | some ('0' :: _ :: _) => none
  | other => other

/-- A number with a sign already taken. -/
def unsignedNumber? (negative : Bool) (text : List Char) : Option Value :=
  let sign (digits : List Char) : String := (if negative then "-" else "") ++ String.ofList digits
  match text with
  | ['i', 'n', 'f'] | ['n', 'a', 'n'] => (Decimal.readFloat? (sign text)).map .float
  | _ =>
    let (whole, rest) := (text.span fun c => isDecimal c || c == '_')
    match wholePart? whole, rest with
    | some whole, [] =>
      (Value.readInteger? (-Nat.pow 2 63) (Nat.pow 2 63) (sign whole)).map .integer
    | some whole, rest => do
      let (fraction, rest) ←
        match rest with
        | '.' :: rest =>
          let (fraction, rest) := rest.span fun c => isDecimal c || c == '_'
          (plainDigits? isDecimal fraction).map fun digits => ('.' :: digits, rest)
        | rest => some ([], rest)
      let exponent ←
        match rest with
        | [] => some []
        | c :: rest =>
          if c = 'e' ∨ c = 'E' then
            let (minus, digits) := Decimal.takeSign rest
            (plainDigits? isDecimal digits).map fun digits =>
              'e' :: (if minus then ['-'] else []) ++ digits
          else none
      (Decimal.readFloat? (sign (whole ++ fraction ++ exponent))).map .float
    | none, _ => none

/-- A value written as a word. -/
def word? (text : List Char) : Option Value :=
  match text with
  | ['t', 'r', 'u', 'e'] => some (.bool true)
  | ['f', 'a', 'l', 's', 'e'] => some (.bool false)
  | '0' :: 'x' :: digits => basedInteger? 16 digits
  | '0' :: 'o' :: digits => basedInteger? 8 digits
  | '0' :: 'b' :: digits => basedInteger? 2 digits
  | text =>
    let (negative, digits) := Decimal.takeSign text
    unsignedNumber? negative digits

def isWordChar (c : Char) : Bool := c.isAlphanum || c == '_' || c == '+' || c == '-' || c == '.'

def isBareChar (c : Char) : Bool := c.isAlphanum || c == '_' || c == '-'

/-- One part of a key: bare, or a quoted string on one line. -/
def readPart : List Char → Option (String × List Char)
  | '\x22' :: rest => readQuoted '\x22' (rest.length + 1) [] rest
  | '\x27' :: rest => readQuoted '\x27' (rest.length + 1) [] rest
  | text =>
    let (part, rest) := text.span isBareChar
    if part.isEmpty then none else some (String.ofList part, rest)

/-- A key of parts between points, with the blanks around them. -/
def readKey : (fuel : Nat) → List Char → Option (List String × List Char)
  | 0, _ => none
  | fuel + 1, text => do
    let (part, rest) ← readPart (skipBlanks text)
    match skipBlanks rest with
    | '.' :: rest =>
      let (parts, rest) ← readKey fuel rest
      return (part :: parts, rest)
    | rest => return ([part], rest)

/-- How a table came to be. -/
inductive Origin where
  /-- On the way to the table of a header. -/
  | passed
  | header
  /-- By a dotted key. -/
  | dotted
  deriving DecidableEq, Repr

/-- What stands under a key: a value, a table that may still grow, or an array of
tables of which the last may grow. -/
inductive Node where
  | leaf (value : Value)
  | table (origin : Origin) (members : List (String × Node))
  | tables (earlier : List (List (String × Node))) (last : List (String × Node))
  deriving Repr, Inhabited

abbrev Members := List (String × Node)

/-- Put a node under a key, in the place of an earlier one. -/
def Members.set (members : Members) (key : String) (node : Node) : Members :=
  if members.any (·.1 == key) then
    members.map fun member => if member.1 == key then (key, node) else member
  else members ++ [(key, node)]

/-- Change the table at the end of a path. Tables that are missing on the way come
to be as `origin` says, and dotted keys may not lead through the table of a header. -/
def Members.change (origin : Origin) (path : List String) (f : Members → Option Members)
    (members : Members) : Option Members :=
  match path with
  | [] => f members
  | key :: path => do
    let node ←
      match members.lookup key with
      | none => (change origin path f []).map (Node.table origin)
      | some (.table other inner) =>
        if origin = .dotted ∧ other = .header then none
        else if origin = .dotted ∧ path.isEmpty ∧ other ≠ .dotted then none
        else (change origin path f inner).map (Node.table other)
      | some (.tables earlier last) =>
        if origin = .dotted ∧ path.isEmpty then none
        else (change origin path f last).map (Node.tables earlier)
      | some (.leaf _) => none
    return Members.set members key node

/-- Set a key that is not set. -/
def Members.insert (path : List String) (value : Value) (members : Members) : Option Members :=
  Members.change .dotted path.dropLast (fun inner =>
    match path.getLast? with
    | some key => if inner.any (·.1 == key) then none else some (inner ++ [(key, .leaf value)])
    | none => none) members

/-- Open the table of a header. -/
def Members.openTable (path : List String) (members : Members) : Option Members :=
  Members.change .passed path.dropLast (fun inner => do
    let key ← path.getLast?
    match inner.lookup key with
    | none => return inner ++ [(key, .table .header [])]
    | some (.table .passed nested) => return Members.set inner key (.table .header nested)
    | some _ => none) members

/-- Begin the next table of an array of tables. -/
def Members.openNext (path : List String) (members : Members) : Option Members :=
  Members.change .passed path.dropLast (fun inner => do
    let key ← path.getLast?
    match inner.lookup key with
    | none => return inner ++ [(key, .tables [] [])]
    | some (.tables earlier last) =>
      return Members.set inner key (.tables (earlier ++ [last]) [])
    | some _ => none) members

/-- Set a key in the table of the latest header. -/
def Members.insertUnder (header path : List String) (value : Value) (members : Members) :
    Option Members :=
  Members.change .passed header (Members.insert path value) members

mutual
def Node.value : Node → Value
  | .leaf value => value
  | .table _ members => .table (memberValues members)
  | .tables earlier last => .list (tableValues earlier ++ [.table (memberValues last)])

def memberValues : List (String × Node) → List (String × Value)
  | [] => []
  | (key, node) :: rest => (key, node.value) :: memberValues rest

def tableValues : List (List (String × Node)) → List Value
  | [] => []
  | members :: rest => .table (memberValues members) :: tableValues rest
end

mutual
def readValue : (fuel : Nat) → List Char → Option (Value × List Char)
  | 0, _ => none
  | fuel + 1, text =>
    match text with
    | '\x22' :: rest => (readString '\x22' rest).map fun (s, rest) => (.text s, rest)
    | '\x27' :: rest => (readString '\x27' rest).map fun (s, rest) => (.text s, rest)
    | '[' :: rest => (readItems fuel rest).map fun (items, rest) => (.list items, rest)
    | '\x7b' :: rest => (readInline fuel true [] rest).map fun (members, rest) =>
        (.table (memberValues members), rest)
    | text =>
      let (word, rest) := text.span isWordChar
      (word? word).map (·, rest)

/-- The items of an array, after its opening bracket or a comma. -/
def readItems : (fuel : Nat) → List Char → Option (List Value × List Char)
  | 0, _ => none
  | fuel + 1, text => do
    match ← skipGaps text.length text with
    | ']' :: rest => return ([], rest)
    | rest =>
      let (item, rest) ← readValue fuel rest
      match ← skipGaps rest.length rest with
      | ']' :: rest => return ([item], rest)
      | ',' :: rest =>
        let (items, rest) ← readItems fuel rest
        return (item :: items, rest)
      | _ => none

/-- The members of an inline table, which ends without a comma on the same line. -/
def readInline : (fuel : Nat) → (first : Bool) → Members → List Char →
    Option (Members × List Char)
  | 0, _, _, _ => none
  | fuel + 1, first, members, text => do
    match skipBlanks text with
    | '\x7d' :: rest => if first then return (members, rest) else none
    | rest =>
      let (path, rest) ← readKey rest.length rest
      match rest with
      | '=' :: rest =>
        let (value, rest) ← readValue fuel (skipBlanks rest)
        let members ← Members.insert path value members
        match skipBlanks rest with
        | '\x7d' :: rest => return (members, rest)
        | ',' :: rest => readInline fuel false members rest
        | _ => none
      | _ => none
end

/-- Read line by line, with the path of the latest header. -/
def readLines : (fuel : Nat) → (header : List String) → Members → List Char → Option Members
  | 0, _, members, text => if text.isEmpty then some members else none
  | fuel + 1, header, members, text => do
    match skipBlanks text with
    | [] => return members
    | '\n' :: rest => readLines fuel header members rest
    | '#' :: rest => readLines fuel header members (← endLine ('#' :: rest))
    | '[' :: '[' :: rest =>
      let (path, rest) ← readKey rest.length rest
      match rest with
      | ']' :: ']' :: rest =>
        readLines fuel path (← Members.openNext path members) (← endLine rest)
      | _ => none
    | '[' :: rest =>
      let (path, rest) ← readKey rest.length rest
      match rest with
      | ']' :: rest => readLines fuel path (← Members.openTable path members) (← endLine rest)
      | _ => none
    | text =>
      let (path, rest) ← readKey text.length text
      match rest with
      | '=' :: rest =>
        let (value, rest) ← readValue (rest.length + 1) (skipBlanks rest)
        readLines fuel header (← Members.insertUnder header path value members) (← endLine rest)
      | _ => none

/-- The table that a document holds. -/
def read? (document : String) : Option (List (String × Value)) :=
  let text := (document.replace "\r\n" "\n").toList
  (readLines (text.length + 1) [] [] text).map memberValues

end Headroom.Configuration.Toml
