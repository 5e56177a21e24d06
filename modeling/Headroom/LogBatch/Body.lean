import Headroom.LogBatch.Envelope

/-!
A log batch as the body of a request: the delivery at the front of a text, whatever
follows it. Reading stops at the first fault and says of which kind it is: the text
is no JSON so far, or it is, but not of a delivery.
-/
namespace Headroom.LogBatch.Body

open Json (Token Building)

inductive Fault where
  /-- The text stops being JSON here, or ends too early. -/
  | malformed
  /-- A value is not what a delivery has at this place. -/
  | misshapen
  deriving DecidableEq, Repr

/-- The fault of a value of another shape that begins here. An array or an object is
refused at its bracket; any other value must be well formed to be refused as such. -/
def faultAt : List Token → Fault
  | .null :: _ | .bool _ :: _ | .openArray :: _ | .openObject :: _ => .misshapen
  | .number n :: _ => if n.toNumber?.isSome then .misshapen else .malformed
  | .string (some _) :: _ => .misshapen
  | _ => .malformed

def readText : List Token → Except Fault (String × List Token)
  | .string (some text) :: rest => .ok (text, rest)
  | tokens => .error (faultAt tokens)

/-- Go past a value, which may be anything. -/
def skipFrom : Building → List Token → Except Fault (List Token)
  | .complete _ [], rest => .ok rest
  | _, [] => .error .malformed
  | state, token :: rest =>
    match state.step token with
    | some next => skipFrom next rest
    | none => .error .malformed

def skip (tokens : List Token) : Except Fault (List Token) := skipFrom (.expectValue []) tokens

/-- Go past a token that must come next. -/
def expect (token : Token) : List Token → Except Fault (List Token)
  | next :: rest => if next = token then .ok rest else .error .malformed
  | [] => .error .malformed

def lookUp (name : String) : Except Fault Encoding :=
  match Encoding.spellings.lookup name with
  | some encoding => .ok encoding
  | none => .error .misshapen

/-- An encoding: its name, or an object of its name and null. Whatever begins neither
is malformed here. -/
def readEncoding : List Token → Except Fault (Encoding × List Token)
  | .string (some name) :: rest => do return (← lookUp name, rest)
  | .openObject :: .string (some name) :: rest => do
    let encoding ← lookUp name
    match ← expect .colon rest with
    | .null :: rest => return (encoding, ← expect .closeObject rest)
    | tokens => throw (faultAt tokens)
  | .openObject :: tokens => .error (faultAt tokens)
  | _ => .error .malformed

/-- What is known of a delivery so far. -/
structure Draft where
  encoding : Option Encoding := none
  payload : Option String := none
  deriving DecidableEq, Repr

/-- The delivery, if its payload is known. -/
def Draft.delivery (d : Draft) : Except Fault Delivery :=
  match d.payload with
  | some payload => .ok { encoding := d.encoding.getD .gzipBase64, payload }
  | none => .error .misshapen

/-- Read the value of a member; a known member may come once. -/
def Draft.readMember (d : Draft) (key : String) (rest : List Token) :
    Except Fault (Draft × List Token) :=
  match key with
  | "encoding" =>
    if d.encoding.isSome then .error .misshapen
    else do
      let (encoding, rest) ← readEncoding (← expect .colon rest)
      return ({ d with encoding := some encoding }, rest)
  | "payload" =>
    if d.payload.isSome then .error .misshapen
    else do
      let (payload, rest) ← readText (← expect .colon rest)
      return ({ d with payload := some payload }, rest)
  | _ => do return (d, ← skip (← expect .colon rest))

/-- Read members from a key on, up to the end of the object. -/
def Draft.readMembers (d : Draft) : (fuel : Nat) → List Token → Except Fault Delivery
  | fuel + 1, .string (some key) :: rest => do
    let (d, rest) ← d.readMember key rest
    match rest with
    | .comma :: rest => d.readMembers fuel rest
    | .closeObject :: _ => d.delivery
    | _ => throw .malformed
  | _, _ => .error .malformed

/-- Read the items of an array: the encoding, then the payload. -/
def readItems : List Token → Except Fault Delivery
  | .closeArray :: _ => .error .misshapen
  | tokens => do
    let (encoding, rest) ← readEncoding tokens
    match rest with
    | .closeArray :: _ => throw .misshapen
    | .comma :: .closeArray :: _ => throw .malformed
    | .comma :: rest =>
      let (payload, rest) ← readText rest
      let _ ← expect .closeArray rest
      return { encoding, payload }
    | _ => throw .malformed

/-- Read a delivery from the front of the tokens. -/
def ofTokens : List Token → Except Fault Delivery
  | .openObject :: .closeObject :: _ => .error .misshapen
  | .openObject :: rest => ({} : Draft).readMembers rest.length rest
  | .openArray :: rest => readItems rest
  | tokens => .error (faultAt tokens)

/-- Read the delivery at the front of a body. -/
def read (body : List UInt8) : Except Fault Delivery := ofTokens (Json.tokens body)

end Headroom.LogBatch.Body
