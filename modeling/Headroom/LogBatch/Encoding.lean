import Headroom.Codec.Base64
import Headroom.Codec.Gzip
import Headroom.Error
import Headroom.Json.Members

/-!
How the payload of a log batch is encoded for transport, and undoing it.
-/
namespace Headroom.LogBatch

inductive Encoding where
  /-- Base64 text of gzip bytes, as log subscriptions deliver them. -/
  | gzipBase64
  | gzip
  | identity
  deriving DecidableEq, Repr, Inhabited

namespace Encoding

def name : Encoding → String
  | gzipBase64 => "gzip+base64"
  | gzip => "gzip"
  | identity => "identity"

/-- All spellings; one encoding has two. -/
def spellings : List (String × Encoding) :=
  [("gzip+base64", gzipBase64), ("gzip-base64", gzipBase64), ("gzip", gzip), ("identity", identity)]

def ofName (text : String) : Except Error Encoding :=
  match spellings.lookup text with
  | some encoding => .ok encoding
  | none => .error (.validation ("unknown payload encoding '" ++ text ++ "'"))

def read : Json.Reader Encoding := .choice spellings

end Encoding

/-- The ASCII blanks around base64 text. -/
def isSpace (b : UInt8) : Bool := b == 0x20 || b == 0x09 || b == 0x0A || b == 0x0C || b == 0x0D

/-- A byte string without the blanks at its two ends. -/
def trim (bytes : List UInt8) : List UInt8 :=
  ((bytes.dropWhile isSpace).reverse.dropWhile isSpace).reverse

/-- Why a payload is not decoded. -/
inductive Failure where
  | refused (error : Error)
  /-- A count overflows: whoever asked for the payload breaks off, and answers nothing. -/
  | overflow
  deriving DecidableEq, Repr

/-- Unpack gzip bytes, up to a limit on what they unpack to. -/
def gunzip (limit : Option Nat) (bytes : List UInt8) : Except Failure (List UInt8) :=
  match Codec.Gzip.unpack limit bytes with
  | .ok content => .ok content
  | .error .invalid => .error (.refused (.decode "invalid gzip stream: malformed content"))
  | .error .tooLong =>
    .error (.refused
      (.decode ("decompressed payload exceeds " ++ toString (limit.getD 0) ++ " bytes")))
  | .error .overflow => .error .overflow

/-- The content of a payload. The limit does not bear on plain content. -/
def unpack (limit : Option Nat) (encoding : Encoding) (payload : List UInt8) :
    Except Failure (List UInt8) :=
  match encoding with
  | .gzipBase64 =>
    match Codec.Base64.decode? (trim payload) with
    | some bytes => gunzip limit bytes
    | none => .error (.refused (.decode "invalid base64: malformed text"))
  | .gzip => gunzip limit payload
  | .identity => .ok payload

/-- Encode content for transport. -/
def pack (encoding : Encoding) (content : List UInt8) : List UInt8 :=
  match encoding with
  | .gzipBase64 => Codec.Base64.encode (Codec.Gzip.pack content)
  | .gzip => Codec.Gzip.pack content
  | .identity => content

end Headroom.LogBatch
