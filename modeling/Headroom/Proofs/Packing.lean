import Headroom.Console.Errand
import Headroom.LogBatch.Body
import Headroom.Pipeline
import Headroom.Proofs.Base64
import Headroom.Proofs.Envelopes
import Headroom.Proofs.Gzip

/-!
Packing content for transport loses nothing (`packing_lossless`): packed content is decoded as
the content is, and so the request that delivers a file is decoded as the file would be where
it lies. Nothing here limits what a payload unpacks to, or the size of a body.
-/
namespace Headroom

/-- What a file comes to offline, as what is prepared of its delivery. -/
def Pipeline.ofOffline :
    Except LogBatch.Failure (Option Averages) → Except (Option LogBatch.Outcome) Averages
  | .ok (some averages) => .ok averages
  | .ok none => .error (some .skipped)
  | .error (.refused error) => .error (some (.rejected error))
  | .error .overflow => .error none

namespace LogBatch

theorem plain_of_isLetter {b : UInt8} (letter : Codec.Base64.IsLetter b) :
    b.toNat < 128 ∧ isSpace b = false := by
  cases letter with
  | value n small =>
    have plain : ∀ n < 64, (Codec.Base64.letter n).toNat < 128 ∧
        isSpace (Codec.Base64.letter n) = false := by
      decide
    exact plain n small
  | filler => decide

theorem trim_eq_self {bytes : List UInt8} (plain : ∀ b ∈ bytes, isSpace b = false) :
    trim bytes = bytes := by
  have kept {bytes : List UInt8} (plain : ∀ b ∈ bytes, isSpace b = false) :
      bytes.dropWhile isSpace = bytes := by
    cases bytes with
    | nil => rfl
    | cons b rest => rw [List.dropWhile_cons, plain b List.mem_cons_self, if_neg Bool.false_ne_true]
  have backwards : ∀ b ∈ bytes.reverse, isSpace b = false := fun b member =>
    plain b (List.mem_reverse.mp member)
  rw [trim, kept plain, kept backwards, List.reverse_reverse]

theorem unpack_pack (encoding : Encoding) (content : List UInt8) :
    unpack none encoding (pack encoding content) = .ok content := by
  have gunzipped : gunzip none (Codec.Gzip.pack content) = .ok content := by
    rw [gunzip, Codec.Gzip.unpack_pack]
  cases encoding with
  | gzipBase64 =>
    have trimmed : trim (Codec.Base64.encode (Codec.Gzip.pack content)) = _ :=
      trim_eq_self fun b member =>
        (plain_of_isLetter (Codec.Base64.isLetter_of_mem_encode _ b member)).2
    rw [unpack, pack, trimmed, Codec.Base64.decode?_encode]
    exact gunzipped
  | gzip => exact gunzipped
  | identity => rfl

/-- Packed content is decoded as the content is. -/
theorem decode_pack (encoding : Encoding) (content : List UInt8) :
    decode none encoding (pack encoding content) = decode none .identity content := by
  rw [decode, unpack_pack]
  rfl

/-- The body that a delivery is sent as is read as the delivery. -/
theorem read_toJson (d : Delivery) : Body.read d.toJson.render.toUTF8.toList = .ok d := by
  have known : Body.lookUp d.encoding.name = .ok d.encoding := by
    cases d.encoding <;> rfl
  have encoding (rest : List Json.Token) :
      Body.Draft.readMember {} "encoding" (.colon :: .string (some d.encoding.name) :: rest) =
        .ok ({ encoding := some d.encoding }, rest) := by
    simp [Body.Draft.readMember, Body.expect, Body.readEncoding, known, bind, Except.bind, pure,
      Except.pure]
  have payload (rest : List Json.Token) :
      Body.Draft.readMember { encoding := some d.encoding } "payload"
          (.colon :: .string (some d.payload) :: rest) =
        .ok ({ encoding := some d.encoding, payload := some d.payload }, rest) := by
    simp [Body.Draft.readMember, Body.expect, Body.readText, bind, Except.bind, pure, Except.pure]
  calc Body.read d.toJson.render.toUTF8.toList
      = Body.ofTokens d.toJson.tokensOf := by rw [Body.read, Json.tokens_render]
    _ = Body.Draft.readMembers {} 8
          [.string (some "encoding"), .colon, .string (some d.encoding.name), .comma,
            .string (some "payload"), .colon, .string (some d.payload), .closeObject] := rfl
    _ = .ok d := by
      simp only [Body.Draft.readMembers, encoding, payload, bind, Except.bind]
      rfl

/-- A file is delivered as the text that it is packed to. -/
theorem delivered_text {file : List UInt8} {encoding : Encoding} {d : Delivery}
    (delivered : Console.delivery file encoding = .ok d) :
    d.encoding = encoding ∧
      String.fromUTF8? ⟨(pack encoding file).toArray⟩ = some d.payload := by
  unfold Console.delivery at delivered
  split at delivered
  · cases delivered
  · split at delivered
    · cases delivered
    · split at delivered
      · cases delivered
        exact ⟨rfl, ‹_›⟩
      · cases delivered

/-- A file of JSON can be delivered as base64 text. -/
theorem delivery_gzipBase64 {file : List UInt8} (json : (Json.ofBytes? file).isSome) :
    ∃ d, Console.delivery file .gzipBase64 = .ok d := by
  have ascii : ∀ b ∈ pack .gzipBase64 file, b.toNat < 128 := fun b member =>
    (plain_of_isLetter (Codec.Base64.isLetter_of_mem_encode _ b member)).1
  obtain ⟨payload, read⟩ := Json.fromUTF8?_ascii ascii
  obtain ⟨value, parsed⟩ := Option.isSome_iff_exists.mp json
  simp [Console.delivery, parsed, read]

/-- A file that is delivered is decoded as the file. -/
theorem decode_of_delivery {file : List UInt8} {encoding : Encoding} {d : Delivery}
    (delivered : Console.delivery file encoding = .ok d) :
    d.decode none = decode none .identity file := by
  obtain ⟨same, read⟩ := delivered_text delivered
  rw [Delivery.decode, same, Json.toUTF8_of_fromUTF8? read, decode_pack]

theorem prepare_of_delivery {file : List UInt8} {encoding : Encoding} {d : Delivery}
    (delivered : Console.delivery file encoding = .ok d) {p : Pipeline}
    (unlimited : p.limit = none) :
    p.prepare d = Pipeline.ofOffline (Console.averages? file .identity p.target.container) := by
  rw [Pipeline.prepare, unlimited, decode_of_delivery delivered, Console.averages?]
  cases decode none .identity file with
  | error failure => cases failure <;> rfl
  | ok batch =>
    cases control : batch.control with
    | true => simp [control, bind, Except.bind, pure, Except.pure, Pipeline.ofOffline]
    | false =>
      simp only [control, bind, Except.bind, pure, Except.pure, Bool.false_eq_true, if_false]
      cases Averages.ofRecords p.target.container batch.records with
      | error error => rfl
      | ok averages => rfl

/-- Content that has been packed is unpacked again, and so it is decoded as the content itself
or refused with the same error. The request that delivers a file is read as the delivery,
decoded as the file, and prepared to the averages that the file has offline. -/
theorem packing_lossless :
    (∀ encoding content,
      unpack none encoding (pack encoding content) = .ok content ∧
      decode none encoding (pack encoding content) = decode none .identity content) ∧
    ∀ file encoding d, Console.delivery file encoding = .ok d →
      Body.read d.toJson.render.toUTF8.toList = .ok d ∧
      d.decode none = decode none .identity file ∧
      ∀ p : Pipeline, p.limit = none →
        p.prepare d = Pipeline.ofOffline (Console.averages? file .identity p.target.container) :=
  ⟨fun encoding content => ⟨unpack_pack encoding content, decode_pack encoding content⟩,
    fun _ _ d delivered =>
      ⟨read_toJson d, decode_of_delivery delivered, fun _ unlimited =>
        prepare_of_delivery delivered unlimited⟩⟩

/-- A text, which is no sample. -/
def capturedEvent : Record where
  message := "\x22up\x22\n"
  timestamp := none

def captured : Envelope where
  group := some "/ecs/π"
  events := [capturedEvent]

def capturedFile : List UInt8 := captured.toJson.render.toUTF8.toList

def capturing : Pipeline where
  target :=
    { cluster := "main", service := "api", container := "app", family := "api",
      metricNamespace := "Usage", alarm := "api-memory" }

theorem captured_delivered :
    ∃ d, Console.delivery capturedFile .gzipBase64 = .ok d ∧
      Body.read d.toJson.render.toUTF8.toList = .ok d ∧
      d.decode none = .ok captured.batch ∧
      capturing.limit = none ∧ capturing.prepare d = .error (some (.rejected (.emptyBatch 1))) := by
  have tree : Json.Raw.ofBytes? capturedFile = some captured.toJson.raw :=
    Json.ofBytes?_of_tokens (Json.tokens_render _)
  have json : (Json.ofBytes? capturedFile).isSome := by
    rw [Json.ofBytes?, tree]
    rfl
  have content : decode none .identity capturedFile = .ok captured.batch :=
    decode_toJson captured none _ List.mem_cons_self
  have event : Sample.ofRecord capturedEvent = .error .notAnObject := by
    rw [Sample.ofRecord, Json.ofString?, capturedEvent, Json.toUTF8_toList]
    rfl
  have offline : Console.averages? capturedFile .identity "app" =
      .error (.refused (.emptyBatch 1)) := by
    have empty : (Averages.Tally.add {} capturedEvent).averages "app" = .error (.emptyBatch 1) := by
      rw [Averages.Tally.add, event]
      rfl
    rw [Console.averages?, content]
    exact congrArg (fun averages => averages.mapError Failure.refused >>= fun averages =>
      pure (some averages)) empty
  obtain ⟨d, delivered⟩ := delivery_gzipBase64 json
  obtain ⟨read, decoded, prepared⟩ := packing_lossless.2 capturedFile .gzipBase64 d delivered
  have told := prepared capturing rfl
  rw [show capturing.target.container = "app" from rfl, offline] at told
  exact ⟨d, delivered, read, decoded.trans content, rfl, told⟩

end LogBatch
end Headroom
