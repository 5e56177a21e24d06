import Mathlib
import Headroom.Gateway.Client
import Headroom.Proofs.Literals

/-!
Where requests to the gateways go. A name in an address is escaped, so that the address tells
it apart from all others, but only if it takes a place there: the names `.` and `..` are
skipped, and tabs and line ends are dropped after that, so that a name which hides two dots
with them goes up a level. No name leads out of the base URL (`address_under`); names that
take a place have an address of their own up to the tabs and line ends in them
(`requests_addressed_apart`), and the others share theirs (`names_share_address`).
-/
namespace Headroom.Gateway

open Headroom.Json (utf8 utf8_cons utf8EncodeChar_ascii fromUTF8?_utf8)

namespace Url

/-- The character with the number of a byte. -/
def byteChar (b : UInt8) : Char := Char.ofNat b.toNat

theorem byteChar_injective {a b : UInt8} (same : byteChar a = byteChar b) : a = b := by
  have valid (b : UInt8) : b.toNat.isValidChar := .inl (by have := b.toNat_lt; omega)
  have number (b : UInt8) : (byteChar b).toNat = b.toNat := by
    rw [byteChar, Char.ofNat, dif_pos (valid b)]
    rfl
  exact UInt8.toNat_inj.mp (by rw [← number a, ← number b, same])

/-- The two digits of a byte are read as its number. -/
theorem addressNumber?_digits : ∀ n < 256,
    addressNumber? ['0', 'x', (hexCapital (n / 16)).toLower, (hexCapital (n % 16)).toLower] =
      some n := by
  decide +kernel

theorem percentDecode_percentByte (b : UInt8) (rest : List Char) :
    percentDecode (percentByte b ++ rest) = byteChar b :: percentDecode rest := by
  have read := addressNumber?_digits b.toNat b.toNat_lt
  rw [percentByte, List.cons_append, List.cons_append, List.cons_append, List.nil_append,
    percentDecode, read]
  rfl

theorem percentDecode_plain {c : Char} (other : c ≠ '%') (rest : List Char) :
    percentDecode (c :: rest) = c :: percentDecode rest := by
  rw [percentDecode]
  rintro _ _ _ rfl
  exact absurd rfl other

/-- What a character is written as is read as its bytes, if the sign itself is escaped. -/
theorem percentDecode_percentChar {extra : List Char} (sign : '%' ∈ extra) (c : Char)
    (rest : List Char) :
    percentDecode (percentChar extra c ++ rest) =
      (String.utf8EncodeChar c).map byteChar ++ percentDecode rest := by
  unfold percentChar
  split
  · induction String.utf8EncodeChar c with
    | nil => rfl
    | cons b more ih =>
      rw [List.flatMap_cons, List.append_assoc, percentDecode_percentByte, ih]
      rfl
  · rename_i plain
    rw [not_or, not_or] at plain
    obtain ⟨-, ascii, unlisted⟩ := plain
    have other : c ≠ '%' := fun same => unlisted (same ▸ sign)
    have bytes := utf8EncodeChar_ascii (c := c) (by omega)
    have same : byteChar c.toNat.toUInt8 = c := by
      rw [byteChar, Nat.toUInt8_eq, UInt8.toNat_ofNat_of_lt' (by simp only [UInt8.size]; omega)]
      exact Char.ofNat_toNat c
    rw [List.singleton_append, percentDecode_plain other, bytes, List.map_singleton, same]
    rfl

theorem percentDecode_flatMap {extra : List Char} (sign : '%' ∈ extra) (text : List Char) :
    percentDecode (text.flatMap (percentChar extra)) = (utf8 text).map byteChar := by
  induction text with
  | nil => rfl
  | cons c rest ih =>
    rw [List.flatMap_cons, percentDecode_percentChar sign, ih, utf8_cons, List.map_append]

/-- The bytes of a text are its own. -/
theorem utf8_injective {a b : List Char} (same : utf8 a = utf8 b) : a = b := by
  have first := fromUTF8?_utf8 (String.ofList a)
  have second := fromUTF8?_utf8 (String.ofList b)
  rw [String.toList_ofList] at first second
  rw [same, second] at first
  exact (String.ofList_injective (Option.some.inj first)).symm

/-- Escaping that escapes its own sign tells texts apart. -/
theorem percentEncode_injective {extra : List Char} (sign : '%' ∈ extra) {a b : List Char}
    (same : percentEncode extra a = percentEncode extra b) : a = b := by
  have decoded := congrArg percentDecode (String.ofList_injective same)
  rw [percentDecode_flatMap sign, percentDecode_flatMap sign] at decoded
  exact utf8_injective ((List.map_injective_iff.mpr fun _ _ => byteChar_injective) decoded)

theorem hexCapital_ne_slash : ∀ n < 16, hexCapital n ≠ '/' := by
  decide

/-- No escaped text has a slash in it, if slashes are escaped. -/
theorem slash_notMem_percentEncode {extra : List Char} (slash : '/' ∈ extra) (text : List Char) :
    '/' ∉ (percentEncode extra text).toList := by
  rw [percentEncode, String.toList_ofList]
  intro found
  obtain ⟨c, -, found⟩ := List.mem_flatMap.mp found
  unfold percentChar at found
  split at found
  · obtain ⟨b, -, found⟩ := List.mem_flatMap.mp found
    have small := b.toNat_lt
    simp only [percentByte, List.mem_cons, List.not_mem_nil, or_false] at found
    rcases found with sign | high | low
    · exact absurd sign (by decide)
    · exact hexCapital_ne_slash _ (by omega) high.symm
    · exact hexCapital_ne_slash _ (by omega) low.symm
  · rename_i plain
    rw [List.mem_singleton] at found
    exact plain (.inr (.inr (found ▸ slash)))

/-- A name without the characters that do not count in a URL. -/
def kept (name : String) : List Char := name.toList.filter fun c => !isDropped c

/-- Whether a name becomes a segment: it is not skipped, and does not go up a level. -/
def TakesPlace (name : String) : Prop := name ≠ "." ∧ kept name ≠ ['.', '.']

instance : DecidablePred TakesPlace := fun _ => instDecidableAnd

/-- What the segment of a name stands for. -/
def placed (name : String) : String :=
  if kept name = ['.'] then "" else String.ofList (kept name)

/-- The segment that stands for a text. -/
def segment (special : Bool) (text : String) : String :=
  percentEncode (segmentSet special) text.toList

/-- A name that goes into an address as it is: no tab or line end, and no dots alone. -/
structure Plain (name : String) : Prop where
  counts : ∀ c ∈ name.toList, isDropped c = false
  not_self : name ≠ "."
  not_parent : name ≠ ".."

instance : DecidablePred Plain := fun name =>
  decidable_of_iff (name.toList.all (!isDropped ·) = true ∧ name ≠ "." ∧ name ≠ "..")
    ⟨fun ⟨counts, self, parent⟩ => ⟨by simpa using counts, self, parent⟩,
      fun plain => ⟨by simpa using plain.counts, plain.not_self, plain.not_parent⟩⟩

theorem Plain.kept {name : String} (plain : Plain name) : kept name = name.toList := by
  apply List.filter_eq_self.mpr
  intro c member
  rw [plain.counts c member]
  rfl

theorem Plain.takesPlace {name : String} (plain : Plain name) : TakesPlace name := by
  refine ⟨plain.not_self, fun dots => plain.not_parent ?_⟩
  rw [plain.kept] at dots
  exact String.toList_inj.mp dots

theorem Plain.placed {name : String} (plain : Plain name) : Url.placed name = name := by
  have other : Url.kept name ≠ ['.'] := by
    intro dot
    rw [plain.kept] at dot
    exact plain.not_self (String.toList_inj.mp dot)
  rw [Url.placed, if_neg other, plain.kept, String.ofList_toList]

theorem segment_injective (special : Bool) : Function.Injective (segment special) := by
  intro a b same
  have sign : '%' ∈ segmentSet special := by cases special <;> decide
  exact String.toList_inj.mp (percentEncode_injective sign same)

theorem slash_notMem_segment (special : Bool) (text : String) :
    '/' ∉ (segment special text).toList := by
  apply slash_notMem_percentEncode
  cases special <;> decide

/-- The path that a segment is put behind: that of `/` alone has none. -/
def root (path : List String) : List String := if path = [""] then [] else path

/-- The segments of a base that all addresses under it begin with. -/
def front (base : Url) : List String :=
  match base.path with
  | .opaqueText _ => []
  | .segments path => root (dropEmptyEnd path)

theorem root_of_ne {path : List String} (other : path ≠ [""]) : root path = path :=
  if_neg other

theorem pushSegment_of_takesPlace (special : Bool) (path : List String) {name : String}
    (place : TakesPlace name) :
    pushSegment special path name = root path ++ [segment special (placed name)] := by
  have parent : name ≠ ".." := by
    rintro rfl
    exact place.2 (by decide)
  rw [pushSegment, if_neg (not_or.mpr ⟨place.1, parent⟩)]
  simp only
  rw [show (name.toList.filter fun c => !isDropped c) = kept name from rfl, if_neg place.2]
  unfold placed segment root
  by_cases dot : kept name = ['.']
  · rw [if_pos dot, if_pos dot]
    rfl
  · rw [if_neg dot, if_neg dot, String.toList_ofList]

/-- A name that takes no place is skipped or leaves the path as long at the most. -/
theorem pushSegment_of_not_takesPlace (special : Bool) (path : List String) {name : String}
    (none : ¬ TakesPlace name) :
    pushSegment special path name = path ∨
      pushSegment special path name = (root path).dropLast ++ [""] := by
  by_cases skipped : name = "." ∨ name = ".."
  · exact .inl (if_pos skipped)
  · right
    have up : kept name = ['.', '.'] := by
      by_contra other
      exact none ⟨fun self => skipped (.inl self), other⟩
    rw [pushSegment, if_neg skipped]
    simp only
    rw [show (name.toList.filter fun c => !isDropped c) = kept name from rfl, if_pos up]
    rfl

/-- Behind a front there is a rest of at most so many segments. -/
def Under (front : List String) (count : Nat) (path : List String) : Prop :=
  ∃ rest, rest ≠ [] ∧ rest.length ≤ count ∧ path = front ++ rest

/-- What is put on a path that goes on behind a front begins with the front, too. -/
theorem root_append (front : List String) {rest : List String} (more : rest ≠ []) :
    root (front ++ rest) = front ++ rest ∨ front = [] ∧ root (front ++ rest) = [] := by
  unfold root
  split
  · rename_i alone
    right
    rcases List.append_eq_singleton_iff.mp alone with ⟨none, -⟩ | ⟨-, none⟩
    · exact ⟨none, rfl⟩
    · exact absurd none more
  · exact .inl rfl

/-- No name leads out of a front, and only one that takes a place makes the path longer. -/
theorem Under.push {front path : List String} {count : Nat} (under : Under front count path)
    (special : Bool) (name : String) :
    Under front (count + if TakesPlace name then 1 else 0) (pushSegment special path name) := by
  obtain ⟨rest, more, bound, rfl⟩ := under
  have positive : 0 < rest.length := List.length_pos_iff.mpr more
  by_cases place : TakesPlace name
  · rw [pushSegment_of_takesPlace special _ place, if_pos place]
    rcases root_append front more with whole | ⟨rfl, none⟩
    · refine ⟨rest ++ [segment special (placed name)], by simp, by simpa using bound, ?_⟩
      rw [whole, List.append_assoc]
    · exact ⟨[segment special (placed name)], by simp, by simp, by rw [none]⟩
  · rw [if_neg place, Nat.add_zero]
    rcases pushSegment_of_not_takesPlace special (front ++ rest) place with skipped | up
    · exact ⟨rest, more, bound, skipped⟩
    · rcases root_append front more with whole | ⟨rfl, none⟩
      · refine ⟨rest.dropLast ++ [""], by simp, ?_, ?_⟩
        · rw [List.length_append, List.length_dropLast, List.length_singleton]
          omega
        · rw [up, whole, List.dropLast_append_of_ne_nil more, List.append_assoc]
      · refine ⟨[""], by simp, ?_, ?_⟩
        · rw [List.length_singleton]
          omega
        · rw [up, none]
          rfl

/-- Names that are put behind a front add a segment at the most for each that takes a place. -/
theorem Under.pushAll {front : List String} (special : Bool) (names : List String) :
    ∀ {path : List String} {count : Nat}, Under front count path →
      Under front (count + names.countP (TakesPlace ·))
        (names.foldl (pushSegment special) path) := by
  induction names with
  | nil => exact id
  | cons name rest ih =>
    intro path count under
    have later := ih (under.push special name)
    rw [List.countP_cons, List.foldl_cons]
    simpa only [decide_eq_true_eq, Nat.add_assoc, Nat.add_comm] using later

/-- Names that take a place become the segments behind a path. -/
theorem foldl_pushSegment (special : Bool) {names : List String}
    (places : ∀ name ∈ names, TakesPlace name) {path : List String} (some : path ≠ [])
    (other : path ≠ [""]) :
    names.foldl (pushSegment special) path =
      path ++ names.map fun name => segment special (placed name) := by
  induction names generalizing path with
  | nil => exact (List.append_nil path).symm
  | cons name rest ih =>
    have place := places name List.mem_cons_self
    have long : 0 < path.length := List.length_pos_iff.mpr some
    rw [List.foldl_cons, pushSegment_of_takesPlace special path place, root_of_ne other,
      ih (fun later member => places later (List.mem_cons_of_mem _ member)) (by simp) ?_,
      List.append_assoc, List.map_cons, List.singleton_append]
    intro short
    have := congrArg List.length short
    simp only [List.length_append, List.length_singleton] at this
    omega

/-- The segments of a path, if it has any. -/
def segments (u : Url) : List String :=
  match u.path with
  | .opaqueText _ => []
  | .segments path => path

/-- Whether there are addresses under a URL. -/
def IsBase (base : Url) : Prop := ∃ path, base.path = .segments path

theorem below_eq {base : Url} (isBase : IsBase base) (names : List String) :
    base.below names = { base with path := .segments (base.below names).segments } := by
  obtain ⟨path, ofBase⟩ := isBase
  simp only [below, segments, ofBase]

theorem segments_below {base : Url} (isBase : IsBase base) {word : String}
    (place : TakesPlace word) (names : List String) :
    (base.below (word :: names)).segments =
      names.foldl (pushSegment base.isSpecial)
        (base.front ++ [segment base.isSpecial (placed word)]) := by
  obtain ⟨path, ofBase⟩ := isBase
  simp only [below, segments, front, ofBase, List.foldl_cons,
    pushSegment_of_takesPlace base.isSpecial _ place]

/-- An address stays under its base, whatever the names. -/
theorem below_under {base : Url} (isBase : IsBase base) {word : String} (place : TakesPlace word)
    (names : List String) :
    Under base.front (1 + names.countP (TakesPlace ·)) (base.below (word :: names)).segments := by
  rw [segments_below isBase place]
  exact Under.pushAll base.isSpecial names ⟨[_], by simp, by simp, rfl⟩

/-- The address of names that take a place has one segment for each. -/
theorem segments_below_places {base : Url} (isBase : IsBase base) {word : String}
    {names : List String} (places : ∀ name ∈ word :: names, TakesPlace name)
    (begins : placed word ≠ "") :
    (base.below (word :: names)).segments =
      base.front ++ (word :: names).map fun name => segment base.isSpecial (placed name) := by
  have first := places word List.mem_cons_self
  have written : segment base.isSpecial (placed word) ≠ "" := fun none =>
    begins (segment_injective base.isSpecial none)
  rw [segments_below isBase first,
    foldl_pushSegment _ (fun name member => places name (List.mem_cons_of_mem _ member)) (by simp)
      ?_,
    List.append_assoc, List.map_cons, List.singleton_append]
  intro alone
  rcases List.append_eq_singleton_iff.mp alone with ⟨-, same⟩ | ⟨-, none⟩
  · exact written (List.singleton_inj.mp same)
  · cases none

/-- Parts behind a common front are told apart by their separators, if they hold none. -/
theorem intercalate_injective (separator : Char) {front first second : List (List Char)}
    (more : first ≠ []) (others : second ≠ []) (clear : ∀ part ∈ first, separator ∉ part)
    (clear' : ∀ part ∈ second, separator ∉ part)
    (same : [separator].intercalate (front ++ first) = [separator].intercalate (front ++ second)) :
    first = second := by
  induction front with
  | nil =>
    have parts := congrArg (List.splitOn separator) same
    rwa [List.nil_append, List.nil_append, List.splitOn_intercalate _ clear more,
      List.splitOn_intercalate _ clear' others] at parts
  | cons part front ih =>
    rw [List.cons_append, List.cons_append,
      List.intercalate_cons_of_ne_nil (List.append_ne_nil_of_right_ne_nil front more),
      List.intercalate_cons_of_ne_nil (List.append_ne_nil_of_right_ne_nil front others)] at same
    exact ih (List.append_cancel_left same)

/-- What is asked for tells the segments behind a common front apart. -/
theorem requestTarget_injective {base : Url} {front first second : List String}
    (more : first ≠ []) (others : second ≠ []) (clear : ∀ s ∈ first, '/' ∉ s.toList)
    (clear' : ∀ s ∈ second, '/' ∉ s.toList)
    (same : ({ base with path := .segments (front ++ first) } : Url).requestTarget =
      ({ base with path := .segments (front ++ second) } : Url).requestTarget) :
    first = second := by
  simp only [requestTarget] at same
  have paths := (String.append_right_inj _).mp ((String.append_left_inj _).mp same)
  have texts := congrArg String.toList paths
  rw [String.toList_intercalate, String.toList_intercalate, List.map_append,
    List.map_append] at texts
  have parts := intercalate_injective '/' (by simpa using more)
    (by simpa using others) (by simpa using clear) (by simpa using clear') texts
  exact (List.map_injective_iff.mpr fun _ _ => String.toList_inj.mp) parts

end Url

/-- What is addressed at the gateways. -/
inductive Resource where
  | families
  | family (name : String)
  | service (cluster name : String)
  | boundRevision (cluster name : String)
  | metrics (metricNamespace : String)
  | threshold (alarm : String)
  deriving DecidableEq, Repr

namespace Resource

open Url (TakesPlace Plain placed)

def side : Resource → Side
  | .families | .family _ | .service .. | .boundRevision .. => .orchestrator
  | .metrics _ | .threshold _ => .metrics

/-- The names in an address. -/
def names : Resource → List String
  | .families => []
  | .family name | .metrics name | .threshold name => [name]
  | .service cluster name | .boundRevision cluster name => [cluster, name]

/-- The resource of the same kind under other names. -/
def rename (f : String → String) : Resource → Resource
  | .families => .families
  | .family name => .family (f name)
  | .service cluster name => .service (f cluster) (f name)
  | .boundRevision cluster name => .boundRevision (f cluster) (f name)
  | .metrics metricNamespace => .metrics (f metricNamespace)
  | .threshold alarm => .threshold (f alarm)

/-- The word that an address begins with. -/
def collection : Resource → String
  | .families | .family _ => "task-definitions"
  | .service .. | .boundRevision .. => "clusters"
  | .metrics _ => "metrics"
  | .threshold _ => "alarms"

/-- The words and names behind the first. -/
def within : Resource → List String
  | .families => []
  | .family name | .metrics name => [name]
  | .service cluster name => [cluster, "services", name]
  | .boundRevision cluster name => [cluster, "services", name, "task-definition"]
  | .threshold alarm => [alarm, "threshold"]

def path (r : Resource) : List String := r.collection :: r.within

theorem plain_collection (r : Resource) : Plain r.collection := by
  cases r <;> rw [collection] <;> decide +kernel

theorem collection_ne_empty (r : Resource) : r.collection ≠ "" := by
  cases r <;> rw [collection] <;> decide

/-- Only the names in an address may take no place. -/
theorem path_takesPlace (r : Resource) :
    (∀ name ∈ r.path, TakesPlace name) ↔ ∀ name ∈ r.names, TakesPlace name := by
  have services : TakesPlace "services" := by decide +kernel
  have pointer : TakesPlace "task-definition" := by decide +kernel
  have threshold : TakesPlace "threshold" := by decide +kernel
  have first := r.plain_collection.takesPlace
  cases r <;>
    simp only [path, within, names, List.forall_mem_cons, List.not_mem_nil, first, services,
      pointer, threshold, true_and, and_true, false_implies, implies_true]

/-- Only the names in an address may stand for another text. -/
theorem map_placed_path (r : Resource) : r.path.map placed = (r.rename placed).path := by
  have services : placed "services" = "services" := Plain.placed (by decide +kernel)
  have pointer : placed "task-definition" = "task-definition" := Plain.placed (by decide +kernel)
  have threshold : placed "threshold" = "threshold" := Plain.placed (by decide +kernel)
  have first := r.plain_collection.placed
  rw [path, List.map_cons, first]
  cases r <;> simp only [within, List.map_cons, List.map_nil, services, pointer, threshold] <;> rfl

/-- Resources on one side of the gateway have paths of their own. -/
theorem path_injective {r r' : Resource} (side : r.side = r'.side) (same : r.path = r'.path) :
    r = r' := by
  cases r <;> cases r' <;> simp_all [Resource.side, path, collection, within]

theorem rename_side (f : String → String) (r : Resource) : (r.rename f).side = r.side := by
  cases r <;> rfl

theorem rename_plain {r : Resource} (plain : ∀ name ∈ r.names, Plain name) :
    r.rename placed = r := by
  cases r <;> simp_all [rename, names, Plain.placed]

end Resource

/-- What is asked of the gateways. -/
inductive Demand where
  | call (call : Call)
  | publish (metricNamespace : String) (datapoints : List Datapoint)

namespace Demand

def request (c : Client) : Demand → HttpRequest
  | .call asked => c.request asked
  | .publish metricNamespace datapoints => c.publishRequest metricNamespace datapoints

/-- The resource that is meant. -/
def resource : Demand → Resource
  | .call (.describe family) => .family family
  | .call (.register _) => .families
  | .call (.describeBinding cluster service) => .service cluster service
  | .call (.rebind cluster service _ _) => .boundRevision cluster service
  | .call (.patchAlarm alarm _) => .threshold alarm
  | .publish metricNamespace _ => .metrics metricNamespace

end Demand

namespace Client

open Url

/-- The base URL of a side. -/
def base (c : Client) : Side → Url
  | .orchestrator => c.orchestrator
  | .metrics => c.metrics

/-- The address of a resource. -/
def address (c : Client) (r : Resource) : Url := (c.base r.side).below r.path

theorem request_url (c : Client) (d : Demand) : (d.request c).url = c.address d.resource := by
  cases d with
  | call asked => cases asked <;> rfl
  | publish => rfl

theorem baseUrl_isBase {text : String} {url : Url} (accepted : baseUrl text = .ok url) :
    url.IsBase := by
  unfold baseUrl at accepted
  split at accepted
  · cases accepted
  · split at accepted
    · cases accepted
    · rename_i path ofPath
      cases accepted
      exact ⟨path, ofPath⟩

/-- A client has addresses under both of its URLs. -/
theorem base_isBase {settings : Settings} {c : Client} (accepted : Client.of settings = .ok c)
    (side : Side) : (c.base side).IsBase := by
  simp only [Client.of, bind, Except.bind] at accepted
  split at accepted
  · cases accepted
  rename_i orchestrator first
  split at accepted
  · cases accepted
  rename_i metrics second
  cases accepted
  cases side
  · exact baseUrl_isBase first
  · exact baseUrl_isBase second

/-- An address stays under the base of its side. It has a segment for each word and each name,
if all names take a place, and else it has fewer. -/
theorem address_under {settings : Settings} {c : Client} (accepted : Client.of settings = .ok c)
    (r : Resource) :
    ∃ rest, (c.address r).segments = (c.base r.side).front ++ rest ∧
      (rest.length = r.path.length ↔ ∀ name ∈ r.names, TakesPlace name) ∧
      rest.length ≤ r.path.length := by
  have isBase := base_isBase accepted r.side
  have first := r.plain_collection.takesPlace
  have most := List.countP_le_length (p := (TakesPlace ·)) (l := r.within)
  have size : r.path.length = r.within.length + 1 := rfl
  by_cases places : ∀ name ∈ r.names, TakesPlace name
  · have whole := segments_below_places isBase (r.path_takesPlace.mpr places)
      (r.plain_collection.placed.symm ▸ r.collection_ne_empty)
    refine ⟨_, whole, ?_, ?_⟩
    · simp only [List.length_map]
      exact iff_of_true rfl places
    · exact Nat.le_of_eq (List.length_map _)
  · obtain ⟨rest, -, bound, whole⟩ := below_under isBase first r.within
    refine ⟨rest, whole, iff_of_false ?_ places, by omega⟩
    intro full
    have all : r.within.countP (TakesPlace ·) = r.within.length := by omega
    apply places
    apply r.path_takesPlace.mp
    intro name member
    rcases List.mem_cons.mp member with rfl | member
    · exact first
    · exact of_decide_eq_true (List.countP_eq_length.mp all name member)

/-- Names that take a place have their segments in an address. -/
theorem address_of_places {settings : Settings} {c : Client}
    (accepted : Client.of settings = .ok c) {r : Resource}
    (places : ∀ name ∈ r.names, TakesPlace name) :
    c.address r =
      { c.base r.side with
        path := .segments ((c.base r.side).front ++
          (r.rename placed).path.map (segment (c.base r.side).isSpecial)) } := by
  have isBase := base_isBase accepted r.side
  have begins : placed r.collection ≠ "" := r.plain_collection.placed.symm ▸ r.collection_ne_empty
  rw [address, below_eq isBase, ← r.map_placed_path, List.map_map]
  exact congrArg (fun segments => { c.base r.side with path := .segments segments })
    (segments_below_places isBase (r.path_takesPlace.mpr places) begins)

/-- Resources of one side whose names take a place are addressed alike only if the same texts
stand for their names. -/
theorem address_inj {settings : Settings} {c : Client} (accepted : Client.of settings = .ok c)
    {r r' : Resource} (side : r.side = r'.side) (places : ∀ name ∈ r.names, TakesPlace name)
    (places' : ∀ name ∈ r'.names, TakesPlace name)
    (same : (c.address r).requestTarget = (c.address r').requestTarget) :
    r.rename placed = r'.rename placed := by
  have clear (r : Resource) (special : Bool) :
      ∀ s ∈ (r.rename placed).path.map (segment special), '/' ∉ s.toList := by
    intro s member
    obtain ⟨text, -, rfl⟩ := List.mem_map.mp member
    exact slash_notMem_segment special text
  rw [address_of_places accepted places, address_of_places accepted places', ← side] at same
  have segments := requestTarget_injective (by simp [Resource.path]) (by simp [Resource.path])
    (clear r _) (clear r' _) same
  apply Resource.path_injective
  · rw [r.rename_side, r'.rename_side, side]
  · exact List.map_injective_iff.mpr (segment_injective _) segments

/-- Every address stays under the base of its side, with the fixed number of segments exactly
if all names take a place. Requests to one side for names that take a place go to one address
exactly if they are for one resource with the same texts for the names; and so requests for
plain names do exactly if they are for the same resource. -/
theorem requests_addressed_apart {settings : Settings} {c : Client}
    (accepted : Client.of settings = .ok c) :
    (∀ d : Demand, ∃ rest,
      (d.request c).url.path = .segments ((c.base d.resource.side).front ++ rest) ∧
        rest.length ≤ d.resource.path.length ∧
        (rest.length = d.resource.path.length ↔ ∀ name ∈ d.resource.names, TakesPlace name)) ∧
    (∀ d d' : Demand, d.resource.side = d'.resource.side →
      (∀ name ∈ d.resource.names ++ d'.resource.names, TakesPlace name) →
        ((d.request c).url = (d'.request c).url ↔
          d.resource.rename placed = d'.resource.rename placed) ∧
        ((d.request c).url.requestTarget = (d'.request c).url.requestTarget ↔
          d.resource.rename placed = d'.resource.rename placed)) ∧
    ∀ d d' : Demand, d.resource.side = d'.resource.side →
      (∀ name ∈ d.resource.names ++ d'.resource.names, Plain name) →
        ((d.request c).url.requestTarget = (d'.request c).url.requestTarget ↔
          d.resource = d'.resource) := by
  have apart (r r' : Resource) (side : r.side = r'.side)
      (places : ∀ name ∈ r.names ++ r'.names, TakesPlace name) :
      (c.address r = c.address r' ↔ r.rename placed = r'.rename placed) ∧
        ((c.address r).requestTarget = (c.address r').requestTarget ↔
          r.rename placed = r'.rename placed) := by
    obtain ⟨places, places'⟩ := List.forall_mem_append.mp places
    have told := address_inj accepted side places places'
    have address (same : r.rename placed = r'.rename placed) : c.address r = c.address r' := by
      rw [address_of_places accepted places, address_of_places accepted places', side, same]
    exact ⟨⟨fun same => told (congrArg _ same), address⟩, told,
      fun same => congrArg _ (address same)⟩
  refine ⟨fun d => ?_, fun d d' side places => ?_, fun d d' side plain => ?_⟩
  · obtain ⟨rest, segments, full, bound⟩ := address_under accepted d.resource
    refine ⟨rest, ?_, bound, full⟩
    rw [request_url, address, below_eq (base_isBase accepted d.resource.side), ← segments]
    rfl
  · rw [request_url, request_url]
    exact apart _ _ side places
  · obtain ⟨first, second⟩ := List.forall_mem_append.mp plain
    rw [request_url, request_url,
      (apart _ _ side fun name member => (plain name member).takesPlace).2,
      Resource.rename_plain first, Resource.rename_plain second]

/-- Two gateways, the second below a path. -/
def twoGateways : Settings :=
  { orchestratorUrl := "http://gateway:8080", metricsUrl := "http://gateway:8080/cw/" }

theorem twoGateways_addressed_apart : ∃ c, Client.of twoGateways = .ok c ∧
    (∃ rest, (c.publishRequest "ECS/Consumer" []).url.path =
      .segments ((c.base .metrics).front ++ rest) ∧ rest.length = 2) ∧
    ((c.request (.patchAlarm "a\tb" 1)).url = (c.request (.patchAlarm "ab" 2)).url) ∧
    (c.request (.describeBinding "a/b" "c")).url.requestTarget ≠
      (c.request (.describeBinding "a" "b/c")).url.requestTarget := by
  obtain ⟨c, accepted⟩ : ∃ c, Client.of twoGateways = .ok c := ⟨_, by cbv⟩
  obtain ⟨under, placed, plain⟩ := requests_addressed_apart accepted
  refine ⟨c, accepted, ?_, ?_, ?_⟩
  · obtain ⟨rest, path, -, full⟩ := under (.publish "ECS/Consumer" [])
    exact ⟨rest, path, full.mpr (by decide +kernel)⟩
  · exact (placed (.call (.patchAlarm "a\tb" 1)) (.call (.patchAlarm "ab" 2)) rfl
      (by decide +kernel)).1.mpr (by decide +kernel)
  · intro same
    have equal := (plain (.call (.describeBinding "a/b" "c")) (.call (.describeBinding "a" "b/c"))
      rfl (by decide +kernel)).mp same
    exact absurd equal (by decide)

/-- Alarms, services and namespaces that share an address, an alarm's that is one segment
short, one that is not among the alarms, and a cluster and service whose binding is moved at
the address of another service. -/
theorem names_share_address : ∃ c, Client.of twoGateways = .ok c ∧
    (c.request (.patchAlarm "." 1)).url = (c.request (.patchAlarm ".." 1)).url ∧
    (c.request (.patchAlarm "." 1)).url.requestTarget = "/cw/alarms/threshold" ∧
    (c.request (.patchAlarm "\t.." 1)).url.requestTarget = "/cw//threshold" ∧
    (c.request (.patchAlarm "a\tb" 1)).url = (c.request (.patchAlarm "ab" 1)).url ∧
    (c.request (.describe ".")).url = (c.request (.describe "..")).url ∧
    (c.publishRequest "." []).url = (c.publishRequest ".." []).url ∧
    (c.request (.describeBinding "." "api")).url = (c.request (.describeBinding ".." "api")).url ∧
    (c.request (.rebind "." "services" ⟨"f", 1⟩ ⟨"f", 2⟩)).url =
      (c.request (.describeBinding "services" "task-definition")).url := by
  refine ⟨_, by cbv, ?_⟩
  decide +kernel

end Client
end Headroom.Gateway
