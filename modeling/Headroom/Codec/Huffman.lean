import Headroom.Codec.Bits

/-!
Canonical prefix codes. A code is given by the length of each symbol's code word;
code words of one length are consecutive numbers in the order of the symbols, and
shorter code words come first. Decoding walks a tree from its root.
-/
namespace Headroom.Codec

inductive CodeTree where
  | empty
  | leaf (symbol : Nat)
  | node (zero one : CodeTree)
  deriving DecidableEq, Repr, Inhabited

namespace CodeTree

/-- Put a symbol at the end of a path. -/
def insert (symbol : Nat) : List Bool → CodeTree → CodeTree
  | [], _ => .leaf symbol
  | false :: path, .node zero one => .node (zero.insert symbol path) one
  | true :: path, .node zero one => .node zero (one.insert symbol path)
  | false :: path, _ => .node (CodeTree.empty.insert symbol path) .empty
  | true :: path, _ => .node .empty (CodeTree.empty.insert symbol path)

/-- Read one symbol. -/
def decode : CodeTree → List Bool → Except StreamFault (Nat × List Bool)
  | .leaf symbol, stream => .ok (symbol, stream)
  | .node _ _, [] => .error .short
  | .node zero one, bit :: rest => (if bit then one else zero).decode rest
  | .empty, _ => .error .corrupt

/-- The longest code word that is allowed. -/
def longest : Nat := 15

/-- A code word as a path, its highest bit first. -/
def path (length word : Nat) : List Bool :=
  (List.range length).map fun i => word.testBit (length - 1 - i)

/-- The symbols whose code words have a given length, in order. -/
def symbolsOf (lengths : List Nat) (length : Nat) : List Nat :=
  (lengths.zipIdx.filter (·.1 == length)).map (·.2)

/-- Put in the symbols of the lengths that are left, from the code word `next` on. -/
def build (lengths : List Nat) : (left : Nat) → (length next : Nat) → CodeTree → CodeTree
  | 0, _, _, tree => tree
  | left + 1, length, next, tree =>
    let symbols := symbolsOf lengths length
    let tree := symbols.zipIdx.foldl
      (fun tree (symbol, i) => tree.insert symbol (path length (next + i))) tree
    build lengths left (length + 1) (2 * (next + symbols.length)) tree

/-- The share of all code words of the longest length that the lengths use up. -/
def usage (lengths : List Nat) : Nat :=
  (lengths.map fun length =>
    if length = 0 then 0 else Nat.pow 2 (longest - length)).foldl (· + ·) 0

/-- The tree of a code. The lengths must use up all code words; only a code of at
most one symbol may leave some unused, where that is allowed. -/
def ofLengths? (mayBeSparse : Bool) (lengths : List Nat) : Option CodeTree :=
  let used := (lengths.filter (· != 0)).length
  if usage lengths = Nat.pow 2 longest ∨ (mayBeSparse ∧ used ≤ 1) then
    some (build lengths longest 1 0 .empty)
  else none

end CodeTree
end Headroom.Codec
