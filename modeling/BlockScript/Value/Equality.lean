import BlockScript.Value.Basic

/-!
# Equality and identity

Integers are equal by number, strings by text, symbols by number, classes by name
and arrays element by element; all else is equal only to itself. Two cyclic arrays
are equal when no difference is ever met: a pair of arrays that is already being
compared counts as equal. No pair is open twice, so the number of pairs bounds the
depth of the recursion.
-/

namespace BlockScript.Value

/-- The two values are one and the same. -/
def same : Value → Value → Bool
  | nil, nil => true
  | bool a, bool b => a == b
  | fixnum a, fixnum b => a == b
  | bignum _ a, bignum _ b => a == b
  | string a, string b => a.index == b.index
  | symbol a, symbol b => a.same b
  | array a, array b => a.index == b.index
  | proc a, proc b => a.index == b.index
  | classRef a, classRef b => a == b
  | object a, object b => a.index == b.index
  | _, _ => false

/-- Equality of values that are not both arrays. -/
def leafEquals (heap : Heap) (a b : Value) : Bool :=
  match a, b with
  | bignum m _, bignum n _ => m == n
  | fixnum m, bignum n _ | bignum n _, fixnum m => m.toInt == n
  | string s, string t => heap.string s == heap.string t
  | symbol s, symbol t => s.eqv t
  | a, b => a.same b

/-- Compare two values while the pairs of arrays in `pairs` are being compared. -/
def equalsInside (heap : Heap) : (depth : Nat) → (pairs : List (Nat × Nat)) →
    Value → Value → Bool
  | 0, _, _, _ => true
  | depth + 1, pairs, a, b =>
    match a, b with
    | array x, array y =>
      if x = y then true
      else if (x.index, y.index) ∈ pairs then true
      else
        let xs := (heap.array x).toList
        let ys := (heap.array y).toList
        xs.length == ys.length &&
          (xs.zip ys).all fun (u, v) =>
            equalsInside heap depth ((x.index, y.index) :: pairs) u v
    | a, b => leafEquals heap a b

/-- Equality of values. -/
def equals (heap : Heap) (a b : Value) : Bool :=
  equalsInside heap (heap.arrays.size * heap.arrays.size + 2) [] a b

end BlockScript.Value
