import SourceLens.Data.Value

/-!
# Equality of values

Two values are compared part by part, so that what a document holds can be decided.
-/

namespace SourceLens

mutual

def Value.decEq : (a b : Value) → Decidable (a = b)
  | .scalar s, .scalar t => decidable_of_iff (s = t) (by simp)
  | .list xs, .list ys =>
    match Value.decEqItems xs ys with
    | .isTrue h => .isTrue (by rw [h])
    | .isFalse h => .isFalse (by simpa using h)
  | .map xs, .map ys =>
    match Value.decEqEntries xs ys with
    | .isTrue h => .isTrue (by rw [h])
    | .isFalse h => .isFalse (by simpa using h)
  | .scalar _, .list _ | .scalar _, .map _ | .list _, .scalar _ | .list _, .map _
  | .map _, .scalar _ | .map _, .list _ => .isFalse (by simp)
termination_by structural a => a

def Value.decEqItems : (xs ys : List Value) → Decidable (xs = ys)
  | [], [] => .isTrue rfl
  | x :: xs, y :: ys =>
    match Value.decEq x y, Value.decEqItems xs ys with
    | .isTrue h, .isTrue hs => .isTrue (by rw [h, hs])
    | .isFalse h, _ => .isFalse (by simp [h])
    | _, .isFalse hs => .isFalse (by simp [hs])
  | [], _ :: _ | _ :: _, [] => .isFalse (by simp)
termination_by structural xs => xs

/-- Whether the entries of two mappings are equal. -/
def Value.decEqEntries : (xs ys : List (Scalar × Value)) → Decidable (xs = ys)
  | [], [] => .isTrue rfl
  | x :: xs, y :: ys =>
    match Value.decEqEntry x y, Value.decEqEntries xs ys with
    | .isTrue h, .isTrue hs => .isTrue (by rw [h, hs])
    | .isFalse h, _ => .isFalse (by simp [h])
    | _, .isFalse hs => .isFalse (by simp [hs])
  | [], _ :: _ | _ :: _, [] => .isFalse (by simp)
termination_by structural xs => xs

def Value.decEqEntry : (x y : Scalar × Value) → Decidable (x = y)
  | (k, v), (l, w) =>
    match instDecidableEqScalar k l, Value.decEq v w with
    | .isTrue hk, .isTrue hv => .isTrue (by rw [hk, hv])
    | .isFalse hk, _ => .isFalse (by simp [hk])
    | _, .isFalse hv => .isFalse (by simp [hv])
termination_by structural x => x

end

instance : DecidableEq Value := Value.decEq

end SourceLens
