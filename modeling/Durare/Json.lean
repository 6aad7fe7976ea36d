import Mathlib.Algebra.Order.Ring.Int
import Mathlib.Data.Fintype.Basic

/-! JSON values as `serde_json` holds them: integers and floats are kept apart, and
objects keep the insertion order of their keys. -/
namespace Durare

instance neZero_64 : NeZero (2 ^ 64) := ⟨by decide⟩

instance neZero_63 : NeZero (2 ^ 63) := ⟨by decide⟩

/-- `negInt n` is `-(n + 1)`. A float is finite: its sign bit and the bits of its
magnitude, all below the pattern of infinity. -/
inductive Number where
  | posInt (n : Fin (2 ^ 64))
  | negInt (n : Fin (2 ^ 63))
  | float (negative : Bool) (magnitude : Fin 9218868437227405312)
deriving DecidableEq, Repr

/-- Equality of numbers as `serde_json` decides it: the variants never mix, and the
two float zeros are equal. -/
def Number.partialEq : Number → Number → Bool
  | .posInt a, .posInt b => a == b
  | .negInt a, .negInt b => a == b
  | .float s a, .float t b => a == b && (s == t || a == 0)
  | _, _ => false

theorem Number.partialEq_refl (n : Number) : n.partialEq n = true := by
  cases n <;> simp [Number.partialEq]

inductive Value where
  | null
  | bool (b : Bool)
  | number (n : Number)
  | string (s : String)
  | array (items : List Value)
  | object (fields : List (String × Value))
deriving Repr, Inhabited

namespace Value

mutual

def same : Value → Value → Bool
  | .null, .null => true
  | .bool a, .bool b => a == b
  | .number a, .number b => a == b
  | .string a, .string b => a == b
  | .array xs, .array ys => sameItems xs ys
  | .object xs, .object ys => sameFields xs ys
  | _, _ => false

def sameItems : List Value → List Value → Bool
  | [], [] => true
  | x :: xs, y :: ys => same x y && sameItems xs ys
  | _, _ => false

def sameFields : List (String × Value) → List (String × Value) → Bool
  | [], [] => true
  | (k, v) :: xs, (k', v') :: ys => k == k' && same v v' && sameFields xs ys
  | _, _ => false

end

mutual

theorem same_eq : ∀ a b : Value, same a b = true → a = b
  | .null, b, h => by cases b <;> simp_all [same]
  | .bool a, b, h => by cases b <;> simp_all [same]
  | .number a, b, h => by cases b <;> simp_all [same]
  | .string a, b, h => by cases b <;> simp_all [same]
  | .array xs, b, h => by
    cases b <;> simp_all [same]
    exact sameItems_eq xs _ h
  | .object xs, b, h => by
    cases b <;> simp_all [same]
    exact sameFields_eq xs _ h

theorem sameItems_eq : ∀ a b : List Value, sameItems a b = true → a = b
  | [], b, h => by cases b <;> simp_all [sameItems]
  | x :: xs, b, h => by
    cases b with
    | nil => simp [sameItems] at h
    | cons y ys =>
      simp only [sameItems, Bool.and_eq_true] at h
      rw [same_eq x y h.1, sameItems_eq xs ys h.2]

theorem sameFields_eq : ∀ a b : List (String × Value), sameFields a b = true → a = b
  | [], b, h => by cases b <;> simp_all [sameFields]
  | (k, v) :: xs, b, h => by
    cases b with
    | nil => simp [sameFields] at h
    | cons y ys =>
      obtain ⟨k', v'⟩ := y
      simp only [sameFields, Bool.and_eq_true, beq_iff_eq] at h
      rw [h.1.1, same_eq v v' h.1.2, sameFields_eq xs ys h.2]

end

mutual

theorem same_refl : ∀ a : Value, same a a = true
  | .null | .bool _ | .number _ | .string _ => by simp [same]
  | .array xs => by simp [same, sameItems_refl xs]
  | .object xs => by simp [same, sameFields_refl xs]

theorem sameItems_refl : ∀ a : List Value, sameItems a a = true
  | [] => by simp [sameItems]
  | x :: xs => by simp [sameItems, same_refl x, sameItems_refl xs]

theorem sameFields_refl : ∀ a : List (String × Value), sameFields a a = true
  | [] => by simp [sameFields]
  | (k, v) :: xs => by simp [sameFields, same_refl v, sameFields_refl xs]

end

theorem same_iff (a b : Value) : same a b = true ↔ a = b :=
  ⟨same_eq a b, by rintro rfl; exact same_refl a⟩

instance : DecidableEq Value := fun a b => decidable_of_iff _ (same_iff a b)

def isNull : Value → Bool
  | .null => true
  | _ => false

def asStr : Value → Option String
  | .string s => some s
  | _ => none

def asI64 : Value → Option Int
  | .number (.posInt n) => if n.val < 2 ^ 63 then some n.val else none
  | .number (.negInt n) => some (-(n.val : Int) - 1)
  | _ => none

mutual

/-- `==` on values. It disregards the order of the keys of an object and the sign of a
float zero, so it is coarser than equality of the stored values. -/
def partialEq : Value → Value → Bool
  | .null, .null => true
  | .bool a, .bool b => a == b
  | .number a, .number b => a.partialEq b
  | .string a, .string b => a == b
  | .array xs, .array ys => partialEqItems xs ys
  | .object xs, .object ys => xs.length == ys.length && partialEqFields xs ys
  | _, _ => false

def partialEqItems : List Value → List Value → Bool
  | [], [] => true
  | x :: xs, y :: ys => partialEq x y && partialEqItems xs ys
  | _, _ => false

/-- Every field of the first object has an equal one in the second. Keys are unique in
an object, so a field with the key is the field with the key. -/
def partialEqFields : List (String × Value) → List (String × Value) → Bool
  | [], _ => true
  | (k, v) :: xs, ys => ys.any (fun field => field.1 == k && partialEq v field.2) && partialEqFields xs ys

end

theorem partialEqFields_of_mem (xs ys : List (String × Value))
    (each : ∀ field ∈ xs, field ∈ ys ∧ partialEq field.2 field.2 = true) :
    partialEqFields xs ys = true := by
  induction xs with
  | nil => simp [partialEqFields]
  | cons x xs ih =>
    obtain ⟨k, v⟩ := x
    have here := each (k, v) (by simp)
    have rest := ih fun field member => each field (by simp [member])
    simp only [partialEqFields, rest, Bool.and_true, List.any_eq_true]
    exact ⟨(k, v), here.1, by simp [here.2]⟩

mutual

theorem partialEq_refl : ∀ a : Value, partialEq a a = true
  | .null | .bool _ | .string _ => by simp [partialEq]
  | .number n => by simp [partialEq, Number.partialEq_refl n]
  | .array xs => by simp [partialEq, partialEqItems_refl xs]
  | .object xs => by
    have fields := partialEqFields_of_mem xs xs fun field member =>
      ⟨member, partialEq_refl_fields xs field member⟩
    simp [partialEq, fields]

theorem partialEqItems_refl : ∀ a : List Value, partialEqItems a a = true
  | [] => by simp [partialEqItems]
  | x :: xs => by simp [partialEqItems, partialEq_refl x, partialEqItems_refl xs]

theorem partialEq_refl_fields : ∀ (xs : List (String × Value)), ∀ field ∈ xs,
    partialEq field.2 field.2 = true
  | [], field, member => by simp at member
  | (k, v) :: xs, field, member => by
    rcases List.mem_cons.mp member with rfl | member
    · exact partialEq_refl v
    · exact partialEq_refl_fields xs field member

end

def optPartialEq : Option Value → Option Value → Bool
  | none, none => true
  | some a, some b => a.partialEq b
  | _, _ => false

@[simp] theorem optPartialEq_refl (a : Option Value) : optPartialEq a a = true := by
  cases a with
  | none => rfl
  | some a => simp [optPartialEq, partialEq_refl]

/-- Two objects that differ only in the order of their keys are equal and distinct. -/
example : partialEq (.object [("a", .null), ("b", .bool true)]) (.object [("b", .bool true), ("a", .null)]) =
    true ∧ Value.object [("a", .null), ("b", .bool true)] ≠ .object [("b", .bool true), ("a", .null)] := by
  decide

end Value

end Durare
