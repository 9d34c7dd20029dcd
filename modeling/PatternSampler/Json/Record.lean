import PatternSampler.Json.Reader
/-!
# Typed reading of JSON values

Decoders from JSON values to the types of the library.  A record reads from an object, where
unknown keys are skipped and a known key may occur once, or from an array of its fields in order.
-/
set_option autoImplicit false

namespace PatternSampler.Json

/-! ## Plain values -/

/-- A truth value. -/
def toBool? : Json → Option Bool
  | .bool b => some b
  | _ => none

/-- A text. -/
def toText? : Json → Option String
  | .text s => some s
  | _ => none

/-- A text of exactly one character. -/
def toChar? : Json → Option Char
  | .text s =>
    match s.toList with
    | [c] => some c
    | _ => none
  | _ => none

/-- A signed 32 bit integer. -/
def toInt32? : Json → Option Int32
  | .int n => if -2147483648 ≤ n ∧ n ≤ 2147483647 then some (Int32.ofInt n) else none
  | _ => none

/-- An unsigned 64 bit integer. -/
def toUInt64? : Json → Option UInt64
  | .int n => if 0 ≤ n ∧ n < 18446744073709551616 then some (UInt64.ofNat n.toNat) else none
  | _ => none

/-- A list of values, each read by `f`. -/
def toList? {α : Type} (f : Json → Option α) : Json → Option (List α)
  | .arr elements => elements.mapM f
  | _ => none

/-! ## Records -/

/-- The value of a key that occurs at most once; `none` if it occurs twice. -/
def field? (members : List (String × Json)) (key : String) : Option (Option Json) :=
  match members.filter (·.1 == key) with
  | [] => some none
  | [(_, v)] => some (some v)
  | _ => none

/-- The fields of a record with the given keys, in their order. -/
def fields? (keys : List String) : Json → Option (List (Option Json))
  | .obj members => keys.mapM (field? members)
  | .arr elements =>
    if elements.length ≤ keys.length then
      some (elements.map some ++ List.replicate (keys.length - elements.length) none)
    else none
  | _ => none

/-- A field that may be missing. -/
def optional {α : Type} (f : Json → Option α) (default : α) : Option Json → Option α
  | none => some default
  | some v => f v

/-- A field that must be there. -/
def required {α : Type} (f : Json → Option α) : Option Json → Option α
  | none => none
  | some v => f v

end PatternSampler.Json
