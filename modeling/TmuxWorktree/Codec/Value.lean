import TmuxWorktree.Lib.Utf16
import TmuxWorktree.Lib.Base64
/-!
# Value — what the two parsers make of a JSON text

The host and the Android app parse a frame with the same strict grammar, and differ in what a number becomes: a double
in JavaScript; in Kotlin a `Long` if it was written without a fraction and an exponent, and a double otherwise.  Both let
a `\u` escape put a lone surrogate into a string.
-/
namespace TmuxWorktree
namespace Codec

open Utf16

/-! ## Numbers -/

def maxSafeInteger : Nat := 9007199254740991

/-- A finite double, `± mantissa * 2 ^ exponent`. -/
structure Double where
  negative : Bool
  mantissa : Nat
  exponent : Int
  mantissa_lt : mantissa < 2 ^ 53
  exponent_mem : -1074 ≤ exponent ∧ exponent ≤ 971
  deriving DecidableEq

namespace Double

def sign (d : Double) : Int := if d.negative then -1 else 1

/-- The value without its fraction. -/
def trunc (d : Double) : Int :=
  d.sign * (if 0 ≤ d.exponent then d.mantissa * 2 ^ d.exponent.toNat else d.mantissa / 2 ^ (-d.exponent).toNat)

def isInteger (d : Double) : Bool := 0 ≤ d.exponent || d.mantissa % 2 ^ (-d.exponent).toNat = 0

/-- `Object.is(value, -0)`. -/
def isNegativeZero (d : Double) : Bool := d.negative && d.mantissa = 0

/-- `Number.isSafeInteger`. -/
def isSafeInteger (d : Double) : Bool := d.isInteger && d.trunc.natAbs ≤ maxSafeInteger

end Double

/-- A number of a JSON text that both parsers accept. -/
inductive Number where
  /-- written without a fraction and an exponent -/
  | integer (negative : Bool) (magnitude : Nat) (safe : magnitude ≤ maxSafeInteger)
  | decimal (d : Double)
  deriving DecidableEq

/-- `Number(match[0])`: a safe integer is exact, and `-0` keeps its sign. -/
def Number.js : Number → Double
  | .integer negative magnitude safe => ⟨negative, magnitude, 0, by unfold maxSafeInteger at safe; omega, by decide⟩
  | .decimal d => d

/-- A `Number` of the JVM. -/
inductive KotlinNumber where
  | long (n : Int)
  | double (d : Double)
  deriving DecidableEq

/-- What `parseNumber` of `RelayV2StrictJson` returns. -/
def Number.kotlin : Number → KotlinNumber
  | .integer negative magnitude _ => .long (if negative then -magnitude else magnitude)
  | .decimal d => .double d

def minLong : Int := -9223372036854775808
def maxLong : Int := 9223372036854775807

/-- `Number.toLong`, which saturates. -/
def KotlinNumber.toLong : KotlinNumber → Int
  | .long n => n
  | .double d => max minLong (min maxLong d.trunc)

/-! ## Values -/

/-- V8 has no longer string. -/
def maxStringLength : Nat := 536870888

structure JsonString where
  units : List CodeUnit
  short : units.length ≤ maxStringLength
  deriving DecidableEq

/-- `RelayV2JsonValue`, and the `Any?` of the Kotlin parser.  An object has each key once. -/
inductive Value where
  | null
  | bool (b : Bool)
  | number (n : Number)
  | string (s : JsonString)
  | array (items : List Value)
  | object (fields : List (JsonString × Value))

abbrev Object := List (JsonString × Value)

/-- The value of a key. -/
def get? (o : Object) (name : String) : Option Value := (o.find? (fun e => e.1.units = ofString name)).map (·.2)

/-! ## Failures -/

inductive FailureClass where
  | forbiddenNull | typeCoercion | invalidArgument | idByteLimit | schemaMismatch | missingField | unknownField
  | nonCanonicalCounter | counterOverflow | nonCanonicalBase64 | base64DecodedLimit | nonCanonicalBase64Url
  deriving DecidableEq, Repr

abbrev Check (α : Type) := Except FailureClass α

/-- The value is rejected if the condition holds. -/
def rejectIf (c : Bool) (failureClass : FailureClass) : Check Unit := if c then throw failureClass else return ()

/-- The validator does not reject. -/
def Accepts {α : Type} (x : Check α) : Prop := ∃ a, x = .ok a

/-! ## Helpers that are the same in both languages -/

/-- `object`, `jsonObject`. -/
def object : Value → Check Object
  | .null => throw .forbiddenNull
  | .object o => return o
  | _ => throw .typeCoercion

/-- `exact`, `exactKeys`. -/
def exact (o : Object) (required optional : List String) : Check Unit := do
  rejectIf (required.any (fun key => (get? o key).isNone)) .missingField
  rejectIf (o.any (fun e => !(required ++ optional).any (fun key => e.1.units = ofString key))) .unknownField

/-- `field`, `required`. -/
def field (o : Object) (name : String) : Check Value :=
  match get? o name with
  | some v => return v
  | none => throw .missingField

/-- `booleanValue`, `jsonBoolean`. -/
def booleanValue : Value → Check Bool
  | .null => throw .forbiddenNull
  | .bool b => return b
  | _ => throw .typeCoercion

/-- `oneOf`, `jsonOneOf`. -/
def oneOf (allowed : List String) : Value → Check JsonString
  | .null => throw .forbiddenNull
  | .string s => do
    rejectIf (!allowed.any (fun a => ofString a = s.units)) .schemaMismatch
    return s
  | _ => throw .typeCoercion

/-- `array`, `jsonArray`: the validator goes through the items with what it has seen. -/
def array {σ : Type} (maximum : Nat) (validator : σ → Value → Check σ) (init : σ) : Value → Check Unit
  | .null => throw .forbiddenNull
  | .array items => do
    rejectIf (maximum < items.length) .invalidArgument
    let _ ← items.foldlM validator init
  | _ => throw .typeCoercion

/-- `nullable`, `jsonNullable`. -/
def nullable {α : Type} (validator : Value → Check α) : Value → Check (Option α)
  | .null => return none
  | v => do
    let a ← validator v
    return some a

/-- The check of an optional key. -/
def ifPresent {α : Type} (o : Object) (name : String) (validator : Value → Check α) : Check Unit :=
  match get? o name with
  | some v => do
    let _ ← validator v
  | none => return ()

end Codec
end TmuxWorktree
