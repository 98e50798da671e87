import TmuxWorktree.Lib.Grammar
/-!
# Parser — the strict JSON parser (`strictJson.ts`)

The offset into the source is what is left of it.  A parser that only inspects builds no arrays and no objects, and an
`undefined` value is `none`.
-/
namespace TmuxWorktree
namespace Strict

open Utf16 Grammar

/-- `RelayV2JsonFailureClass`, less the one of the UTF-8 decoder. -/
inductive JsonFailureClass where
  | duplicateKey
  | jsonDepthLimit
  | jsonDirectKeyLimit
  | jsonTotalKeyLimit
  | jsonNodeLimit
  | malformedJson
  | nonObjectRoot
  | safeIntegerLimit
  | trailingJson
  deriving DecidableEq, Repr

/-- `RelayV2JsonLimits`. -/
structure Limits where
  maxDepth : Nat
  maxDirectKeys : Nat
  maxTotalKeys : Nat
  maxNodes : Nat

/-- `RelayV2JsonInspection`. -/
structure Inspection where
  rootIsObject : Bool
  rootType : Option Text
  totalKeys : Nat
  totalNodes : Nat
  deriving DecidableEq

/-- The fields of a parser that change. -/
structure Parser where
  rest : Text
  totalKeys : Nat := 0
  totalNodes : Nat := 0
  rootType : Option Text := none
  rootIsObject : Bool := false

/-- A parse that fails; it has no failure class if it ran out of steps. -/
abbrev Parse (α : Type) := Except (Option JsonFailureClass) α

def fail {α : Type} (failureClass : JsonFailureClass) : Parse α := .error (some failureClass)

def maxSafeInteger : Nat := 9007199254740991

/-! ## Whitespace and literals -/

def skipWhitespace (p : Parser) : Parser := { p with rest := p.rest.dropWhile isSpace }

/-- `parseLiteral`; the parser stands on its first letter. -/
def parseLiteral (text : Text) (value : Value) (p : Parser) : Parse (Option Value × Parser) :=
  if p.rest.take text.length = text then .ok (some value, { p with rest := p.rest.drop text.length })
  else fail .malformedJson

/-! ## Strings -/

/-- The loop of `parseString`, after the opening quote: the string as it is written, and what follows its closing quote. -/
def scanString : Text → Option (Text × Text)
  | [] => none
  | c :: s =>
    if c.val = 0x22 then some ([], s)
    else if c.val < 0x20 then none
    else if c.val = 0x5C then
      match s with
      | [] => none
      | e :: s =>
        if e.val = 0x75 then
          match s with
          | x :: y :: z :: w :: s =>
            if [x, y, z, w].all (fun d => (hexDigit d).isSome) then
              (scanString s).map fun (body, r) => (c :: e :: x :: y :: z :: w :: body, r)
            else none
          | _ => none
        else if [0x22, 0x5C, 0x2F, 0x62, 0x66, 0x6E, 0x72, 0x74].contains e.val then
          (scanString s).map fun (body, r) => (c :: e :: body, r)
        else none
    else (scanString s).map fun (body, r) => (c :: body, r)

/-- `JSON.parse` of a string between quotes. -/
def unescape : Text → Option Text
  | [] => some []
  | c :: s =>
    if c.val = 0x5C then
      match s with
      | [] => none
      | e :: s =>
        if e.val = 0x75 then
          match s with
          | x :: y :: z :: w :: s => do return (← hexUnit x y z w) :: (← unescape s)
          | _ => none
        else do return (← escaped e) :: (← unescape s)
    else if isPlain c then (unescape s).map (c :: ·)
    else none

def parseString (p : Parser) : Parse (Text × Parser) :=
  match scanString (p.rest.drop 1) with
  | none => fail .malformedJson
  | some (body, rest) =>
    match unescape body with
    | none => fail .malformedJson
    | some s => .ok (s, { p with rest := rest })

/-! ## Numbers -/

/-- `-?` -/
def matchMinus : Text → Bool × Text
  | c :: s => if c.val = 0x2D then (true, s) else (false, c :: s)
  | [] => (false, [])

/-- `(?:0|[1-9]\d*)` -/
def matchWhole : Text → Option (Text × Text)
  | c :: s =>
    if c.val = 0x30 then some ([c], s)
    else if isDigit c then some (c :: s.takeWhile isDigit, s.dropWhile isDigit)
    else none
  | [] => none

/-- `(?:\.\d+)?` -/
def matchFraction : Text → Option Text × Text
  | c :: s => if c.val = 0x2E && s.takeWhile isDigit ≠ [] then (some (s.takeWhile isDigit), s.dropWhile isDigit) else (none, c :: s)
  | [] => (none, [])

/-- `[+-]?` -/
def matchSign : Text → Bool × Text
  | c :: s => if c.val = 0x2B then (false, s) else if c.val = 0x2D then (true, s) else (false, c :: s)
  | [] => (false, [])

/-- `(?:[eE][+-]?\d+)?` -/
def matchExponent : Text → Option (Bool × Text) × Text
  | c :: s =>
    let (negative, s') := matchSign s
    if (c.val = 0x65 || c.val = 0x45) && s'.takeWhile isDigit ≠ [] then
      (some (negative, s'.takeWhile isDigit), s'.dropWhile isDigit)
    else (none, c :: s)
  | [] => (none, [])

/-- The regular expression of a number, and what follows its match. -/
def matchNumber (s : Text) : Option (Literal × Text) :=
  let (negative, s) := matchMinus s
  match matchWhole s with
  | none => none
  | some (whole, s) =>
    let (fraction, s) := matchFraction s
    let (exponent, s) := matchExponent s
    some (⟨negative, whole, fraction, exponent⟩, s)

def parseNumber (p : Parser) : Parse (Option Value × Parser) :=
  match matchNumber p.rest with
  | none => fail .malformedJson
  | some (l, rest) =>
    if l.isInteger && maxSafeInteger < l.significand then fail .safeIntegerLimit
    else
      match l.number with
      | none => fail .malformedJson
      | some d => .ok (some (.number d), { p with rest := rest })

/-! ## Values -/

section
variable (limits : Limits) (build : Bool)

def trueText : Text := [0x74, 0x72, 0x75, 0x65]

def falseText : Text := [0x66, 0x61, 0x6C, 0x73, 0x65]

def nullText : Text := [0x6E, 0x75, 0x6C, 0x6C]

def typeKey : Text := [0x74, 0x79, 0x70, 0x65]

example : [trueText, falseText, nullText, typeKey] = ["true", "false", "null", "type"].map ofString := by decide

/-- The `type` of the root. -/
def noteType (depth : Nat) (key : Text) (value : Option Value) (p : Parser) : Parser :=
  match value with
  | some (.string s) => if depth = 1 && key = typeKey then { p with rootType := some s } else p
  | _ => p

mutual

def parseValue : Nat → Nat → Bool → Parser → Parse (Option Value × Parser)
  | 0, _, _, _ => .error none
  | fuel + 1, depth, root, p =>
    let p := { p with totalNodes := p.totalNodes + 1 }
    if limits.maxNodes < p.totalNodes then fail .jsonNodeLimit
    else
      match p.rest with
      | 0x7B :: _ =>
        if limits.maxDepth < depth + 1 then fail .jsonDepthLimit
        else parseObject fuel (depth + 1) { p with rootIsObject := p.rootIsObject || root }
      | 0x5B :: _ => if limits.maxDepth < depth + 1 then fail .jsonDepthLimit else parseArray fuel (depth + 1) p
      | 0x22 :: _ => do
        let (s, p) ← parseString p
        return (some (.string s), p)
      | 0x74 :: _ => parseLiteral trueText (.bool true) p
      | 0x66 :: _ => parseLiteral falseText (.bool false) p
      | 0x6E :: _ => parseLiteral nullText .null p
      | _ => parseNumber p

def parseObject : Nat → Nat → Parser → Parse (Option Value × Parser)
  | 0, _, _ => .error none
  | fuel + 1, depth, p =>
    let p := skipWhitespace { p with rest := p.rest.drop 1 }
    match p.rest with
    | 0x7D :: rest => .ok (if build then some (.object []) else none, { p with rest := rest })
    | _ => parseMembers fuel depth [] [] p

/-- The loop of `parseObject`; `directKeys` is the number of the keys that it has seen. -/
def parseMembers : Nat → Nat → List Text → List (Text × Value) → Parser → Parse (Option Value × Parser)
  | 0, _, _, _, _ => .error none
  | fuel + 1, depth, seen, result, p =>
    match p.rest with
    | 0x22 :: _ => do
      let (key, p) ← parseString p
      if seen.contains key then fail .duplicateKey
      else if limits.maxDirectKeys < seen.length + 1 then fail .jsonDirectKeyLimit
      else
        let p := { p with totalKeys := p.totalKeys + 1 }
        if limits.maxTotalKeys < p.totalKeys then fail .jsonTotalKeyLimit
        else
          let p := skipWhitespace p
          match p.rest with
          | 0x3A :: rest =>
            let (value, p) ← parseValue fuel depth false (skipWhitespace { p with rest := rest })
            let p := skipWhitespace (noteType depth key value p)
            let result := result ++ (value.map (key, ·)).toList
            match p.rest with
            | 0x7D :: rest => .ok (if build then some (.object result) else none, { p with rest := rest })
            | 0x2C :: rest => parseMembers fuel depth (key :: seen) result (skipWhitespace { p with rest := rest })
            | _ => fail .malformedJson
          | _ => fail .malformedJson
    | _ => fail .malformedJson

def parseArray : Nat → Nat → Parser → Parse (Option Value × Parser)
  | 0, _, _ => .error none
  | fuel + 1, depth, p =>
    let p := skipWhitespace { p with rest := p.rest.drop 1 }
    match p.rest with
    | 0x5D :: rest => .ok (if build then some (.array []) else none, { p with rest := rest })
    | _ => parseElements fuel depth [] p

def parseElements : Nat → Nat → List Value → Parser → Parse (Option Value × Parser)
  | 0, _, _, _ => .error none
  | fuel + 1, depth, result, p =>
    match p.rest with
    | [] => fail .malformedJson
    | _ :: _ => do
      let (value, p) ← parseValue fuel depth false p
      let p := skipWhitespace p
      let result := result ++ value.toList
      match p.rest with
      | 0x5D :: rest => .ok (if build then some (.array result) else none, { p with rest := rest })
      | 0x2C :: rest => parseElements fuel depth result (skipWhitespace { p with rest := rest })
      | _ => fail .malformedJson

end

/-- The steps that the values of a text can take. -/
def steps (source : Text) : Nat := 3 * source.length + 3

def parseDocument (source : Text) : Parse (Option Value × Parser) := do
  let p := skipWhitespace { rest := source }
  if p.rest = [] then fail .malformedJson
  else
    let (value, p) ← parseValue limits build (steps source) 0 true p
    let p := skipWhitespace p
    if p.rest = [] then .ok (value, p) else fail .trailingJson

end

def inspectRelayV2Json (source : Text) (limits : Limits) : Parse Inspection := do
  let (_, p) ← parseDocument limits false source
  return ⟨p.rootIsObject, p.rootType, p.totalKeys, p.totalNodes⟩

def parseRelayV2JsonObject (source : Text) (limits : Limits) : Parse (List (Text × Value)) := do
  let (value, p) ← parseDocument limits true source
  match value with
  | some (.object fields) => if p.rootIsObject then .ok fields else fail .nonObjectRoot
  | _ => fail .nonObjectRoot

end Strict
end TmuxWorktree
