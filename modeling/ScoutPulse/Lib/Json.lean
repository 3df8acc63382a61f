import ScoutPulse.Lib.Binary64
import ScoutPulse.Lib.Strings

/-!
# JSON texts

A JSON text denotes a tree in which an object keeps its members in order of
appearance, repeated keys included: two readers of one text may differ on what
such an object means, but not on the tree. Strings are read as `encoding/json`
reads them, an escaped surrogate without its partner becoming U+FFFD, and a number
is kept as its decimal literal until a reader rounds it.
-/

/-- A decimal literal: a sign, the digits as one number, and a power of ten. -/
structure JsonNumber where
  negative : Bool
  digits : ℕ
  exponent : ℤ
  deriving DecidableEq, Repr

/-- The number a literal denotes. -/
def JsonNumber.value (n : JsonNumber) : ℚ :=
  (if n.negative then -1 else 1) * n.digits * 10 ^ n.exponent

inductive Json where
  | null
  | bool (b : Bool)
  | num (n : JsonNumber)
  | str (s : String)
  | arr (items : List Json)
  | obj (members : List (String × Json))

namespace Json

mutual

/-- Every number of the tree is a finite double, which is when `encoding/json`
decodes it into an `any`. -/
def finite : Json → Bool
  | .num n => (Binary64.ofRat n.value).isSome
  | .arr items => finiteAll items
  | .obj members => finiteMembers members
  | _ => true

def finiteAll : List Json → Bool
  | [] => true
  | item :: items => item.finite && finiteAll items

def finiteMembers : List (String × Json) → Bool
  | [] => true
  | (_, value) :: members => value.finite && finiteMembers members

end

mutual

/-- The tree a `jsonb` column keeps: of a repeated key, the last value. -/
def jsonb : Json → Json
  | .arr items => .arr (jsonbAll items)
  | .obj members => .obj (jsonbMembers members)
  | value => value

def jsonbAll : List Json → List Json
  | [] => []
  | item :: items => item.jsonb :: jsonbAll items

def jsonbMembers : List (String × Json) → List (String × Json)
  | [] => []
  | (key, value) :: members =>
      if key ∈ members.map Prod.fst then jsonbMembers members
      else (key, value.jsonb) :: jsonbMembers members

end

/-! ## Reading a text -/

/-- `maxNestingDepth` of `encoding/json`. -/
def maxNestingDepth : ℕ := 10000

def isWhitespace (c : Char) : Bool := c = ' ' || c = '\t' || c = '\r' || c = '\n'

def skipSpace (cs : List Char) : List Char := cs.dropWhile isWhitespace

def hexValue (c : Char) : Option ℕ :=
  if c.isDigit then some (c.toNat - 0x30)
  else if 'a' ≤ c ∧ c ≤ 'f' then some (c.toNat - 0x57)
  else if 'A' ≤ c ∧ c ≤ 'F' then some (c.toNat - 0x37)
  else none

/-- Four hexadecimal digits. -/
def readHex4 : List Char → Option (ℕ × List Char)
  | a :: b :: c :: d :: cs => do
      let a ← hexValue a
      let b ← hexValue b
      let c ← hexValue c
      let d ← hexValue d
      some (((a * 16 + b) * 16 + c) * 16 + d, cs)
  | _ => none

/-- The rune of a `\u` escape whose first unit is `unit`: a surrogate pair, or the
unit itself, or U+FFFD for a surrogate that has no partner. -/
def decodeUnit (unit : ℕ) (cs : List Char) : Char × List Char :=
  if 0xD800 ≤ unit ∧ unit < 0xE000 then
    match cs with
    | '\\' :: 'u' :: rest =>
        match readHex4 rest with
        | some (low, after) =>
            if unit < 0xDC00 ∧ 0xDC00 ≤ low ∧ low < 0xE000 then
              (Char.ofNat (0x10000 + (unit - 0xD800) * 0x400 + (low - 0xDC00)), after)
            else (Char.ofNat 0xFFFD, cs)
        | none => (Char.ofNat 0xFFFD, cs)
    | _ => (Char.ofNat 0xFFFD, cs)
  else (Char.ofNat unit, cs)

def escapedRune : Char → Option Char
  | '"' => some '"'
  | '\\' => some '\\'
  | '/' => some '/'
  | 'b' => some (Char.ofNat 8)
  | 'f' => some (Char.ofNat 12)
  | 'n' => some '\n'
  | 'r' => some '\r'
  | 't' => some '\t'
  | _ => none

/-- The rest of a string after its opening quote; `read` is what was read, reversed. -/
def readString : ℕ → List Char → List Char → Option (String × List Char)
  | 0, _, _ => none
  | fuel + 1, read, cs =>
      match cs with
      | '"' :: rest => some (String.ofList read.reverse, rest)
      | '\\' :: 'u' :: rest => do
          let (unit, rest) ← readHex4 rest
          let (rune, rest) := decodeUnit unit rest
          readString fuel (rune :: read) rest
      | '\\' :: c :: rest => do
          let rune ← escapedRune c
          readString fuel (rune :: read) rest
      | c :: rest => if c.toNat < 0x20 then none else readString fuel (c :: read) rest
      | [] => none

def digitsValue (digits : List Char) : ℕ :=
  digits.foldl (fun value c => value * 10 + (c.toNat - 0x30)) 0

/-- A number: no leading zero, at least one digit after a point or an exponent mark. -/
def readNumber (cs : List Char) : Option (JsonNumber × List Char) := do
  let (negative, cs) := match cs with
    | '-' :: rest => (true, rest)
    | _ => (false, cs)
  let (whole, cs) := cs.span Char.isDigit
  if whole = [] ∨ (whole.head? = some '0' ∧ 1 < whole.length) then none
  let (fraction, cs) ← match cs with
    | '.' :: rest =>
        let (fraction, rest) := rest.span Char.isDigit
        if fraction = [] then none else some (fraction, rest)
    | _ => some ([], cs)
  let (exponent, cs) ← match cs with
    | c :: rest =>
        if c = 'e' ∨ c = 'E' then
          let (sign, rest) := match rest with
            | '-' :: rest => ((-1 : ℤ), rest)
            | '+' :: rest => (1, rest)
            | _ => (1, rest)
          let (digits, rest) := rest.span Char.isDigit
          if digits = [] then none else some (sign * digitsValue digits, rest)
        else some (0, cs)
    | [] => some (0, [])
  some (⟨negative, digitsValue (whole ++ fraction), exponent - fraction.length⟩, cs)

mutual

/-- One value; every call spends fuel, and `depth` counts the open brackets. -/
def readValue : ℕ → ℕ → List Char → Option (Json × List Char)
  | 0, _, _ => none
  | fuel + 1, depth, cs =>
      match skipSpace cs with
      | 'n' :: 'u' :: 'l' :: 'l' :: rest => some (.null, rest)
      | 't' :: 'r' :: 'u' :: 'e' :: rest => some (.bool true, rest)
      | 'f' :: 'a' :: 'l' :: 's' :: 'e' :: rest => some (.bool false, rest)
      | '"' :: rest => do
          let (s, rest) ← readString (rest.length + 1) [] rest
          some (.str s, rest)
      | '[' :: rest =>
          if maxNestingDepth ≤ depth then none
          else match skipSpace rest with
            | ']' :: after => some (.arr [], after)
            | _ => do
                let (items, rest) ← readItems fuel (depth + 1) rest
                some (.arr items, rest)
      | '{' :: rest =>
          if maxNestingDepth ≤ depth then none
          else match skipSpace rest with
            | '}' :: after => some (.obj [], after)
            | _ => do
                let (members, rest) ← readMembers fuel (depth + 1) rest
                some (.obj members, rest)
      | rest => do
          let (n, rest) ← readNumber rest
          some (.num n, rest)

def readItems : ℕ → ℕ → List Char → Option (List Json × List Char)
  | 0, _, _ => none
  | fuel + 1, depth, cs => do
      let (item, rest) ← readValue fuel depth cs
      match skipSpace rest with
      | ',' :: rest => do
          let (items, rest) ← readItems fuel depth rest
          some (item :: items, rest)
      | ']' :: rest => some ([item], rest)
      | _ => none

def readMembers : ℕ → ℕ → List Char → Option (List (String × Json) × List Char)
  | 0, _, _ => none
  | fuel + 1, depth, cs =>
      match skipSpace cs with
      | '"' :: rest => do
          let (key, rest) ← readString (rest.length + 1) [] rest
          match skipSpace rest with
          | ':' :: rest => do
              let (value, rest) ← readValue fuel depth rest
              match skipSpace rest with
              | ',' :: rest => do
                  let (members, rest) ← readMembers fuel depth rest
                  some ((key, value) :: members, rest)
              | '}' :: rest => some ([(key, value)], rest)
              | _ => none
          | _ => none
      | _ => none

end

/-- The tree of a text, when the whole of it is one JSON value. A value takes at
least one character, and each call of a reader consumes one or leads to a call
that does, so twice the length is fuel enough. -/
def parse (text : String) : Option Json :=
  let cs := text.toList
  match readValue (2 * cs.length + 1) 0 cs with
  | some (value, rest) => if skipSpace rest = [] then some value else none
  | none => none

end Json
