import ScoutPulse.Lib.Json
import Mathlib.Data.List.Infix
import Mathlib.Tactic.Linarith

/-!
# Values of JavaScript

What a program gets when it reads a JSON document it has not checked. A number may be
infinite or not a number; an operator coerces what it is given, to a number or to a text,
and throws when the coercion does; a property access finds a member of the value, or one
that the value inherits from the language. Arithmetic is exact, so a finite operation
never overflows, and there is one zero.
-/

namespace Js

/-! ## Numbers -/

inductive Number
  | nan
  | infinite (negative : Bool)
  | finite (x : ℚ)
  deriving DecidableEq, Repr

namespace Number

def isFinite : Number → Bool
  | finite _ => true
  | _ => false

def neg : Number → Number
  | nan => nan
  | infinite negative => infinite (!negative)
  | finite x => finite (-x)

def add : Number → Number → Number
  | finite x, finite y => finite (x + y)
  | infinite a, infinite b => if a = b then infinite a else nan
  | infinite a, finite _ => infinite a
  | finite _, infinite b => infinite b
  | _, _ => nan

/-- An infinity times or over a number of some sign. -/
def signed (negative : Bool) (x : ℚ) : Number :=
  if x = 0 then nan else infinite (negative ^^ decide (x < 0))

def mul : Number → Number → Number
  | finite x, finite y => finite (x * y)
  | infinite a, infinite b => infinite (a ^^ b)
  | infinite a, finite y => signed a y
  | finite x, infinite b => signed b x
  | _, _ => nan

def div : Number → Number → Number
  | finite x, finite y => if y = 0 then signed false x else finite (x / y)
  | infinite a, finite y => infinite (a ^^ decide (y < 0))
  | finite _, infinite _ => finite 0
  | _, _ => nan

instance : Neg Number := ⟨neg⟩
instance : Add Number := ⟨add⟩
instance : Sub Number := ⟨fun a b => a + -b⟩
instance : Mul Number := ⟨mul⟩
instance : Div Number := ⟨div⟩

/-- `a < b`. -/
def lt : Number → Number → Bool
  | finite x, finite y => x < y
  | infinite a, infinite b => a && !b
  | infinite a, finite _ => a
  | finite _, infinite b => !b
  | _, _ => false

/-- `a <= b`. -/
def le : Number → Number → Bool
  | nan, _ => false
  | _, nan => false
  | a, b => !b.lt a

/-- `Math.max`. -/
def max : Number → Number → Number
  | nan, _ => nan
  | _, nan => nan
  | a, b => if a.lt b then b else a

/-- `Math.min`. -/
def min : Number → Number → Number
  | nan, _ => nan
  | _, nan => nan
  | a, b => if b.lt a then b else a

/-- `Math.PI`. -/
def pi : Number := finite (884279719003555 / 281474976710656)

variable {a b : Number} {x y : ℚ}

theorem isFinite_iff : a.isFinite = true ↔ ∃ x, a = finite x := by
  cases a <;> simp [isFinite]

@[simp] theorem isFinite_finite : (finite x).isFinite = true := rfl

@[simp] theorem finite_add : finite x + finite y = finite (x + y) := rfl

@[simp] theorem neg_finite : -finite x = finite (-x) := rfl

@[simp] theorem finite_sub : finite x - finite y = finite (x - y) :=
  congrArg finite (sub_eq_add_neg x y).symm

@[simp] theorem finite_mul : finite x * finite y = finite (x * y) := rfl

theorem finite_div (nonzero : y ≠ 0) : finite x / finite y = finite (x / y) :=
  if_neg nonzero

@[simp] theorem finite_lt : (finite x).lt (finite y) = decide (x < y) := rfl

@[simp] theorem finite_le : (finite x).le (finite y) = decide (x ≤ y) := by
  simp only [le, finite_lt, ← decide_not, not_lt]

@[simp] theorem finite_max : (finite x).max (finite y) = finite (Max.max x y) := by
  by_cases less : x < y
  · simp [max, less, max_eq_right less.le]
  · simp [max, less, max_eq_left (not_lt.mp less)]

@[simp] theorem finite_min : (finite x).min (finite y) = finite (Min.min x y) := by
  by_cases less : y < x
  · simp [min, less, min_eq_right less.le]
  · simp [min, less, min_eq_left (not_lt.mp less)]

/-- What is not finite stays so, whatever is added. -/
@[simp] theorem isFinite_add : (a + b).isFinite = (a.isFinite && b.isFinite) := by
  cases a with
  | nan => cases b <;> rfl
  | finite x => cases b <;> rfl
  | infinite first =>
      cases b with
      | nan => rfl
      | finite y => rfl
      | infinite second =>
          change (if first = second then infinite first else nan).isFinite = false
          split_ifs <;> rfl

@[simp] theorem isFinite_neg : (-a).isFinite = a.isFinite := by
  cases a <;> rfl

@[simp] theorem isFinite_sub : (a - b).isFinite = (a.isFinite && b.isFinite) := by
  change (a + -b).isFinite = _
  rw [isFinite_add, isFinite_neg]

theorem isFinite_signed {negative : Bool} : (signed negative x).isFinite = false := by
  unfold signed
  split_ifs <;> rfl

/-- Zero times an infinity is not a number either. -/
@[simp] theorem isFinite_mul : (a * b).isFinite = (a.isFinite && b.isFinite) := by
  cases a with
  | nan => cases b <;> rfl
  | finite x =>
      cases b with
      | nan => rfl
      | finite y => rfl
      | infinite negative => exact isFinite_signed
  | infinite negative =>
      cases b with
      | nan => rfl
      | infinite other => rfl
      | finite y => exact isFinite_signed

/-- The larger of a number and a finite one: a negative infinity loses. -/
theorem isFinite_max : ((finite x).max a).isFinite = true ↔ a ≠ nan ∧ a ≠ infinite false := by
  cases a with
  | nan => simp [max, isFinite]
  | infinite negative => cases negative <;> simp [max, lt, isFinite]
  | finite y => simp

/-- What survives the comparison is at least the finite bound. -/
theorem max_eq_finite (survives : a ≠ nan ∧ a ≠ infinite false) :
    ∃ y, (finite x).max a = finite y ∧ x ≤ y := by
  obtain ⟨y, whole⟩ := isFinite_iff.mp (isFinite_max.mpr survives)
  refine ⟨y, whole, ?_⟩
  cases a with
  | nan => exact absurd rfl survives.1
  | infinite negative =>
      cases negative with
      | false => exact absurd rfl survives.2
      | true => simp_all [max, lt]
  | finite z =>
      rw [finite_max, finite.injEq] at whole
      exact whole ▸ le_max_left x z

end Number

open Number

/-- What the standard leaves to the implementation, and the text of a number. -/
class Implementation where
  /-- `Math.cos`. -/
  cos : ℚ → ℚ
  /-- `Math.hypot`. -/
  hypot : ℚ → ℚ → ℚ
  /-- `Math.atan2`. -/
  atan2 : Number → Number → Number
  /-- `String(x)`. -/
  numberText : ℚ → String

section Functions

variable [Implementation]

/-- `Math.cos`. -/
def cos : Number → Number
  | finite x => finite (Implementation.cos x)
  | _ => nan

/-- `Math.hypot`. -/
def hypot : Number → Number → Number
  | finite x, finite y => finite (Implementation.hypot x y)
  | infinite _, _ => infinite false
  | _, infinite _ => infinite false
  | _, _ => nan

/-- `String(n)`. -/
def numberText : Number → String
  | nan => "NaN"
  | infinite negative => if negative then "-Infinity" else "Infinity"
  | finite x => Implementation.numberText x

@[simp] theorem isFinite_cos {a : Number} : (cos a).isFinite = a.isFinite := by
  cases a <;> rfl

end Functions

/-! ## Members -/

/-- The members of an object, in order of appearance. Of a repeated key the last counts,
so that an object spread over another is written after it. -/
abbrev Members := List (String × Json)

/-- `o[key]`, of the object's own members. -/
def member (members : Members) (key : String) : Option Json := members.reverse.lookup key

/-- `{...base, ...over}`. -/
def spread (base top : Members) : Members := base ++ top

theorem member_spread {base top : Members} {key : String} :
    member (spread base top) key = (member top key).or (member base key) := by
  rw [member, spread, List.reverse_append, List.lookup_append]
  rfl

/-- What a value inherits from `Object.prototype`. -/
def objectPrototype : List String :=
  ["constructor", "__defineGetter__", "__defineSetter__", "hasOwnProperty", "__lookupGetter__",
    "__lookupSetter__", "isPrototypeOf", "propertyIsEnumerable", "toString", "valueOf",
    "__proto__", "toLocaleString"]

/-- And an array from `Array.prototype`. -/
def arrayPrototype : List String :=
  ["at", "concat", "copyWithin", "entries", "every", "fill", "filter", "find", "findIndex",
    "findLast", "findLastIndex", "flat", "flatMap", "forEach", "includes", "indexOf", "join",
    "keys", "lastIndexOf", "map", "pop", "push", "reduce", "reduceRight", "reverse", "shift",
    "slice", "some", "sort", "splice", "toReversed", "toSorted", "toSpliced", "unshift",
    "values", "with"]

def stringPrototype : List String :=
  ["anchor", "at", "big", "blink", "bold", "charAt", "charCodeAt", "codePointAt", "concat",
    "endsWith", "fixed", "fontcolor", "fontsize", "includes", "indexOf", "isWellFormed",
    "italics", "lastIndexOf", "link", "localeCompare", "match", "matchAll", "normalize",
    "padEnd", "padStart", "repeat", "replace", "replaceAll", "search", "slice", "small",
    "split", "startsWith", "strike", "sub", "substr", "substring", "sup", "toLocaleLowerCase",
    "toLocaleUpperCase", "toLowerCase", "toUpperCase", "toWellFormed", "trim", "trimEnd",
    "trimLeft", "trimRight", "trimStart"]

def numberPrototype : List String := ["toExponential", "toFixed", "toPrecision"]

/-- What a property access finds: a value of the document, or a function or an object of
the language that is inherited. -/
inductive Held
  | own (v : Json)
  | inherited

/-- A key that counts the entries of an array. -/
def arrayIndex (key : String) : Option ℕ := key.toNat?.filter fun n => toString n = key

/-- The UTF-16 units of a text, each a text of its own. A half of a pair is U+FFFD. -/
def units (s : String) : List Json :=
  s.toList.flatMap fun c =>
    if c.toNat < 0x10000 then [.str (String.singleton c)]
    else List.replicate 2 (.str (String.singleton (Char.ofNat 0xFFFD)))

/-- A property of a list of entries: one of them, their number, or what the language has. -/
def getEntry (entries : List Json) (prototype : List String) (key : String) : Option Held :=
  match arrayIndex key with
  | some i => entries[i]?.map .own
  | none =>
      if key = "length" then some (.own (.num ⟨false, entries.length, 0⟩))
      else if key ∈ prototype ++ objectPrototype then some .inherited
      else none

/-- `v[key]`, `none` when it is undefined. -/
def get : Json → String → Option Held
  | .null, _ => none
  | .bool _, key => if key ∈ objectPrototype then some .inherited else none
  | .num _, key => if key ∈ numberPrototype ++ objectPrototype then some .inherited else none
  | .str s, key => getEntry (units s) stringPrototype key
  | .arr items, key => getEntry items arrayPrototype key
  | .obj members, key =>
      match member members key with
      | some v => some (.own v)
      | none => if key ∈ objectPrototype then some .inherited else none

/-- `v[i]`: nothing is inherited under a number. -/
def Held.index : Held → ℕ → Option Json
  | .own (.arr items), i => items[i]?
  | .own (.str s), i => (units s)[i]?
  | .own (.obj members), i => member members (toString i)
  | _, _ => none

def truthy : Json → Bool
  | .null => false
  | .bool b => b
  | .num n => n.value ≠ 0
  | .str s => s ≠ ""
  | _ => true

def Held.truthy : Held → Bool
  | .own v => Js.truthy v
  | .inherited => true

/-! ## Coercions -/

/-- What a program can throw. -/
inductive Thrown
  | typeError
  deriving DecidableEq, Repr

/-- White space and line ends. -/
def whiteSpace (c : Char) : Bool :=
  let n := c.toNat
  (9 ≤ n && n ≤ 13) || n == 0x20 || n == 0xA0 || n == 0x1680 || (0x2000 ≤ n && n ≤ 0x200A) ||
    n == 0x2028 || n == 0x2029 || n == 0x202F || n == 0x205F || n == 0x3000 || n == 0xFEFF

/-- At least one digit of a base, and nothing else. -/
def digitsIn (base : ℕ) (cs : List Char) : Option ℕ :=
  if cs = [] then none
  else cs.foldlM (fun n c => do
    let d ← Json.hexValue c
    if d < base then some (n * base + d) else none) 0

/-- What follows the digits of a decimal: an exponent, or nothing. -/
def exponentPart : List Char → Option ℤ
  | [] => some 0
  | e :: cs =>
      if e = 'e' ∨ e = 'E' then
        match cs with
        | '-' :: digits => (digitsIn 10 digits).map fun n => -(n : ℤ)
        | '+' :: digits => (digitsIn 10 digits).map (↑)
        | digits => (digitsIn 10 digits).map (↑)
      else none

/-- A decimal without a sign: digits on at least one side of its point. -/
def unsignedDecimal (cs : List Char) : Number :=
  let whole := cs.takeWhile Char.isDigit
  let rest := cs.dropWhile Char.isDigit
  let fraction := if rest.head? = some '.' then rest.tail.takeWhile Char.isDigit else []
  let rest := if rest.head? = some '.' then rest.tail.dropWhile Char.isDigit else rest
  if cs = "Infinity".toList then infinite false
  else if whole = [] ∧ fraction = [] then nan
  else match exponentPart rest with
    | some e => finite (Json.digitsValue (whole ++ fraction) * 10 ^ (e - fraction.length))
    | none => nan

/-- `Number(s)`. -/
def stringToNumber (s : String) : Number :=
  let inBase (base : ℕ) (digits : List Char) : Number :=
    match digitsIn base digits with
    | some n => finite n
    | none => nan
  match ((s.toList.dropWhile whiteSpace).reverse.dropWhile whiteSpace).reverse with
  | [] => finite 0
  | '0' :: 'x' :: digits => inBase 16 digits
  | '0' :: 'X' :: digits => inBase 16 digits
  | '0' :: 'o' :: digits => inBase 8 digits
  | '0' :: 'O' :: digits => inBase 8 digits
  | '0' :: 'b' :: digits => inBase 2 digits
  | '0' :: 'B' :: digits => inBase 2 digits
  | '+' :: cs => unsignedDecimal cs
  | '-' :: cs => -unsignedDecimal cs
  | cs => unsignedDecimal cs

section Coercions

variable [Implementation]

mutual

/-- `String(v)`. No member of a document is a function, so an object of its own `toString`
has no text. -/
def toText : Json → Except Thrown String
  | .null => .ok "null"
  | .bool b => .ok (if b then "true" else "false")
  | .num n => .ok (Implementation.numberText n.value)
  | .str s => .ok s
  | .arr items => do
      let texts ← toTexts items
      .ok (",".intercalate texts)
  | .obj members =>
      match member members "toString" with
      | some _ => .error .typeError
      | none => .ok "[object Object]"

/-- The texts `join` puts together: nothing stands for null. -/
def toTexts : List Json → Except Thrown (List String)
  | [] => .ok []
  | .null :: items => do
      let rest ← toTexts items
      .ok ("" :: rest)
  | item :: items => do
      let first ← toText item
      let rest ← toTexts items
      .ok (first :: rest)

end

/-- `Number(v)`. -/
def toNumber : Option Json → Except Thrown Number
  | none => .ok nan
  | some .null => .ok (finite 0)
  | some (.bool b) => .ok (finite (if b then 1 else 0))
  | some (.num n) => .ok (finite n.value)
  | some (.str s) => .ok (stringToNumber s)
  | some v => do
      let text ← toText v
      .ok (stringToNumber text)

end Coercions

/-- `v?.includes(s)`: a call of what is not a function throws. -/
def includes : Option Json → String → Except Thrown Bool
  | none, _ => .ok false
  | some .null, _ => .ok false
  | some (.str text), s => .ok (decide (s.toList <:+: text.toList))
  | some (.arr items), s => .ok (items.any fun
      | .str item => item = s
      | _ => false)
  | some _, _ => .error .typeError

end Js
