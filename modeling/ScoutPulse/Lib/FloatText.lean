import ScoutPulse.Lib.Binary64

/-!
# Numbers in text

What `strconv.ParseFloat` makes of a text in 64 bits: decimal and hexadecimal numbers,
underscores between digits, infinities and not-a-number in any case. A number too large for
a double is an error, as a malformed text is. Of two zeros only one is kept.
-/

/-- A double. -/
inductive Double
  | nan
  | infinite (negative : Bool)
  | finite (q : ℚ)
  deriving DecidableEq

namespace Double

/-- `math.IsNaN`. -/
def isNaN : Double → Bool
  | nan => true
  | _ => false

/-- Whether it is below zero. -/
def isNegative : Double → Bool
  | nan => false
  | infinite negative => negative
  | finite q => q < 0

/-- The nearest integer, halves away from zero. -/
def roundHalfAway (q : ℚ) : ℤ := if q < 0 then -⌊-q + 1 / 2⌋ else ⌊q + 1 / 2⌋

/-- `math.Round`. -/
def round : Double → Double
  | finite q => finite (roundHalfAway q)
  | f => f

end Double

namespace Strconv

/-! ## Underscores -/

/-- The last character seen. -/
inductive Saw
  | start
  | digit
  | underscore
  | other
  deriving DecidableEq

def hexLetter (c : Char) : Bool := 'a' ≤ c.toLower && c.toLower ≤ 'f'

/-- The loop of `underscoreOK`. -/
def underscoresFrom (hex : Bool) (saw : Saw) : List Char → Bool
  | [] => saw ≠ .underscore
  | c :: cs =>
      if c.isDigit || hex && hexLetter c then underscoresFrom hex .digit cs
      else if c = '_' then saw = .digit && underscoresFrom hex .underscore cs
      else saw ≠ .underscore && underscoresFrom hex .other cs

/-- What follows an optional sign. -/
def unsigned : List Char → List Char
  | '+' :: cs => cs
  | '-' :: cs => cs
  | cs => cs

/-- `underscoreOK`: underscores stand between digits, or a prefix and a digit. -/
def underscoreOK (cs : List Char) : Bool :=
  match unsigned cs with
  | '0' :: p :: rest =>
      if p.toLower = 'b' ∨ p.toLower = 'o' ∨ p.toLower = 'x' then
        underscoresFrom (p.toLower = 'x') .digit rest
      else underscoresFrom false .start ('0' :: p :: rest)
  | body => underscoresFrom false .start body

/-! ## Numbers -/

/-- The digits read so far, as an integer, and how many of them stand after the point. -/
structure Mantissa where
  value : ℕ
  places : ℕ
  dot : Bool
  digits : Bool

def digitOf (hex : Bool) (c : Char) : Option ℕ :=
  if c.isDigit then some (c.toNat - '0'.toNat)
  else if hex && hexLetter c then some (c.toLower.toNat - 'a'.toNat + 10)
  else none

def base (hex : Bool) : ℕ := if hex then 16 else 10

/-- The first loop of `readFloat`. What it drops of a long mantissa does not change which
double is nearest, so all of it is kept here. -/
def readMantissa (hex : Bool) (m : Mantissa) : List Char → Mantissa × List Char
  | [] => (m, [])
  | c :: cs =>
      if c = '_' then readMantissa hex m cs
      else if c = '.' then
        if m.dot then (m, c :: cs) else readMantissa hex { m with dot := true } cs
      else match digitOf hex c with
        | some d =>
            readMantissa hex
              { m with
                value := m.value * base hex + d
                places := if m.dot then m.places + 1 else m.places
                digits := true } cs
        | none => (m, c :: cs)

/-- The loop over the digits of an exponent, which stops counting at ten thousand. -/
def exponentDigits (e : ℕ) : List Char → ℕ × List Char
  | [] => (e, [])
  | c :: cs =>
      if c = '_' then exponentDigits e cs
      else if c.isDigit then
        exponentDigits (if e < 10000 then e * 10 + (c.toNat - '0'.toNat) else e) cs
      else (e, c :: cs)

/-- An exponent that ends the text. -/
def readExponent (cs : List Char) : Option ℤ :=
  if (unsigned cs).head?.any Char.isDigit then
    match exponentDigits 0 (unsigned cs) with
    | (e, []) => some (if cs.head? = some '-' then -e else e)
    | (_, _ :: _) => none
  else none

/-- Whether a number has the prefix of a hexadecimal one, and what follows it. -/
def hexBody : List Char → Bool × List Char
  | '0' :: x :: c :: cs =>
      if x.toLower = 'x' then (true, c :: cs) else (false, '0' :: x :: c :: cs)
  | body => (false, body)

/-- The number a mantissa and an exponent stand for. -/
def scaled (hex : Bool) (m : Mantissa) (e : ℤ) : ℚ :=
  m.value / base hex ^ m.places * (if hex then 2 else 10) ^ e

/-- `readFloat`, without the sign. -/
def readUnsigned (body : List Char) : Option ℚ :=
  let (hex, body) := hexBody body
  let (m, rest) := readMantissa hex ⟨0, 0, false, false⟩ body
  if !m.digits then none
  else match rest with
    -- A hexadecimal number must have an exponent.
    | [] => if hex then none else some (scaled hex m 0)
    | c :: cs =>
        if c.toLower = (if hex then 'p' else 'e') then (readExponent cs).map (scaled hex m)
        else none

/-- `readFloat`. -/
def readFloat (cs : List Char) : Option ℚ :=
  if underscoreOK cs then
    (readUnsigned (unsigned cs)).map fun q => if cs.head? = some '-' then -q else q
  else none

/-- `special`. -/
def special (cs : List Char) : Option Double :=
  let body := String.ofList ((unsigned cs).map Char.toLower)
  if body = "inf" ∨ body = "infinity" then some (.infinite (cs.head? = some '-'))
  else if String.ofList (cs.map Char.toLower) = "nan" then some .nan
  else none

/-- `ParseFloat`, in 64 bits, and `none` for an error. -/
def parseFloat (s : String) : Option Double :=
  (special s.toList).or
    ((readFloat s.toList).bind fun q => (Binary64.ofRat q).map Double.finite)

example : readFloat "1_23.50_0_0e+1_2".toList = some 123500000000000 ∧
    readFloat "0x_1_2.3_4_5p+1_2".toList = some 74565 ∧ readFloat "1__23.5".toList = none ∧
    readFloat "0x1".toList = none ∧ special "-Infinity".toList = some (.infinite true) := by
  decide +kernel

end Strconv
