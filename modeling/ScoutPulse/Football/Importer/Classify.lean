import ScoutPulse.Lib.Dates
import ScoutPulse.Football.Importer.Dataset
import ScoutPulse.Football.Squad.Transfer
import ScoutPulse.Lib.Strings

/-!
# The type of a move

The source does not mark loans. A free move that is reversed soon enough is one, and the
reversal is its return; every other move is classified by its names and its fee.
-/

namespace ScoutPulse.Importer

open Strings

/-- `Move`: a transfer after classification. -/
structure Move where
  raw : RawTransfer
  type : String
  feeMinor : Option Int64
  deriving DecidableEq

def transferLoan : String := "loan"
def transferLoanReturn : String := "loan_return"
def transferYouthPromotion : String := "youth_promotion"
def transferReleased : String := "released"
def transferRetired : String := "retired"

/-! ## A club's youth side -/

section YouthSide

/-- The characters `\b` takes for those of words. -/
def wordChar (c : Char) : Bool := c.isAlphanum || c = '_'

/-- `\b`, between two characters. -/
def wordBoundary (before after : Option Char) : Bool := before.any wordChar != after.any wordChar

variable [CaseFolding]

/-- What is left of a text after some letters in any case. -/
def literal : List Char → List Char → Option (List Char)
  | [], rest => some rest
  | p :: ps, c :: cs =>
      if CaseFolding.folded p = CaseFolding.folded c then literal ps cs else none
  | _ :: _, [] => none

omit [CaseFolding] in
/-- Whether `\b` holds after what was read of a text. -/
def endsWord (text rest : List Char) : Bool :=
  wordBoundary (text.take (text.length - rest.length)).getLast? rest.head?

/-- The words that name a youth side wherever they stand. -/
def youthWords : List String :=
  ["youth", "jugend", "jgd", "primavera", "juvenil", "academy", "reserve", "reserves"]

/-- The two digits of an age, after `U` or `U-`. -/
def ageDigits (text rest : List Char) : Bool :=
  match if rest.head? = some '-' then rest.tail else rest with
  | d₁ :: d₂ :: rest => d₁.isDigit && d₂.isDigit && endsWord text rest
  | _ => false

/-- Whether `youthSide` matches where a text begins. -/
def youthAt (before : Option Char) (text : List Char) : Bool :=
  wordBoundary before text.head? &&
    (youthWords.any (fun word => (literal word.toList text).any (endsWord text)) ||
      (literal ['U'] text).any (ageDigits text) ||
      (literal "yth".toList text).any (fun rest => rest = [] || rest = ['.']) ||
      (literal "II".toList text).any (· = []) ||
      (literal ['B'] text).any (· = []))

def youthFrom (before : Option Char) : List Char → Bool
  | [] => false
  | c :: cs => youthAt before (c :: cs) || youthFrom (some c) cs

/-- `youthSide`: whether a name has the form of a youth or reserve side's. -/
def youthSide (name : String) : Bool := youthFrom none name.toList

end YouthSide

example : let _ := CaseFolding.ascii
    youthSide "Jong Ajax U-21" = true ∧ youthSide "FC Bayern II" = true ∧
      youthSide "Youthful FC" = false := by decide

/-! ## Loans and their returns -/

section Classify

variable [Unicode]

/-- `noClub`: the source's placeholders for "not at a club". -/
def noClub (name : String) : Bool :=
  toLower (trimSpace name) ∈ ["without club", "career break", "unknown", "retired", "ban"]

/-- `loanWindow`, in days. -/
def loanWindow : ℤ := 2 * 365 + 60

/-- The day of a move; the zero time when its date is none. -/
def RawTransfer.day (t : RawTransfer) : ℤ := (Dates.parse t.date).getD 0

/-- Whether a move may turn out to be a loan. -/
def mayBeLoan (t : RawTransfer) : Bool :=
  t.fee = some 0 && t.fromID ≠ "" && t.toID ≠ "" && !noClub t.toName && !noClub t.fromName

/-- The place of the move that reverses `t`, among those from place `j` on. -/
def returnFrom (t : RawTransfer) (j : ℕ) : List RawTransfer → Option ℕ
  | [] => none
  | back :: rest =>
      if loanWindow < back.day - t.day then none
      else if back.fromID = t.toID ∧ back.toID = t.fromID ∧ back.fee.all (· = 0) = true then
        some j
      -- The player moved on from the loan club to somewhere else.
      else if back.fromID = t.toID then none
      else returnFrom t (j + 1) rest

/-- The places of the loans and of the returns found so far. -/
structure Pairing where
  loans : List ℕ
  returnOf : List ℕ

/-- The first loop's body. -/
def pairStep (sorted : List RawTransfer) (s : Pairing) (i : ℕ) : Pairing :=
  if i ∈ s.returnOf then s
  else match sorted[i]? with
    | none => s
    | some t =>
        if mayBeLoan t then
          match returnFrom t (i + 1) (sorted.drop (i + 1)) with
          | some j => ⟨i :: s.loans, j :: s.returnOf⟩
          | none => s
        else s

def pairing (sorted : List RawTransfer) : Pairing :=
  (List.range sorted.length).foldl (pairStep sorted) ⟨[], []⟩

variable [CaseFolding]

/-- The type of a move that is neither a loan nor a return. -/
def typeOf (t : RawTransfer) : String :=
  if equalFold (trimSpace t.toName) "retired" then transferRetired
  else if noClub t.toName then transferReleased
  else if youthSide (trimSpace t.fromName) && t.fee.all (· = 0) then transferYouthPromotion
  else if t.fee = some 0 then Squad.transferFree
  else Squad.transferPermanent

/-- The second loop's body. -/
def classified (s : Pairing) (t : RawTransfer) (i : ℕ) : Move :=
  if i ∈ s.returnOf then ⟨t, transferLoanReturn, some 0⟩
  else ⟨t, if i ∈ s.loans then transferLoan else typeOf t, t.fee.map (· * 100)⟩

/-- `Classify`. -/
def classify (moves : List RawTransfer) : List Move :=
  let sorted := moves.insertionSort (·.date ≤ ·.date)
  sorted.zipIdx.map fun (t, i) => classified (pairing sorted) t i

/-- Classifying keeps the moves, in the order of their dates. -/
theorem map_raw_classify (moves : List RawTransfer) :
    (classify moves).map (·.raw) = moves.insertionSort (·.date ≤ ·.date) := by
  have raw : ∀ (s : Pairing) (p : RawTransfer × ℕ), (classified s p.1 p.2).raw = p.1 := by
    intro s p
    unfold classified
    split <;> rfl
  unfold classify
  rw [List.map_map]
  calc _ = (List.zipIdx _).map Prod.fst := List.map_congr_left fun p _ => raw _ p
    _ = _ := List.zipIdx_map_fst 0 _

end Classify

end ScoutPulse.Importer
