import ScoutPulse.Lib.Strings
import ScoutPulse.Platform.AppErr

/-!
# The fields of an account

The package `validate`: what a registration's user name, address and password have to
look like.
-/

namespace ScoutPulse.Identity.Validate

open Strings

def minPasswordLength : ℕ := 8

/-- `MaxPasswordBytes`, the limit of bcrypt. -/
def maxPasswordBytes : ℕ := 72

def minUsernameLength : ℕ := 3
def maxUsernameLength : ℕ := 32
def maxEmailLength : ℕ := 254

section Username

variable [Unicode]

def isUsernameRune (c : Char) : Bool :=
  Unicode.isLetter c || Unicode.isDigit c || c = '.' || c = '-' || c = '_'

/-- A separator no user name starts or ends with. -/
def separator (c : Char) : Bool := c ∈ ['.', '_', '-']

def username (raw : String) : Except AppErr String := do
  let name := trimSpace raw
  if name = "" then throw (.invalid "username is required")
  if runeCount name < minUsernameLength ∨ maxUsernameLength < runeCount name then
    throw (.invalid "username must be between 3 and 32 characters")
  if name.toList.all isUsernameRune = false then
    throw (.invalid "username may contain only letters, digits, dots, hyphens and underscores")
  if name.toList.head?.any separator = true ∨ name.toList.getLast?.any separator = true then
    throw (.invalid "username must start and end with a letter or digit")
  return name

end Username

/-- The functions of `net/mail` and `strings` an address is checked with. -/
structure Mail where
  /-- `mail.ParseAddress`, down to the address. -/
  parseAddress : String → Option String
  /-- `strings.EqualFold`. -/
  equalFold : String → String → Bool

def email [Unicode] (mail : Mail) (raw : String) : Except AppErr String := do
  let address := trimSpace raw
  if address = "" then throw (.invalid "email is required")
  if maxEmailLength < byteLen address then
    throw (.invalid "email must be at most 254 characters")
  match (mail.parseAddress address).filter (mail.equalFold · address) with
  | none => throw (.invalid "that does not look like an email address")
  | some parsed =>
      match splitLast '@' parsed.toList with
      | some (_ :: _, domain) =>
          if '.' ∈ domain then return toLower parsed
          else throw (.invalid "that does not look like an email address")
      | _ => throw (.invalid "that does not look like an email address")

def password (password : String) : Except AppErr Unit := do
  if byteLen password < minPasswordLength then
    throw (.invalid "password must be at least 8 characters")
  if maxPasswordBytes < byteLen password then
    throw (.invalid "password must be at most 72 bytes; note that accented characters and emoji count as several")

end ScoutPulse.Identity.Validate
