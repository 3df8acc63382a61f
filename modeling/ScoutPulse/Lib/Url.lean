import ScoutPulse.Lib.Strings

/-!
# Addresses as `net/url` parses them

`parse` keeps what decides whether an address is accepted: the scheme, the opaque
part and the host, and every check on the way to them. The host stays as it is
written, since unescaping it changes neither whether it is accepted nor whether it
is empty.
-/

namespace Url

open Strings

structure URL where
  scheme : String
  opaquePart : String
  host : String
  deriving DecidableEq, Repr

def isAlpha (c : Char) : Bool := ('a' ≤ c && c ≤ 'z') || ('A' ≤ c && c ≤ 'Z')

def isHex (c : Char) : Bool :=
  c.isDigit || ('a' ≤ c && c ≤ 'f') || ('A' ≤ c && c ≤ 'F')

/-- `unhex`. -/
def unhex (c : Char) : ℕ :=
  if c.isDigit then c.toNat - 0x30
  else if 'a' ≤ c then c.toNat - 0x57
  else c.toNat - 0x37

/-- The parts of an address that are escaped by rules of their own. -/
inductive Encoding
  | path
  | userPassword
  | host
  | zone
  | fragment
  deriving DecidableEq

/-- `shouldEscape` for a host or a zone, on ASCII: what may not stand there as it is. -/
def shouldEscapeHost (c : Char) : Bool :=
  !(isAlpha c || c.isDigit || "!$&'()*+,;=:[]<>\"-_.~".toList.contains c)

/-- What `unescape` refuses, for each part of an address. -/
def unescapable (mode : Encoding) : List Char → Bool
  | [] => true
  | '%' :: a :: b :: cs =>
      isHex a && isHex b &&
        (match mode with
        | .host => !(unhex a < 8 && !(a = '2' && b = '5'))
        | .zone =>
            (a = '2' && b = '5') || unhex a * 16 + unhex b = 0x20 ||
              (unhex a < 8 && !shouldEscapeHost (Char.ofNat (unhex a * 16 + unhex b)))
        | _ => true) &&
        unescapable mode cs
  | '%' :: _ => false
  | c :: cs =>
      (match mode with
      | .host | .zone => !(c.toNat < 0x80 && shouldEscapeHost c)
      | _ => true) &&
        unescapable mode cs

/-- `getScheme`: what stands before the first colon, when it can be a scheme. The
outer `none` is the error of an address that starts with a colon. -/
def getScheme (cs : List Char) : Option (List Char × List Char) :=
  let (head, rest) := cs.span fun c => isAlpha c || c.isDigit || c = '+' || c = '-' || c = '.'
  match head, rest with
  | [], ':' :: _ => none
  | c :: _, ':' :: after => if isAlpha c then some (head, after) else some ([], cs)
  | _, _ => some ([], cs)

/-- `validOptionalPort`. -/
def validOptionalPort : List Char → Bool
  | [] => true
  | c :: digits => c = ':' && digits.all Char.isDigit

/-- `validUserinfo`. -/
def validUserinfo (cs : List Char) : Bool :=
  cs.all fun c => isAlpha c || c.isDigit || "-._:~!$&'()*+,;=%@".toList.contains c

/-- The position of a zone marker, `%25`: what stands before it and the rest. -/
def splitZone : List Char → Option (List Char × List Char)
  | [] => none
  | c :: cs =>
      if (c :: cs).take 3 = ['%', '2', '5'] then some ([], c :: cs)
      else (splitZone cs).map fun (before, zone) => (c :: before, zone)

/-- `parseHost`. -/
def parseHost (host : List Char) : Bool :=
  if host.head? = some '[' then
    match splitLast ']' host with
    | none => false
    | some (inside, colonPort) =>
        validOptionalPort colonPort &&
          (match splitZone inside with
          | some (address, zone) =>
              unescapable .host address && unescapable .zone zone &&
                unescapable .host (']' :: colonPort)
          | none => unescapable .host host)
  else
    (match splitLast ':' host with
    | none => true
    | some (_, port) => validOptionalPort (':' :: port)) &&
      unescapable .host host

/-- `parseAuthority`: the host, when the user part and the host are acceptable. -/
def parseAuthority (authority : List Char) : Option (List Char) :=
  match splitLast '@' authority with
  | none => if parseHost authority then some authority else none
  | some (userinfo, host) =>
      if parseHost host && validUserinfo userinfo && unescapable .userPassword userinfo then
        some host
      else none

/-- `stringContainsCTLByte`. -/
def containsCtl (cs : List Char) : Bool := cs.any fun c => c.toNat < 0x20 || c.toNat = 0x7F

/-- `url.Parse`. -/
def parse (raw : String) : Option URL := do
  let (body, fragment) := cut '#' raw.toList
  if containsCtl body then none
  if body = ['*'] then return ⟨"", "", ""⟩
  let (scheme, rest) ← getScheme body
  let lower := String.ofList (scheme.map Char.toLower)
  let (rest, _) := cut '?' rest
  if rest.head? ≠ some '/' then
    if scheme ≠ [] then
      if unescapable .fragment fragment then
        return ⟨lower, String.ofList rest, ""⟩
      else none
    if (cut '/' rest).1.contains ':' then none
  let slashes := ['/', '/'].isPrefixOf rest
  if slashes && (scheme ≠ [] || !(['/', '/', '/'].isPrefixOf rest)) then
    let (authority, path) := (rest.drop 2).span (· ≠ '/')
    let host ← parseAuthority authority
    if unescapable .path path && unescapable .fragment fragment then
      return ⟨lower, "", String.ofList host⟩
    else none
  else if unescapable .path rest && unescapable .fragment fragment then
    return ⟨lower, "", ""⟩
  else none

example : parse "HTTPS://user@img.example.com:8080/a%20b.jpg?x#y" =
    some ⟨"https", "", "img.example.com:8080"⟩ := by decide +kernel

example : parse "javascript:alert(1)" = some ⟨"javascript", "alert(1)", ""⟩ := by decide +kernel

end Url
