import ScoutPulse.Lib.Machine
import Mathlib.Algebra.Order.Ring.Int
import Mathlib.Data.List.AList

/-!
# The verification keys of a service

A service that verifies tokens holds its issuer's public keys by key id. It fetches the
published document at start-up, from time to time, and when a token names a key it does
not have, and installs every key of the document it can use. No key is ever removed: one
that left the document during a rotation keeps verifying the tokens it signed.
-/

namespace ScoutPulse.Auth

/-- Nanoseconds. -/
abbrev Time := ℤ

/-- `JWK`. -/
structure JWK where
  kty : String
  use : String
  alg : String
  kid : String
  n : String
  e : String
  deriving DecidableEq, Repr

/-- `rsa.PublicKey`. -/
structure PublicKey where
  n : ℕ
  e : ℕ
  deriving DecidableEq, Repr

/-- The value of a digit of the URL-safe alphabet. -/
def urlDigit (c : Char) : Option ℕ :=
  if 'A' ≤ c ∧ c ≤ 'Z' then some (c.toNat - 65)
  else if 'a' ≤ c ∧ c ≤ 'z' then some (c.toNat - 71)
  else if '0' ≤ c ∧ c ≤ '9' then some (c.toNat + 4)
  else if c = '-' then some 62
  else if c = '_' then some 63
  else none

/-- The bytes of a sequence of digits, four of them making three bytes. -/
def quanta : List ℕ → Option (List ℕ)
  | [] => some []
  | [_] => none
  | [a, b] => some [(a * 64 + b) / 16]
  | [a, b, c] =>
      let v := (a * 64 + b) * 64 + c
      some [v / 1024, v / 4 % 256]
  | a :: b :: c :: d :: rest =>
      let v := ((a * 64 + b) * 64 + c) * 64 + d
      (quanta rest).map ([v / 65536, v / 256 % 256, v % 256] ++ ·)

/-- `base64.RawURLEncoding.DecodeString`, which skips the ends of lines. -/
def rawURLDecode (s : String) : Option (List ℕ) :=
  ((s.toList.filter fun c => c ≠ '\r' && c ≠ '\n').mapM urlDigit).bind quanta

/-- `new(big.Int).SetBytes`. -/
def setBytes (bytes : List ℕ) : ℕ := bytes.foldl (fun n b => n * 256 + b) 0

/-- `BitLen`. -/
def bitLen (n : ℕ) : ℕ := if n = 0 then 0 else n.log2 + 1

/-- `MinRSAKeyBits`. -/
def minRSAKeyBits : ℕ := 2048

/-- `toRSAPublicKey`: the key of a document this version can use, if it can. -/
def JWK.toRSAPublicKey (j : JWK) : Option PublicKey :=
  if j.kty ≠ "RSA" then none
  else do
    let n ← rawURLDecode j.n
    let e ← rawURLDecode j.e
    if 2 ^ 32 - 1 < setBytes e then none
    else if bitLen (setBytes n) < minRSAKeyBits then none
    else some ⟨setBytes n, setBytes e⟩

/-- `verificationKeys`. -/
abbrev KeyMap := AList fun _ : String => PublicKey

/-- What comes back from the issuer: nothing, when the address is not one that may be
asked or the request fails, or a status with a body that may not be a key set. -/
inductive Fetch
  | failed
  | response (status : ℕ) (body : Option (List JWK))
  deriving DecidableEq, Repr

/-- Why a document was not loaded. -/
inductive LoadErr
  | fetching
  | status (code : ℕ)
  | decoding
  | noKeys
  | noUsableKeys
  deriving DecidableEq, Repr

/-- The loop of `loadJWKSOnce` over a document's keys. -/
def install (keys : KeyMap) : List JWK → KeyMap
  | [] => keys
  | jwk :: rest =>
      match jwk.toRSAPublicKey with
      -- An issuer may publish types we do not support.
      | none => install keys rest
      | some key => install (keys.insert jwk.kid key) rest

/-- `loadJWKSOnce`: the keys afterwards, and the document loaded. -/
def loadJWKSOnce (keys : KeyMap) : Fetch → KeyMap × Except LoadErr (List JWK)
  | .failed => (keys, .error .fetching)
  | .response status body =>
      if status ≠ 200 then (keys, .error (.status status))
      else match body with
        | none => (keys, .error .decoding)
        | some [] => (keys, .error .noKeys)
        | some doc =>
            if (install keys doc).entries = [] then (install keys doc, .error .noUsableKeys)
            else (install keys doc, .ok doc)

/-- Why no key was found for a token. -/
inductive TokenErr
  | unknownKeyID (kid : String)
  | noKeyID
  deriving DecidableEq, Repr

/-- `keyForToken`, on the key id a token's header names, empty when it names none. -/
def keyForToken (keys : KeyMap) (kid : String) : Except TokenErr PublicKey :=
  if kid ≠ "" then
    match keys.lookup kid with
    | some key => .ok key
    | none => .error (.unknownKeyID kid)
  else match keys.entries with
    | [entry] => .ok entry.2
    | _ => .error .noKeyID

/-- A service's keys, the keys it was configured with, where and when it last refreshed
them, the address its background refresh polls, and every document it has loaded, the
latest first. -/
structure Verifier where
  configured : KeyMap
  keys : KeyMap
  url : String
  lastRefreshed : Time
  polling : Option String
  loaded : List (List JWK)

/-- `MinJWKSRefreshInterval`. -/
def minJWKSRefreshInterval : Time := 30 * 1000000000

inductive Label
  | loadJWKS (url : String) (now : Time) (fetch : Fetch)
  | startJWKSRefresh
  /-- The background refresh's ticker. -/
  | tick (now : Time) (fetch : Fetch)
  /-- `ValidateToken`, on a token that names a key id. -/
  | validateToken (kid : String) (now : Time) (fetch : Fetch)

namespace Verifier

/-- Load a document, at an address that may be asked. -/
def load (s : Verifier) (fetch : Fetch) : Verifier × Bool :=
  match loadJWKSOnce s.keys fetch with
  | (keys, .ok doc) => ({ s with keys := keys, loaded := doc :: s.loaded }, true)
  | (keys, .error _) => ({ s with keys := keys }, false)

/-- `LoadJWKS`. -/
def loadJWKS (s : Verifier) (url : String) (now : Time) (fetch : Fetch) : Verifier :=
  match s.load fetch with
  | (s', true) => { s' with url := url, lastRefreshed := now }
  | (s', false) => s'

/-- `RefreshJWKS`. -/
def refreshJWKS (s : Verifier) (now : Time) (fetch : Fetch) : Verifier :=
  if s.url = "" ∨ now - s.lastRefreshed < minJWKSRefreshInterval then s
  else ({ s with lastRefreshed := now }.load fetch).1

/-- The look-up of a token's key in `ValidateToken`. -/
def validateToken (s : Verifier) (kid : String) (now : Time) (fetch : Fetch) : Verifier :=
  if s.keys.entries = [] then s
  else match keyForToken s.keys kid with
    | .error (.unknownKeyID _) => s.refreshJWKS now fetch
    | _ => s

end Verifier

/-- A service that starts with the keys it is configured with. -/
def verifier : Machine Verifier Label where
  start s := s.keys = s.configured ∧ s.url = "" ∧ s.polling = none ∧ s.loaded = []
  next s
    | .loadJWKS url now fetch => some (s.loadJWKS url now fetch)
    | .startJWKSRefresh => some (if s.url = "" then s else { s with polling := some s.url })
    | .tick now fetch =>
        s.polling.map fun _ => ({ s with lastRefreshed := now }.load fetch).1
    | .validateToken kid now fetch => some (s.validateToken kid now fetch)

/-! ## What a document adds -/

/-- The key a document publishes under a key id: the last usable one. -/
def published : List JWK → String → Option PublicKey
  | [], _ => none
  | jwk :: rest, kid =>
      (published rest kid).or (if jwk.kid = kid then jwk.toRSAPublicKey else none)

/-- The key some documents, the latest first, published last under a key id. -/
def latest : List (List JWK) → String → Option PublicKey
  | [], _ => none
  | doc :: docs, kid => (published doc kid).or (latest docs kid)

section Steps

variable {s s' : Verifier} {keys : KeyMap} {doc : List JWK} {kid : String} {fetch : Fetch}
  {now : Time}

theorem install_usable {jwk : JWK} {key : PublicKey} (rest : List JWK)
    (usable : jwk.toRSAPublicKey = some key) :
    install keys (jwk :: rest) = install (keys.insert jwk.kid key) rest := by
  rw [install, usable]

/-- After a document is installed, a key is the document's, or the one there before. -/
theorem lookup_install (keys : KeyMap) (doc : List JWK) (kid : String) :
    (install keys doc).lookup kid = (published doc kid).or (keys.lookup kid) := by
  induction doc generalizing keys with
  | nil => rfl
  | cons jwk rest ih =>
      rw [install, published]
      cases usable : jwk.toRSAPublicKey with
      | none => simp [ih]
      | some key =>
          simp only [ih, Option.or_assoc]
          by_cases same : jwk.kid = kid
          · subst same
            rw [AList.lookup_insert, if_pos rfl, Option.some_or]
          · rw [AList.lookup_insert_ne (Ne.symm same), if_neg same, Option.none_or]

/-- A key a document publishes is a usable key of the document, under its key id. -/
theorem published_mem {key : PublicKey} (found : published doc kid = some key) :
    ∃ jwk ∈ doc, jwk.kid = kid ∧ jwk.toRSAPublicKey = some key := by
  induction doc with
  | nil => cases found
  | cons jwk rest ih =>
      rw [published, Option.or_eq_some_iff] at found
      obtain later | ⟨-, here⟩ := found
      · obtain ⟨jwk', member, both⟩ := ih later
        exact ⟨jwk', List.mem_cons_of_mem _ member, both⟩
      · split_ifs at here with same
        exact ⟨jwk, List.mem_cons_self, same, here⟩

/-- Every usable key's id is published. -/
theorem published_of_mem {jwk : JWK} {key : PublicKey} (member : jwk ∈ doc)
    (usable : jwk.toRSAPublicKey = some key) : (published doc jwk.kid).isSome = true := by
  induction doc with
  | nil => cases member
  | cons first rest ih =>
      rw [published, Option.isSome_or, Bool.or_eq_true]
      obtain rfl | later := List.mem_cons.mp member
      · right
        rw [if_pos rfl, usable]
        rfl
      · exact Or.inl (ih later)

theorem lookup_of_entries_nil (empty : keys.entries = []) (kid : String) :
    keys.lookup kid = none := by
  have same : keys = ∅ := AList.ext (by rw [empty]; rfl)
  rw [same]
  exact AList.lookup_empty kid

theorem entries_insert_ne_nil (keys : KeyMap) (kid : String) (key : PublicKey) :
    (keys.insert kid key).entries ≠ [] := by
  rw [AList.entries_insert]
  exact List.cons_ne_nil _ _

/-- What a step may change: nothing of the keys, or a document is loaded. -/
inductive Loads (s s' : Verifier) : Prop
  | nothing (configured : s'.configured = s.configured) (loaded : s'.loaded = s.loaded)
      (keys : ∀ kid, s'.keys.lookup kid = s.keys.lookup kid)
  | document (doc : List JWK) (configured : s'.configured = s.configured)
      (loaded : s'.loaded = doc :: s.loaded) (keys : s'.keys = install s.keys doc)

theorem Loads.refl (s : Verifier) : Loads s s := .nothing rfl rfl fun _ => rfl

/-- A document with a usable key is loaded. -/
theorem Verifier.load_document (s : Verifier) {jwk : JWK} {rest : List JWK}
    (some_ : (install s.keys (jwk :: rest)).entries ≠ []) :
    s.load (.response 200 (some (jwk :: rest))) =
      ({ s with
        keys := install s.keys (jwk :: rest)
        loaded := (jwk :: rest) :: s.loaded }, true) := by
  simp only [Verifier.load, loadJWKSOnce, ne_eq, not_true, if_false, some_]

/-- A fetch loads a document or leaves the keys as they are. -/
theorem Verifier.load_loads (s : Verifier) (fetch : Fetch) : Loads s (s.load fetch).1 := by
  unfold Verifier.load
  cases fetch with
  | failed => exact .refl s
  | response status body =>
      unfold loadJWKSOnce
      dsimp only
      by_cases bad : status ≠ 200
      · rw [if_pos bad]
        exact .refl s
      · rw [if_neg bad]
        cases body with
        | none => exact .refl s
        | some doc =>
            cases doc with
            | nil => exact .refl s
            | cons jwk rest =>
                dsimp only
                by_cases empty : (install s.keys (jwk :: rest)).entries = []
                · rw [if_pos empty]
                  refine .nothing rfl rfl fun kid => ?_
                  have none_ := lookup_of_entries_nil empty kid
                  have before := none_
                  rw [lookup_install, Option.or_eq_none_iff] at before
                  exact none_.trans before.2.symm
                · rw [if_neg empty]
                  exact .document (jwk :: rest) rfl rfl rfl

/-- Whatever happens next, a document is loaded or the keys stay. -/
theorem verifier_next {label : Label} (next : verifier.next s label = some s') : Loads s s' := by
  have refreshes : ∀ now fetch, Loads s (s.refreshJWKS now fetch) := by
    intro now fetch
    unfold Verifier.refreshJWKS
    split_ifs
    · exact .refl s
    · cases { s with lastRefreshed := now }.load_loads fetch with
      | nothing configured loaded keys => exact .nothing configured loaded keys
      | document doc configured loaded keys => exact .document doc configured loaded keys
  cases label with
  | loadJWKS url now fetch =>
      obtain rfl := Option.some.inj next
      unfold Verifier.loadJWKS
      have loads := s.load_loads fetch
      generalize s.load fetch = result at loads
      obtain ⟨s₁, ok⟩ := result
      cases ok with
      | false => exact loads
      | true =>
          cases loads with
          | nothing configured loaded keys => exact .nothing configured loaded keys
          | document doc configured loaded keys => exact .document doc configured loaded keys
  | startJWKSRefresh =>
      obtain rfl := Option.some.inj next
      split_ifs
      · exact .refl s
      · exact .nothing rfl rfl fun _ => rfl
  | tick now fetch =>
      obtain ⟨url, -, rfl⟩ := Option.map_eq_some_iff.mp next
      cases { s with lastRefreshed := now }.load_loads fetch with
      | nothing configured loaded keys => exact .nothing configured loaded keys
      | document doc configured loaded keys => exact .document doc configured loaded keys
  | validateToken kid now fetch =>
      obtain rfl := Option.some.inj next
      unfold Verifier.validateToken
      split_ifs
      · exact .refl s
      · split
        · exact refreshes now fetch
        · exact .refl s

/-! ## The keys follow the documents -/

/-- A service holds, under each key id, what was last published under it. -/
def Follows (s : Verifier) : Prop :=
  ∀ kid, s.keys.lookup kid = (latest s.loaded kid).or (s.configured.lookup kid)

/-- A service that follows the documents still does when one is loaded. -/
theorem Follows.loads (follows : Follows s) (loads : Loads s s') : Follows s' := by
  intro kid
  cases loads with
  | nothing configured loaded keys => rw [keys, configured, loaded, follows kid]
  | document doc configured loaded keys =>
      rw [keys, lookup_install, configured, loaded, latest, Option.or_assoc, follows kid]

/-- It does in every state reached. -/
theorem follows_of_reach (reach : verifier.Reach Machine.always s) : Follows s := by
  apply reach.invariant
  · intro t start kid
    obtain ⟨keys, -, -, loaded⟩ := start
    rw [keys, loaded, latest, Option.none_or]
  · intro t t' label follows _ next
    exact follows.loads (verifier_next next)

/-- The key a token is verified with, by the keys held under each key id: the one it names,
and for a token that names none the only one there is. -/
def Verifies (held : String → Option PublicKey) (kid : String) (key : PublicKey) : Prop :=
  if kid = "" then ∃ only, held only = some key ∧ ∀ other, other ≠ only → held other = none
  else held kid = some key

/-- A map with a single entry is one that finds a key under one id alone. -/
theorem entries_singleton_iff {key : PublicKey} : (∃ only, keys.entries = [⟨only, key⟩]) ↔
    ∃ only, keys.lookup only = some key ∧ ∀ other, other ≠ only → keys.lookup other = none := by
  constructor
  · rintro ⟨only, single⟩
    have insertion : keys = AList.singleton only key := AList.ext single
    refine ⟨only, ?_, fun other differs => ?_⟩
    · rw [insertion]
      exact AList.mem_lookup_iff.mpr (List.mem_singleton_self _)
    · rw [insertion, AList.lookup_eq_none, AList.mem_keys]
      exact fun member => differs (List.mem_singleton.mp member)
  · rintro ⟨only, found, others⟩
    refine ⟨only, ?_⟩
    have listed : ⟨only, key⟩ ∈ keys.entries := AList.mem_lookup_iff.mp found
    have alone : ∀ entry ∈ keys.entries, entry = ⟨only, key⟩ := by
      intro entry member
      have under : keys.lookup entry.1 = some entry.2 := AList.mem_lookup_iff.mpr member
      by_cases same : entry.1 = only
      · obtain ⟨kid, held⟩ := entry
        obtain rfl : kid = only := same
        rw [found, Option.some.injEq] at under
        rw [under]
      · rw [others entry.1 same] at under
        cases under
    have short : keys.entries.length ≤ 1 := by
      have nodup := keys.nodupKeys.nodup
      rw [List.eq_replicate_of_mem alone] at nodup
      exact List.nodup_replicate.mp nodup
    obtain ⟨entry, single⟩ := List.length_eq_one_iff.mp
      (Nat.le_antisymm short (List.length_pos_of_mem listed))
    rw [single, alone entry (single ▸ List.mem_singleton_self entry)]

/-- The key of a token, by the keys held. -/
theorem keyForToken_ok_iff {key : PublicKey} :
    keyForToken keys kid = .ok key ↔ Verifies keys.lookup kid key := by
  rw [keyForToken, Verifies]
  by_cases named : kid = ""
  · rw [if_neg (not_not.mpr named), if_pos named, ← entries_singleton_iff]
    cases held : keys.entries with
    | nil => simp
    | cons entry rest =>
        cases rest with
        | nil =>
            obtain ⟨only, held'⟩ := entry
            simp
        | cons second rest => simp
  · rw [if_pos named, if_neg named]
    cases keys.lookup kid <;> simp

/-- **Verification keys follow the issuer.** In every state a service comes to, the keys it
verifies tokens with are, by key id, those of the documents loaded so far, the latest for
each; and a refresh that loads a document puts its usable keys under their ids and leaves
every other key id as it was. -/
theorem keys_follow (reach : verifier.Reach Machine.always s) :
    (∀ kid key, keyForToken s.keys kid = .ok key ↔
      Verifies (fun kid => (latest s.loaded kid).or (s.configured.lookup kid)) kid key) ∧
    ∀ label s' doc, verifier.next s label = some s' → s'.loaded = doc :: s.loaded →
      (∀ kid, s'.keys.lookup kid = (published doc kid).or (s.keys.lookup kid)) ∧
      ∀ kid key, keyForToken s'.keys kid = .ok key ↔
        Verifies (fun kid => (published doc kid).or (s.keys.lookup kid)) kid key := by
  have follows := follows_of_reach reach
  refine ⟨fun kid key => ?_, fun label s' doc next refreshed => ?_⟩
  · rw [keyForToken_ok_iff, funext follows]
  · have keys : s'.keys = install s.keys doc := by
      cases verifier_next next with
      | nothing configured loaded keys =>
          rw [loaded] at refreshed
          exact absurd refreshed.symm (List.cons_ne_self doc s.loaded)
      | document doc' configured loaded keys =>
          rw [loaded, List.cons.injEq] at refreshed
          rw [keys, refreshed.1]
    have held : ∀ kid, s'.keys.lookup kid = (published doc kid).or (s.keys.lookup kid) := by
      intro kid
      rw [keys, lookup_install]
    exact ⟨held, fun kid key => by rw [keyForToken_ok_iff, funext held]⟩

end Steps

section Rotation

def issuer : String := "https://id.example.org/.well-known/jwks.json"

/-- A modulus of all ones. -/
def ones : String := String.ofList (List.replicate 342 '_')

def outgoing : JWK := ⟨"RSA", "sig", "RS256", "old", ones, "AQAB"⟩
def incoming : JWK := ⟨"RSA", "sig", "RS256", "new", ones, "Aw"⟩

def outgoingKey : PublicKey := ⟨2 ^ 2048 - 1, 65537⟩
def incomingKey : PublicKey := ⟨2 ^ 2048 - 1, 3⟩

theorem toList_ones : ones.toList = List.replicate 342 '_' := by
  unfold ones
  exact String.toList_ofList

/-- The digits of a text of all ones. -/
theorem mapM_urlDigit_ones (n : ℕ) :
    (List.replicate n '_').mapM urlDigit = some (List.replicate n 63) := by
  induction n with
  | zero => rfl
  | succ n ih =>
      have digit : urlDigit '_' = some 63 := by decide
      rw [List.replicate_succ, List.mapM_cons, digit, ih, List.replicate_succ]
      rfl

/-- All sextets one make all bytes one. -/
theorem quanta_ones (n : ℕ) :
    quanta (List.replicate (4 * n + 2) 63) = some (List.replicate (3 * n + 1) 255) := by
  induction n with
  | zero => rfl
  | succ n ih =>
      have four : 4 * (n + 1) + 2 = 4 * n + 2 + 1 + 1 + 1 + 1 := by omega
      have three : 3 * (n + 1) + 1 = 3 * n + 1 + 1 + 1 + 1 := by omega
      rw [four, three]
      simp only [List.replicate_succ, quanta]
      simp only [List.replicate_succ] at ih
      rw [ih]
      rfl

/-- All bytes one are a power of two less one. -/
theorem setBytes_ones (n : ℕ) : setBytes (List.replicate n 255) = 2 ^ (8 * n) - 1 := by
  induction n with
  | zero => rfl
  | succ n ih =>
      have one : 1 ≤ 2 ^ (8 * n) := Nat.one_le_two_pow
      rw [setBytes] at ih ⊢
      have next : 2 ^ (8 * (n + 1)) = 2 ^ (8 * n) * 256 := by rw [Nat.mul_succ, pow_add]; rfl
      rw [List.replicate_succ', List.foldl_append, ih, List.foldl_cons, List.foldl_nil, next]
      omega

/-- Such a number is as long as its bits. -/
theorem bitLen_ones (n : ℕ) : bitLen (2 ^ n - 1) = n := by
  cases n with
  | zero => rfl
  | succ k =>
      have double : 2 ^ (k + 1) = 2 * 2 ^ k := pow_succ' 2 k
      have one : 1 ≤ 2 ^ k := Nat.one_le_two_pow
      have nonzero : 2 ^ (k + 1) - 1 ≠ 0 := by omega
      have below : (2 ^ (k + 1) - 1).log2 < k + 1 := (Nat.log2_lt nonzero).mpr (by omega)
      have above : k ≤ (2 ^ (k + 1) - 1).log2 := (Nat.le_log2 nonzero).mpr (by omega)
      rw [bitLen, if_neg nonzero]
      omega

/-- The text of all ones decodes to 256 bytes. -/
theorem rawURLDecode_ones : rawURLDecode ones = some (List.replicate 256 255) := by
  have plain : ∀ c ∈ List.replicate 342 '_', (c ≠ '\r' && c ≠ '\n') = true := by
    intro c member
    rw [List.eq_of_mem_replicate member]
    rfl
  rw [rawURLDecode, toList_ones, List.filter_eq_self.mpr plain, mapM_urlDigit_ones]
  exact quanta_ones 85

/-- A key with a modulus of all ones is usable when its exponent is small. -/
theorem usable_of_exponent {jwk : JWK} {e : List ℕ} (kind : jwk.kty = "RSA") (n : jwk.n = ones)
    (exponent : rawURLDecode jwk.e = some e) (small : setBytes e ≤ 2 ^ 32 - 1) :
    jwk.toRSAPublicKey = some ⟨2 ^ 2048 - 1, setBytes e⟩ := by
  have long : ¬ bitLen (2 ^ (8 * 256) - 1) < minRSAKeyBits := by
    rw [bitLen_ones]
    exact Nat.lt_irrefl _
  rw [JWK.toRSAPublicKey, if_neg (not_not.mpr kind), n, rawURLDecode_ones, exponent]
  change (if 2 ^ 32 - 1 < setBytes e then none else
    if bitLen (setBytes (List.replicate 256 255)) < minRSAKeyBits then none else
    some (⟨setBytes (List.replicate 256 255), setBytes e⟩ : PublicKey)) = _
  rw [if_neg (Nat.not_lt.mpr small), setBytes_ones, if_neg long]

/-- The key going out is usable. -/
theorem outgoing_usable : outgoing.toRSAPublicKey = some outgoingKey := by
  have modulus : outgoing.n = ones := rfl
  have exponent : rawURLDecode outgoing.e = some [1, 0, 1] := by decide
  have value : setBytes [1, 0, 1] = 65537 := rfl
  rw [usable_of_exponent rfl modulus exponent (by decide), value, outgoingKey]

theorem incoming_usable : incoming.toRSAPublicKey = some incomingKey := by
  have modulus : incoming.n = ones := rfl
  have exponent : rawURLDecode incoming.e = some [3] := by decide
  have value : setBytes [3] = 3 := rfl
  rw [usable_of_exponent rfl modulus exponent (by decide), value, incomingKey]
/-- A service with no keys. -/
def unconfigured : Verifier where
  configured := ∅
  keys := ∅
  url := ""
  lastRefreshed := 0
  polling := none
  loaded := []

def bothKeys : KeyMap :=
  ((∅ : KeyMap).insert outgoing.kid outgoingKey).insert incoming.kid incomingKey

theorem install_both : install ∅ [outgoing, incoming] = bothKeys := by
  rw [install_usable _ outgoing_usable, install_usable _ incoming_usable, install, bothKeys]

theorem install_incoming (keys : KeyMap) :
    install keys [incoming] = keys.insert incoming.kid incomingKey := by
  rw [install_usable _ incoming_usable, install]

/-- The service after it has loaded the first document. -/
def started : Verifier where
  configured := ∅
  keys := bothKeys
  url := issuer
  lastRefreshed := 0
  polling := none
  loaded := [[outgoing, incoming]]

/-- The service after it has loaded the second one. -/
def rotated : Verifier where
  configured := ∅
  keys := bothKeys.insert incoming.kid incomingKey
  url := issuer
  lastRefreshed := 300000000000
  polling := some issuer
  loaded := [[incoming], [outgoing, incoming]]

/-- At the start both keys are loaded. -/
theorem unconfigured_next : verifier.next unconfigured
    (.loadJWKS issuer 0 (.response 200 (some [outgoing, incoming]))) = some started := by
  have keys : install unconfigured.keys [outgoing, incoming] = bothKeys := install_both
  have some_ : (install unconfigured.keys [outgoing, incoming]).entries ≠ [] := by
    rw [keys]
    exact entries_insert_ne_nil _ _ _
  have loaded : unconfigured.loadJWKS issuer 0 (.response 200 (some [outgoing, incoming])) =
      started := by
    rw [Verifier.loadJWKS, Verifier.load_document _ some_, keys]
    rfl
  exact congrArg some loaded

/-- The service as its background refresh begins. -/
def polling : Verifier := { started with polling := some issuer, lastRefreshed := 300000000000 }

theorem started_next : verifier.next started .startJWKSRefresh =
    some { started with polling := some issuer } := by
  have named : started.url ≠ "" := by decide
  exact congrArg some (if_neg named)

/-- The refresh that finds the first key withdrawn. -/
def withdrawal : Label := .tick 300000000000 (.response 200 (some [incoming]))

/-- Then the one key is withdrawn. -/
theorem withdrawal_next :
    verifier.next { started with polling := some issuer } withdrawal = some rotated := by
  have keys : install polling.keys [incoming] = bothKeys.insert incoming.kid incomingKey :=
    install_incoming bothKeys
  have some_ : (install polling.keys [incoming]).entries ≠ [] := by
    rw [keys]
    exact entries_insert_ne_nil _ _ _
  have loaded : (polling.load (.response 200 (some [incoming]))).1 = rotated := by
    rw [Verifier.load_document _ some_, keys]
    rfl
  exact congrArg some loaded

theorem polling_reach :
    verifier.Reach Machine.always { started with polling := some issuer } := by
  refine ⟨unconfigured, ⟨rfl, rfl, rfl, rfl⟩, ?_⟩
  apply Machine.Leads.head ⟨_, trivial, unconfigured_next⟩
  exact Machine.Leads.head ⟨_, trivial, started_next⟩ (.refl _)

/-- A successful refresh leaves a withdrawn key accepted. -/
theorem withdrawn_accepted :
    verifier.Reach Machine.always { started with polling := some issuer } ∧
      verifier.next { started with polling := some issuer } withdrawal = some rotated ∧
      rotated.loaded = [incoming] :: started.loaded ∧
      keyForToken rotated.keys "old" = .ok outgoingKey ∧
      ∀ jwk ∈ [incoming], jwk.toRSAPublicKey ≠ some outgoingKey := by
  refine ⟨polling_reach, withdrawal_next, rfl, ?_, ?_⟩
  · have other : "old" ≠ incoming.kid := by decide
    rw [keyForToken_ok_iff, Verifies, if_neg (by decide), rotated, AList.lookup_insert_ne other,
      bothKeys, AList.lookup_insert_ne other]
    exact AList.lookup_insert _
  · intro jwk member
    rw [List.mem_singleton] at member
    rw [member, incoming_usable]
    decide +kernel

/-- The key withdrawn goes on verifying, from the document before. -/
theorem keys_follow_withdrawal :
    (keyForToken started.keys "" = .ok outgoingKey ↔
      Verifies (fun kid => (latest started.loaded kid).or (started.configured.lookup kid)) ""
        outgoingKey) ∧
    (keyForToken rotated.keys "old" = .ok outgoingKey ↔
      Verifies (fun kid => (published [incoming] kid).or (started.keys.lookup kid)) "old"
        outgoingKey) := by
  obtain ⟨held, refreshed⟩ := keys_follow polling_reach
  exact ⟨held "" outgoingKey,
    (refreshed withdrawal rotated [incoming] withdrawal_next rfl).2 "old" outgoingKey⟩

end Rotation

end ScoutPulse.Auth
