import ScoutPulse.Platform.KeySet
import ScoutPulse.Lib.Outcome
import Mathlib.Data.Nat.Digits.Lemmas

/-!
# The keys a service publishes

An issuer writes its verification keys as a key set: modulus and exponent as big-endian
bytes without leading zeros, in the URL-safe base64 without padding. Every key it can hold
is read back as it was, and nothing is read that is not such a key.
-/

namespace ScoutPulse.Auth

/-! ## Writing a key -/

/-- The URL-safe alphabet. -/
def urlAlphabet : List Char :=
  "ABCDEFGHIJKLMNOPQRSTUVWXYZabcdefghijklmnopqrstuvwxyz0123456789-_".toList

def urlChar (d : ℕ) : Char := urlAlphabet.getD d 'A'

/-- The digits of a sequence of bytes, three of them making four digits. -/
def sextets : List ℕ → List ℕ
  | [] => []
  | [a] => [a / 4, a % 4 * 16]
  | [a, b] => [a / 4, a % 4 * 16 + b / 16, b % 16 * 4]
  | a :: b :: c :: rest =>
      [a / 4, a % 4 * 16 + b / 16, b % 16 * 4 + c / 64, c % 64] ++ sextets rest

/-- `base64.RawURLEncoding.EncodeToString`. -/
def rawURLEncode (bytes : List ℕ) : String := String.ofList ((sextets bytes).map urlChar)

/-- `Bytes`, the big-endian bytes of a number. -/
def bytes (n : ℕ) : List ℕ := (Nat.digits 256 n).reverse

/-- The entry of a key. -/
def publicJWK (kid : String) (key : PublicKey) : JWK where
  kty := "RSA"
  use := "sig"
  alg := "RS256"
  kid := kid
  n := rawURLEncode (bytes key.n)
  e := rawURLEncode (bytes key.e)

/-- `PublicJWKS`. -/
def publicJWKS (verificationKeys : KeyMap) : List JWK :=
  verificationKeys.entries.map fun entry => publicJWK entry.1 entry.2

/-! ## Reading it back -/

theorem urlDigit_urlChar : ∀ d < 64, urlDigit (urlChar d) = some d := by decide +kernel

theorem urlChar_ne_lineEnd : ∀ d < 64, urlChar d ≠ '\r' ∧ urlChar d ≠ '\n' := by decide +kernel

/-- The sextets of bytes are digits. -/
theorem sextets_lt {bytes : List ℕ} (small : ∀ b ∈ bytes, b < 256) :
    ∀ d ∈ sextets bytes, d < 64 := by
  induction bytes using sextets.induct with
  | case1 => simp [sextets]
  | case2 a =>
      have low := small a (by simp)
      simp only [sextets, List.mem_cons, List.not_mem_nil, or_false, forall_eq_or_imp, forall_eq]
      omega
  | case3 a b =>
      have low := small a (by simp)
      have low' := small b (by simp)
      simp only [sextets, List.mem_cons, List.not_mem_nil, or_false, forall_eq_or_imp, forall_eq]
      omega
  | case4 a b c rest ih =>
      have low := small a (by simp)
      have low' := small b (by simp)
      have low'' := small c (by simp)
      have later := ih fun x member => small x (by simp [member])
      simp only [sextets, List.mem_append, List.mem_cons, List.not_mem_nil, or_false]
      rintro d (here | there)
      · omega
      · exact later d there

/-- Four digits give back their three bytes, and fewer what is left of them. -/
theorem quanta_sextets {bytes : List ℕ} (small : ∀ b ∈ bytes, b < 256) :
    quanta (sextets bytes) = some bytes := by
  induction bytes using sextets.induct with
  | case1 => rfl
  | case2 a =>
      have low := small a (by simp)
      simp only [sextets, quanta, Option.some.injEq, List.cons.injEq, and_true]
      omega
  | case3 a b =>
      have low := small a (by simp)
      have low' := small b (by simp)
      simp only [sextets, quanta, Option.some.injEq, List.cons.injEq, and_true]
      omega
  | case4 a b c rest ih =>
      have low := small a (by simp)
      have low' := small b (by simp)
      have low'' := small c (by simp)
      have later := ih fun x member => small x (by simp [member])
      simp only [sextets, List.cons_append, List.nil_append, quanta, later, Option.map_some,
        Option.some.injEq, List.cons.injEq, and_true]
      omega

/-- The digits are read back from the characters. -/
theorem mapM_urlDigit {ds : List ℕ} (digits : ∀ d ∈ ds, d < 64) :
    (ds.map urlChar).mapM urlDigit = some ds := by
  induction ds with
  | nil => rfl
  | cons d ds ih =>
      rw [List.forall_mem_cons] at digits
      exact Outcome.mapM_cons_eq_some.mpr
        ⟨d, ds, urlDigit_urlChar d digits.1, ih digits.2, rfl⟩

/-- What was encoded is decoded. -/
theorem rawURLDecode_rawURLEncode {bytes : List ℕ} (small : ∀ b ∈ bytes, b < 256) :
    rawURLDecode (rawURLEncode bytes) = some bytes := by
  have digits := sextets_lt small
  have kept : ((sextets bytes).map urlChar).filter (fun c => c ≠ '\r' && c ≠ '\n') =
      (sextets bytes).map urlChar := by
    refine List.filter_eq_self.mpr fun c member => ?_
    obtain ⟨d, digit, rfl⟩ := List.mem_map.mp member
    simpa using urlChar_ne_lineEnd d (digits d digit)
  rw [rawURLDecode, rawURLEncode, String.toList_ofList, kept, mapM_urlDigit digits]
  exact quanta_sextets small

/-- Bytes are the digits of a number to the base 256. -/
theorem setBytes_eq (bytes : List ℕ) : setBytes bytes = Nat.ofDigits 256 bytes.reverse := by
  induction bytes using List.reverseRecOn with
  | nil => rfl
  | append_singleton bytes b ih =>
      rw [setBytes, List.foldl_concat, List.reverse_append, List.reverse_singleton,
        List.singleton_append, Nat.ofDigits_cons, ← ih, Nat.add_comm, Nat.mul_comm]
      rfl

theorem setBytes_bytes (n : ℕ) : setBytes (bytes n) = n := by
  rw [setBytes_eq, bytes, List.reverse_reverse, Nat.ofDigits_digits]

theorem bytes_lt {n b : ℕ} (member : b ∈ bytes n) : b < 256 :=
  Nat.digits_lt_base (by decide) (List.mem_reverse.mp member)

/-- A number survives its text. -/
theorem rawURLDecode_bytes (n : ℕ) : rawURLDecode (rawURLEncode (bytes n)) = some (bytes n) :=
  rawURLDecode_rawURLEncode fun _ member => bytes_lt member

/-! ## What is read, exactly -/

/-- A key is read from an entry of type RSA whose two numbers decode, if the exponent is
below 2³² and the modulus has enough bits. -/
theorem toRSAPublicKey_eq_some {j : JWK} {key : PublicKey} :
    j.toRSAPublicKey = some key ↔ j.kty = "RSA" ∧
      (∃ bytes, rawURLDecode j.n = some bytes ∧ setBytes bytes = key.n) ∧
      (∃ bytes, rawURLDecode j.e = some bytes ∧ setBytes bytes = key.e) ∧
      key.e < 2 ^ 32 ∧ minRSAKeyBits ≤ bitLen key.n := by
  rw [JWK.toRSAPublicKey]
  by_cases rsa : j.kty = "RSA"
  · rw [if_neg (not_not.mpr rsa)]
    simp only [rsa, true_and]
    constructor
    · intro read
      obtain ⟨n, modulus, read⟩ := Option.bind_eq_some_iff.mp read
      obtain ⟨e, exponent, read⟩ := Option.bind_eq_some_iff.mp read
      split_ifs at read with large short
      cases read
      exact ⟨⟨n, modulus, rfl⟩, ⟨e, exponent, rfl⟩,
        Nat.lt_of_le_pred (by decide) (not_lt.mp large), not_lt.mp short⟩
    · intro usable
      obtain ⟨⟨n, modulus, sameN⟩, ⟨e, exponent, sameE⟩, small, long⟩ := usable
      refine Option.bind_eq_some_iff.mpr ⟨n, modulus, Option.bind_eq_some_iff.mpr
        ⟨e, exponent, ?_⟩⟩
      have fits : ¬2 ^ 32 - 1 < key.e := by omega
      rw [sameN, sameE, if_neg fits, if_neg (not_lt.mpr long)]
  · rw [if_pos rsa]
    simp [rsa]

/-- The key set of an issuer gives back its keys, and a key is only read that has the size
and the exponent of one. -/
theorem publicJWKS_survive (keys : KeyMap) :
    (∀ kid key, keys.lookup kid = some key → minRSAKeyBits ≤ bitLen key.n → 1 ≤ key.e →
      key.e < 2 ^ 32 →
      (∃ j ∈ publicJWKS keys, j.kid = kid) ∧
      ∀ j ∈ publicJWKS keys, j.kid = kid → j.toRSAPublicKey = some key) ∧
    ∀ (j : JWK) (key : PublicKey), j.toRSAPublicKey = some key → j.kty = "RSA" ∧
      (∃ bytes, rawURLDecode j.n = some bytes ∧ setBytes bytes = key.n) ∧
      (∃ bytes, rawURLDecode j.e = some bytes ∧ setBytes bytes = key.e) ∧
      key.e < 2 ^ 32 ∧ minRSAKeyBits ≤ bitLen key.n := by
  refine ⟨fun kid key found long _ small => ⟨?_, ?_⟩, fun j key => toRSAPublicKey_eq_some.mp⟩
  · exact ⟨_, List.mem_map_of_mem (AList.mem_lookup_iff.mp found), rfl⟩
  · intro j member same
    obtain ⟨entry, listed, rfl⟩ := List.mem_map.mp member
    have own : keys.lookup entry.1 = some entry.2 := AList.mem_lookup_iff.mpr listed
    rw [show entry.1 = kid from same, found, Option.some.injEq] at own
    exact toRSAPublicKey_eq_some.mpr ⟨rfl,
      ⟨bytes entry.2.n, rawURLDecode_bytes _, own ▸ setBytes_bytes _⟩,
      ⟨bytes entry.2.e, rawURLDecode_bytes _, own ▸ setBytes_bytes _⟩, small, long⟩

/-- An issuer with one key. -/
def single : KeyMap := (∅ : KeyMap).insert "old" outgoingKey

/-- A published key of the least length survives. -/
theorem publicJWKS_survive_single : (∃ j ∈ publicJWKS single, j.kid = "old") ∧
    (∀ j ∈ publicJWKS single, j.kid = "old" → j.toRSAPublicKey = some outgoingKey) ∧
    bitLen outgoingKey.n = minRSAKeyBits := by
  have long : bitLen outgoingKey.n = minRSAKeyBits := bitLen_ones 2048
  obtain ⟨listed, read⟩ := (publicJWKS_survive single).1 "old" outgoingKey
    (AList.lookup_insert _) (Nat.le_of_eq long.symm) (by decide) (by decide)
  exact ⟨listed, read, long⟩

end ScoutPulse.Auth
