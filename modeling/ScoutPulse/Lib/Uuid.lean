import ScoutPulse.Lib.Json

/-!
# The texts of a UUID

A column of type `uuid` holds sixteen bytes. Its input takes their digits in either case, with
or without hyphens between groups of four and with or without braces, so that two texts may
name one row.
-/

/-- Sixteen bytes. -/
abbrev Uuid := List ℕ

namespace Uuid

/-- So many bytes and the text behind them. A hyphen may follow every second one but the
last. -/
def readBytes : ℕ → List Char → Option (Uuid × List Char)
  | 0, cs => some ([], cs)
  | n + 1, a :: b :: cs => do
      let high ← Json.hexValue a
      let low ← Json.hexValue b
      let (bytes, rest) ← readBytes n
        (if n % 2 = 0 ∧ 0 < n ∧ cs.head? = some '-' then cs.tail else cs)
      some ((16 * high + low) :: bytes, rest)
  | _ + 1, _ => none

/-- `uuid_in`. -/
def parse (text : String) : Option Uuid :=
  let braces := text.toList.head? = some '{'
  match readBytes 16 (if braces then text.toList.tail else text.toList) with
  | some (bytes, rest) => if rest = (if braces then ['}'] else []) then some bytes else none
  | none => none

theorem hexValue_nul : Json.hexValue '\x00' = none := by decide

/-- A text that is read as bytes has no NUL. -/
theorem nul_notMem_readBytes {n : ℕ} {cs rest : List Char} {bytes : Uuid}
    (read : readBytes n cs = some (bytes, rest)) (clean : '\x00' ∉ rest) : '\x00' ∉ cs := by
  induction n generalizing cs bytes with
  | zero =>
      rw [readBytes, Option.some.injEq, Prod.mk.injEq] at read
      exact read.2 ▸ clean
  | succ n ih =>
      match cs with
      | [] => exact List.not_mem_nil
      | [a] => cases read
      | a :: b :: cs =>
          rw [readBytes] at read
          obtain ⟨high, first, read⟩ := Option.bind_eq_some_iff.mp read
          obtain ⟨low, second, read⟩ := Option.bind_eq_some_iff.mp read
          obtain ⟨⟨more, rest'⟩, others, read⟩ := Option.bind_eq_some_iff.mp read
          rw [Option.some.injEq, Prod.mk.injEq] at read
          obtain ⟨-, rfl⟩ := read
          have later := ih others
          have digit : ∀ {c : Char} {value : ℕ}, Json.hexValue c = some value → '\x00' ≠ c := by
            rintro c value valued rfl
            rw [hexValue_nul] at valued
            cases valued
          rw [List.mem_cons, List.mem_cons, not_or, not_or]
          refine ⟨digit first, digit second, ?_⟩
          split_ifs at later with hyphen
          · obtain ⟨tail, rfl⟩ := List.head?_eq_some_iff.mp hyphen.2.2
            exact List.not_mem_cons_of_ne_of_not_mem (by decide) later
          · exact later

/-- No text of a UUID has a zero character in it. -/
theorem nul_notMem {text : String} {u : Uuid} (parsed : parse text = some u) :
    '\x00' ∉ text.toList := by
  rw [parse] at parsed
  split at parsed
  next bytes rest read =>
    split_ifs at read parsed with braces closed closed
    · obtain ⟨tail, same⟩ := List.head?_eq_some_iff.mp braces
      rw [same] at read ⊢
      exact List.not_mem_cons_of_ne_of_not_mem (by decide)
        (nul_notMem_readBytes read (closed ▸ by decide))
    · exact nul_notMem_readBytes read (closed ▸ by decide)
  next => cases parsed

/-- The texts are not unique. -/
example : parse "{AAAAAAAA-aaaa-aaaa-aaaa-aaaaaaaaaaaa}" = parse "aaaaaaaaaaaaaaaaaaaaaaaaaaaaaaaa" := by
  decide +kernel

end Uuid
