import ScoutPulse.Lib.Layers
import ScoutPulse.Lib.Machine
import ScoutPulse.Lib.Properties
import ScoutPulse.Tactics.Playback
import ScoutPulse.Tactics.Store

/-!
# Editing a board as it was loaded

The store is given what `normalizeDoc` makes of a stored board, and works on that: a kit, an
object, a drawing or a step may have members the editor knows nothing of, and the ones it
knows may hold anything. Here every operation is what it does to the members, so that the
document can be written back and read again. An operation that throws leaves the store as it
was. The ids an operation draws are given to it, and so is whether two arrays or objects it
compares are one.
-/

namespace ScoutPulse.Tactics.Loaded

open Js Js.Number Opened

/-! ## Objects of the language -/

/-- An object, and the JSON of each of its properties. -/
abbrev Object := Properties String Json

/-- An object some of whose properties may be undefined. -/
abbrev Fields := Properties String (Option Json)

/-- `o[key]`. -/
def Fields.field (o : Fields) (key : String) : Option Json := (o.get? key).join

/-- An object as JSON. -/
def Object.json (o : Object) : Json := .obj o.entries

/-- And one that has properties that are undefined: they are left out. -/
def Fields.json (o : Fields) : Json := Object.json o.written

/-- `v === text`. -/
def isText (v : Option Json) (text : String) : Bool :=
  match v with
  | some (.str s) => s = text
  | _ => false

/-- `a === b`, where arrays and objects are equal if they are one. -/
def strictEq (one : Bool) : Option Json → Option Json → Bool
  | none, none => true
  | some .null, some .null => true
  | some (.bool a), some (.bool b) => a = b
  | some (.num a), some (.num b) => a.value = b.value
  | some (.str a), some (.str b) => a = b
  | some (.arr _), some (.arr _) => one
  | some (.obj _), some (.obj _) => one
  | _, _ => false

/-- Entries under their indexes. -/
def indexed (items : List Json) : List (String × Json) :=
  items.zipIdx.map fun (item, i) => (toString i, item)

/-- The properties a value has when it is spread into an object. -/
def spreadOf : Option Json → List (String × Json)
  | some (.obj members) => members
  | some (.arr items) => indexed items
  | some (.str s) => indexed (units s)
  | _ => []

/-- `{ ...v, [key]: value }`. -/
def spreadWith (v : Option Json) (key : String) (value : Json) : Json :=
  Object.json ((Properties.ofList (spreadOf v)).put key value)

/-- The characters of a text, as it is spread into an array. -/
def characters (s : String) : List Json := s.toList.map fun c => .str (String.singleton c)

/-- `clean`: drops what is undefined, and the empty text. -/
def clean (o : Fields) : Object :=
  o.choose fun _ v =>
    match v with
    | some (.str "") => none
    | v => v

/-! ## Numbers -/

/-- How JSON writes a finite number. -/
class Literals where
  literal : ℚ → JsonNumber

section Documents

variable [Implementation] [Literals]

/-- A number as JSON: one that is not finite is null. -/
def numberJson : Number → Json
  | finite x => .num (Literals.literal x)
  | _ => .null

/-- A coordinate as JSON. -/
def coordJson : Coord → Json
  | .number n => numberJson n
  | .text s => .str s
  | .held v => v.getD .null

/-- A point as JSON. -/
def pointJson (p : Vec2) : Json := .arr [numberJson (finite p.x), numberJson (finite p.y)]

/-- What `a + b` makes of its operands: an array or an object becomes a text. -/
def primitive : Option Json → Except Thrown (Option Json)
  | some (.arr items) => do
      let s ← toText (.arr items)
      .ok (some (.str s))
  | some (.obj members) => do
      let s ← toText (.obj members)
      .ok (some (.str s))
  | v => .ok v

/-- `String(v)`. -/
def textOf : Option Json → Except Thrown String
  | none => .ok "undefined"
  | some v => toText v

/-- The number `a + b` is then taken for. -/
def sum (a b : Option Json) : Except Thrown Number := do
  let a ← primitive a
  let b ← primitive b
  let joined : Except Thrown Number := do
    let s ← textOf a
    let t ← textOf b
    .ok (stringToNumber (s ++ t))
  match a, b with
  | some (.str _), _ => joined
  | _, some (.str _) => joined
  | a, b => do
      let m ← toNumber a
      let n ← toNumber b
      .ok (m + n)

/-- `v[i]`, which throws if there is no value. -/
def subscript (v : Option Json) (i : ℕ) : Except Thrown (Option Json) :=
  match v with
  | none => .error .typeError
  | some .null => .error .typeError
  | some v => .ok ((Held.own v).index i)

/-- `controlThrough`. -/
def controlThrough (a : Held) (m : Vec2) (b : Held) : Except Thrown Json := do
  let x ← sum (a.index 0) (b.index 0)
  let y ← sum (a.index 1) (b.index 1)
  .ok (.arr [numberJson (finite (2 * m.x) - x / finite 2),
    numberJson (finite (2 * m.y) - y / finite 2)])

/-! ## Documents -/

/-- `TacticDoc`. -/
structure Doc where
  pitch : Object
  teams : TeamId → Object
  objects : List Object
  steps : List Fields

/-- A document as JSON. -/
def Doc.json (doc : Doc) : Json :=
  .obj [("v", .num ⟨false, 1, 0⟩),
    ("pitch", doc.pitch.json),
    ("teams", .obj [("home", (doc.teams .home).json), ("away", (doc.teams .away).json),
      ("third", (doc.teams .third).json)]),
    ("objects", .arr (doc.objects.map Object.json)),
    ("steps", .arr (doc.steps.map Fields.json))]

/-- `newStep`, with the id drawn for it. -/
def newStep (drawn : String) : Fields where
  entries := [("id", some (.str drawn)), ("duration", some (.num ⟨false, 16, -1⟩)),
    ("hold", some (.num ⟨false, 6, -1⟩)), ("note", some (.str "")), ("pos", some (.obj [])),
    ("drawings", some (.arr []))]
  nodup := by simp

/-- The pitch of `emptyDoc`. -/
def basePitch : Object := ⟨Opened.basePitch, by decide⟩

/-- The teams of `emptyDoc`. -/
def baseTeam (id : TeamId) : Object := ⟨Opened.baseTeam id, by simp [Opened.baseTeam, kitMembers]⟩

/-- `emptyDoc`, with the id drawn for its step. -/
def emptyDoc (drawn : String) : Doc := ⟨basePitch, baseTeam, [], [newStep drawn]⟩

/-- `o.id`, which is a text if it is there. -/
def idOf (o : Object) : Option String :=
  match o.get? "id" with
  | some (.str id) => some id
  | _ => none

/-- An object whose id and kind are texts. -/
def readObject (v : Json) : Option Object :=
  match asObject v with
  | none => none
  | some members =>
      let o : Object := Properties.ofList members
      match o.get? "id", o.get? "kind" with
      | some (.str _), some (.str _) => some o
      | _, _ => none

/-- A step, with the id drawn in case it has none. -/
def readStep (drawn : String) (s : Members) : Fields :=
  let taken := (newStep drawn).assign (s.map fun entry => (entry.1, some entry.2))
  let id := match member s "id" with
    | some (.str id) => id
    | _ => drawn
  ((taken.put "id" (some (.str id))).put "pos" (some (.obj (membersOf (member s "pos"))))).put
    "drawings" (some (.arr (entriesOf (member s "drawings"))))

/-- `normalizeDoc`, with the ids that are drawn. -/
def normalizeDoc (newId : ℕ → String) (raw : Json) : Doc :=
  let base := emptyDoc (newId 0)
  match sourceOf raw with
  | none => base
  | some src =>
      let teams := membersOf (member src "teams")
      let steps := (keptSteps src).mapIdx fun i s => readStep (newId (i + 1)) s
      { pitch := base.pitch.assign (membersOf (member src "pitch"))
        teams := fun id => (base.teams id).assign (membersOf (member teams (teamName id)))
        objects := (entriesOf (member src "objects")).filterMap readObject
        steps := if steps = [] then base.steps else steps }

end Documents

end ScoutPulse.Tactics.Loaded
