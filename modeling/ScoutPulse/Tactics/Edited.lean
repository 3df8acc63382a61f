import ScoutPulse.Tactics.Loaded

/-!
# The operations of the store on a loaded board

Every operation of the editor's store, on a document of which only as much is known as
`normalizeDoc` sees to.
-/

namespace ScoutPulse.Tactics.Loaded

open Js Js.Number Opened

/-- Members that may be texts are found in a list by their equality. -/
theorem lawful_text : LawfulBEq (Option String) := inferInstance

attribute [local instance] lawful_text

/-! ## Texts of the editor's own values -/

/-- An `EquipmentKind` as it is stored. -/
def equipmentText : EquipmentKind → String
  | .ball => "ball"
  | .cone => "cone"
  | .disc => "disc"
  | .pole => "pole"
  | .mannequin => "mannequin"
  | .hurdle => "hurdle"
  | .ladder => "ladder"
  | .ring => "ring"
  | .minigoal => "minigoal"
  | .goal => "goal"
  | .popup => "popup"
  | .flag => "flag"

/-- A `Tool`, and a `DrawingKind`. -/
def toolText : Tool → String
  | .select => "select"
  | .place => "place"
  | .draw .arrow => "arrow"
  | .draw .line => "line"
  | .draw .pen => "pen"
  | .draw .rect => "rect"
  | .draw .ellipse => "ellipse"
  | .draw .polygon => "polygon"
  | .draw .text => "text"

/-- A `StrokeStyle`. -/
def styleText : StrokeStyle → String
  | .solid => "solid"
  | .dashed => "dashed"
  | .wavy => "wavy"

/-- A `Listing`. -/
def listingText : Listing → String
  | .air => "air"
  | .highlight => "highlight"

section Operations

variable [Implementation] [Literals]

/-! ## Reading a document -/

/-- An object as the player reads it. -/
def viewObject (o : Object) : Option Opened.BoardObject := Opened.readObject o.json

/-- A step as the player reads it. -/
def viewStep (s : Fields) : Opened.Step where
  id := match s.field "id" with
    | some (.str id) => id
    | _ => "undefined"
  pos := spreadOf (s.field "pos")
  drawings := entriesOf (s.field "drawings")
  members := s.written.entries

/-- A document as the player reads it. -/
def Doc.view (doc : Doc) : Opened.TacticDoc where
  pitch := doc.pitch.entries
  teams := fun id => (doc.teams id).entries
  objects := doc.objects.filterMap viewObject
  steps := doc.steps.map viewStep

/-- `positionAt`: where an object stands at a step. -/
def positionAt (doc : Doc) (stepIndex : ℤ) (id : String) : Option Held :=
  Opened.positionAt doc.view stepIndex id

/-- The key an id makes: one that is not there is the text `undefined`. -/
def idKey (id : Option String) : String := id.getD "undefined"

/-- `positionsAt`: every object present at a step, with where it stands. -/
def positionsAt (doc : Doc) (stepIndex : ℤ) : Properties (Option String) Held :=
  doc.objects.foldl (fun out o =>
    match positionAt doc stepIndex (idKey (idOf o)) with
    | some p => out.put (idOf o) p
    | none => out) ∅

/-- Whether an object is a player of a team: `one` says if its team and the other are one. -/
def isPlayerOf (team : Option Json) (one : Bool) (o : Object) : Bool :=
  isText (o.get? "kind") "player" && strictEq one (o.get? "team") team

/-- `nextNumber`. -/
def nextNumber (doc : Doc) (team : Option Json) (one : ℕ → Bool) : String :=
  let used := (doc.objects.zipIdx.filter fun (o, i) => isPlayerOf team (one i) o).map
    fun (o, _) => o.get? "number"
  match (List.range' 1 99).find? fun n => !used.any (isText · (toString n)) with
  | some n => toString n
  | none => ""

/-- `formation`, with the ids that are drawn. -/
def formation (name : String) (team : TeamId) (side : Side) (drawn : ℕ → String) :
    List Object × Object :=
  let spots := ((formations.lookup name).orElse fun _ => formations.lookup "4-4-2").getD []
  let dir : ℚ := if side = .left then 1 else -1
  let keeper : Object := Properties.ofList [("id", .str (drawn 0)), ("kind", .str "player"),
    ("team", .str (teamName team)), ("keeper", .bool true), ("number", .str "1")]
  let players : List Object := spots.mapIdx fun k spot => Properties.ofList
    [("id", .str (drawn (k + 1))), ("kind", .str "player"), ("team", .str (teamName team)),
      ("number", .str spot.n)]
  let places := spots.mapIdx fun k spot => (drawn (k + 1), pointJson (spot.place dir))
  (keeper :: players,
    Properties.ofList ((drawn 0, pointJson ⟨-dir * (halfLength - 4), 0⟩) :: places))

/-! ## Patches -/

/-- `Partial<BoardObject>`: an id or a kind it gives is a text. -/
structure ObjectPatch where
  members : List (String × Option Json)
  texts : ∀ key v, (key, some v) ∈ members → key = "id" ∨ key = "kind" → ∃ text, v = .str text

/-- `Partial<Step>`: what every step has is not undefined, and is what its type says as far
as that is read. -/
structure StepPatch where
  members : List (String × Option Json)
  defined : ∀ key ∈ ["duration", "hold", "note"], (key, none) ∉ members
  id : ∀ v, ("id", v) ∈ members → ∃ text, v = some (.str text)
  pos : ∀ v, ("pos", v) ∈ members → ∃ places, v = some (.obj places)
  drawings : ∀ v, ("drawings", v) ∈ members → ∃ items, v = some (.arr items)

/-! ## What each operation makes of a step -/

/-- `{ ...s, pos: { ...s.pos, [id]: at } }`. -/
def putPosition (s : Fields) (id : String) (at_ : Json) : Fields :=
  s.put "pos" (some (spreadWith (s.field "pos") id at_))

/-- The step with the path of an object bent. -/
def bendPath (s : Fields) (id : String) (control : Json) : Fields :=
  s.put "bend" (some (spreadWith (s.field "bend") id control))

/-- A value without a property of it. -/
def spreadWithout (v : Option Json) (key : String) : Json :=
  Object.json ((Properties.ofList (spreadOf v)).erase key)

/-- The step with the path of an object straight. -/
def straightenPath (s : Fields) (id : String) : Fields :=
  s.put "bend" (some (spreadWithout (s.field "bend") id))

/-- A list with an id in or out. A text has characters, but nothing is filtered from it. -/
def toggled (current : Option Json) (id : String) : Except Thrown (List Json) :=
  match current with
  | none => .ok [.str id]
  | some .null => .ok [.str id]
  | some (.arr items) =>
      if items.any fun x => isText (some x) id then
        .ok (items.filter fun x => !isText (some x) id)
      else .ok (items ++ [.str id])
  | some (.str text) =>
      if id.toList <:+: text.toList then .error .typeError
      else .ok (characters text ++ [.str id])
  | some _ => .error .typeError

/-- `strip`: a record without an id, if there is one. -/
def strip (v : Option Json) (id : String) : Option Json :=
  match v with
  | none => none
  | some w => if truthy w then some (spreadWithout v id) else some w

/-- `v?.filter((x) => x !== id)`. -/
def without (v : Option Json) (id : String) : Except Thrown (Option Json) :=
  match v with
  | none => .ok none
  | some .null => .ok none
  | some (.arr items) => .ok (some (.arr (items.filter fun x => !isText (some x) id)))
  | some _ => .error .typeError

/-- The step without an object. -/
def stripStep (id : String) (s : Fields) : Except Thrown Fields := do
  let air ← without (s.field "air") id
  let highlight ← without (s.field "highlight") id
  .ok ((((s.put "pos" (strip (s.field "pos") id)).put "bend" (strip (s.field "bend") id)).put
    "air" air).put "highlight" highlight)

/-- A step without the positions of some objects. -/
def dropPositions (gone : List (Option String)) (s : Fields) : Fields :=
  let kept := (Properties.ofList (spreadOf (s.field "pos"))).choose fun id p =>
    if some id ∈ gone then none else some p
  s.put "pos" (some (Object.json kept))

/-- The step with other drawings. -/
def draw (s : Fields) (drawings : List Json) : Fields := s.put "drawings" (some (.arr drawings))

/-- `duplicateStep` on the step it copies. -/
def copyStep (drawn : ℕ → String) (s : Fields) : Fields :=
  let source := (s.erase "bend").erase "air"
  let drawings := (entriesOf (s.field "drawings")).mapIdx fun k d =>
    spreadWith (some d) "id" (.str (drawn (k + 1)))
  draw ((source.put "id" (some (.str (drawn 0)))).put "pos" (some (.obj []))) drawings

/-! ## What each operation makes of a drawing -/

/-- `d.id === id`. Only null has no properties at all. -/
def isDrawing (id : String) : Json → Except Thrown Bool
  | .null => .error .typeError
  | .obj members => .ok (isText (member members "id") id)
  | _ => .ok false

/-- The coordinates a point is destructured into. -/
def coordinates : Json → Except Thrown (Option Json × Option Json)
  | .arr items => .ok (items[0]?, items[1]?)
  | .str s => .ok ((characters s)[0]?, (characters s)[1]?)
  | _ => .error .typeError

/-- `[x + dx, y + dy]`. -/
def shifted (x y : Option Json) (offset : Vec2) : Except Thrown Json := do
  let x ← (Coord.of x).plus (finite offset.x)
  let y ← (Coord.of y).plus (finite offset.y)
  .ok (.arr [coordJson x, coordJson y])

/-- The points of a drawing, which are a list if a method of lists is called. -/
def pointsOf (d : Object) : Except Thrown (List Json) :=
  match d.get? "points" with
  | some (.arr points) => .ok points
  | _ => .error .typeError

/-- `v[v.length - 1]`. -/
def lastOf : Option Json → Except Thrown (Option Json)
  | none => .error .typeError
  | some .null => .error .typeError
  | some (.arr items) => .ok items.getLast?
  | some (.str s) => .ok (units s).getLast?
  | some (.obj members) => do
      let n ← toNumber (member members "length")
      .ok (member members (numberText (n - finite 1)))
  | some _ => .ok none

/-- A value whose properties are read. -/
def held : Option Json → Except Thrown Held
  | none => .error .typeError
  | some .null => .error .typeError
  | some v => .ok (.own v)

/-- `editDrawing` on the drawing it is for. A control set to undefined is left out. -/
def changeDrawing (d : Object) : DrawingChange → Except Thrown Object
  | .offset offset => do
      let points ← pointsOf d
      let moved ← points.mapM fun p => do
        let (x, y) ← coordinates p
        shifted x y offset
      let d' := d.put "points" (.arr moved)
      match (d.get? "control").filter truthy with
      | some c => do
          let control ← shifted ((Held.own c).index 0) ((Held.own c).index 1) offset
          .ok (d'.put "control" control)
      | none => .ok (d'.erase "control")
  | .control mid => do
      let first ← subscript (d.get? "points") 0
      let last ← lastOf (d.get? "points")
      let a ← held first
      let b ← held last
      let control ← controlThrough a mid b
      .ok (d.put "control" control)
  | .point index at_ => do
      let points ← pointsOf d
      .ok (d.put "points" (.arr (points.set index (pointJson at_))))

/-- A drawing of a step, changed if it has an id. -/
def onDrawing (id : String) (change : Object → Except Thrown Object) (d : Json) :
    Except Thrown Json := do
  let its ← isDrawing id d
  if its then do
    let changed ← change (Properties.ofList (spreadOf (some d)))
    .ok changed.json
  else .ok d

/-- The drawings of a step, one of them changed. -/
def onDrawings (id : String) (change : Object → Except Thrown Object) (s : Fields) :
    Except Thrown Fields := do
  let drawings ← (entriesOf (s.field "drawings")).mapM (onDrawing id change)
  .ok (draw s drawings)

/-- The drawings of a step without one. -/
def withoutDrawing (id : String) (s : Fields) : Except Thrown Fields := do
  let marked ← (entriesOf (s.field "drawings")).mapM fun d => do
    let its ← isDrawing id d
    .ok (its, d)
  .ok (draw s ((marked.filter fun (its, _) => !its).map Prod.snd))

/-! ## What each operation makes of a document -/

/-- `withStep`. -/
def Doc.withStep (doc : Doc) (index : ℕ) (fn : Fields → Except Thrown Fields) :
    Except Thrown Doc :=
  match doc.steps[index]? with
  | none => .ok doc
  | some s => do
      let s ← fn s
      .ok { doc with steps := doc.steps.set index s }

/-- The document with more objects at its end. -/
def Doc.withObjects (doc : Doc) (objects : List Object) : Doc :=
  { doc with objects := doc.objects ++ objects }

/-- `updateObject` on the document. -/
def Doc.updateObject (doc : Doc) (id : String) (patch : List (String × Option Json)) : Doc :=
  { doc with
    objects := doc.objects.map fun o =>
      if idOf o = some id then clean (o.present.assign patch) else o }

/-- The document without an object. -/
def Doc.withoutObject (doc : Doc) (id : String) : Except Thrown Doc := do
  let steps ← doc.steps.mapM (stripStep id)
  .ok { doc with
    objects := doc.objects.filter fun o => idOf o ≠ some id
    steps := steps }

/-- The ids of the players of a team. -/
def Doc.players (doc : Doc) (team : TeamId) : List (Option String) :=
  (doc.objects.filter (isPlayerOf (some (.str (teamName team))) false)).map idOf

/-- The document without some objects and their positions. -/
def Doc.withoutObjects (doc : Doc) (gone : List (Option String)) : Doc :=
  { doc with
    objects := doc.objects.filter fun o => idOf o ∉ gone
    steps := doc.steps.map (dropPositions gone) }

/-- `steps.splice(at, 0, step)`. -/
def Doc.insertStep (doc : Doc) (at_ : ℕ) (step : Fields) : Doc :=
  { doc with steps := doc.steps.take at_ ++ step :: doc.steps.drop at_ }

/-- Where everything stands before a place of an order of steps and the places they had. -/
def Doc.before (doc : Doc) (order : List (Fields × ℕ)) (k : ℕ) :
    Properties (Option String) Held :=
  if 0 < k then
    match order[k - 1]? with
    | some (_, at_) => positionsAt doc at_
    | none => ∅
  else ∅

/-- `pos[id] = p`. What is inherited is a function, which JSON leaves out. -/
def setPosition (pos : Object) (id : Option String) : Held → Object
  | .own p => pos.put (idKey id) p
  | .inherited => pos

/-- The positions of the step moved to a place of an order: what differs from the step now
before it. -/
def Doc.resettled (doc : Doc) (order : List (Fields × ℕ)) (k at_ : ℕ)
    (one : ℕ → Bool) : Object :=
  let before := doc.before order k
  (positionsAt doc at_).entries.zipIdx.foldl (fun pos ((id, p), j) =>
    match before.get? id with
    | none => setPosition pos id p
    | some q =>
        if strictEq (one (2 * j)) (q.index 0) (p.index 0) &&
            strictEq (one (2 * j + 1)) (q.index 1) (p.index 1) then pos
        else setPosition pos id p) ∅

/-- The document with a step moved to another place. -/
def Doc.reorder (doc : Doc) (from_ to_ : ℕ) (one : ℕ → ℕ → Bool) : Doc :=
  let order := Layers.moved doc.steps.zipIdx from_ to_
  { doc with
    steps := order.mapIdx fun k (s, at_) =>
      s.put "pos" (some (doc.resettled order k at_ (one k)).json) }

/-- The document without a step, whose positions are carried into the next one. -/
def Doc.removeStep (doc : Doc) (i : ℕ) : Doc :=
  let steps := doc.steps.eraseIdx i
  { doc with
    steps := match doc.steps[i]?, steps[i]? with
      | some removed, some next =>
          let carried := (Properties.ofList (spreadOf (removed.field "pos"))).assign
            (spreadOf (next.field "pos"))
          steps.set i (next.put "pos" (some (Object.json carried)))
      | _, _ => steps }

/-- `{ ...teams, [team]: { ...teams[team], ...patch } }`. -/
def Doc.patchKit (doc : Doc) (team : TeamId) (patch : List (String × Json)) : Doc :=
  { doc with
    teams := fun id => if id = team then (doc.teams id).assign patch else doc.teams id }

end Operations

end ScoutPulse.Tactics.Loaded
