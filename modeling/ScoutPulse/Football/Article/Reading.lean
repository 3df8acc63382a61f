import ScoutPulse.Football.Article.Soundness

/-!
# The document that is served

What is stored is the text the check accepted, not the tree it decoded. A `jsonb`
column keeps the last value of a repeated key, and the reader takes each field under
its exact name, while `encoding/json` matches names without their case and merges a
repeated object into the map that is there. The two trees may therefore differ, and
the check has walked the other one.
-/

namespace ScoutPulse.Articles

open Strings

/-- The field a key names exactly. -/
def exactFieldOf (key : String) : Option Field :=
  [Field.type, .attrs, .content, .marks, .text].find? fun f => key = f.name

def readString : Json → Option String
  | .null => some ""
  | .str s => some s
  | _ => none

def readAttrs : Json → Option Attrs
  | .null => some []
  | .obj members => some members.reverse
  | _ => none

def readMarkFields : List (String × Json) → ArticleMark → Option ArticleMark
  | [], m => some m
  | (key, value) :: members, m =>
      (match exactFieldOf key with
        | some .type => (readString value).map fun t => { m with type := t }
        | some .attrs => (readAttrs value).map fun a => { m with attrs := a }
        | _ => some m).bind
      fun m => readMarkFields members m

def readMark : Json → Option ArticleMark
  | .null => some .zero
  | .obj members => readMarkFields members .zero
  | _ => none

def readMarks : Json → Option (List ArticleMark)
  | .null => some []
  | .arr items => items.mapM readMark
  | _ => none

mutual

/-- `DocNode`, as the reader takes it from an object without repeated keys. -/
def readNode : Json → Option ArticleNode
  | .null => some .zero
  | .obj members => readNodeFields members .zero
  | _ => none

def readNodeFields : List (String × Json) → ArticleNode → Option ArticleNode
  | [], n => some n
  | (key, value) :: members, n =>
      (match exactFieldOf key with
        | some .type => (readString value).map fun t => { n with type := t }
        | some .attrs => (readAttrs value).map fun a => { n with attrs := a }
        | some .content => (readContent value).map fun c => { n with content := c }
        | some .marks => (readMarks value).map fun m => { n with marks := m }
        | some .text => (readString value).map fun t => { n with text := t }
        | none => some n).bind
      fun n => readNodeFields members n

def readContent : Json → Option (List ArticleNode)
  | .null => some []
  | .arr items => readNodes items
  | _ => none

def readNodes : List Json → Option (List ArticleNode)
  | [] => some []
  | item :: items => do
      let n ← readNode item
      let ns ← readNodes items
      some (n :: ns)

end

/-- The document a stored body is served as. -/
def servedDocument (raw : String) : Option ArticleNode :=
  Json.parse raw >>= fun value => readNode value.jsonb

/-! ## What decodes can be read

Whatever `encoding/json` accepts has values of the right types under every spelling
of a field's name, so also under the exact one. -/

theorem exactFieldOf_name {key : String} {f : Field} (named : exactFieldOf key = some f) :
    key = f.name := by
  have found := List.find?_some named
  exact of_decide_eq_true found

theorem fieldOf_exact {key : String} {f : Field} (named : exactFieldOf key = some f) :
    fieldOf key = some f := by
  have name := exactFieldOf_name named
  subst name
  cases f <;> decide +kernel

/-- A text that is decoded can be read. -/
theorem readString_total {value : Json} {old text : String}
    (decoded : decodeString value old = some text) :
    ∃ read, readString value.jsonb = some read := by
  cases value with
  | null => exact ⟨"", rfl⟩
  | str s => exact ⟨s, rfl⟩
  | bool b => cases decoded
  | num n => cases decoded
  | arr items => cases decoded
  | obj members => cases decoded

/-- Attributes that are decoded can be read. -/
theorem readAttrs_total {value : Json} {old attrs : Attrs}
    (decoded : decodeAttrs value old = some attrs) :
    ∃ read, readAttrs value.jsonb = some read := by
  cases value with
  | null => exact ⟨[], rfl⟩
  | obj members => exact ⟨(Json.jsonbMembers members).reverse, rfl⟩
  | str s => cases decoded
  | bool b => cases decoded
  | num n => cases decoded
  | arr items => cases decoded

/-- The fields of a mark that are decoded can be read, one after the other. -/
theorem readMarkFields_total (members : List (String × Json)) :
    ∀ {m m' : ArticleMark} (s : ArticleMark), decodeMarkFields members m = some m' →
      ∃ read, readMarkFields (Json.jsonbMembers members) s = some read := by
  induction members with
  | nil => exact fun s _ => ⟨s, rfl⟩
  | cons member members ih =>
      obtain ⟨key, value⟩ := member
      intro m m' s decoded
      rw [decodeMarkFields] at decoded
      obtain ⟨m₁, first, rest⟩ := Option.bind_eq_some_iff.mp decoded
      by_cases repeated : key ∈ members.map Prod.fst
      · rw [Json.jsonbMembers, if_pos repeated]
        exact ih s rest
      rw [Json.jsonbMembers, if_neg repeated, readMarkFields]
      cases named : exactFieldOf key with
      | none => exact ih s rest
      | some f =>
          rw [fieldOf_exact named] at first
          cases f with
          | type =>
              obtain ⟨_, text, -⟩ := Option.map_eq_some_iff.mp first
              obtain ⟨type, read⟩ := readString_total text
              rw [read]
              exact ih _ rest
          | attrs =>
              obtain ⟨_, object, -⟩ := Option.map_eq_some_iff.mp first
              obtain ⟨attrs, read⟩ := readAttrs_total object
              rw [read]
              exact ih _ rest
          | content => exact ih s rest
          | marks => exact ih s rest
          | text => exact ih s rest

/-- A mark that is decoded can be read. -/
theorem readMark_total {value : Json} {m : ArticleMark} (decoded : decodeMark value = some m) :
    ∃ read, readMark value.jsonb = some read := by
  cases value with
  | null => exact ⟨.zero, rfl⟩
  | obj members => exact readMarkFields_total members .zero decoded
  | str s => cases decoded
  | bool b => cases decoded
  | num n => cases decoded
  | arr items => cases decoded

/-- Marks that are decoded can be read. -/
theorem readMarks_total {value : Json} {marks : List ArticleMark}
    (decoded : decodeMarks value = some marks) :
    ∃ read, readMarks value.jsonb = some read := by
  cases value with
  | null => exact ⟨[], rfl⟩
  | arr items =>
      change items.mapM decodeMark = some marks at decoded
      change ∃ read, (Json.jsonbAll items).mapM readMark = some read
      induction items generalizing marks with
      | nil => exact ⟨[], rfl⟩
      | cons item items ih =>
          rw [List.mapM_cons] at decoded
          obtain ⟨m, first, more⟩ := Option.bind_eq_some_iff.mp decoded
          obtain ⟨ms, rest, -⟩ := Option.bind_eq_some_iff.mp more
          obtain ⟨r, read⟩ := readMark_total first
          obtain ⟨rs, reads⟩ := ih rest
          exact ⟨r :: rs, by rw [Json.jsonbAll, List.mapM_cons, read, reads]; rfl⟩
  | obj members => cases decoded
  | str s => cases decoded
  | bool b => cases decoded
  | num n => cases decoded

mutual

/-- A node that is decoded can be read. -/
theorem readNode_total : ∀ (value : Json) {n : ArticleNode}, decodeNode value = some n →
    ∃ read, readNode value.jsonb = some read
  | .null, _, _ => ⟨.zero, rfl⟩
  | .obj members, _, decoded => readNodeFields_total members .zero decoded
  | .bool _, _, decoded => by cases decoded
  | .num _, _, decoded => by cases decoded
  | .str _, _, decoded => by cases decoded
  | .arr _, _, decoded => by cases decoded

/-- The fields of a node that are decoded can be read, one after the other. -/
theorem readNodeFields_total : ∀ (members : List (String × Json)) {n n' : ArticleNode}
    (s : ArticleNode), decodeNodeFields members n = some n' →
    ∃ read, readNodeFields (Json.jsonbMembers members) s = some read
  | [], _, _, s, _ => ⟨s, rfl⟩
  | (key, value) :: members, n, n', s, decoded => by
      rw [decodeNodeFields] at decoded
      obtain ⟨n₁, first, rest⟩ := Option.bind_eq_some_iff.mp decoded
      by_cases repeated : key ∈ members.map Prod.fst
      · rw [Json.jsonbMembers, if_pos repeated]
        exact readNodeFields_total members s rest
      rw [Json.jsonbMembers, if_neg repeated, readNodeFields]
      cases named : exactFieldOf key with
      | none => exact readNodeFields_total members s rest
      | some f =>
          rw [fieldOf_exact named] at first
          cases f with
          | type =>
              obtain ⟨_, text, -⟩ := Option.map_eq_some_iff.mp first
              obtain ⟨type, read⟩ := readString_total text
              rw [read]
              exact readNodeFields_total members _ rest
          | attrs =>
              obtain ⟨_, object, -⟩ := Option.map_eq_some_iff.mp first
              obtain ⟨attrs, read⟩ := readAttrs_total object
              rw [read]
              exact readNodeFields_total members _ rest
          | content =>
              obtain ⟨_, array, -⟩ := Option.map_eq_some_iff.mp first
              obtain ⟨content, read⟩ := readContent_total value array
              rw [read]
              exact readNodeFields_total members _ rest
          | marks =>
              obtain ⟨_, array, -⟩ := Option.map_eq_some_iff.mp first
              obtain ⟨marks, read⟩ := readMarks_total array
              rw [read]
              exact readNodeFields_total members _ rest
          | text =>
              obtain ⟨_, text, -⟩ := Option.map_eq_some_iff.mp first
              obtain ⟨text, read⟩ := readString_total text
              rw [read]
              exact readNodeFields_total members _ rest

/-- Contents that are decoded can be read. -/
theorem readContent_total : ∀ (value : Json) {ns : List ArticleNode},
    decodeContent value = some ns → ∃ read, readContent value.jsonb = some read
  | .null, _, _ => ⟨[], rfl⟩
  | .arr items, _, decoded => readNodes_total items decoded
  | .bool _, _, decoded => by cases decoded
  | .num _, _, decoded => by cases decoded
  | .str _, _, decoded => by cases decoded
  | .obj _, _, decoded => by cases decoded

/-- Nodes that are decoded can be read. -/
theorem readNodes_total : ∀ (items : List Json) {ns : List ArticleNode},
    decodeNodes items = some ns → ∃ read, readNodes (Json.jsonbAll items) = some read
  | [], _, _ => ⟨[], rfl⟩
  | item :: items, ns, decoded => by
      rw [decodeNodes] at decoded
      obtain ⟨n, first, more⟩ := Option.bind_eq_some_iff.mp decoded
      obtain ⟨ns', rest, -⟩ := Option.bind_eq_some_iff.mp more
      obtain ⟨r, read⟩ := readNode_total item first
      obtain ⟨rs, reads⟩ := readNodes_total items rest
      exact ⟨r :: rs, by rw [Json.jsonbAll, readNodes, read, reads]; rfl⟩

end

/-- Whatever the service decodes is served as some document. -/
theorem servedDocument_total {raw : String} {doc : ArticleNode}
    (decoded : unmarshal raw = some doc) : ∃ served, servedDocument raw = some served := by
  obtain ⟨value, parsed, decodes⟩ := Option.bind_eq_some_iff.mp decoded
  obtain ⟨served, read⟩ := readNode_total value decodes
  exact ⟨served, by rw [servedDocument, parsed]; exact read⟩

/-! ## What a column keeps of a decoded tree -/

/-- The attributes that are read of a column, from those that were decoded. -/
def keptAttrs (attrs : Attrs) : Attrs := (Json.jsonbMembers attrs.reverse).reverse

def ArticleMark.kept (m : ArticleMark) : ArticleMark := { m with attrs := keptAttrs m.attrs }

mutual

/-- The node that is read of a column, from one that was decoded under exact names. -/
def ArticleNode.kept : ArticleNode → ArticleNode
  | ⟨type, attrs, content, marks, text⟩ =>
      ⟨type, keptAttrs attrs, keptAll content, marks.map ArticleMark.kept, text⟩

def keptAll : List ArticleNode → List ArticleNode
  | [] => []
  | n :: ns => n.kept :: keptAll ns

end

@[simp]
theorem kept_type (n : ArticleNode) : n.kept.type = n.type := by
  cases n
  rw [ArticleNode.kept]

@[simp]
theorem kept_attrs (n : ArticleNode) : n.kept.attrs = keptAttrs n.attrs := by
  cases n
  rw [ArticleNode.kept]

@[simp]
theorem kept_content (n : ArticleNode) : n.kept.content = keptAll n.content := by
  cases n
  rw [ArticleNode.kept]

@[simp]
theorem kept_marks (n : ArticleNode) : n.kept.marks = n.marks.map ArticleMark.kept := by
  cases n
  rw [ArticleNode.kept]

@[simp]
theorem kept_text (n : ArticleNode) : n.kept.text = n.text := by
  cases n
  rw [ArticleNode.kept]

/-- Of a repeated key, the last value is kept. -/
theorem lookup_jsonbMembers (members : List (String × Json)) (key : String) :
    (Json.jsonbMembers members).reverse.lookup key =
      (members.reverse.lookup key).map Json.jsonb := by
  induction members with
  | nil => rfl
  | cons member members ih =>
      obtain ⟨name, value⟩ := member
      rw [Json.jsonbMembers, List.reverse_cons, List.lookup_append]
      split_ifs with repeated
      · rw [ih]
        by_cases same : key = name
        · subst same
          have found : (members.reverse.lookup key).isSome = true := by
            rw [List.lookup_isSome_iff]
            simpa using repeated
          rw [Option.or_of_isSome found]
        · rw [List.lookup_cons, beq_false_of_ne same, List.lookup_nil, Option.or_none]
      · rw [List.reverse_cons, List.lookup_append, ih, Option.map_or]
        congr 1
        by_cases same : key = name
        · subst same
          simp
        · rw [List.lookup_cons, List.lookup_cons, beq_false_of_ne same]
          rfl

@[simp]
theorem attr_keptAttrs (attrs : Attrs) (key : String) :
    attr (keptAttrs attrs) key = (attr attrs key).jsonb := by
  rw [attr, attr, keptAttrs, lookup_jsonbMembers, List.reverse_reverse]
  cases attrs.lookup key <;> rfl

@[simp]
theorem str_jsonb (v : Json) : str v.jsonb = str v := by
  cases v <;> rfl

@[simp]
theorem number_jsonb (v : Json) : number v.jsonb = number v := by
  cases v <;> rfl

mutual

/-- The walk of what is kept goes through what is kept of each node. -/
theorem visited_kept : ∀ (n : ArticleNode) (depth : ℕ),
    visited n.kept depth = (visited n depth).map fun p => (p.1.kept, p.2)
  | ⟨type, attrs, content, marks, text⟩, depth => by
      rw [visited, ArticleNode.kept, visited, List.map_cons, visitedAll_kept content (depth + 1),
        ArticleNode.kept]

theorem visitedAll_kept : ∀ (ns : List ArticleNode) (depth : ℕ),
    visitedAll (keptAll ns) depth = (visitedAll ns depth).map fun p => (p.1.kept, p.2)
  | [], _ => rfl
  | n :: ns, depth => by
      rw [keptAll, visitedAll, visitedAll, List.map_append, visited_kept n depth,
        visitedAll_kept ns depth]

end

/-- The rules look at nothing of a node that a column does not keep. -/
theorem NodePasses.kept {n : ArticleNode} (passes : NodePasses n) : NodePasses n.kept := by
  obtain ⟨allowed, marks, attrs⟩ := passes
  refine ⟨by rwa [kept_type], ?_, ?_⟩
  · rw [kept_type, kept_marks, List.forall_mem_map]
    intro text m member
    obtain ⟨known, link⟩ := marks text m member
    exact ⟨known, fun isLink => by simpa [ArticleMark.kept] using link isLink⟩
  · rw [kept_type, kept_attrs]
    constructor <;> simp only [SoundVideo, attr_keptAttrs, str_jsonb, number_jsonb]
    · exact attrs.heading
    · exact attrs.source
    · exact attrs.figureLink
    · exact attrs.board
    · exact attrs.video

/-- A document that passes does so as it is kept. -/
theorem Passes.kept {doc : ArticleNode} (passes : Passes doc) : Passes doc.kept := by
  refine ⟨by rw [kept_type]; exact passes.root, ?_, ?_, ?_, ?_⟩
  · rw [visited_kept, List.forall_mem_map]
    exact fun p member => (passes.node p member).kept
  · rw [visited_kept, List.forall_mem_map]
    exact passes.depth
  · rw [visited_kept, List.length_map]
    exact passes.count
  · have same : textRunes (visited doc.kept 0) = textRunes (visited doc 0) := by
      rw [textRunes, textRunes, visited_kept, List.map_map]
      congr 1
      refine List.map_congr_left fun p _ => ?_
      simp [ownRunes]
    rw [same]
    exact passes.runes

/-! ## Field by field -/

/-- The members `encoding/json` takes for a field, in order of appearance. -/
def taken (f : Field) (members : List (String × Json)) : List (String × Json) :=
  members.filter fun m => fieldOf m.1 = some f

/-- The members under a field's exact name. -/
def exactly (f : Field) (members : List (String × Json)) : List (String × Json) :=
  members.filter fun m => exactFieldOf m.1 = some f

theorem taken_cons (f : Field) (key : String) (value : Json) (members : List (String × Json)) :
    taken f ((key, value) :: members) =
      if fieldOf key = some f then (key, value) :: taken f members else taken f members := by
  rw [taken, List.filter_cons]
  simp only [decide_eq_true_eq, taken]

theorem exactly_cons (f : Field) (key : String) (value : Json) (members : List (String × Json)) :
    exactly f ((key, value) :: members) =
      if exactFieldOf key = some f then (key, value) :: exactly f members
      else exactly f members := by
  rw [exactly, List.filter_cons]
  simp only [decide_eq_true_eq, exactly]

/-- What has been decoded of a field follows from the members taken for it. -/
structure Decodes (members : List (String × Json)) (n n' : ArticleNode) : Prop where
  type : (taken .type members).foldlM (fun old m => decodeString m.2 old) n.type = some n'.type
  attrs : (taken .attrs members).foldlM (fun old m => decodeAttrs m.2 old) n.attrs =
    some n'.attrs
  content : (taken .content members).foldlM (fun _ m => decodeContent m.2) n.content =
    some n'.content
  marks : (taken .marks members).foldlM (fun _ m => decodeMarks m.2) n.marks = some n'.marks
  text : (taken .text members).foldlM (fun old m => decodeString m.2 old) n.text = some n'.text

/-- What is read of a field follows from the members under its exact name. -/
structure Reads (members : List (String × Json)) (n n' : ArticleNode) : Prop where
  type : (exactly .type members).foldlM (fun _ m => readString m.2) n.type = some n'.type
  attrs : (exactly .attrs members).foldlM (fun _ m => readAttrs m.2) n.attrs = some n'.attrs
  content : (exactly .content members).foldlM (fun _ m => readContent m.2) n.content =
    some n'.content
  marks : (exactly .marks members).foldlM (fun _ m => readMarks m.2) n.marks = some n'.marks
  text : (exactly .text members).foldlM (fun _ m => readString m.2) n.text = some n'.text

/-- The fields of a node are decoded from the members that name them, one after the other. -/
theorem decodeNodeFields_decodes (members : List (String × Json)) :
    ∀ {n n' : ArticleNode}, decodeNodeFields members n = some n' → Decodes members n n' := by
  induction members with
  | nil =>
      intro n n' decoded
      cases decoded
      exact ⟨rfl, rfl, rfl, rfl, rfl⟩
  | cons member members ih =>
      obtain ⟨key, value⟩ := member
      intro n n' decoded
      rw [decodeNodeFields] at decoded
      obtain ⟨n₁, first, rest⟩ := Option.bind_eq_some_iff.mp decoded
      obtain ⟨type, attrs, content, marks, text⟩ := ih rest
      cases named : fieldOf key with
      | none =>
          rw [named] at first
          cases first
          constructor <;> simpa only [taken_cons, named, reduceCtorEq, if_false]
      | some f =>
          rw [named] at first
          cases f <;> obtain ⟨new, decodes, rfl⟩ := Option.map_eq_some_iff.mp first <;>
            constructor <;>
            simpa [taken_cons, named, List.foldlM_cons, decodes]

/-- The fields of a node are read from the members that are spelled so, one after the other. -/
theorem readNodeFields_reads (members : List (String × Json)) :
    ∀ {n n' : ArticleNode}, readNodeFields members n = some n' → Reads members n n' := by
  induction members with
  | nil =>
      intro n n' read
      cases read
      exact ⟨rfl, rfl, rfl, rfl, rfl⟩
  | cons member members ih =>
      obtain ⟨key, value⟩ := member
      intro n n' read
      rw [readNodeFields] at read
      obtain ⟨n₁, first, rest⟩ := Option.bind_eq_some_iff.mp read
      obtain ⟨type, attrs, content, marks, text⟩ := ih rest
      cases named : exactFieldOf key with
      | none =>
          rw [named] at first
          cases first
          constructor <;> simpa only [exactly_cons, named, reduceCtorEq, if_false]
      | some f =>
          rw [named] at first
          cases f <;> obtain ⟨new, reads, rfl⟩ := Option.map_eq_some_iff.mp first <;>
            constructor <;>
            simpa [exactly_cons, named, List.foldlM_cons, reads]

/-! ## Names that both sides read alike -/

/-- A field is named at most once, and by its exact name. -/
def once (f : Field) (members : List (String × Json)) : Bool :=
  match taken f members with
  | [] => true
  | [(key, _)] => key = f.name
  | _ => false

def isNull : Json → Bool
  | .null => true
  | _ => false

/-- The last member taken for a field has its exact name, and is no `null` that another one
comes before. -/
def lastly (f : Field) (members : List (String × Json)) : Bool :=
  match (taken f members).reverse with
  | [] => true
  | (key, value) :: before => key = f.name && (before.isEmpty || !isNull value)

def namedMark : Json → Bool
  | .obj members => lastly .type members && once .attrs members
  | _ => true

def namedMarks : Json → Bool
  | .arr items => items.all namedMark
  | _ => true

mutual

/-- In every node and every mark, `attrs`, `content` and `marks` are named at most once, and
exactly; and the last `type` and the last `text` are named exactly. -/
def namedNode : Json → Bool
  | .obj members =>
      lastly .type members && once .attrs members && once .content members &&
        once .marks members && lastly .text members && namedMembers members
  | _ => true

def namedMembers : List (String × Json) → Bool
  | [] => true
  | (key, value) :: members =>
      (if key = "content" then namedContent value
        else if key = "marks" then namedMarks value
        else true) && namedMembers members

def namedContent : Json → Bool
  | .arr items => namedNodes items
  | _ => true

def namedNodes : List Json → Bool
  | [] => true
  | item :: items => namedNode item && namedNodes items

end


theorem exactFieldOf_eq_some_iff {key : String} {f : Field} :
    exactFieldOf key = some f ↔ key = f.name := by
  constructor
  · exact exactFieldOf_name
  · rintro rfl
    cases f <;> decide +kernel

/-- A column keeps the last of the members under a name. -/
theorem exactly_jsonbMembers (f : Field) (members : List (String × Json)) :
    exactly f (Json.jsonbMembers members) =
      ((exactly f members).getLast?.map fun m => (m.1, m.2.jsonb)).toList := by
  induction members with
  | nil => rfl
  | cons member members ih =>
      obtain ⟨key, value⟩ := member
      rw [Json.jsonbMembers, exactly_cons]
      by_cases named : exactFieldOf key = some f
      · rw [if_pos named]
        have present : key ∈ members.map Prod.fst ↔ exactly f members ≠ [] := by
          rw [exactFieldOf_eq_some_iff] at named
          simp [exactly, List.filter_eq_nil_iff, exactFieldOf_eq_some_iff, named]
        split_ifs with repeated
        · rw [ih, List.getLast?_cons_of_ne_nil (present.mp repeated)]
        · rw [exactly_cons, if_pos named, ih, not_not.mp (present.not.mp repeated)]
          rfl
      · rw [if_neg named]
        split_ifs with repeated
        · exact ih
        · rw [exactly_cons, if_neg named, ih]

/-- The members under the exact name are among those taken. -/
theorem exactly_eq_filter (f : Field) (members : List (String × Json)) :
    exactly f members = (taken f members).filter fun m => m.1 = f.name := by
  rw [taken, exactly, List.filter_filter]
  refine List.filter_congr fun m _ => ?_
  rw [← Bool.decide_and, decide_eq_decide, exactFieldOf_eq_some_iff]
  exact ⟨fun name => ⟨name, fieldOf_exact (exactFieldOf_eq_some_iff.mpr name)⟩, And.left⟩

/-- A field named once is spelled in one member, and no other names it. -/
theorem once_spec {f : Field} {members : List (String × Json)} (named : once f members = true) :
    taken f members = [] ∧ exactly f (Json.jsonbMembers members) = [] ∨
      ∃ value, (f.name, value) ∈ members ∧ taken f members = [(f.name, value)] ∧
        exactly f (Json.jsonbMembers members) = [(f.name, value.jsonb)] := by
  rw [exactly_jsonbMembers, exactly_eq_filter]
  unfold once at named
  split at named
  case h_1 none_ => exact Or.inl ⟨none_, by rw [none_]; rfl⟩
  case h_2 key value one =>
    rw [decide_eq_true_eq] at named
    subst named
    have member : (f.name, value) ∈ taken f members := one ▸ List.mem_singleton_self _
    refine Or.inr ⟨value, (List.mem_filter.mp member).1, one, ?_⟩
    rw [one]
    simp
  case h_3 => cases named

/-- A field named in one way last is read from the last member that names it. -/
theorem lastly_spec {f : Field} {members : List (String × Json)}
    (named : lastly f members = true) :
    taken f members = [] ∧ exactly f (Json.jsonbMembers members) = [] ∨
      ∃ before value, taken f members = before ++ [(f.name, value)] ∧
        (before = [] ∨ isNull value = false) ∧
        exactly f (Json.jsonbMembers members) = [(f.name, value.jsonb)] := by
  rw [exactly_jsonbMembers, exactly_eq_filter]
  unfold lastly at named
  split at named
  case h_1 none_ =>
    rw [List.reverse_eq_nil_iff] at none_
    exact Or.inl ⟨none_, by rw [none_]; rfl⟩
  case h_2 key value before last =>
    simp only [Bool.and_eq_true, decide_eq_true_eq, Bool.or_eq_true, List.isEmpty_iff,
      Bool.not_eq_true'] at named
    obtain ⟨rfl, deciding⟩ := named
    have split : taken f members = before.reverse ++ [(f.name, value)] := by
      rw [← List.reverse_reverse (taken f members), last, List.reverse_cons]
    refine Or.inr ⟨before.reverse, value, split, ?_, ?_⟩
    · rwa [List.reverse_eq_nil_iff]
    · rw [split]
      simp

/-- A text that is decoded is read as it is. -/
theorem readString_jsonb {value : Json} {old text : String}
    (decoded : decodeString value old = some text) (some_ : old = "" ∨ isNull value = false) :
    readString value.jsonb = some text := by
  cases value with
  | null =>
      cases some_ with
      | inl empty =>
          subst empty
          exact decoded
      | inr some_ => cases some_
  | str s => exact decoded
  | bool b => cases decoded
  | num n => cases decoded
  | arr items => cases decoded
  | obj members => cases decoded

/-- A text that is named last is read as it was decoded. -/
theorem lastly_string {f : Field} {members : List (String × Json)} {text text' : String}
    (named : lastly f members = true)
    (decoded : (taken f members).foldlM (fun old m => decodeString m.2 old) "" = some text)
    (read : (exactly f (Json.jsonbMembers members)).foldlM (fun _ m => readString m.2) "" =
      some text') : text' = text := by
  rcases lastly_spec named with ⟨none_, kept⟩ | ⟨before, value, split, deciding, kept⟩
  · rw [none_] at decoded
    rw [kept] at read
    exact Option.some.inj (read.symm.trans decoded)
  · rw [split, List.foldlM_append] at decoded
    obtain ⟨old, earlier, decoded⟩ := Option.bind_eq_some_iff.mp decoded
    rw [kept] at read
    simp only [List.foldlM_cons, List.foldlM_nil, Option.bind_eq_bind, Option.pure_def,
      Option.bind_fun_some] at decoded read
    have same : readString value.jsonb = some text := by
      refine readString_jsonb decoded (deciding.imp_left fun none_ => ?_)
      rw [none_] at earlier
      exact (Option.some.inj earlier).symm
    exact Option.some.inj (read.symm.trans same)

/-- A value that is named once is read as it was decoded. -/
theorem once_value {α : Type} (decode : Json → α → Option α) (read : Json → Option α)
    (kept : α → α) {f : Field} {members : List (String × Json)} {old new new' : α}
    (named : once f members = true)
    (decoded : (taken f members).foldlM (fun old m => decode m.2 old) old = some new)
    (reads : (exactly f (Json.jsonbMembers members)).foldlM (fun _ m => read m.2) (kept old) =
      some new')
    (alike : ∀ value, (f.name, value) ∈ members → ∀ x, decode value old = some x →
      read value.jsonb = some (kept x)) : new' = kept new := by
  rcases once_spec named with ⟨none_, empty⟩ | ⟨value, member, one, single⟩
  · rw [none_] at decoded
    rw [empty] at reads
    cases decoded
    exact (Option.some.inj reads).symm
  · rw [one] at decoded
    rw [single] at reads
    simp only [List.foldlM_cons, List.foldlM_nil, Option.bind_eq_bind, Option.pure_def,
      Option.bind_fun_some] at decoded reads
    exact Option.some.inj (reads.symm.trans (alike value member new decoded))

/-! ## Bodies that read alike -/

/-- Attributes that are decoded are read as they are kept. -/
theorem readAttrs_kept {value : Json} {attrs : Attrs}
    (decoded : decodeAttrs value [] = some attrs) :
    readAttrs value.jsonb = some (keptAttrs attrs) := by
  cases value with
  | null =>
      cases decoded
      rfl
  | obj members =>
      simp only [decodeAttrs, List.append_nil] at decoded
      split_ifs at decoded
      cases decoded
      rw [keptAttrs, List.reverse_reverse]
      rfl
  | str s => cases decoded
  | bool b => cases decoded
  | num n => cases decoded
  | arr items => cases decoded

/-- What has been decoded of the fields of a mark. -/
structure DecodesMark (members : List (String × Json)) (m m' : ArticleMark) : Prop where
  type : (taken .type members).foldlM (fun old m => decodeString m.2 old) m.type = some m'.type
  attrs : (taken .attrs members).foldlM (fun old m => decodeAttrs m.2 old) m.attrs =
    some m'.attrs

structure ReadsMark (members : List (String × Json)) (m m' : ArticleMark) : Prop where
  type : (exactly .type members).foldlM (fun _ m => readString m.2) m.type = some m'.type
  attrs : (exactly .attrs members).foldlM (fun _ m => readAttrs m.2) m.attrs = some m'.attrs

/-- The fields of a mark are decoded from the members that name them. -/
theorem decodeMarkFields_decodes (members : List (String × Json)) :
    ∀ {m m' : ArticleMark}, decodeMarkFields members m = some m' → DecodesMark members m m' := by
  induction members with
  | nil =>
      intro m m' decoded
      cases decoded
      exact ⟨rfl, rfl⟩
  | cons member members ih =>
      obtain ⟨key, value⟩ := member
      intro m m' decoded
      rw [decodeMarkFields] at decoded
      obtain ⟨m₁, first, rest⟩ := Option.bind_eq_some_iff.mp decoded
      obtain ⟨type, attrs⟩ := ih rest
      cases named : fieldOf key with
      | none =>
          rw [named] at first
          cases first
          constructor <;> simpa only [taken_cons, named, reduceCtorEq, if_false]
      | some f =>
          rw [named] at first
          cases f with
          | type | attrs =>
              obtain ⟨new, decodes, rfl⟩ := Option.map_eq_some_iff.mp first
              constructor <;> simpa [taken_cons, named, List.foldlM_cons, decodes]
          | content | marks | text =>
              cases first
              constructor <;> simpa [taken_cons, named]

/-- The fields of a mark are read from the members that are spelled so. -/
theorem readMarkFields_reads (members : List (String × Json)) :
    ∀ {m m' : ArticleMark}, readMarkFields members m = some m' → ReadsMark members m m' := by
  induction members with
  | nil =>
      intro m m' read
      cases read
      exact ⟨rfl, rfl⟩
  | cons member members ih =>
      obtain ⟨key, value⟩ := member
      intro m m' read
      rw [readMarkFields] at read
      obtain ⟨m₁, first, rest⟩ := Option.bind_eq_some_iff.mp read
      obtain ⟨type, attrs⟩ := ih rest
      cases named : exactFieldOf key with
      | none =>
          rw [named] at first
          cases first
          constructor <;> simpa only [exactly_cons, named, reduceCtorEq, if_false]
      | some f =>
          rw [named] at first
          cases f with
          | type | attrs =>
              obtain ⟨new, reads, rfl⟩ := Option.map_eq_some_iff.mp first
              constructor <;> simpa [exactly_cons, named, List.foldlM_cons, reads]
          | content | marks | text =>
              cases first
              constructor <;> simpa [exactly_cons, named]

/-- A mark whose fields are named once is read as it is kept. -/
theorem readMark_of_named {value : Json} {m : ArticleMark} (named : namedMark value = true)
    (decoded : decodeMark value = some m) : readMark value.jsonb = some m.kept := by
  obtain ⟨read, reads⟩ := readMark_total decoded
  rw [reads, Option.some.injEq]
  cases value with
  | null =>
      cases decoded
      cases reads
      rfl
  | obj members =>
      obtain ⟨lastType, onceAttrs⟩ := (Bool.and_eq_true _ _).mp named
      have decodes : DecodesMark members .zero m := decodeMarkFields_decodes members decoded
      have rest : ReadsMark (Json.jsonbMembers members) .zero read :=
        readMarkFields_reads _ reads
      have type := lastly_string lastType decodes.type rest.type
      have attrs := once_value decodeAttrs readAttrs keptAttrs onceAttrs decodes.attrs rest.attrs
        fun value _ x decoded => readAttrs_kept decoded
      obtain ⟨type', attrs'⟩ := read
      exact congrArg₂ ArticleMark.mk type attrs
  | str s => cases decoded
  | bool b => cases decoded
  | num n => cases decoded
  | arr items => cases decoded

/-- Marks whose fields are named once are read as they are kept. -/
theorem readMarks_of_named {value : Json} {marks : List ArticleMark}
    (named : namedMarks value = true) (decoded : decodeMarks value = some marks) :
    readMarks value.jsonb = some (marks.map ArticleMark.kept) := by
  cases value with
  | null =>
      cases decoded
      rfl
  | arr items =>
      change items.mapM decodeMark = some marks at decoded
      change (Json.jsonbAll items).mapM readMark = some _
      change items.all namedMark = true at named
      induction items generalizing marks with
      | nil =>
          cases decoded
          rfl
      | cons item items ih =>
          rw [List.all_cons, Bool.and_eq_true] at named
          rw [List.mapM_cons] at decoded
          obtain ⟨m, first, more⟩ := Option.bind_eq_some_iff.mp decoded
          obtain ⟨ms, rest, result⟩ := Option.bind_eq_some_iff.mp more
          cases result
          rw [Json.jsonbAll, List.mapM_cons, readMark_of_named named.1 first, ih rest named.2]
          rfl
  | obj members => cases decoded
  | str s => cases decoded
  | bool b => cases decoded
  | num n => cases decoded

mutual

/-- A tree of exact names is read as it was decoded, up to what a column keeps of the
attributes. -/
theorem readNode_of_named : ∀ (value : Json) {n : ArticleNode}, namedNode value = true →
    decodeNode value = some n → readNode value.jsonb = some n.kept
  | .null, _, _, decoded => by
      cases decoded
      rfl
  | .obj members, n, named, decoded => by
      rw [namedNode] at named
      simp only [Bool.and_eq_true] at named
      obtain ⟨⟨⟨⟨⟨lastType, onceAttrs⟩, onceContent⟩, onceMarks⟩, lastText⟩, below⟩ := named
      obtain ⟨read, reads⟩ := readNodeFields_total members .zero decoded
      have decodes : Decodes members .zero n := decodeNodeFields_decodes members decoded
      have rest : Reads (Json.jsonbMembers members) .zero read := readNodeFields_reads _ reads
      have inner := readMembers_of_named members below
      have type := lastly_string lastType decodes.type rest.type
      have attrs := once_value decodeAttrs readAttrs keptAttrs onceAttrs decodes.attrs rest.attrs
        fun value _ x decoded => readAttrs_kept decoded
      have content := once_value (fun value _ => decodeContent value) readContent keptAll
        onceContent decodes.content rest.content fun value member => (inner value).1 member
      have marks := once_value (fun value _ => decodeMarks value) readMarks
        (List.map ArticleMark.kept) onceMarks decodes.marks rest.marks
        fun value member => (inner value).2 member
      have text := lastly_string lastText decodes.text rest.text
      change readNodeFields (Json.jsonbMembers members) .zero = _
      rw [reads, Option.some.injEq]
      obtain ⟨type', attrs', content', marks', text'⟩ := read
      obtain ⟨_, _, _, _, _⟩ := n
      dsimp only at type attrs content marks text
      rw [type, attrs, content, marks, text, ArticleNode.kept]
  | .bool _, _, _, decoded => by cases decoded
  | .num _, _, _, decoded => by cases decoded
  | .str _, _, _, decoded => by cases decoded
  | .arr _, _, _, decoded => by cases decoded

/-- Members that name each field once have contents and marks that are read as they are kept.
-/
theorem readMembers_of_named : ∀ (members : List (String × Json)),
    namedMembers members = true → ∀ value : Json,
      ((Field.content.name, value) ∈ members → ∀ ns, decodeContent value = some ns →
        readContent value.jsonb = some (keptAll ns)) ∧
      ((Field.marks.name, value) ∈ members → ∀ marks, decodeMarks value = some marks →
        readMarks value.jsonb = some (marks.map ArticleMark.kept))
  | [], _, _ => ⟨nofun, nofun⟩
  | (key, value) :: members, named, other => by
      rw [namedMembers, Bool.and_eq_true] at named
      obtain ⟨first, rest⟩ := named
      obtain ⟨content, marks⟩ := readMembers_of_named members rest other
      constructor
      · intro member ns decoded
        rcases List.mem_cons.mp member with same | later
        · obtain ⟨rfl, rfl⟩ := Prod.mk.inj same
          exact readContent_of_named other first decoded
        · exact content later ns decoded
      · intro member ms decoded
        rcases List.mem_cons.mp member with same | later
        · obtain ⟨rfl, rfl⟩ := Prod.mk.inj same
          exact readMarks_of_named first decoded
        · exact marks later ms decoded

/-- Contents whose fields are named once are read as they are kept. -/
theorem readContent_of_named : ∀ (value : Json) {ns : List ArticleNode},
    namedContent value = true → decodeContent value = some ns →
      readContent value.jsonb = some (keptAll ns)
  | .null, _, _, decoded => by
      cases decoded
      rfl
  | .arr items, _, named, decoded => readNodes_of_named items named decoded
  | .bool _, _, _, decoded => by cases decoded
  | .num _, _, _, decoded => by cases decoded
  | .str _, _, _, decoded => by cases decoded
  | .obj _, _, _, decoded => by cases decoded

/-- Nodes whose fields are named once are read as they are kept. -/
theorem readNodes_of_named : ∀ (items : List Json) {ns : List ArticleNode},
    namedNodes items = true → decodeNodes items = some ns →
      readNodes (Json.jsonbAll items) = some (keptAll ns)
  | [], _, _, decoded => by
      cases decoded
      rfl
  | item :: items, ns, named, decoded => by
      rw [namedNodes, Bool.and_eq_true] at named
      rw [decodeNodes] at decoded
      obtain ⟨n, first, more⟩ := Option.bind_eq_some_iff.mp decoded
      obtain ⟨ns', rest, result⟩ := Option.bind_eq_some_iff.mp more
      cases result
      rw [Json.jsonbAll, readNodes, readNode_of_named item named.1 first,
        readNodes_of_named items named.2 rest]
      rfl

end

/-- A body of exact names is served as what a column keeps of the document the check
walked. -/
theorem servedDocument_of_named {raw : String} {doc : ArticleNode}
    (named : (Json.parse raw).all namedNode = true) (decoded : unmarshal raw = some doc) :
    servedDocument raw = some doc.kept := by
  obtain ⟨value, parsed, decodes⟩ := Option.bind_eq_some_iff.mp decoded
  rw [parsed, Option.all_some] at named
  rw [servedDocument, parsed]
  exact readNode_of_named value named decodes

section Ascii

attribute [local instance] Unicode.ascii

/-- A link whose script the reader finds under `attrs`, and whose harmless address the
check finds under `Attrs`. -/
def disguisedLinkBody : String :=
  "\x7b\"type\":\"doc\",\"content\":[\x7b\"type\":\"text\",\"text\":\"Read\",\"marks\":[" ++
    "\x7b\"type\":\"link\",\"attrs\":\x7b\"href\":\"javascript:alert(1)\"\x7d," ++
    "\"Attrs\":\x7b\"href\":\"https://a.example\"\x7d\x7d]\x7d]\x7d"

/-- A `null` is no type to the check, and is the last one to the reader. -/
example :
    let raw := "\x7b\"type\":\"doc\",\"type\":null\x7d"
    (checkArticleBody raw).isOk = true ∧
      (servedDocument raw).map (fun s => (checkDocument s).isOk) = some false := by
  decide +kernel

end Ascii

end ScoutPulse.Articles
