import HeaderMiner.Yaml.Token
/-!
# YAML documents as trees

What the tokens of a text say: a tree of scalars, sequences and mappings, where an alias stands for
the node that its anchor names.  A mapping keeps its members in their order, and keys that come
twice.  A text holds one document at most.
-/

namespace HeaderMiner.Yaml

inductive Node where
  /-- a scalar with its tag -/
  | scalar (style : Style) (tag : Option String) (text : String)
  | sequence (items : List Node)
  | mapping (members : List (Node × Node))
  /-- an alias inside the node that it names -/
  | cycle
deriving Inhabited

namespace Node

/-- the scalar of a missing node -/
def empty : Node := .scalar .plain none ""

/-- what a node is read with: the expansions of tag handles, and the anchors so far, latest first.
An anchor whose node is not complete has none. -/
structure Context where
  handles : List (String × String)
  anchors : List (String × Nat × Option Node) := []
  count : Nat := 0

namespace Context

/-- names a node that is complete -/
def bind (x : Context) (anchor : Option String) (n : Node) : Context :=
  match anchor with
  | none => x
  | some a => { x with anchors := (a, x.count, some n) :: x.anchors, count := x.count + 1 }

/-- names a node that is about to be read -/
def start (x : Context) (anchor : Option String) : Context :=
  match anchor with
  | none => x
  | some a => { x with anchors := (a, x.count, none) :: x.anchors, count := x.count + 1 }

/-- completes the node that was named as the `id`-th -/
def complete (x : Context) (id : Nat) (n : Node) : Context :=
  { x with anchors := x.anchors.map fun e => if e.2.1 = id then (e.1, id, e.2.2.or (some n)) else e }

/-- the tag of a handle and the text behind it -/
def tag? (x : Context) (handle : Option String) (rest : String) : Option String :=
  match handle with
  | none => some rest
  | some h => (x.handles.lookup h).map (· ++ rest)

end Context

/-- what stands in front of a node -/
structure Properties where
  anchor : Option String := none
  tag : Option String := none

/-- takes an anchor and a tag, in either order -/
def properties (x : Context) : List Token → Option (Properties × List Token)
  | .anchor a :: .tag h t :: r => do return (⟨some a, some (← x.tag? h t)⟩, r)
  | .tag h t :: .anchor a :: r => do return (⟨some a, some (← x.tag? h t)⟩, r)
  | .anchor a :: r => some (⟨some a, none⟩, r)
  | .tag h t :: r => do return (⟨none, some (← x.tag? h t)⟩, r)
  | r => some ({}, r)

/-- whether a value of a block collection is missing in front of a token -/
def endsValue : List Token → Bool
  | .key :: _ | .value :: _ | .blockEnd :: _ => true
  | _ => false

/-- whether an item of a flow sequence is missing in front of a token -/
def endsItem : List Token → Bool
  | .comma :: _ | .flowSequenceEnd :: _ => true
  | _ => false

/-- whether a value of a flow mapping is missing in front of a token -/
def endsMember : List Token → Bool
  | .comma :: _ | .flowMappingEnd :: _ => true
  | _ => false

/-- moves over the comma in front of every item but the first -/
def separator? (first : Bool) : List Token → Option (List Token)
  | .comma :: r => if first then some (.comma :: r) else some r
  | r => if first then some r else none

/-- where a node may stand -/
inductive Place where
  | flow
  | block
  /-- as the key or value of a block mapping, where the dashes of a sequence need no column of their
  own -/
  | member

mutual

/-- takes a node; `fuel` bounds the number of calls -/
def takeNode (place : Place) : Nat → Context → List Token → Option (Node × Context × List Token)
  | 0, _, _ => none
  | _ + 1, x, .alias a :: r => do
    let (_, n) ← x.anchors.lookup a
    return (n.getD .cycle, x, r)
  | fuel + 1, x, ts => do
    let (p, ts) ← properties x ts
    let tag := if p.tag = some "!" then none else p.tag
    let id := x.count
    let whole (r : Option (Node × Context × List Token)) : Option (Node × Context × List Token) :=
      r.map fun (n, x, ts) => (n, if p.anchor.isSome then x.complete id n else x, ts)
    match place, ts with
    | _, .scalar style text :: r =>
      let n := Node.scalar style tag text
      return (n, x.bind p.anchor n, r)
    | _, .flowSequence :: r => whole (takeFlowItems true fuel (x.start p.anchor) [] r)
    | _, .flowMapping :: r => whole (takeFlowMembers true fuel (x.start p.anchor) [] r)
    | .block, .blockSequence :: r | .member, .blockSequence :: r =>
      whole (takeItems fuel (x.start p.anchor) [] r)
    | .block, .blockMapping :: r | .member, .blockMapping :: r =>
      whole (takeMembers fuel (x.start p.anchor) [] r)
    | .member, .dash :: r => whole (takeDashes fuel (x.start p.anchor) [] (.dash :: r))
    | _, ts =>
      if p.anchor.isSome || p.tag.isSome then
        let n := Node.scalar .plain tag ""
        some (n, x.bind p.anchor n, ts)
      else none

def takeItems : Nat → Context → List Node → List Token → Option (Node × Context × List Token)
  | 0, _, _, _ => none
  | fuel + 1, x, items, .dash :: r =>
    match r with
    | .dash :: _ | .blockEnd :: _ => takeItems fuel x (.empty :: items) r
    | _ => do
      let (n, x, r) ← takeNode .block fuel x r
      takeItems fuel x (n :: items) r
  | _ + 1, x, items, .blockEnd :: r => some (.sequence items.reverse, x, r)
  | _, _, _, _ => none

/-- takes the items of a block sequence that stands at the column of the mapping around it -/
def takeDashes : Nat → Context → List Node → List Token → Option (Node × Context × List Token)
  | 0, _, _, _ => none
  | fuel + 1, x, items, .dash :: r =>
    match r with
    | .dash :: _ | .key :: _ | .value :: _ | .blockEnd :: _ =>
      takeDashes fuel x (.empty :: items) r
    | _ => do
      let (n, x, r) ← takeNode .block fuel x r
      takeDashes fuel x (n :: items) r
  | _ + 1, x, items, ts => some (.sequence items.reverse, x, ts)

def takeMembers :
    Nat → Context → List (Node × Node) → List Token → Option (Node × Context × List Token)
  | 0, _, _, _ => none
  | fuel + 1, x, members, .key :: r => do
    let (k, x, r) ← if endsValue r then some (.empty, x, r) else takeNode .member fuel x r
    match r with
    | .value :: r =>
      let (v, x, r) ← if endsValue r then some (.empty, x, r) else takeNode .member fuel x r
      takeMembers fuel x ((k, v) :: members) r
    | r => takeMembers fuel x ((k, .empty) :: members) r
  | _ + 1, x, members, .blockEnd :: r => some (.mapping members.reverse, x, r)
  | _, _, _, _ => none

/-- takes the items of a flow sequence; a key mark starts a mapping of one member -/
def takeFlowItems (first : Bool) :
    Nat → Context → List Node → List Token → Option (Node × Context × List Token)
  | 0, _, _, _ => none
  | _ + 1, x, items, .flowSequenceEnd :: r => some (.sequence items.reverse, x, r)
  | fuel + 1, x, items, ts => do
    match ← separator? first ts with
    | .flowSequenceEnd :: r => some (.sequence items.reverse, x, r)
    | .key :: r =>
      let (k, x, r) ←
        match r with
        | .value :: _ => some (Node.empty, x, r)
        | _ => if endsItem r then some (Node.empty, x, r.drop 1) else takeNode .flow fuel x r
      match r with
      | .value :: r =>
        let (v, x, r) ← if endsItem r then some (Node.empty, x, r) else takeNode .flow fuel x r
        takeFlowItems false fuel x (.mapping [(k, v)] :: items) r
      | r => takeFlowItems false fuel x (.mapping [(k, .empty)] :: items) r
    | r =>
      let (n, x, r) ← takeNode .flow fuel x r
      takeFlowItems false fuel x (n :: items) r

/-- takes the members of a flow mapping; a node without a key mark is a key without a value -/
def takeFlowMembers (first : Bool) :
    Nat → Context → List (Node × Node) → List Token → Option (Node × Context × List Token)
  | 0, _, _, _ => none
  | _ + 1, x, members, .flowMappingEnd :: r => some (.mapping members.reverse, x, r)
  | fuel + 1, x, members, ts => do
    match ← separator? first ts with
    | .flowMappingEnd :: r => some (.mapping members.reverse, x, r)
    | .key :: r =>
      let (k, x, r) ←
        match r with
        | .value :: _ => some (Node.empty, x, r)
        | _ => if endsMember r then some (Node.empty, x, r) else takeNode .flow fuel x r
      match r with
      | .value :: r =>
        let (v, x, r) ← if endsMember r then some (Node.empty, x, r) else takeNode .flow fuel x r
        takeFlowMembers false fuel x ((k, v) :: members) r
      | r => takeFlowMembers false fuel x ((k, .empty) :: members) r
    | r =>
      let (k, x, r) ← takeNode .flow fuel x r
      takeFlowMembers false fuel x ((k, .empty) :: members) r

end

/-! ## documents -/

/-- what the directives in front of a document say -/
structure Directives where
  versioned : Bool := false
  handles : List (String × String) := []

/-- takes the directives in front of a document: one version at most, which is 1.1 or 1.2, and one
expansion for each handle -/
def takeDirectives (d : Directives) : List Token → Option (Directives × List Token)
  | .version major minor :: r =>
    if d.versioned || major != 1 || (minor != 1 && minor != 2) then none
    else takeDirectives { d with versioned := true } r
  | .handle h e :: r =>
    if (d.handles.lookup h).isSome then none
    else takeDirectives { d with handles := (h, e) :: d.handles } r
  | ts => some (d, ts)

/-- whether a document is empty in front of a token -/
def endsDocument : List Token → Bool
  | [] | .version _ _ :: _ | .handle _ _ :: _ | .documentStart :: _ | .documentEnd :: _ => true
  | _ => false

def ofTokens? (ts : List Token) : Option Node :=
  if ts.isEmpty then some empty
  else do
    let (d, r) ← takeDirectives {} ts
    let x : Context := ⟨d.handles ++ [("!", "!"), ("!!", "tag:yaml.org,2002:")], [], 0⟩
    let fuel := 3 * ts.length + 3
    let (n, _, r) ←
      match r with
      | .documentStart :: r =>
        if endsDocument r then some (empty, x, r) else takeNode .block fuel x r
      | _ => if d.versioned || !d.handles.isEmpty then none else takeNode .block fuel x r
    if (r.dropWhile (· = .documentEnd)).isEmpty then some n else none

/-- the document of a text; a text without one holds an empty scalar -/
def parse? (s : String) : Option Node := (tokens? s.toList).bind ofTokens?

end Node

end HeaderMiner.Yaml
