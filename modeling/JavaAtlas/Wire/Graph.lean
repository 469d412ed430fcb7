import JavaAtlas.Wire.Encode

set_option autoImplicit false

/-! # Graphs on the wire

A graph keeps each node once under a key and refers to nodes by key in its edges, so a node that
many edges touch is written once. Nodes are written in the order of their keys and edges in the
order in which they were added; an edge whose ends are not both nodes has no wire form. -/

namespace JavaAtlas

/-- A directed edge between two node keys. -/
structure Edge where
  source : String
  target : String
  edgeType : String
  weight : Option Double := none
  /-- Members that follow the fixed ones on the wire. -/
  attributes : Dict String Json := .empty

namespace Edge

/-- The edge with one more attribute. -/
def withAttribute (edge : Edge) (name : String) (value : Json) : Edge :=
  { edge with attributes := edge.attributes.insert name value }

/-- The edge with an attribute if there is a value for it. -/
def withAttribute? (edge : Edge) (name : String) (value : Option Json) : Edge :=
  match value with
  | some value => edge.withAttribute name value
  | none => edge

/-- The members that every edge has on the wire; the weight only if there is one. -/
def fixedMembers (edge : Edge) : Except EncodeError (List (String × Json)) := do
  let ends := [("source", .string edge.source), ("target", .string edge.target),
    ("type", .string edge.edgeType)]
  match edge.weight with
  | none => .ok ends
  | some weight => .ok (ends ++ [("weight", ← encode weight)])

/-- An attribute must not have the name of a member that is already there. -/
instance : Encode Edge where
  encode edge := do
    let fixed ← edge.fixedMembers
    let attributes ← encodeEntries (Assoc.keys fixed) edge.attributes.entries
    .ok (.object (fixed ++ attributes))

end Edge

/-- Nodes under their keys, and edges between keys. -/
structure Graph (ν : Type) where
  nodes : Dict String ν
  edges : List Edge

namespace Graph

variable {ν : Type}

/-- The graph with no node and no edge. -/
def empty : Graph ν := ⟨.empty, []⟩

instance : Inhabited (Graph ν) := ⟨empty⟩

/-- Adds a node under a key, unless the key has a node. -/
def addNode (g : Graph ν) (key : String) (node : ν) : Graph ν :=
  { g with nodes := g.nodes.insertNew key node }

/-- Appends an edge. -/
def addEdge (g : Graph ν) (edge : Edge) : Graph ν :=
  { g with edges := g.edges ++ [edge] }

/-- The node under a key. -/
def node? (g : Graph ν) (key : String) : Option ν := g.nodes.get? key

/-- Whether the key has a node. -/
def containsNode (g : Graph ν) (key : String) : Bool := g.nodes.contains key

/-- Whether there is neither a node nor an edge. -/
def isEmpty (g : Graph ν) : Bool := g.nodes.isEmpty && g.edges.isEmpty

/-- The edges that end at `key`, in order. -/
def inEdges (g : Graph ν) (key : String) : List Edge := g.edges.filter (·.target = key)

/-- The edges that start at `key`, in order. -/
def outEdges (g : Graph ν) (key : String) : List Edge := g.edges.filter (·.source = key)

/-- Adds the node that `g` has under `key`, if it has one. -/
def copyNode (g : Graph ν) (key : String) (sub : Graph ν) : Graph ν :=
  match g.node? key with
  | some node => sub.addNode key node
  | none => sub

/-- The edges that satisfy `keep`, with the nodes that they touch. -/
def filterEdges (g : Graph ν) (keep : Edge → Bool) : Graph ν :=
  (g.edges.filter keep).foldl
    (fun sub edge => (g.copyNode edge.target (g.copyNode edge.source sub)).addEdge edge) empty

/-- The first key that an edge refers to and that has no node. -/
def danglingKey? (g : Graph ν) : Option String :=
  (g.edges.flatMap fun edge => [edge.source, edge.target]).find? fun key => !g.containsNode key

/-- The entry of one node on the wire. -/
def encodeNode [Encode ν] (entry : String × ν) : Encoded := do
  let data ← encode entry.2
  .ok (.object [("key", .string entry.1), ("data", data)])

instance [Encode ν] : Encode (Graph ν) where
  encode g := match g.danglingKey? with
    | some key =>
      .error (.unencodable ("graph edge referring to missing node '" ++ key ++ "'"))
    | none => do
      let nodes ← (sortByText Prod.fst g.nodes.entries).mapM encodeNode
      let edges ← encodeItems g.edges
      .ok (.object [("nodes", .array nodes), ("edges", .array edges)])

end Graph

end JavaAtlas
