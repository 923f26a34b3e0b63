import CodeAtlas.Parsing.Tree

/-!
# The stack of several readings

Several readings of one source share a graph of stack nodes: each node links to the nodes below it
by the trees between them, and each reading is a head that points to a node. Two readings that reach
the same state at the same place with the same cost are merged; what lies below is then kept as
several links of one node.
-/

namespace CodeAtlas.Parsing

/-- A link to the node below, with the tree between them; a link without a tree marks the place
where a reading ran into an error. -/
structure Link where
  below : Nat
  tree : Option Tree
  deriving Inhabited

/-- A node of the stack. -/
structure StackNode where
  state : Nat
  position : Nat
  links : Array Link
  cost : Nat
  nodeCount : Nat
  weight : Int
  deriving Inhabited

/-- A state on the stack when an error was met, how deep it lies, and where. -/
structure Landmark where
  position : Nat
  depth : Nat
  state : Nat
  deriving Inhabited

/-- Whether a reading goes on, waits with a token it could not take, or is given up. -/
inductive Status where
  | active
  | paused (lookahead : Tree)
  | halted
  deriving Inhabited

/-- One reading. -/
structure Head where
  node : Nat
  nodeCountAtError : Nat
  landmarks : Option (Array Landmark)
  status : Status
  deriving Inhabited

/-- All nodes and readings. -/
structure Stack where
  nodes : Array StackNode
  heads : Array Head
  deriving Inhabited

namespace Stack

/-- How many links a node may have. -/
def maxLinks : Nat := 8

/-- How many paths are followed at once. -/
def maxPaths : Nat := 64

/-- One reading at the start of the source, in the given state. -/
def start (state : Nat) : Stack :=
  ⟨#[⟨state, 0, #[], 0, 0, 0⟩], #[⟨0, 0, none, .active⟩]⟩

/-- The number of readings. -/
def count (s : Stack) : Nat := s.heads.size

/-- A reading. -/
def head (s : Stack) (v : Nat) : Head := s.heads.getD v default

/-- A node. -/
def node (s : Stack) (n : Nat) : StackNode := s.nodes.getD n default

/-- The top node of a reading. -/
def top (s : Stack) (v : Nat) : StackNode := s.node (s.head v).node

/-- The state of a reading. -/
def state (s : Stack) (v : Nat) : Nat := (s.top v).state

/-- How far a reading has come. -/
def position (s : Stack) (v : Nat) : Nat := (s.top v).position

/-- Whether a reading goes on. -/
def isActive (s : Stack) (v : Nat) : Bool :=
  match (s.head v).status with
  | .active => true
  | _ => false

/-- Whether a reading waits. -/
def isPaused (s : Stack) (v : Nat) : Bool :=
  match (s.head v).status with
  | .paused _ => true
  | _ => false

/-- Whether a reading is given up. -/
def isHalted (s : Stack) (v : Nat) : Bool :=
  match (s.head v).status with
  | .halted => true
  | _ => false

/-- How many readings are given up. -/
def haltedCount (s : Stack) : Nat :=
  ((List.range s.count).filter s.isHalted).length

/-- Changes a reading. -/
def modifyHead (s : Stack) (v : Nat) (f : Head → Head) : Stack :=
  { s with heads := s.heads.modify v f }

/-- Gives a reading up. -/
def halt (s : Stack) (v : Nat) : Stack := s.modifyHead v (fun h ↦ { h with status := .halted })

/-- Lets a reading wait with the token it could not take. -/
def pause (s : Stack) (v : Nat) (lookahead : Tree) : Stack :=
  let n := (s.top v).nodeCount
  s.modifyHead v (fun h ↦ { h with status := .paused lookahead, nodeCountAtError := n })

/-- Lets a reading go on. -/
def resume (s : Stack) (v : Nat) : Stack := s.modifyHead v (fun h ↦ { h with status := .active })

/-- What the errors of a reading cost; an error that has just been met counts as a recovery. -/
def cost (s : Stack) (v : Nat) : Nat :=
  let n := s.top v
  let fresh := n.state == 0 && (match n.links[0]? with
    | some l => l.tree.isNone
    | none => false)
  n.cost + (if s.isPaused v || fresh then prices.recovery else 0)

/-- How many visible trees a reading has gained since its last error. -/
def nodesSinceError (s : Stack) (v : Nat) : Nat := (s.top v).nodeCount - (s.head v).nodeCountAtError

/-- Puts a tree, or the mark of an error, on a reading. -/
def push (l : Language) (s : Stack) (v : Nat) (tree : Option Tree) (state : Nat) : Stack :=
  let h := s.head v
  let below := s.node h.node
  let base : StackNode := { below with state := state, links := #[⟨h.node, tree⟩] }
  let new := match tree with
    | none => base
    | some t => { base with
        position := t.info.stop
        cost := below.cost + t.cost
        nodeCount := below.nodeCount + l.nodeCount t
        weight := below.weight + t.info.weight }
  let n := s.nodes.size
  { nodes := s.nodes.push new
    heads := s.heads.modify v (fun h ↦ { h with
      node := n
      nodeCountAtError := if tree.isNone then new.nodeCount else h.nodeCountAtError }) }

/-- Whether two links carry the same tree as far as later choices are concerned. -/
def sameTree (a b : Option Tree) : Bool :=
  match a, b with
  | none, none => true
  | some x, some y =>
    x.info.symbol == y.info.symbol
      && ((0 < x.cost && 0 < y.cost)
        || (x.info.origin == y.info.origin && x.info.start == y.info.start
          && x.info.stop == y.info.stop && x.children.length == y.children.length
          && x.info.extra == y.info.extra))
  | _, _ => false

/-- The weight of a link's tree. -/
def Link.weight (k : Link) : Int := (k.tree.map (·.info.weight)).getD 0

/-- Adds a link to a node, merging it with an equal one: `fuel` bounds how deep nodes are merged. -/
def addLink (l : Language) : Nat → Array StackNode → Nat → Link → Array StackNode
  | 0, nodes, _, _ => nodes
  | fuel + 1, nodes, n, k =>
    if k.below == n then nodes
    else
      let self := nodes.getD n default
      let found := (List.range self.links.size).find? (fun i ↦
        let e := self.links.getD i default
        sameTree e.tree k.tree && (e.below == k.below
          || (let a := nodes.getD e.below default
              let b := nodes.getD k.below default
              a.state == b.state && a.position == b.position && a.cost == b.cost)))
      match found with
      | some i =>
        let e := self.links.getD i default
        if e.below == k.below then
          if Link.weight e < Link.weight k then
            nodes.setIfInBounds n { self with
              links := self.links.setIfInBounds i { e with tree := k.tree }
              weight := (nodes.getD k.below default).weight + Link.weight k }
          else nodes
        else
          let other := nodes.getD k.below default
          let nodes := other.links.foldl (fun ns x ↦ addLink l fuel ns e.below x) nodes
          let weight := other.weight + Link.weight k
          nodes.modify n (fun m ↦ if m.weight < weight then { m with weight := weight } else m)
      | none =>
        if maxLinks ≤ self.links.size then nodes
        else
          let b := nodes.getD k.below default
          let nodeCount := b.nodeCount + (k.tree.map l.nodeCount).getD 0
          let weight := b.weight + Link.weight k
          nodes.setIfInBounds n { self with
            links := self.links.push k
            nodeCount := max self.nodeCount nodeCount
            weight := max self.weight weight }

/-- Removes a reading. -/
def remove (s : Stack) (v : Nat) : Stack := { s with heads := s.heads.eraseIdxIfInBounds v }

/-- Whether two readings can be merged. -/
def canMerge (s : Stack) (v w : Nat) : Bool :=
  let a := s.top v
  let b := s.top w
  s.isActive v && s.isActive w && a.state == b.state && a.position == b.position
    && a.cost == b.cost

/-- Merges the second reading into the first, if that is possible. -/
def merge (l : Language) (s : Stack) (v w : Nat) : Bool × Stack :=
  if !s.canMerge v w then (false, s)
  else
    let a := (s.head v).node
    let links := (s.top w).links
    let nodes := links.foldl (fun ns k ↦ addLink l ns.size ns a k) s.nodes
    let s := { s with nodes := nodes }
    let s := if (s.top v).state == 0 then
        let n := (s.top v).nodeCount
        s.modifyHead v (fun h ↦ { h with nodeCountAtError := n })
      else s
    (true, s.remove w)

/-- Puts reading `v` in the place of reading `w`. -/
def renumber (s : Stack) (v w : Nat) : Stack :=
  if v == w then s
  else
    let target := s.head w
    let source := s.head v
    let source := if target.landmarks.isSome && source.landmarks.isNone then
        { source with landmarks := target.landmarks } else source
    ({ s with heads := s.heads.setIfInBounds w source }).remove v

/-- A second reading like the given one. -/
def copy (s : Stack) (v : Nat) : Nat × Stack :=
  (s.count, { s with heads := s.heads.push { s.head v with landmarks := none } })

/-- Exchanges two readings. -/
def swap (s : Stack) (v w : Nat) : Stack :=
  { s with heads := (s.heads.setIfInBounds v (s.head w)).setIfInBounds w (s.head v) }

/-- A path down the stack: the node it has reached, the trees passed (the last one first) and how
many of them may not stand anywhere. -/
structure Path where
  node : Nat
  trees : List Tree
  depth : Nat
  deriving Inhabited

/-- What is done with a path when it reaches a node. -/
structure Verdict where
  take : Bool
  stop : Bool

/-- Follows a link. -/
def Path.follow (p : Path) (k : Link) : Path :=
  match k.tree with
  | some t => ⟨k.below, t :: p.trees, if t.info.extra then p.depth else p.depth + 1⟩
  | none => ⟨k.below, p.trees, p.depth + 1⟩

/-- Takes every path one link further. `judge` decides on each path in turn and may remember
something; the paths that are taken are collected. -/
def round {σ : Type} (s : Stack) (judge : σ → Path → σ × Verdict) :
    List Path → σ → Array Path → Array Path → Array Path → σ × Array Path × Array Path
  | [], m, taken, kept, split => (m, taken, kept ++ split)
  | p :: ps, m, taken, kept, split =>
    let n := s.node p.node
    let (m, verdict) := judge m p
    let taken := if verdict.take then taken.push p else taken
    if verdict.stop || n.links.isEmpty then round s judge ps m taken kept split
    else
      let split := (n.links.toList.drop 1).foldl (fun (acc : Array Path) k ↦
        if maxPaths ≤ kept.size + 1 + ps.length + acc.size then acc else acc.push (p.follow k)) split
      let kept := match n.links[0]? with
        | some k => kept.push (p.follow k)
        | none => kept
      round s judge ps m taken kept split

/-- Follows all paths down from a node until each is stopped. -/
def descend {σ : Type} (s : Stack) (judge : σ → Path → σ × Verdict) :
    Nat → List Path → σ → Array Path → σ × Array Path
  | 0, _, m, taken => (m, taken)
  | _ + 1, [], m, taken => (m, taken)
  | fuel + 1, ps, m, taken =>
    let (m, taken, next) := round s judge ps m taken #[] #[]
    descend s judge fuel next.toList m taken

/-- The trees that a path has passed, from the lowest to the topmost, on the reading that begins
where the path ended. -/
structure Slice where
  trees : List Tree
  head : Nat
  deriving Inhabited

/-- Makes a reading for each node where a path ended; paths that ended at one node share it. -/
def slices (s : Stack) (v : Nat) (taken : Array Path) : Array Slice × Stack :=
  taken.foldl (fun (acc : Array Slice × Stack) p ↦
    let (found, s) := acc
    let same := (List.range found.size).reverse.find? (fun i ↦
      (s.head (found.getD i default).head).node == p.node)
    match same with
    | some i =>
      (found.insertIdxIfInBounds (i + 1) ⟨p.trees, (found.getD i default).head⟩, s)
    | none =>
      let h := s.head v
      (found.push ⟨p.trees, s.count⟩, { s with
        heads := s.heads.push ⟨p.node, h.nodeCountAtError, none, .active⟩ })) (#[], s)

/-- Takes a number of trees off a reading, along every path. -/
def popCount (s : Stack) (v n : Nat) : Array Slice × Stack :=
  let judge (_ : Unit) (p : Path) : Unit × Verdict :=
    let done := p.depth == n
    ((), ⟨done, done⟩)
  let (_, taken) := s.descend judge (s.nodes.size + 1) [⟨(s.head v).node, [], 0⟩] () #[]
  s.slices v taken

/-- Takes everything off a reading, along every path. -/
def popAll (s : Stack) (v : Nat) : Array Slice × Stack :=
  let judge (_ : Unit) (p : Path) : Unit × Verdict :=
    ((), ⟨(s.node p.node).links.isEmpty, false⟩)
  let (_, taken) := s.descend judge (s.nodes.size + 1) [⟨(s.head v).node, [], 0⟩] () #[]
  s.slices v taken

/-- Takes an error off the top of a reading, if there is one. -/
def popError (l : Language) (s : Stack) (v : Nat) : Option Tree × Stack :=
  let isError (t : Tree) : Bool := t.info.symbol == l.errorSymbol
  let onTop := (s.top v).links.any (fun k ↦ (k.tree.map isError).getD false)
  if !onTop then (none, s)
  else
    let judge (found : Bool) (p : Path) : Bool × Verdict :=
      match p.trees with
      | [] => (found, ⟨false, false⟩)
      | t :: _ => if !found && isError t then (true, ⟨true, true⟩) else (found, ⟨false, true⟩)
    let (_, taken) := s.descend judge (s.nodes.size + 1) [⟨(s.head v).node, [], 0⟩] false #[]
    let (found, s) := s.slices v taken
    match found[0]? with
    | some x => (x.trees.head?, s.renumber x.head v)
    | none => (none, s)

/-- Remembers the states of a reading down to a depth. -/
def recordLandmarks (s : Stack) (v maxDepth : Nat) : Stack :=
  let judge (found : Array Landmark) (p : Path) : Array Landmark × Verdict :=
    let n := s.node p.node
    if maxDepth < p.depth then (found, ⟨false, true⟩)
    else if found.any (fun e ↦ e.depth == p.depth && e.state == n.state) then
      (found, ⟨false, false⟩)
    else (found.push ⟨n.position, p.depth, n.state⟩, ⟨false, false⟩)
  let (found, _) := s.descend judge (s.nodes.size + 1) [⟨(s.head v).node, [], 0⟩] #[] #[]
  s.modifyHead v (fun h ↦ { h with landmarks := some found })

/-- Whether a reading has taken any text since its last error. -/
def hasAdvanced (s : Stack) (v : Nat) : Bool :=
  if (s.top v).cost == 0 then true
  else go s.nodes.size (s.head v).node
where
  /-- Looks down along first links. -/
  go : Nat → Nat → Bool
    | 0, _ => false
    | fuel + 1, i =>
      let n := s.node i
      match n.links[0]?, (n.links[0]?).bind (·.tree) with
      | some k, some t =>
        if t.info.origin < t.info.stop then true
        else if (s.head v).nodeCountAtError < n.nodeCount && t.cost == 0 then go fuel k.below
        else false
      | _, _ => false

end Stack

end CodeAtlas.Parsing
