import NodePath.Expr.Node

/-!
# Walking trees

`Node.events?` enters and leaves every node in source order and fails on a missing part.
`Node.visited` lists the nodes before their children and can be told to skip the children of some; it
lists a missing part like any other node.
-/

namespace NodePath

open NodePath.Text

namespace Node

/-- The nodes of a tree, each before its children; the children of a node that `enter` rejects are
skipped. -/
def visited (enter : Node → Bool) (n : Node) : List Node :=
  n :: if enter n then n.children.attach.flatMap fun ⟨c, _⟩ => visited enter c else []
termination_by n.count
decreasing_by exact count_lt_of_mem_children ‹_›

/-- All nodes of a tree, each before its children. -/
def nodes (n : Node) : List Node := n.visited fun _ => true

/-- The names of the functions a tree calls, in the order of their first call. -/
def functionNames (n : Node) : List Bytes :=
  (n.nodes.filterMap fun
    | .expr (.call function _) => some function.text
    | _ => none).eraseDups

/-- The names of the variables a tree refers to, in the order of their first use. -/
def variableNames (n : Node) : List Bytes :=
  (n.nodes.filterMap fun
    | .expr (.reference name) => some name.text
    | _ => none).eraseDups

end Node

inductive Event where
  | enter (n : Node)
  | leave (n : Node)

/-- The events of a node around those of its children. -/
def within (n : Node) (inner : List Event) : List Event := .enter n :: inner ++ [.leave n]

def leafEvents (n : Node) : List Event := within n []

def Test.events? (t : Test) : Option (List Event) :=
  match t with
  | .missing => none
  | .nodeType _ (some value) => some (within (.test t) (leafEvents (.expr (.literal value))))
  | t => some (leafEvents (.test t))

mutual

/-- What a walk through an expression meets, unless a part of it is missing. -/
def Expr.events? (e : Expr) : Option (List Event) :=
  match e with
  | .missing => none
  | .path steps => (pathEvents? steps).map (within (.expr (.path steps)))
  | .absolute steps =>
    (pathEvents? steps).map fun inner => within (.expr (.absolute steps)) (within (pathNode steps) inner)
  | .everywhere steps =>
    (pathEvents? steps).map fun inner => within (.expr (.everywhere steps)) (within (pathNode steps) inner)
  | .call function args => (exprsEvents? args).map (within (.expr (.call function args)))
  | .negate operand => operand.events?.map (within (.expr (.negate operand)))
  | .binary op comparison lhs rhs => do
    let left ← lhs.events?
    let right ← rhs.events?
    return within (.expr (.binary op comparison lhs rhs)) (left ++ right)
  | .filter source predicates => do
    let inner ← source.events?
    let filters ← exprsEvents? predicates
    return within (.expr (.filter source predicates)) (inner ++ filters)
  | .continued source separator steps => do
    let inner ← source.events?
    let further ← pathEvents? steps
    return within (.expr (.continued source separator steps)) (inner ++ within (pathNode steps) further)
  | .rootName t => some (within (.expr (.rootName t)) (leafEvents (.test (.name t))))
  | .literal value => some (leafEvents (.expr (.literal value)))
  | .number value => some (leafEvents (.expr (.number value)))
  | .boolean value => some (leafEvents (.expr (.boolean value)))
  | .reference name => some (leafEvents (.expr (.reference name)))
  | .root => some (leafEvents (.expr .root))

def exprsEvents? : List Expr → Option (List Event)
  | [] => some []
  | e :: rest => do
    let first ← e.events?
    let others ← exprsEvents? rest
    return first ++ others

def pathEvents? : List (Separator × Step) → Option (List Event)
  | [] => some []
  | (_, step) :: rest => do
    let first ← step.events?
    let others ← pathEvents? rest
    return first ++ others

def Step.events? : Step → Option (List Event)
  | .mk axis test predicates => do
    let inner ← test.events?
    let filters ← exprsEvents? predicates
    return within (.step (.mk axis test predicates)) (inner ++ filters)

end

/-- What a walk through a tree meets: every node entered and left, its children in between. -/
def Node.events? : Node → Option (List Event)
  | .expr e => e.events?
  | .test t => t.events?
  | .step s => s.events?

end NodePath
