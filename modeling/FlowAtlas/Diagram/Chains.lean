import FlowAtlas.Chain.Extract
import FlowAtlas.Diagram.Numbering
import FlowAtlas.Diagram.Statement
/-! Flowcharts of chains: a sheet for one chain, or one sheet with a group for each of several chains.
The identifiers of one sheet come from one numbering, so groups share none. -/
namespace FlowAtlas.Diagram

def chainNodes (ix : Index) (indent : String) (ids : List (Key × String)) (c : Chain) : Sheet :=
  c.nodes.map fun key =>
    .node indent ((Table.get? key ids).getD "") (ix.categoryOf key.typeName) key.simpleName
      (ix.isAggregateRoot key.typeName)

def chainEdges (ids : List (Key × String)) (c : Chain) : Sheet :=
  c.edges.filterMap fun e =>
    match Table.get? e.source ids, Table.get? e.target ids with
    | some source, some target => some (.edge source "-->" target e.label)
    | _, _ => none

def droppedEdges (c : Chain) : List Edge :=
  c.edges.filter fun e => !(c.nodes.contains e.source && c.nodes.contains e.target)

def assignmentHeading : String := "Apply styles to specific nodes"

def chainSheet (ix : Index) (n : ChainNumbering) (c : Chain) : Sheet × ChainNumbering :=
  let (ids, n) := n.assign c.nodes
  let body := Sheet.start "flowchart TD" ++ .comment indentation (escapeLabel c.name) :: .blank ::
    chainNodes ix indentation ids c ++ .blank :: .comment indentation "Chain Relationships" ::
    chainEdges ids c ++ [.blank]
  (body ++ body.styleBlock "Chain Styles" StyleClass.all assignmentHeading, n)

def chainSheets (ix : Index) (n : ChainNumbering) : List Chain → List Sheet
  | [] => []
  | c :: rest =>
    let (sheet, n) := chainSheet ix n c
    sheet :: chainSheets ix n rest

def numberChains (n : ChainNumbering) : List Chain → List (Chain × List (Key × String))
  | [] => []
  | c :: rest =>
    let (ids, n) := n.assign c.nodes
    (c, ids) :: numberChains n rest

def chainGroups (ix : Index) (number : Nat) : List (Chain × List (Key × String)) → Sheet
  | [] => []
  | (c, ids) :: rest =>
    .openGroup number c.name :: chainNodes ix (indentation ++ indentation) ids c ++
      .closeGroup :: .blank :: chainGroups ix (number + 1) rest

def groupedSheet (ix : Index) (chains : List Chain) : Sheet :=
  let numbered := numberChains {} chains
  let body := Sheet.start "flowchart TD" ++ chainGroups ix 1 numbered ++
    .comment indentation "Chain Internal Relationships" ::
    numbered.flatMap (fun (c, ids) => chainEdges ids c) ++ [.blank]
  body ++ body.styleBlock "Multi-Chain Styles" StyleClass.all assignmentHeading

structure Figure where
  name : String
  text : String
  deriving DecidableEq, Repr

end FlowAtlas.Diagram

namespace FlowAtlas.Inventory

open Diagram

def chainFigure (ix : Index) (c : Chain) : Figure := ⟨c.name, (chainSheet ix {} c).1.text⟩

def chainFigures (inv : Inventory) : List Figure := inv.chains.map fun c => chainFigure inv.index c.toChain

def commandChainFigures (inv : Inventory) : List Figure :=
  inv.commandChains.map fun c => chainFigure inv.index c.toChain

def groupedChainsSheet (inv : Inventory) : Sheet :=
  groupedSheet inv.index (inv.chains.map (·.toChain))

end FlowAtlas.Inventory
