import FlowAtlas.Chain.Extract
import FlowAtlas.Journal.Notice
import FlowAtlas.Page.Basic
/-! Accounts of the work: which notices each piece of work gives, in order. An inventory is indexed when
the index is first asked for, so its clashes are noticed once. -/
namespace FlowAtlas

inductive Happening
  | indexed
  | noticed (notice : Notice)
  deriving DecidableEq, Repr

abbrev Account := List Happening

def Account.notices (clashes : List Clash) : Account → List Notice
  | [] => []
  | .noticed n :: rest => n :: notices clashes rest
  | .indexed :: rest => clashes.map .clash ++ notices [] rest

namespace Account

def ofRoots (inv : Inventory) : Account := [.noticed (.roots inv.roots.length)]

def ofSkips (c : TracedChain) : Account := c.skipped.map fun s => .noticed (.skipped s)

def ofChain (c : TracedChain) : Account :=
  ofSkips c ++ [.noticed (.chain c.name c.nodes.length c.edges.length)]

def ofChains (inv : Inventory) : Account := .indexed :: ofRoots inv ++ inv.chains.flatMap ofChain

def ofCommandChains (inv : Inventory) : Account := .indexed :: inv.commandChains.flatMap ofSkips

def ofDrawing (chains : List Chain) : Account :=
  .indexed :: chains.flatMap fun c => (Diagram.droppedEdges c).map fun e => .noticed (.droppedEdge e c.name)

def ofDiagram (inv : Inventory) : DiagramKind → Account
  | .architecture => inv.droppedRelationships.map fun r => .noticed (.droppedRelationship r)
  | .command => []
  | .event => []
  | .classes => [.indexed]
  | .multiChain => .indexed :: ofChains inv ++ ofDrawing (inv.chains.map (·.toChain))

def ofGallery (inv : Inventory) (choice : Page.Choice) : Account :=
  (DiagramKind.all.filter choice.includes).flatMap (ofDiagram inv) ++ ofChains inv ++ ofCommandChains inv

def ofFlowGraph (g : FlowGraph) : Account := g.skipped.map fun e => .noticed (.skippedEdge e)

def ofStatistics (inv : Inventory) : Account :=
  .indexed :: ofFlowGraph inv.flowGraph ++ ofRoots inv ++ ofCommandChains inv

end Account

end FlowAtlas
