import FlowAtlas.Chain.Trail
import FlowAtlas.FlowGraph.Basic
import FlowAtlas.Inventory.Index
import FlowAtlas.Settings.Load
/-! Notices of what was found, skipped or left out, each with the part of the library that gives it. -/
namespace FlowAtlas

inductive Level
  | debug
  | warning
  deriving DecidableEq, Repr

def Level.name : Level → String
  | debug => "DEBUG"
  | warning => "WARNING"

inductive Notice
  | loaded (path : String) (elements relationships : Nat)
  | clash (clash : Clash)
  | roots (count : Nat)
  | skipped (skip : Skip)
  | chain (name : String) (nodes edges : Nat)
  | droppedRelationship (r : Relationship)
  | droppedEdge (edge : Edge) (owner : String)
  | skippedEdge (edge : FlowEdge)
  | written (path : String)
  | ignoredSettings (path : String) (reason : Settings.Ignored)
  deriving DecidableEq, Repr

namespace Notice

def logger : Notice → String
  | loaded .. => "codeflow.core.analysis"
  | clash .. => "codeflow.core.analysis"
  | roots .. => "codeflow.analysis.chains"
  | skipped .. => "codeflow.analysis.chains"
  | chain .. => "codeflow.analysis.chains"
  | droppedRelationship .. => "codeflow.render.flowchart"
  | droppedEdge .. => "codeflow.render.chain_diagrams"
  | skippedEdge .. => "codeflow.core.graph"
  | written .. => "codeflow.cli.commands.chains"
  | ignoredSettings .. => "codeflow.config"

def level : Notice → Level
  | ignoredSettings .. => .warning
  | _ => .debug

def message : Notice → String
  | loaded path elements relationships =>
    "Loaded " ++ path ++ ": " ++ toString elements ++ " elements, " ++ toString relationships ++
      " relationships"
  | clash c =>
    c.name ++ " is listed as both " ++ c.kept.name ++ " and " ++ c.other.name ++ "; keeping " ++ c.kept.name
  | roots count => "Discovered " ++ toString count ++ " chain roots"
  | skipped s => "Skipping unresolved reference " ++ s.name ++ " from " ++ s.referrer.text
  | chain name nodes edges =>
    "Chain " ++ name ++ ": " ++ toString nodes ++ " nodes, " ++ toString edges ++ " edges"
  | droppedRelationship r =>
    "Dropping " ++ r.callType ++ " edge " ++ r.sourceType ++ " -> " ++ r.targetType
  | droppedEdge e owner => "Dropping chain edge " ++ e.source.text ++ " -> " ++ e.target.text ++ " in " ++ owner
  | skippedEdge e =>
    "Skipping " ++ e.callType ++ " edge " ++ e.source ++ " -> " ++ e.target ++ ": unknown endpoint"
  | written path => "Wrote " ++ path
  | ignoredSettings path (.unreadable fault) => "Ignoring unreadable config " ++ path ++ ": " ++ fault.message
  | ignoredSettings path (.malformed reason) => "Ignoring unreadable config " ++ path ++ ": " ++ reason
  | ignoredSettings path .notMapping => "Ignoring config " ++ path ++ ": expected a mapping"
  | ignoredSettings path (.invalid issues) =>
    "Ignoring invalid config " ++ path ++ ": " ++ toString issues.length ++ " validation error" ++
      (if issues.length = 1 then "" else "s") ++ " for RenderConfig"

def line (n : Notice) : String := n.level.name ++ " " ++ n.logger ++ ": " ++ n.message

end Notice

end FlowAtlas
