import FlowAtlas.Diagram.Kind
import FlowAtlas.Inventory.Document
import FlowAtlas.Json.Writer
import FlowAtlas.Page.Template
/-! One page with all diagrams of an inventory: chosen overviews, a figure per chain and a figure per
command chain. -/
namespace FlowAtlas

namespace Page

inductive Choice
  | list (names : List String)
  | joined (text : String)
  deriving DecidableEq, Repr

def Choice.includes (kind : DiagramKind) : Choice → Bool
  | list chosen => chosen.contains kind.name
  | joined whole => containsText whole kind.name

def overviewTitle : DiagramKind → String
  | .architecture => "Architecture"
  | .command => "Commands"
  | .event => "Events"
  | .classes => "Classes"
  | .multiChain => "All Chains"

structure Gallery where
  overview : List Diagram.Figure
  chains : List Diagram.Figure
  commandChains : List Diagram.Figure
  deriving DecidableEq, Repr

def figureJson (f : Diagram.Figure) : Json := .object [("name", .text f.name), ("diagram", .text f.text)]

def Gallery.toJson (g : Gallery) : Json :=
  .object [("overview", .array (g.overview.map figureJson)), ("chains", .array (g.chains.map figureJson)),
    ("commandChains", .array (g.commandChains.map figureJson))]

def escapeChar : Char → List Char
  | '&' => "&amp;".toList
  | '<' => "&lt;".toList
  | '>' => "&gt;".toList
  | '"' => "&quot;".toList
  | '\'' => "&#x27;".toList
  | c => [c]

def escape (s : String) : String := String.ofList (s.toList.flatMap escapeChar)

def libraryAddress : String := "https://unpkg.com/mermaid@10.6.1/dist/mermaid.min.js"

def marked? (s : List Char) : Option (Place × List Char) :=
  Place.all.findSome? fun p => if p.mark.toList.isPrefixOf s then some (p, s.drop p.mark.toList.length) else none

theorem markedSome {p : Place} {s after : List Char} (h : marked? s = some (p, after)) :
    s = p.mark.toList ++ after := by
  obtain ⟨q, _, found⟩ := List.exists_of_findSome?_eq_some h
  split at found
  · rename_i starts
    cases found
    exact (List.prefix_iff_eq_append.mp (List.isPrefixOf_iff_prefix.mp starts)).symm
  · simp at found

/-- Replaces the marks from left to right in one pass; values are not looked at again. -/
def substitute (values : Place → String) (s : List Char) : List Char :=
  match s with
  | [] => []
  | c :: rest =>
    match _h : marked? (c :: rest) with
    | some (p, after) => (values p).toList ++ substitute values after
    | none => c :: substitute values rest
termination_by s.length
decreasing_by
  · rw [markedSome _h, List.length_append]
    cases p <;> exact Nat.lt_add_of_pos_left (by decide)
  · simp

def fill (values : Place → String) : String := String.ofList (substitute values templateText.toList)

def defaultTitle : String := "Code Flow Architecture"

structure Options where
  title : String := defaultTitle
  methodLimit : Int := defaultMethodLimit
  choice : Choice := .list DiagramKind.names
  deriving DecidableEq, Repr

end Page

namespace Inventory

open Page

def gallery (inv : Inventory) (methodLimit : Int) (choice : Choice) : Gallery where
  overview := (DiagramKind.all.filter choice.includes).map fun kind =>
    ⟨overviewTitle kind, inv.diagram methodLimit kind⟩
  chains := inv.chainFigures
  commandChains := inv.commandChainFigures

def page (inv : Inventory) (options : Options) : String :=
  fill fun
    | .title => escape options.title
    | .library => libraryAddress
    | .inventory => inv.toJson.inline
    | .diagrams => (inv.gallery options.methodLimit options.choice).toJson.inline

end Inventory

end FlowAtlas
