import FlowAtlas.Inventory.Basic
import FlowAtlas.Selection
import FlowAtlas.Table
/-! Identifiers of nodes. In a diagram of a whole inventory an identifier is a mark of the category and
the rank at which the element was first seen; all categories share one count. In chains it is `N` and a
number. -/
namespace FlowAtlas.Diagram

def idMark : Category → String
  | .controller => "C"
  | .command => "CMD"
  | .entity => "E"
  | .domainEvent => "DE"
  | .integrationEvent => "IE"
  | .domainEventHandler => "DEH"
  | .integrationEventHandler => "IEH"
  | .integrationEventConverter => "IEC"

structure Register where
  ids : List ((Category × String) × String) := []
  byName : List (String × String) := []
  count : Nat := 0
  deriving DecidableEq, Repr

namespace Register

def resolve (r : Register) (category : Category) (name : String) : String × Register :=
  match Table.get? (category, name) r.ids with
  | some id => (id, r)
  | none =>
    let id := idMark category ++ toString (r.count + 1)
    (id, ⟨Table.set (category, name) id r.ids, Table.insertNew name id r.byName, r.count + 1⟩)

def find (r : Register) (name : String) : Option String := Table.get? name r.byName

def size (r : Register) : Nat := r.ids.length

def seen (r : Register) : List (Category × String) := r.ids.map (·.1)

end Register

namespace Numbering

def idAt (category : Category) (rank : Nat) : String := idMark category ++ toString (rank + 1)

end Numbering

structure Register.InStep (r : Register) : Prop where
  distinct : r.seen.Nodup
  counted : r.count = r.ids.length
  ranked : r.ids = r.seen.mapIdx fun rank mark => (mark, Numbering.idAt mark.1 rank)
  named : ∀ name, r.find name = (r.ids.find? (·.1.2 = name)).map (·.2)

theorem Register.InStep.fresh : InStep {} := ⟨List.nodup_nil, rfl, rfl, fun _ => rfl⟩

theorem Register.InStep.resolve {r : Register} (inStep : r.InStep) (category : Category) (name : String) :
    (r.resolve category name).2.InStep := by
  rw [Register.resolve]
  cases known : Table.get? (category, name) r.ids with
  | some id => exact inStep
  | none =>
    have new : (category, name) ∉ r.seen := Table.missingIff.mp known
    have seen : r.seen.length = r.ids.length := List.length_map _
    constructor
    case distinct =>
      simp only [Register.seen, Table.setFresh known, List.map_append]
      refine List.nodup_append.mpr ⟨inStep.distinct, by simp, ?_⟩
      rintro mark mem last here rfl
      obtain rfl := List.mem_singleton.mp here
      exact new mem
    case counted => simp [Table.setFresh known, inStep.counted]
    case ranked =>
      simp only [Register.seen, Table.setFresh known, List.map_append, List.map_cons, List.map_nil]
      rw [List.mapIdx_concat, ← Register.seen, ← inStep.ranked, seen, ← inStep.counted]
      rfl
    case named =>
      intro other
      simp only [Register.find, Table.setFresh known, List.find?_append]
      have before := inStep.named other
      rw [Register.find] at before
      by_cases same : other = name
      · subst same
        rw [Table.getInsertNewSame, before]
        cases r.ids.find? (·.1.2 = other) <;> simp
      · rw [Table.getInsertNewOther same, before]
        cases r.ids.find? (·.1.2 = other) <;> simp [Ne.symm same]

structure Numbering extends Register where
  inStep : toRegister.InStep := by exact .fresh
  deriving DecidableEq, Repr

namespace Numbering

def resolve (n : Numbering) (category : Category) (name : String) : String × Numbering :=
  ((n.toRegister.resolve category name).1, ⟨(n.toRegister.resolve category name).2, n.inStep.resolve category name⟩)

def resolveAll (n : Numbering) : List Listed → List (String × Listed) × Numbering
  | [] => ([], n)
  | e :: rest =>
    let (id, n) := n.resolve e.category e.fullName
    let (resolved, n) := resolveAll n rest
    ((id, e) :: resolved, n)

end Numbering

structure ChainNumbering where
  next : Int := 1
  deriving DecidableEq, Repr

namespace ChainNumbering

def idAt (number : Int) : String := "N" ++ toString number

def number (first : Int) : List Key → List (Key × String)
  | [] => []
  | key :: rest => (key, idAt first) :: number (first + 1) rest

def assign (n : ChainNumbering) (keys : List Key) : List (Key × String) × ChainNumbering :=
  let distinct := Selection.firsts id keys
  (number n.next distinct, ⟨n.next + distinct.length⟩)

end ChainNumbering

end FlowAtlas.Diagram
