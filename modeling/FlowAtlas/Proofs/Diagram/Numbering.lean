import FlowAtlas.Diagram.Whole
import FlowAtlas.Proofs.Diagram.Sheets
import FlowAtlas.Proofs.Text.Parts
/-! Identifiers in sheets of a whole inventory. The mark and the number of an identifier can be read off it,
so elements share one only when category and full name are the same; look-up by name finds the identifier of
the first element with that name. -/
namespace FlowAtlas

def Listed.mark (e : Listed) : Category × String := (e.category, e.fullName)

namespace Diagram

theorem idMarkInjective {c d : Category} (same : idMark c = idMark d) : c = d := by
  revert same
  cases c <;> cases d <;> decide

theorem idMarkLetters (c : Category) : (idMark c).toList.filter Char.isDigit = [] := by
  cases c <;> decide

theorem numberDigits (n : Nat) : (toString n).toList.filter Char.isDigit = (toString n).toList :=
  List.filter_eq_self.mpr (Text.digitsOnly n)

namespace Numbering

theorem idAtDigits (c : Category) (rank : Nat) :
    (idAt c rank).toList.filter Char.isDigit = (toString (rank + 1)).toList := by
  rw [idAt, String.toList_append, List.filter_append, idMarkLetters, numberDigits, List.nil_append]

/- The digits of an identifier give its number, what stands before them its mark. -/
theorem idAtApart {c d : Category} {rank other : Nat} (same : idAt c rank = idAt d other) :
    c = d ∧ rank = other := by
  have digits := congrArg (fun s : String => s.toList.filter Char.isDigit) same
  simp only [idAtDigits] at digits
  have number : rank + 1 = other + 1 := Text.numberInjective (String.toList_injective digits)
  obtain rfl : rank = other := by omega
  rw [idAt, idAt, String.append_left_inj] at same
  exact ⟨idMarkInjective same, rfl⟩

def idOf (n : Numbering) (mark : Category × String) : String := idAt mark.1 (n.seen.idxOf mark)

theorem idOfApart {n : Numbering} {a b : Category × String} (seen : a ∈ n.seen) (same : n.idOf a = n.idOf b) :
    a = b :=
  (List.idxOf_inj seen).mp (idAtApart same).2

theorem idOfKept {n m : Numbering} (kept : n.seen <+: m.seen) {mark : Category × String} (seen : mark ∈ n.seen) :
    m.idOf mark = n.idOf mark := by
  obtain ⟨later, split⟩ := kept
  rw [idOf, idOf, ← split, List.idxOf_append, if_pos seen]

theorem rankedGet (give : Category × String → Nat → String) (seen : List (Category × String))
    (mark : Category × String) : Table.get? mark (seen.mapIdx fun rank m => (m, give m rank)) =
      if mark ∈ seen then some (give mark (seen.idxOf mark)) else none := by
  induction seen generalizing give with
  | nil => rfl
  | cons first rest ih =>
    rw [List.mapIdx_cons, Table.get?]
    by_cases same : first = mark
    · subst same
      simp
    · rw [if_neg same, ih fun m rank => give m (rank + 1)]
      simp [List.idxOf_cons_ne _ same, Ne.symm same]

theorem rankedFind (give : Category × String → Nat → String) (p : Category × String → Bool)
    (seen : List (Category × String)) : ((seen.mapIdx fun rank m => (m, give m rank)).find? (p ·.1)).map (·.2) =
      (seen.find? p).map fun mark => give mark (seen.idxOf mark) := by
  induction seen generalizing give with
  | nil => rfl
  | cons first rest ih =>
    rw [List.mapIdx_cons, List.find?_cons, List.find?_cons]
    cases here : p first with
    | true => simp
    | false =>
      have later := ih fun m rank => give m (rank + 1)
      rw [later]
      refine Option.map_congr fun mark found => ?_
      have apart : first ≠ mark := by
        rintro rfl
        rw [List.find?_some found] at here
        cases here
      rw [List.idxOf_cons_ne _ apart]

theorem idsGet (n : Numbering) (mark : Category × String) :
    Table.get? mark n.ids = if mark ∈ n.seen then some (n.idOf mark) else none := by
  rw [n.inStep.ranked, rankedGet fun mark rank => idAt mark.1 rank]
  rfl

theorem resolveOld {n : Numbering} {category : Category} {name : String} (seen : (category, name) ∈ n.seen) :
    n.resolve category name = (n.idOf (category, name), n) := by
  have known : n.toRegister.resolve category name = (n.idOf (category, name), n.toRegister) := by
    rw [Register.resolve, idsGet, if_pos seen]
  simp only [resolve, known]

theorem resolveNew {n : Numbering} {category : Category} {name : String} (new : (category, name) ∉ n.seen) :
    (n.resolve category name).1 = idAt category n.seen.length ∧
      (n.resolve category name).2.seen = n.seen ++ [(category, name)] := by
  have absent : Table.get? (category, name) n.ids = none := by
    rw [idsGet, if_neg new]
  have count : n.seen.length = n.count := by
    rw [Register.seen, List.length_map, n.inStep.counted]
  change (n.toRegister.resolve category name).1 = _ ∧ (n.toRegister.resolve category name).2.seen = _
  rw [Register.resolve, absent, count]
  refine ⟨rfl, ?_⟩
  simp [Register.seen, Table.setFresh absent]

theorem resolveSeen (n : Numbering) (category : Category) (name : String) :
    (n.resolve category name).2.seen = Selection.addNew id n.seen (category, name) := by
  by_cases seen : (category, name) ∈ n.seen
  · rw [resolveOld seen, Selection.addNewAgain ⟨_, seen, rfl⟩]
  · rw [(resolveNew seen).2]
    simpa [Selection.addNew] using seen

theorem resolveId (n : Numbering) (category : Category) (name : String) :
    (n.resolve category name).1 = (n.resolve category name).2.idOf (category, name) := by
  by_cases seen : (category, name) ∈ n.seen
  · rw [resolveOld seen]
  · obtain ⟨given, after⟩ := resolveNew seen
    rw [given, idOf, after]
    simp [List.idxOf_append, seen]

theorem findScan (n : Numbering) (name : String) :
    n.find name = (n.seen.find? (fun mark => mark.2 = name)).map n.idOf := by
  rw [n.inStep.named, n.inStep.ranked]
  exact rankedFind (fun mark rank => idAt mark.1 rank) (fun mark => decide (mark.2 = name)) n.seen

theorem resolveAllCons (n : Numbering) (e : Listed) (rest : List Listed) : n.resolveAll (e :: rest) =
    (((n.resolve e.category e.fullName).1, e) :: ((n.resolve e.category e.fullName).2.resolveAll rest).1,
      ((n.resolve e.category e.fullName).2.resolveAll rest).2) := rfl

theorem resolveAllSeen (n : Numbering) (es : List Listed) :
    (n.resolveAll es).2.seen = (es.map Listed.mark).foldl (Selection.addNew id) n.seen := by
  induction es generalizing n with
  | nil => rfl
  | cons e rest ih => rw [resolveAllCons, ih, resolveSeen, List.map_cons, List.foldl_cons, Listed.mark]

theorem resolveAllKept (n : Numbering) (es : List Listed) : n.seen <+: (n.resolveAll es).2.seen := by
  rw [resolveAllSeen]
  exact Selection.addAllPrefix _ _

theorem resolveAllIds (n : Numbering) (es : List Listed) :
    (n.resolveAll es).1 = es.map fun e => ((n.resolveAll es).2.idOf e.mark, e) := by
  induction es generalizing n with
  | nil => rfl
  | cons e rest ih =>
    have seen : e.mark ∈ (n.resolve e.category e.fullName).2.seen := by
      rw [resolveSeen]
      exact Selection.addNewMem _ _
    rw [resolveAllCons, List.map_cons, ih, resolveId, idOfKept (resolveAllKept _ rest) seen]
    rfl

end Numbering

theorem sectionsCons (n : Numbering) (s : Section) (rest : List Section) : drawSections n (s :: rest) =
    (.comment indentation s.heading :: (n.resolveAll s.elements).1.map (fun (id, e) => .ofElement id e) ++
        .blank :: (drawSections (n.resolveAll s.elements).2 rest).1,
      (drawSections (n.resolveAll s.elements).2 rest).2) := rfl

theorem sectionsSeen (n : Numbering) (sections : List Section) : (drawSections n sections).2.seen =
    ((sections.flatMap (·.elements)).map Listed.mark).foldl (Selection.addNew id) n.seen := by
  induction sections generalizing n with
  | nil => rfl
  | cons s rest ih =>
    rw [sectionsCons, ih, Numbering.resolveAllSeen, List.flatMap_cons, List.map_append, List.foldl_append]

theorem sectionForms {n : Numbering} {sections : List Section} {s : Statement}
    (mem : s ∈ (drawSections n sections).1) : (∃ heading, s = .comment indentation heading) ∨ s = .blank ∨
      ∃ id e, s = .ofElement id e := by
  induction sections generalizing n with
  | nil => cases mem
  | cons head rest ih =>
    rw [sectionsCons] at mem
    rcases List.mem_append.mp mem with here | later
    · rcases List.mem_cons.mp here with rfl | drawn
      · exact Or.inl ⟨_, rfl⟩
      · obtain ⟨⟨id, e⟩, _, rfl⟩ := List.mem_map.mp drawn
        exact Or.inr (Or.inr ⟨id, e, rfl⟩)
    · rcases List.mem_cons.mp later with rfl | later
      · exact Or.inr (Or.inl rfl)
      · exact ih later

theorem sectionsDrawn (n : Numbering) (sections : List Section) :
    (drawSections n sections).1.filter (·.isNode) = (sections.flatMap (·.elements)).map fun e =>
      .ofElement ((drawSections n sections).2.idOf e.mark) e := by
  induction sections generalizing n with
  | nil => rfl
  | cons s rest ih =>
    have kept : (n.resolveAll s.elements).2.seen <+: (drawSections (n.resolveAll s.elements).2 rest).2.seen := by
      rw [sectionsSeen]
      exact Selection.addAllPrefix _ _
    have here : (n.resolveAll s.elements).1.map (fun (id, e) => Statement.ofElement id e) =
        s.elements.map fun e =>
          .ofElement ((drawSections (n.resolveAll s.elements).2 rest).2.idOf e.mark) e := by
      rw [Numbering.resolveAllIds, List.map_map]
      apply List.map_congr_left
      intro e mem
      have seen : e.mark ∈ (n.resolveAll s.elements).2.seen := by
        rw [Numbering.resolveAllSeen, Selection.memAddAll]
        exact Or.inr (List.mem_map_of_mem mem)
      simp [Numbering.idOfKept kept seen]
    rw [sectionsCons, here, List.flatMap_cons, List.map_append, ← ih]
    simp [List.filter_map, Function.comp_def, Statement.isNode, Statement.ofElement]

end Diagram

end FlowAtlas
