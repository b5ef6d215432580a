import FlowAtlas.Proofs.Diagram.Numbering
/-! Any run of calls on a register of identifiers. What a call answers is read off the elements resolved up to then,
each once and in order of first sight; looking a name up leaves no trace. -/
namespace FlowAtlas.Diagram.Register

inductive Call
  | resolve (category : Category) (name : String)
  | find (name : String)
  deriving DecidableEq, Repr

def Call.mark? : Call → Option (Category × String)
  | resolve category name => some (category, name)
  | find _ => none

def call (r : Register) : Call → Option String × Register
  | .resolve category name => (some (r.resolve category name).1, (r.resolve category name).2)
  | .find name => (r.find name, r)

def run (r : Register) : List Call → List (Option String) × Register
  | [] => ([], r)
  | c :: rest => ((r.call c).1 :: ((r.call c).2.run rest).1, ((r.call c).2.run rest).2)

def resolved (calls : List Call) : List (Category × String) := calls.filterMap Call.mark?

def sighted (calls : List Call) : List (Category × String) := (resolved calls).eraseDups

def identifier (calls : List Call) (mark : Category × String) : String :=
  idMark mark.1 ++ toString ((sighted calls).idxOf mark + 1)

section

variable {r : Register}

theorem InStep.call (inStep : r.InStep) (c : Call) : (r.call c).2.InStep := by
  cases c with
  | resolve category name => exact inStep.resolve category name
  | find name => exact inStep

theorem InStep.run (inStep : r.InStep) (calls : List Call) : (r.run calls).2.InStep := by
  induction calls generalizing r with
  | nil => exact inStep
  | cons c rest ih => exact ih (inStep.call c)

theorem InStep.callSeen (inStep : r.InStep) (c : Call) :
    (r.call c).2.seen = c.mark?.toList.foldl (Selection.addNew id) r.seen := by
  cases c with
  | resolve category name => exact Numbering.resolveSeen ⟨r, inStep⟩ category name
  | find name => rfl

theorem InStep.runSeen (inStep : r.InStep) (calls : List Call) :
    (r.run calls).2.seen = (resolved calls).foldl (Selection.addNew id) r.seen := by
  induction calls generalizing r with
  | nil => rfl
  | cons c rest ih =>
    rw [Register.run, ih (inStep.call c), inStep.callSeen]
    cases c <;> rfl

theorem InStep.found (inStep : r.InStep) (name : String) : r.find name =
    (r.seen.find? fun mark => mark.2 = name).map fun mark => Numbering.idAt mark.1 (r.seen.idxOf mark) :=
  Numbering.findScan ⟨r, inStep⟩ name

theorem InStep.given (inStep : r.InStep) (category : Category) (name : String) : (r.resolve category name).1 =
    Numbering.idAt category ((r.resolve category name).2.seen.idxOf (category, name)) :=
  Numbering.resolveId ⟨r, inStep⟩ category name

theorem runAppend (r : Register) (first second : List Call) : r.run (first ++ second) =
    ((r.run first).1 ++ ((r.run first).2.run second).1, ((r.run first).2.run second).2) := by
  induction first generalizing r with
  | nil => rfl
  | cons c rest ih => simp only [List.cons_append, run, ih]

theorem runLength (r : Register) (calls : List Call) : (r.run calls).1.length = calls.length := by
  induction calls generalizing r with
  | nil => rfl
  | cons c rest ih => rw [run, List.length_cons, List.length_cons, ih]

theorem answerAt (r : Register) (before : List Call) (c : Call) (after : List Call) :
    (r.run (before ++ c :: after)).1[before.length]? = some ((r.run before).2.call c).1 := by
  rw [runAppend, List.getElem?_append_right (runLength r before).le, runLength, Nat.sub_self]
  rfl

end

section

variable {calls before after : List Call}

theorem sightedFirsts (calls : List Call) : sighted calls = Selection.firsts id (resolved calls) := by
  have instances : instBEqOfDecidableEq = (instBEqProd : BEq (Category × String)) := lawful_beq_subsingleton _ _
  rw [Selection.firstsErases, sighted, instances]

theorem sightedSeen (calls : List Call) : (run {} calls).2.seen = sighted calls := by
  rw [InStep.fresh.runSeen, sightedFirsts]
  rfl

theorem sightedMem {mark : Category × String} : mark ∈ sighted calls ↔ mark ∈ resolved calls := by
  rw [sightedFirsts, Selection.firstsMem]

theorem identifierKept {mark : Category × String} (early : mark ∈ resolved before) (after : List Call) :
    identifier (before ++ after) mark = identifier before mark := by
  have kept : sighted before <+: sighted (before ++ after) := by
    rw [← sightedSeen, ← sightedSeen, runAppend, (InStep.fresh.run before).runSeen]
    exact Selection.addAllPrefix _ _
  obtain ⟨later, split⟩ := kept
  rw [identifier, identifier, ← split, List.idxOf_append, if_pos (sightedMem.mpr early)]

theorem identifierApart {a b : Category × String} (here : a ∈ resolved calls) :
    identifier calls a = identifier calls b ↔ a = b := by
  constructor
  · intro same
    exact (List.idxOf_inj (sightedMem.mpr here)).mp (Numbering.idAtApart same).2
  · rintro rfl
    rfl

theorem foundAfter (calls : List Call) (name : String) : (run {} calls).2.find name =
    ((resolved calls).find? fun mark => mark.2 = name).map (identifier calls) := by
  rw [(InStep.fresh.run calls).found, sightedSeen, sightedFirsts, Selection.firstsFind, ← sightedFirsts]
  rfl

theorem resolveAnswer (before : List Call) (category : Category) (name : String) (after : List Call) :
    (run {} (before ++ .resolve category name :: after)).1[before.length]? =
      some (some (identifier (before ++ .resolve category name :: after) (category, name))) := by
  have early : (category, name) ∈ resolved (before ++ [.resolve category name]) := by
    simp [resolved, Call.mark?]
  have state : (run {} (before ++ [.resolve category name])).2 =
      ((run {} before).2.resolve category name).2 := by
    rw [runAppend]
    rfl
  have given := (InStep.fresh.run before).given category name
  rw [← state, sightedSeen] at given
  have split : before ++ .resolve category name :: after = (before ++ [.resolve category name]) ++ after := by simp
  rw [answerAt, call, given, split, identifierKept early]
  rfl

theorem findAnswer (before : List Call) (name : String) (after : List Call) :
    (run {} (before ++ .find name :: after)).1[before.length]? =
      some (((resolved before).find? fun mark => mark.2 = name).map (identifier (before ++ .find name :: after))) := by
  rw [answerAt, call, foundAfter]
  congr 1
  refine Option.map_congr fun mark found => ?_
  exact (identifierKept (List.mem_of_find?_eq_some found) _).symm

theorem findUntraced (before : List Call) (name : String) (after : List Call) :
    (run {} (before ++ .find name :: after)).2 = (run {} (before ++ after)).2 ∧
      (run {} (before ++ .find name :: after)).1.eraseIdx before.length = (run {} (before ++ after)).1 := by
  rw [runAppend, runAppend]
  refine ⟨rfl, ?_⟩
  rw [List.eraseIdx_append_of_length_le (runLength {} before).le, runLength, Nat.sub_self]
  rfl

theorem callSplit {i : Nat} {c : Call} (at_ : calls[i]? = some c) :
    ∃ before after, calls = before ++ c :: after ∧ before.length = i ∧ before = calls.take i := by
  obtain ⟨inside, rfl⟩ := List.getElem?_eq_some_iff.mp at_
  refine ⟨calls.take i, calls.drop (i + 1), ?_, List.length_take_of_le inside.le, rfl⟩
  rw [List.cons_getElem_drop_succ, List.take_append_drop]

end

structure Accounted (calls : List Call) (answers : List (Option String)) (r : Register) : Prop where
  answered : answers.length = calls.length
  same : ∀ (i j : Nat) a b x y, calls[i]? = some (Call.resolve a x) → calls[j]? = some (Call.resolve b y) →
    (answers[i]? = answers[j]? ↔ (a, x) = (b, y))
  given : ∀ (i : Nat) category name, calls[i]? = some (Call.resolve category name) →
    answers[i]? = some (some (identifier calls (category, name)))
  found : ∀ (i : Nat) name, calls[i]? = some (Call.find name) →
    answers[i]? = some (((resolved (calls.take i)).find? fun mark => mark.2 = name).map (identifier calls))
  size : r.size = (sighted calls).length
  find : ∀ name, r.find name = ((resolved calls).find? fun mark => mark.2 = name).map (identifier calls)

theorem callsAccounted (calls : List Call) :
    Accounted calls (run {} calls).1 (run {} calls).2 ∧
      ∀ (i : Nat) name, calls[i]? = some (Call.find name) → (run {} (calls.eraseIdx i)).2 = (run {} calls).2 ∧
        (run {} (calls.eraseIdx i)).1 = (run {} calls).1.eraseIdx i := by
  have given : ∀ (i : Nat) category name, calls[i]? = some (Call.resolve category name) →
      (run {} calls).1[i]? = some (some (identifier calls (category, name))) := by
    intro i category name here
    obtain ⟨before, after, rfl, rfl, -⟩ := callSplit here
    exact resolveAnswer before category name after
  constructor
  · constructor
    case answered => exact runLength {} calls
    case given => exact given
    case same =>
      intro i j a b x y first second
      have early : (a, x) ∈ resolved calls := List.mem_filterMap.mpr ⟨_, List.mem_of_getElem? first, rfl⟩
      rw [given i a x first, given j b y second, Option.some.injEq, Option.some.injEq, identifierApart early]
    case found =>
      intro i name here
      obtain ⟨before, after, split, rfl, taken⟩ := callSplit here
      rw [← taken]
      subst split
      exact findAnswer before name after
    case size =>
      rw [← sightedSeen, seen, List.length_map, size]
    case find => exact foundAfter calls
  · intro i name here
    obtain ⟨before, after, rfl, rfl, -⟩ := callSplit here
    have erased : (before ++ .find name :: after).eraseIdx before.length = before ++ after := by
      rw [List.eraseIdx_append_of_length_le le_rfl, Nat.sub_self]
      rfl
    obtain ⟨left, answers⟩ := findUntraced before name after
    rw [erased]
    exact ⟨left.symm, answers.symm⟩

example : (run {} [.find "Order", .resolve .integrationEventHandler "Order", .resolve .command "Order",
    .resolve .integrationEventHandler "Order", .find "Order"]).1 =
    [none, some "IEH1", some "CMD2", some "IEH1", some "IEH1"] := by
  decide

end FlowAtlas.Diagram.Register
