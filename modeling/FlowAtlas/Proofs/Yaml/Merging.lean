import FlowAtlas.Proofs.Yaml.Ends
import FlowAtlas.Yaml.Building
import Mathlib.Algebra.Order.BigOperators.Group.Finset
/-! Merging mappings always comes to an end, also where mappings are merged into themselves. A merge key is gone
before its mappings are looked at, and no other one comes up, so there are fewer each time. -/
namespace FlowAtlas.Yaml

open Node (numbered)

theorem numberedSet (nodes : Array Node) (id other : Nat) (node : Node) :
    numbered (nodes.setIfInBounds id node) other =
      if id = other ∧ id < nodes.size then node else numbered nodes other := by
  simp only [numbered, Array.getD_eq_getD_getElem?, Array.getElem?_setIfInBounds]
  split
  · rename_i same
    subst same
    split <;> simp_all
  · simp_all

theorem numberedBound {nodes : Array Node} {id : Nat} (other : numbered nodes id ≠ default) : id < nodes.size := by
  by_contra outside
  rw [numbered, Array.getD_eq_getD_getElem?, Array.getElem?_eq_none (Nat.not_lt.mp outside)] at other
  exact other rfl

namespace Merging

variable {s t u : Array Node}

/-- A key that flattening has nothing to do with any more. -/
def Clean (nodes : Array Node) (key : Nat) : Prop :=
  (numbered nodes key).tag ≠ .merge ∧ (numbered nodes key).tag ≠ .value

def Flat (nodes : Array Node) (id : Nat) : Prop := ∀ pair ∈ (numbered nodes id).content.pairs, Clean nodes pair.1

/-- All that flattening does to tags: a key that is an equals sign becomes a text. -/
structure Retagged (s t : Array Node) : Prop where
  size : t.size = s.size
  tag : ∀ key, (numbered t key).tag = (numbered s key).tag ∨
    (numbered s key).tag = .value ∧ (numbered t key).tag = .str

structure Reworded (s t : Array Node) : Prop extends Retagged s t where
  content : ∀ id, (numbered t id).content = (numbered s id).content

structure Flattened (s t : Array Node) : Prop extends Retagged s t where
  pairs : ∀ id, (numbered t id).content.pairs = (numbered s id).content.pairs ∨ Flat t id

theorem Retagged.refl (s : Array Node) : Retagged s s := ⟨rfl, fun _ => .inl rfl⟩

theorem Retagged.trans (first : Retagged s t) (second : Retagged t u) : Retagged s u where
  size := second.size.trans first.size
  tag key := by
    rcases first.tag key with same | ⟨value, text⟩ <;> rcases second.tag key with kept | ⟨again, last⟩
    · exact .inl (kept.trans same)
    · exact .inr ⟨same ▸ again, last⟩
    · exact .inr ⟨value, kept.trans text⟩
    · rw [text] at again
      cases again

theorem Retagged.clean {key : Nat} (retagged : Retagged s t) (clean : Clean s key) : Clean t key := by
  rcases retagged.tag key with same | ⟨value, _⟩
  · unfold Clean
    rwa [same]
  · exact absurd value clean.2

theorem Retagged.merge {key : Nat} (retagged : Retagged s t) :
    (numbered t key).tag = .merge ↔ (numbered s key).tag = .merge := by
  rcases retagged.tag key with same | ⟨value, text⟩
  · rw [same]
  · simp [value, text]

theorem Reworded.refl (s : Array Node) : Reworded s s := ⟨.refl s, fun _ => rfl⟩

theorem Reworded.trans (first : Reworded s t) (second : Reworded t u) : Reworded s u where
  toRetagged := first.toRetagged.trans second.toRetagged
  content id := (second.content id).trans (first.content id)

theorem Retagged.notValue {key : Nat} (retagged : Retagged s t) (other : (numbered s key).tag ≠ .value) :
    (numbered t key).tag ≠ .value := by
  rcases retagged.tag key with same | ⟨value, _⟩
  · rwa [same]
  · exact absurd value other

theorem reword {key : Nat} (value : (numbered s key).tag = .value) :
    Reworded s (s.setIfInBounds key { numbered s key with tag := .str }) where
  size := Array.size_setIfInBounds
  tag other := by
    rw [numberedSet]
    split
    · rename_i same
      exact .inr ⟨same.1 ▸ value, rfl⟩
    · exact .inl rfl
  content other := by
    rw [numberedSet]
    split
    · rename_i same
      simp only [same.1]
    · rfl

theorem rewordedText {key : Nat} (value : (numbered s key).tag = .value) :
    (numbered (s.setIfInBounds key { numbered s key with tag := .str }) key).tag ≠ .value := by
  have bound : key < s.size := numberedBound fun same => by
    rw [same] at value
    cases value
  rw [numberedSet, if_pos ⟨rfl, bound⟩]
  nofun

theorem Flattened.refl (s : Array Node) : Flattened s s := ⟨.refl s, fun _ => .inl rfl⟩

theorem Reworded.flattened (reworded : Reworded s t) : Flattened s t :=
  ⟨reworded.toRetagged, fun id => .inl (by rw [reworded.content])⟩

theorem Flattened.flat {id : Nat} (flattened : Flattened s t) (flat : Flat s id) : Flat t id := by
  rcases flattened.pairs id with same | flat
  · intro pair mem
    rw [same] at mem
    exact flattened.clean (flat pair mem)
  · exact flat

theorem Flattened.cleanAppend {old new : List (Nat × Nat)} (flattened : Flattened s t)
    (before : ∀ pair ∈ old, Clean s pair.1) (after : ∀ pair ∈ new, Clean t pair.1) :
    ∀ pair ∈ old ++ new, Clean t pair.1 := by
  intro pair mem
  rcases List.mem_append.mp mem with first | last
  · exact flattened.clean (before pair first)
  · exact after pair last

theorem Flattened.trans (first : Flattened s t) (second : Flattened t u) : Flattened s u where
  toRetagged := first.toRetagged.trans second.toRetagged
  pairs id := by
    rcases first.pairs id with same | flat
    · rw [← same]
      exact second.pairs id
    · exact .inr (second.flat flat)

def isMerge (nodes : Array Node) (pair : Nat × Nat) : Bool := (numbered nodes pair.1).tag = .merge

def mergesAt (nodes : Array Node) (id : Nat) : Nat := (numbered nodes id).content.pairs.countP (isMerge nodes)

def merges (nodes : Array Node) : Nat := ∑ id ∈ Finset.range nodes.size, mergesAt nodes id

theorem Retagged.isMerge (retagged : Retagged s t) : isMerge t = isMerge s := by
  funext pair
  simp only [Merging.isMerge, retagged.merge]

theorem Flat.mergesAt {id : Nat} (flat : Flat s id) : mergesAt s id = 0 := by
  rw [Merging.mergesAt, List.countP_eq_zero]
  intro pair mem
  simpa [Merging.isMerge] using (flat pair mem).1

theorem Flattened.mergesAt (flattened : Flattened s t) (id : Nat) : mergesAt t id ≤ mergesAt s id := by
  rcases flattened.pairs id with same | flat
  · rw [Merging.mergesAt, Merging.mergesAt, same, flattened.isMerge]
  · simp [flat.mergesAt]

theorem Flattened.merges (flattened : Flattened s t) : merges t ≤ merges s := by
  rw [Merging.merges, Merging.merges, flattened.size]
  exact Finset.sum_le_sum fun id _ => flattened.mergesAt id

/-! A mapping that is being flattened. -/

section

variable {id limit : Nat} {rest merged left brought : List (Nat × Nat)} {pair : Nat × Nat}

structure FlattenedBut (id : Nat) (s t : Array Node) : Prop extends Retagged s t where
  others : ∀ other, other ≠ id →
    (numbered t other).content.pairs = (numbered s other).content.pairs ∨ Flat t other

theorem FlattenedBut.trans (first : FlattenedBut id s t) (second : Flattened t u) : FlattenedBut id s u where
  toRetagged := first.toRetagged.trans second.toRetagged
  others other apart := by
    rcases first.others other apart with same | flat
    · rw [← same]
      exact second.pairs other
    · exact .inr (second.flat flat)

theorem retaggedSet (t : Array Node) (id : Nat) (content : Content) :
    Retagged t (t.setIfInBounds id { numbered t id with content }) where
  size := Array.size_setIfInBounds
  tag key := by
    rw [numberedSet]
    split
    · rename_i same
      exact .inl (by simp only [same.1])
    · exact .inl rfl

theorem setOther {other : Nat} (apart : other ≠ id) (node : Node) :
    numbered (t.setIfInBounds id node) other = numbered t other := by
  rw [numberedSet, if_neg fun same => apart same.1.symm]

theorem memSet {pairs : List (Nat × Nat)}
    (mem : pair ∈ (numbered (t.setIfInBounds id { numbered t id with content := .mapping pairs }) id).content.pairs) :
    pair ∈ pairs := by
  rw [numberedSet] at mem
  split at mem
  · exact mem
  · rename_i outside
    have none : numbered t id = default := by
      by_contra other
      exact outside ⟨rfl, numberedBound other⟩
    rw [none] at mem
    cases mem

theorem FlattenedBut.set (first : FlattenedBut id s t) (content : Content) :
    FlattenedBut id s (t.setIfInBounds id { numbered t id with content }) where
  toRetagged := first.toRetagged.trans (retaggedSet t id content)
  others other apart := by
    have kept := setOther (t := t) apart { numbered t id with content }
    rcases first.others other apart with same | flat
    · exact .inl (by rw [kept, same])
    · refine .inr fun pair mem => ?_
      rw [kept] at mem
      exact (retaggedSet t id content).clean (flat pair mem)

/-- `merged` is what the merge keys have brought in, `left` the pairs that stay. -/
structure Gathered (s : Array Node) (id : Nat) (merged left : List (Nat × Nat)) (t : Array Node) : Prop
    extends FlattenedBut id s t where
  merged : ∀ pair ∈ merged, Clean t pair.1
  left : ∀ pair ∈ left, Clean t pair.1

theorem Gathered.flattened (gathered : Gathered s id merged left t) {u : Array Node}
    (set : u = t.setIfInBounds id { numbered t id with content := .mapping (merged ++ left) }) :
    Flattened s u ∧ Flat u id := by
  subst set
  have flat : Flat (t.setIfInBounds id { numbered t id with content := .mapping (merged ++ left) }) id := by
    intro pair mem
    refine (retaggedSet t id _).clean ?_
    rcases List.mem_append.mp (memSet mem) with brought | own
    · exact gathered.merged pair brought
    · exact gathered.left pair own
  refine ⟨⟨(gathered.toFlattenedBut.set _).toRetagged, fun other => ?_⟩, flat⟩
  by_cases same : other = id
  · exact .inr (same ▸ flat)
  · exact (gathered.toFlattenedBut.set _).others other same

/-- The pairs in `rest` have not been looked at. -/
structure Opened (s : Array Node) (id limit : Nat) (rest merged left : List (Nat × Nat)) (t : Array Node) : Prop
    extends FlattenedBut id s t where
  own : (numbered t id).content.pairs = left
  few : merges t < limit
  merged : ∀ pair ∈ merged, Clean t pair.1
  left : ∃ kept, left = kept ++ rest ∧ ∀ pair ∈ kept, Clean t pair.1
  rest : ∀ pair ∈ rest, (numbered t pair.1).tag ≠ .value

theorem Reworded.opened (reworded : Reworded s t) (few : merges s < limit)
    (keys : ∀ pair ∈ (numbered s id).content.pairs, (numbered t pair.1).tag ≠ .value) :
    Opened s id limit (numbered s id).content.pairs [] (numbered s id).content.pairs t where
  toRetagged := reworded.toRetagged
  others other _ := .inl (by rw [reworded.content])
  own := by rw [reworded.content]
  few := Nat.lt_of_le_of_lt reworded.flattened.merges few
  merged := nofun
  left := ⟨[], rfl, nofun⟩
  rest := keys

theorem Opened.gathered (opened : Opened s id limit [] merged left t) : Gathered s id merged left t where
  toFlattenedBut := opened.toFlattenedBut
  merged := opened.merged
  left := by
    obtain ⟨kept, same, clean⟩ := opened.left
    rw [same, List.append_nil]
    exact clean

theorem Opened.pass (opened : Opened s id limit (pair :: rest) merged left t) (other : ¬ isMerge t pair) :
    Opened s id limit rest merged left t where
  toFlattenedBut := opened.toFlattenedBut
  own := opened.own
  few := opened.few
  merged := opened.merged
  left := by
    obtain ⟨kept, same, clean⟩ := opened.left
    refine ⟨kept ++ [pair], by simp [same], fun item mem => ?_⟩
    rcases List.mem_append.mp mem with old | new
    · exact clean item old
    · rw [List.mem_singleton.mp new]
      exact ⟨by simpa [isMerge] using other, opened.rest pair List.mem_cons_self⟩
  rest item mem := opened.rest item (List.mem_cons_of_mem _ mem)

theorem Opened.bring (opened : Opened s id limit rest merged left t) (flattened : Flattened t u)
    (clean : ∀ pair ∈ brought, Clean u pair.1) (same : (numbered u id).content.pairs = left) :
    Opened s id limit rest (merged ++ brought) left u where
  toFlattenedBut := opened.toFlattenedBut.trans flattened
  own := same
  few := Nat.lt_of_le_of_lt flattened.merges opened.few
  merged := flattened.cleanAppend opened.merged clean
  left := by
    obtain ⟨kept, same, clean⟩ := opened.left
    exact ⟨kept, same, fun item mem => flattened.clean (clean item mem)⟩
  rest item mem := flattened.notValue (opened.rest item mem)

/- If the pairs are not what they were, then the mapping has been flattened in the meantime. -/
theorem Opened.leave (opened : Opened s id limit rest merged left t) (flattened : Flattened t u)
    (clean : ∀ pair ∈ brought, Clean u pair.1) (other : (numbered u id).content.pairs ≠ left) :
    Gathered s id (merged ++ brought) (numbered u id).content.pairs u where
  toFlattenedBut := opened.toFlattenedBut.trans flattened
  merged := flattened.cleanAppend opened.merged clean
  left := by
    rcases flattened.pairs id with same | flat
    · rw [opened.own] at same
      exact absurd same other
    · exact flat

theorem Opened.cut (opened : Opened s id (limit + 1) (pair :: rest) merged left t) (merge : isMerge t pair)
    {u : Array Node}
    (set : u = t.setIfInBounds id { numbered t id with content := .mapping (left.eraseP (isMerge t)) }) :
    Opened s id limit rest merged (left.eraseP (isMerge t)) u := by
  obtain ⟨kept, same, clean⟩ := opened.left
  have without : left.eraseP (isMerge t) = kept ++ rest := by
    rw [same, List.eraseP_append_right _ fun item mem => by simpa [isMerge] using (clean item mem).1,
      List.eraseP_cons_of_pos merge]
  have bound : id < t.size := numberedBound fun none => by
    have empty : [] = kept ++ pair :: rest := by
      rw [← same, ← opened.own, none]
      rfl
    simp at empty
  rw [without] at set ⊢
  have retagged : Retagged t u := set ▸ retaggedSet t id _
  have own : (numbered u id).content.pairs = kept ++ rest := by
    rw [set, numberedSet, if_pos ⟨rfl, bound⟩]
    rfl
  have ownFewer : mergesAt u id < mergesAt t id := by
    rw [mergesAt, mergesAt, own, opened.own, same, retagged.isMerge]
    simp [merge]
  have fewer : merges u < merges t := by
    rw [merges, merges, retagged.size]
    refine Finset.sum_lt_sum (fun other _ => ?_) ⟨id, Finset.mem_range.mpr bound, ownFewer⟩
    by_cases apart : other = id
    · exact apart ▸ ownFewer.le
    · rw [mergesAt, mergesAt, retagged.isMerge, set, setOther apart]
  exact {
    toFlattenedBut := set ▸ opened.toFlattenedBut.set _
    own := own
    few := by
      have := opened.few
      omega
    merged := fun item mem => retagged.clean (opened.merged item mem)
    left := ⟨kept, rfl, fun item mem => retagged.clean (clean item mem)⟩
    rest := fun item mem => retagged.notValue (opened.rest item (List.mem_cons_of_mem _ mem)) }

end

end Merging

namespace Build

open Merging

variable {α : Type} {b : Building}

abbrev Leads (step : Build α) (b : Building) (after : α → Building → Prop) : Prop :=
  Ends (fun fault => fault ≠ .scalar .endless) step b after

section

variable {allowed : Fault → Prop} {id : Nat} {after : α → Building → Prop}

@[simp] theorem nodeOfThen {next : Node → Build α} :
    Ends allowed (nodeOf id >>= next) b after ↔ Ends allowed (next (numbered b.nodes id)) b after := Iff.rfl

@[simp] theorem pairsOfThen {next : List (Nat × Nat) → Build α} :
    Ends allowed (pairsOf id >>= next) b after ↔
      Ends allowed (next (numbered b.nodes id).content.pairs) b after := Iff.rfl

@[simp] theorem isMergeThen {pair : Nat × Nat} {next : Bool → Build α} :
    Ends allowed (Build.isMerge pair >>= next) b after ↔
      Ends allowed (next (Merging.isMerge b.nodes pair)) b after := Iff.rfl

end

theorem leadsFailAt (task : Task) (start : Place) (wrong : Wrong) (place : Place) {after : α → Building → Prop} :
    Leads (failAt task start wrong place) b after := nofun

theorem leadsRetagKeys (pairs : List (Nat × Nat)) :
    Leads (retagKeys pairs) b fun _ c => Reworded b.nodes c.nodes ∧
      ∀ pair ∈ pairs, (numbered c.nodes pair.1).tag ≠ .value := by
  refine Ends.andThen (Ends.loopOver (I := fun rest _ (c : Building) => Reworded b.nodes c.nodes ∧
      ∀ pair ∈ pairs, pair ∈ rest ∨ (numbered c.nodes pair.1).tag ≠ .value) ?_ ?_ fun _ _ => id) ?_
  · exact ⟨.refl _, fun _ mem => .inl mem⟩
  · rintro ⟨key, value⟩ rest _ c ⟨reworded, left⟩
    simp only [nodeOfThen]
    split
    · rename_i value
      have step := reword value
      refine ⟨reworded.trans step, fun pair mem => ?_⟩
      rcases left pair mem with first | done
      · rcases List.mem_cons.mp first with rfl | rest
        · exact .inr (rewordedText value)
        · exact .inl rest
      · exact .inr (step.notValue done)
    · rename_i other
      refine ⟨reworded, fun pair mem => ?_⟩
      rcases left pair mem with first | done
      · rcases List.mem_cons.mp first with rfl | rest
        · exact .inr other
        · exact .inl rest
      · exact .inr done
  · rintro _ c ⟨reworded, left⟩
    exact ⟨reworded, fun pair mem => (left pair mem).resolve_left List.not_mem_nil⟩

theorem leadsWithoutMerge (pairs : List (Nat × Nat)) :
    Leads (withoutMerge pairs) b fun left c => c = b ∧ left = pairs.eraseP (Merging.isMerge b.nodes) := by
  induction pairs with
  | nil => exact ⟨rfl, rfl⟩
  | cons pair rest ih =>
    simp only [withoutMerge, isMergeThen]
    split
    · rename_i merge
      exact ⟨rfl, by rw [List.eraseP_cons_of_pos merge]⟩
    · rename_i other
      refine ih.andThen ?_
      rintro left _ ⟨rfl, rfl⟩
      exact ⟨rfl, by rw [List.eraseP_cons_of_neg other]⟩

theorem leadsSetPairs (id : Nat) (pairs : List (Nat × Nat)) :
    Leads (setPairs id pairs) b fun _ c =>
      c.nodes = b.nodes.setIfInBounds id { numbered b.nodes id with content := .mapping pairs } := by
  simp only [setPairs, nodeOfThen, setNode, Ends.modifyIff]

/-- Flattening does its work in states with fewer than so many merge keys. -/
def Flattens (flatten : Nat → Build Unit) (limit : Nat) : Prop :=
  ∀ id (b : Building), merges b.nodes < limit →
    Leads (flatten id) b fun _ c => Flattened b.nodes c.nodes ∧ Flat c.nodes id

theorem leadsMergedPairs {flatten : Nat → Build Unit} {limit : Nat} (flattens : Flattens flatten limit)
    (place : Place) (id : Nat) (few : merges b.nodes < limit) :
    Leads (mergedPairs flatten place id) b fun pairs c =>
      Flattened b.nodes c.nodes ∧ ∀ pair ∈ pairs, Clean c.nodes pair.1 := by
  simp only [mergedPairs, nodeOfThen]
  split
  · exact (flattens id b few).andThen fun _ c done => done
  · suffices gathered : Leads _ b fun (parts : List (List (Nat × Nat))) c => Flattened b.nodes c.nodes ∧
        ∀ pairs ∈ parts, ∀ pair ∈ pairs, Clean c.nodes pair.1 by
      refine gathered.andThen fun parts c ⟨flattened, clean⟩ => ⟨flattened, fun pair mem => ?_⟩
      obtain ⟨pairs, part, mem⟩ := List.mem_flatten.mp mem
      exact clean pairs part pair mem
    refine Ends.loopOver (I := fun _ (parts : List (List (Nat × Nat))) (c : Building) => Flattened b.nodes c.nodes ∧
        ∀ pairs ∈ parts, ∀ pair ∈ pairs, Clean c.nodes pair.1) ?_ ?_ fun _ _ held => held
    · exact ⟨.refl _, nofun⟩
    · intro item rest parts c ⟨flattened, clean⟩
      simp only [nodeOfThen]
      split
      · refine (flattens item c (Nat.lt_of_le_of_lt flattened.merges few)).andThen fun _ d ⟨more, flat⟩ => ?_
        refine ⟨flattened.trans more, fun pairs mem => ?_⟩
        rcases List.mem_cons.mp mem with rfl | mem
        · exact flat
        · exact fun pair last => more.clean (clean pairs mem pair last)
      · exact leadsFailAt _ _ _ _
  · exact leadsFailAt _ _ _ _

theorem leadsFlatten (fuel : Nat) : Flattens (flatten fuel) fuel := by
  induction fuel with
  | zero => exact fun _ _ none => absurd none (Nat.not_lt_zero _)
  | succ fuel ih =>
    intro id b few
    simp only [flatten, nodeOfThen, pairsOfThen]
    refine (leadsRetagKeys _).andThen fun _ c ⟨reworded, keys⟩ => ?_
    suffices gathered : Leads _ c fun (state : List (Nat × Nat) × List (Nat × Nat)) d =>
        Gathered b.nodes id state.1 state.2 d.nodes from
      gathered.andThen fun _ _ gathered => (leadsSetPairs id _).weaken fun _ _ set => gathered.flattened set
    refine Ends.loopOver (I := fun rest (state : List (Nat × Nat) × List (Nat × Nat)) (d : Building) =>
      Opened b.nodes id (fuel + 1) rest state.1 state.2 d.nodes) ?_ ?_ fun _ _ opened => opened.gathered
    · exact reworded.opened few keys
    · rintro pair rest ⟨merged, left⟩ d opened
      simp only [isMergeThen]
      split
      · rename_i merge
        refine (leadsWithoutMerge left).andThen ?_
        rintro _ _ ⟨rfl, rfl⟩
        refine (leadsSetPairs id _).andThen fun _ e set => ?_
        have cut := opened.cut merge set
        refine (leadsMergedPairs ih _ pair.2 cut.few).andThen fun brought f ⟨flattened, clean⟩ => ?_
        simp only [pairsOfThen]
        split
        · rename_i other
          exact cut.leave flattened clean other
        · rename_i same
          have opened := cut.bring flattened clean (Decidable.not_not.mp same)
          exact { opened with few := Nat.lt_succ_of_lt opened.few }
      · rename_i other
        exact opened.pass other

theorem foldPairs (nodes : List Node) (start : Nat) :
    nodes.foldl (fun pairs node => pairs + node.content.pairs.length) start =
      start + ∑ id ∈ Finset.range nodes.length, (nodes.getD id default).content.pairs.length := by
  induction nodes generalizing start with
  | nil => rfl
  | cons node rest ih =>
    rw [List.foldl_cons, ih, List.length_cons, Finset.sum_range_succ']
    simp only [List.getD_cons_succ, List.getD_cons_zero]
    omega

theorem leadsFlattenAll (id : Nat) :
    Leads (flattenAll id) b fun _ c => Flattened b.nodes c.nodes ∧ Flat c.nodes id := by
  refine leadsFlatten _ id b ?_
  have fewer : merges b.nodes ≤ ∑ id ∈ Finset.range b.nodes.size, (numbered b.nodes id).content.pairs.length :=
    Finset.sum_le_sum fun _ _ => List.countP_le_length
  have same (id : Nat) : b.nodes.toList.getD id default = numbered b.nodes id := by
    simp [numbered, Array.getD_eq_getD_getElem?]
  rw [← Array.foldl_toList, foldPairs, Array.length_toList]
  simp only [same]
  omega

end Build

end FlowAtlas.Yaml
