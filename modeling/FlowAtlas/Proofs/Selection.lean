import FlowAtlas.Selection
import Mathlib.Data.List.Nodup
import Mathlib.Data.Finset.Card
/-! Leaving out repeats. `Thinned` relates a list to what is left when some of its repeats are dropped;
selections do not tell the two apart, and the first items of all marks are such a rest themselves. -/
namespace FlowAtlas.Selection

variable {α β γ : Type}

/-- What stands earlier in the long list, or in `met`, may be missing from the short one. -/
inductive Thinned : List α → List α → List α → Prop
  | nil (met) : Thinned met [] []
  | keep {met x long short} (next : Thinned (x :: met) long short) : Thinned met (x :: long) (x :: short)
  | drop {met x long short} (old : x ∈ met) (next : Thinned met long short) : Thinned met (x :: long) short

namespace Thinned

variable {met wide long short : List α}

theorem widen (thin : Thinned met long short) (more : met ⊆ wide) : Thinned wide long short := by
  induction thin generalizing wide with
  | nil met => exact .nil wide
  | keep next ih => exact .keep (ih (List.cons_subset_cons _ more))
  | drop old next ih => exact .drop (more old) (ih more)

theorem refl (met items : List α) : Thinned met items items := by
  induction items generalizing met with
  | nil => exact .nil met
  | cons x rest ih => exact .keep (ih (x :: met))

theorem append {first second : List α} (head : Thinned met long short) (tail : Thinned met first second) :
    Thinned met (long ++ first) (short ++ second) := by
  induction head with
  | nil met => exact tail
  | keep next ih => exact .keep (ih (tail.widen (List.subset_cons_self _ _)))
  | drop old next ih => exact .drop old (ih tail)

theorem map (f : α → β) (thin : Thinned met long short) :
    Thinned (met.map f) (long.map f) (short.map f) := by
  induction thin with
  | nil met => exact .nil _
  | keep next ih => exact .keep ih
  | drop old next ih => exact .drop (List.mem_map_of_mem old) ih

theorem filter (p : α → Bool) (thin : Thinned met long short) :
    Thinned (met.filter p) (long.filter p) (short.filter p) := by
  induction thin with
  | nil met => exact .nil _
  | @keep met x long short next ih =>
    by_cases holds : p x = true
    · simpa [holds] using Thinned.keep (x := x) (by simpa [holds] using ih)
    · simpa [holds] using ih
  | @drop met x long short old next ih =>
    by_cases holds : p x = true
    · simpa [holds] using ih.drop (List.mem_filter.mpr ⟨old, holds⟩)
    · simpa [holds] using ih

theorem flatMap {items : List α} {f g : α → List β} (each : ∀ x ∈ items, Thinned [] (f x) (g x)) :
    Thinned [] (items.flatMap f) (items.flatMap g) := by
  induction items with
  | nil => exact .nil []
  | cons x rest ih =>
    obtain ⟨here, later⟩ := List.forall_mem_cons.mp each
    exact here.append (ih later)

theorem mem {x : α} (thin : Thinned met long short) : x ∈ met ∨ x ∈ long ↔ x ∈ met ∨ x ∈ short := by
  induction thin with
  | nil met => rfl
  | @keep met y long short next ih =>
    simp only [List.mem_cons] at ih ⊢
    rw [or_left_comm, ← or_assoc, ih, or_assoc, or_left_comm]
  | @drop met y long short old next ih =>
    rw [List.mem_cons, or_left_comm, ih]
    exact ⟨fun h => h.elim (fun same => Or.inl (same ▸ old)) id, Or.inr⟩

theorem memIff {x : α} (thin : Thinned [] long short) : x ∈ long ↔ x ∈ short := by
  simpa using thin.mem (x := x)

theorem find? {p : α → Bool} (thin : Thinned met long short) (none : ∀ x ∈ met, p x = false) :
    long.find? p = short.find? p := by
  induction thin with
  | nil met => rfl
  | @keep met x long short next ih =>
    by_cases holds : p x = true
    · simp [holds]
    · rw [Bool.not_eq_true] at holds
      simpa [holds] using ih (List.forall_mem_cons.mpr ⟨holds, none⟩)
  | drop old next ih => simpa [none _ old] using ih none

end Thinned

section

variable [DecidableEq β]

theorem addNewAgain {mark : α → β} {found : List α} {x : α} (old : ∃ y ∈ found, mark y = mark x) :
    addNew mark found x = found := by
  simpa [addNew] using old

theorem addNewCons {mark : α → β} {x y : α} (other : mark y ≠ mark x) (found : List α) :
    addNew mark (y :: found) x = y :: addNew mark found x := by
  simp only [addNew, List.any_cons, other, decide_false, Bool.false_or]
  split <;> rfl

theorem addNewMarks {mark : α → β} {found : List α} {x : α} :
    ∃ y ∈ addNew mark found x, mark y = mark x := by
  unfold addNew
  split
  · rename_i old
    simpa using old
  · exact ⟨x, by simp, rfl⟩

theorem addNewMem (found : List β) (x : β) : x ∈ addNew id found x := by
  obtain ⟨y, mem, rfl⟩ := @addNewMarks β β _ id found x
  exact mem

theorem addNewKeeps (mark : α → β) (found : List α) (x : α) : found ⊆ addNew mark found x := by
  unfold addNew
  split
  · exact List.Subset.refl found
  · exact List.subset_append_left found [x]

theorem addNewNodup {mark : α → β} {found : List α} (x : α) (distinct : (found.map mark).Nodup) :
    ((addNew mark found x).map mark).Nodup := by
  unfold addNew
  split
  · exact distinct
  · rename_i new
    rw [List.map_append, List.map_singleton, ← List.concat_eq_append]
    exact distinct.concat (by simpa using new)

theorem addAllNodup {mark : α → β} {found : List α} (items : List α) (distinct : (found.map mark).Nodup) :
    ((items.foldl (addNew mark) found).map mark).Nodup := by
  induction items generalizing found with
  | nil => exact distinct
  | cons x rest ih => exact ih (addNewNodup x distinct)

theorem firstsNodup (items : List β) : (firsts id items).Nodup := by
  simpa [firsts] using @addAllNodup β β _ id [] items List.nodup_nil

theorem addThinned {mark : α → β} {met long short found : List α} (thin : Thinned met long short)
    (marked : ∀ x ∈ met, ∃ y ∈ found, mark y = mark x) :
    long.foldl (addNew mark) found = short.foldl (addNew mark) found := by
  induction thin generalizing found with
  | nil met => rfl
  | @keep met x long short next ih =>
    apply ih
    intro y mem
    rcases List.mem_cons.mp mem with rfl | old
    · exact addNewMarks
    · obtain ⟨z, there, same⟩ := marked y old
      exact ⟨z, addNewKeeps mark found x there, same⟩
  | @drop met x long short old next ih =>
    rw [List.foldl_cons, addNewAgain (marked x old), ih marked]

theorem firstsThinned {mark : α → β} {long short : List α} (thin : Thinned [] long short) :
    firsts mark long = firsts mark short :=
  addThinned thin (by simp)

theorem addNewDistinct (mark : α → β) {items found : List α} (distinct : ((found ++ items).map mark).Nodup) :
    items.foldl (addNew mark) found = found ++ items := by
  induction items generalizing found with
  | nil => simp
  | cons x rest ih =>
    have new : found.any (fun y => mark y = mark x) = false := by
      rw [List.map_append, List.nodup_append] at distinct
      rw [List.any_eq_false]
      intro y mem same
      exact distinct.2.2 _ (List.mem_map_of_mem mem) _ (by simp) (of_decide_eq_true same)
    rw [List.foldl_cons, addNew, new, ih (by simpa using distinct)]
    simp

theorem firstsDistinct {items : List β} (distinct : items.Nodup) : firsts id items = items :=
  addNewDistinct id (by simpa using distinct)

theorem eraseNew {met : List β} {x : β} (new : x ∉ met) (rest : List β) :
    ((x :: rest).filter (· ∉ met)).eraseDups = x :: (rest.filter (· ∉ x :: met)).eraseDups := by
  rw [List.filter_cons_of_pos (by simpa using new), List.eraseDups_cons, List.filter_filter]
  congr 3
  funext y
  simp [Bool.beq_eq_decide_eq]

theorem addNewErases (found items : List β) :
    items.foldl (addNew id) found = found ++ (items.filter (· ∉ found)).eraseDups := by
  induction items generalizing found with
  | nil => simp
  | cons x rest ih =>
    by_cases old : x ∈ found
    · rw [List.foldl_cons, addNewAgain ⟨x, old, rfl⟩, ih]
      simp [old]
    · have added : addNew id found x = found ++ [x] := by simpa [addNew] using old
      have left : (rest.filter (· ∉ found ++ [x])) = rest.filter (· ∉ x :: found) := by
        simp [and_comm]
      rw [List.foldl_cons, added, ih, left, eraseNew old]
      simp

theorem addAllPrefix (found items : List β) : found <+: items.foldl (addNew id) found := by
  rw [addNewErases]
  exact List.prefix_append _ _

theorem memAddAll {found items : List β} {x : β} :
    x ∈ items.foldl (addNew id) found ↔ x ∈ found ∨ x ∈ items := by
  rw [addNewErases, List.mem_append, List.mem_eraseDups, List.mem_filter]
  by_cases old : x ∈ found <;> simp [old]

theorem firstsErases (items : List β) : firsts id items = items.eraseDups := by
  rw [firsts, addNewErases]
  simp

theorem firstsMem {items : List β} {x : β} : x ∈ firsts id items ↔ x ∈ items := by
  rw [firsts, memAddAll]
  simp

theorem eraseThinned (met items : List β) : Thinned met items (items.filter (· ∉ met)).eraseDups := by
  induction items generalizing met with
  | nil => exact .nil met
  | cons x rest ih =>
    by_cases old : x ∈ met
    · simpa [old] using (ih met).drop old
    · rw [eraseNew old]
      exact .keep (ih (x :: met))

theorem thinnedErase (items : List β) : Thinned [] items items.eraseDups := by
  simpa using eraseThinned [] items

theorem addNewMarked (mark : α → β) (found : List α) (x : α) :
    (addNew mark found x).map mark = addNew id (found.map mark) (mark x) := by
  have known : (found.any fun y => mark y = mark x) = (found.map mark).any fun y => id y = id (mark x) := by
    rw [List.any_map]
    rfl
  unfold addNew
  rw [known]
  split
  · rfl
  · rw [List.map_append, List.map_singleton]

theorem addNewInjective [DecidableEq α] {mark : α → β} (injective : Function.Injective mark) :
    addNew mark = addNew id := by
  funext found x
  simp [addNew, injective.eq_iff]

theorem addAllMarks (mark : α → β) (found items : List α) :
    (items.foldl (addNew mark) found).map mark = (items.map mark).foldl (addNew id) (found.map mark) := by
  induction items generalizing found with
  | nil => rfl
  | cons x rest ih => rw [List.foldl_cons, ih, addNewMarked, List.map_cons, List.foldl_cons]

theorem firstsMarks (mark : α → β) (items : List α) : (firsts mark items).map mark = (items.map mark).eraseDups := by
  rw [← firstsErases]
  exact addAllMarks mark [] items

theorem addAllMarked (mark : α → β) (found : List α) {items : List α} {x : α} (mem : x ∈ items) :
    ∃ y ∈ items.foldl (addNew mark) found, mark y = mark x := by
  have marked : mark x ∈ (items.foldl (addNew mark) found).map mark := by
    rw [addAllMarks, memAddAll]
    exact Or.inr (List.mem_map_of_mem mem)
  exact List.mem_map.mp marked

theorem addAllOld {mark : α → β} {items found : List α} (old : ∀ x ∈ items, ∃ y ∈ found, mark y = mark x) :
    items.foldl (addNew mark) found = found := by
  induction items with
  | nil => rfl
  | cons x rest ih =>
    obtain ⟨here, later⟩ := List.forall_mem_cons.mp old
    rw [List.foldl_cons, addNewAgain here, ih later]

theorem addAllTwice (mark : α → β) (found items : List α) :
    items.foldl (addNew mark) (items.foldl (addNew mark) found) = items.foldl (addNew mark) found :=
  addAllOld fun _ mem => addAllMarked mark found mem

theorem addAdded (mark : α → β) (found start items : List α) :
    (items.foldl (addNew mark) start).foldl (addNew mark) found =
      items.foldl (addNew mark) (start.foldl (addNew mark) found) := by
  induction items generalizing start with
  | nil => rfl
  | cons x rest ih =>
    have first : (addNew mark start x).foldl (addNew mark) found =
        addNew mark (start.foldl (addNew mark) found) x := by
      by_cases old : ∃ y ∈ start, mark y = mark x
      · obtain ⟨y, mem, same⟩ := old
        obtain ⟨z, there, marked⟩ := addAllMarked mark found mem
        rw [addNewAgain ⟨y, mem, same⟩, addNewAgain ⟨z, there, marked.trans same⟩]
      · have added : addNew mark start x = start ++ [x] := by simpa [addNew] using old
        rw [added, List.foldl_append]
        rfl
    rw [List.foldl_cons, ih, first, List.foldl_cons]

def unrepeated (mark : α → β) (items : List α) : List α :=
  (items.zipIdx.filter fun (x, i) => mark x ∉ (items.take i).map mark).map (·.1)

theorem unrepeatedSnoc (mark : α → β) (items : List α) (x : α) : unrepeated mark (items ++ [x]) =
    unrepeated mark items ++ if mark x ∈ items.map mark then [] else [x] := by
  have before : (items.zipIdx.filter fun (y, i) => mark y ∉ ((items ++ [x]).take i).map mark) =
      items.zipIdx.filter fun (y, i) => mark y ∉ (items.take i).map mark := by
    apply List.filter_congr
    rintro ⟨y, i⟩ mem
    have inside : i ≤ items.length := by
      have bounds := List.mem_zipIdx mem
      omega
    simp only [List.take_append_of_le_length inside]
  rw [unrepeated, List.zipIdx_append, List.filter_append, before, List.map_append, unrepeated]
  congr 1
  by_cases old : mark x ∈ items.map mark <;> simp [old]

theorem firstsUnrepeated (mark : α → β) (items : List α) : firsts mark items = unrepeated mark items := by
  induction items using List.reverseRecOn with
  | nil => rfl
  | append_singleton items x ih =>
    have marks : mark x ∈ (firsts mark items).map mark ↔ mark x ∈ items.map mark := by
      rw [firstsMarks, List.mem_eraseDups]
    have added : firsts mark (items ++ [x]) = addNew mark (firsts mark items) x := by
      rw [firsts, List.foldl_append]
      rfl
    rw [added, unrepeatedSnoc, ← ih]
    by_cases old : mark x ∈ items.map mark
    · rw [if_pos old, addNewAgain (List.mem_map.mp (marks.mpr old)), List.append_nil]
    · have new := mt marks.mp old
      rw [if_neg old]
      simpa [addNew] using new

theorem addedFirst {mark : α → β} {items found : List α} {x : α} (mem : x ∈ items.foldl (addNew mark) found) :
    x ∈ found ∨ ((∀ y ∈ found, mark y ≠ mark x) ∧ items.find? (fun y => mark y = mark x) = some x) := by
  induction items generalizing found with
  | nil => exact Or.inl mem
  | cons z rest ih =>
    rcases ih mem with there | ⟨new, first⟩
    · by_cases old : ∃ y ∈ found, mark y = mark z
      · rw [addNewAgain old] at there
        exact Or.inl there
      · have added : addNew mark found z = found ++ [z] := by simpa [addNew] using old
        rw [added, List.mem_append, List.mem_singleton] at there
        rcases there with there | rfl
        · exact Or.inl there
        · exact Or.inr ⟨fun y before same => old ⟨y, before, same⟩, by simp⟩
    · have other : mark z ≠ mark x := by
        obtain ⟨y, there, same⟩ := @addNewMarks _ _ _ mark found z
        exact same ▸ new y there
      exact Or.inr ⟨fun y before => new y (addNewKeeps mark found z before), by simp [other, first]⟩

theorem firstsFirst {mark : α → β} {items : List α} {x : α} (mem : x ∈ firsts mark items) :
    items.find? (fun y => mark y = mark x) = some x := by
  rcases addedFirst mem with there | ⟨_, first⟩
  · cases there
  · exact first

theorem firstsFind (p : β → Bool) (items : List β) : (firsts id items).find? p = items.find? p := by
  rw [firstsErases, (thinnedErase items).find? (by simp)]

end

end FlowAtlas.Selection
