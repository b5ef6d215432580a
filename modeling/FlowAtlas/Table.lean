/-! Tables: pairs of a key and a value in the order in which the keys came. Look-up finds the first
pair of a key. -/
namespace FlowAtlas.Table

variable {κ β : Type} [DecidableEq κ]

def get? (key : κ) : List (κ × β) → Option β
  | [] => none
  | (k, v) :: rest => if k = key then some v else get? key rest

def set (key : κ) (value : β) : List (κ × β) → List (κ × β)
  | [] => [(key, value)]
  | (k, v) :: rest => if k = key then (k, value) :: rest else (k, v) :: set key value rest

def insertNew (key : κ) (value : β) : List (κ × β) → List (κ × β)
  | [] => [(key, value)]
  | (k, v) :: rest => if k = key then (k, v) :: rest else (k, v) :: insertNew key value rest

def group (key : κ) (table : List (κ × List β)) : List β := (get? key table).getD []

def push (key : κ) (value : β) : List (κ × List β) → List (κ × List β)
  | [] => [(key, [value])]
  | (k, vs) :: rest => if k = key then (k, vs ++ [value]) :: rest else (k, vs) :: push key value rest

theorem setFresh {key : κ} {table : List (κ × β)} (new : get? key table = none) (value : β) :
    set key value table = table ++ [(key, value)] := by
  induction table with
  | nil => rfl
  | cons entry rest ih =>
    obtain ⟨k, v⟩ := entry
    by_cases h : k = key
    · simp [get?, h] at new
    · simp only [get?, h, if_false] at new
      simp [set, h, ih new]

theorem missingIff {key : κ} {table : List (κ × β)} : get? key table = none ↔ key ∉ table.map (·.1) := by
  induction table with
  | nil => simp [get?]
  | cons entry rest ih =>
    obtain ⟨k, v⟩ := entry
    by_cases h : k = key <;> simp [get?, h, ih, Ne.symm]

theorem getSetSame (key : κ) (value : β) (table : List (κ × β)) :
    get? key (set key value table) = some value := by
  induction table with
  | nil => simp [set, get?]
  | cons entry rest ih =>
    obtain ⟨k, v⟩ := entry
    by_cases h : k = key <;> simp [set, get?, h, ih]

theorem getSetOther {key other : κ} (h : other ≠ key) (value : β) (table : List (κ × β)) :
    get? other (set key value table) = get? other table := by
  induction table with
  | nil => simp [set, get?, Ne.symm h]
  | cons entry rest ih =>
    obtain ⟨k, v⟩ := entry
    by_cases hk : k = key
    · subst hk
      simp [set, get?, Ne.symm h]
    · simp only [set, hk, if_false, get?, ih]

theorem getInsertNewSame (key : κ) (value : β) (table : List (κ × β)) :
    get? key (insertNew key value table) = some ((get? key table).getD value) := by
  induction table with
  | nil => simp [insertNew, get?]
  | cons entry rest ih =>
    obtain ⟨k, v⟩ := entry
    by_cases h : k = key <;> simp [insertNew, get?, h, ih]

theorem getInsertNewOther {key other : κ} (h : other ≠ key) (value : β) (table : List (κ × β)) :
    get? other (insertNew key value table) = get? other table := by
  induction table with
  | nil => simp [insertNew, get?, Ne.symm h]
  | cons entry rest ih =>
    obtain ⟨k, v⟩ := entry
    by_cases hk : k = key
    · subst hk
      simp [insertNew, get?, Ne.symm h]
    · simp only [insertNew, hk, if_false, get?, ih]

theorem groupPushSame (key : κ) (value : β) (table : List (κ × List β)) :
    group key (push key value table) = group key table ++ [value] := by
  unfold group
  induction table with
  | nil => simp [push, get?]
  | cons entry rest ih =>
    obtain ⟨k, v⟩ := entry
    by_cases h : k = key <;> simp [push, get?, h, ih]

theorem groupPushOther {key other : κ} (h : other ≠ key) (value : β) (table : List (κ × List β)) :
    group other (push key value table) = group other table := by
  unfold group
  induction table with
  | nil => simp [push, get?, Ne.symm h]
  | cons entry rest ih =>
    obtain ⟨k, v⟩ := entry
    by_cases hk : k = key
    · subst hk
      simp [push, get?, Ne.symm h]
    · simp only [push, hk, if_false, get?]
      by_cases ho : k = other <;> simp [ho, ih]

end FlowAtlas.Table
