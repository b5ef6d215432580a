/-! How a step with a state ends: with a value and a state of which something is known, or with a fault
that is allowed. Each way of putting steps together has its rule. -/
namespace FlowAtlas.Yaml

variable {σ ε α β : Type} {allowed : ε → Prop}

def Ends (allowed : ε → Prop) (step : StateT σ (Except ε) α) (s : σ) (after : α → σ → Prop) : Prop :=
  match step s with
  | .ok (a, t) => after a t
  | .error fault => allowed fault

namespace Ends

section

variable {step : StateT σ (Except ε) α} {next : α → StateT σ (Except ε) β} {s t : σ} {a : α}
  {mid : α → σ → Prop} {after : β → σ → Prop}

theorem andThen (first : Ends allowed step s mid) (second : ∀ a t, mid a t → Ends allowed (next a) t after) :
    Ends allowed (step >>= next) s after := by
  have run : (step >>= next) s = step s >>= fun p => next p.1 p.2 := rfl
  unfold Ends at first ⊢
  rw [run]
  cases taken : step s with
  | error fault =>
    rw [taken] at first
    exact first
  | ok p =>
    rw [taken] at first
    exact second p.1 p.2 first

theorem weaken {weak : α → σ → Prop} (ends : Ends allowed step s mid) (weaker : ∀ a t, mid a t → weak a t) :
    Ends allowed step s weak := by
  unfold Ends at ends ⊢
  split <;> rename_i taken <;> rw [taken] at ends
  · exact weaker _ _ ends
  · exact ends

theorem allow {wide : ε → Prop} (ends : Ends allowed step s mid) (wider : ∀ fault, allowed fault → wide fault) :
    Ends wide step s mid := by
  unfold Ends at ends ⊢
  split <;> rename_i taken <;> rw [taken] at ends
  · exact ends
  · exact wider _ ends

theorem and {also : α → σ → Prop} (first : Ends allowed step s mid) (second : Ends allowed step s also) :
    Ends allowed step s fun a t => mid a t ∧ also a t := by
  unfold Ends at first second ⊢
  split <;> rename_i taken <;> rw [taken] at first second
  · exact ⟨first, second⟩
  · exact first

@[simp] theorem pureIff : Ends allowed (pure a) s mid ↔ mid a s := Iff.rfl

@[simp] theorem getThen {next : σ → StateT σ (Except ε) β} :
    Ends allowed (get >>= next) s after ↔ Ends allowed (next s) s after := Iff.rfl

@[simp] theorem setThen {next : PUnit → StateT σ (Except ε) β} :
    Ends allowed (set t >>= next) s after ↔ Ends allowed (next ()) t after := Iff.rfl

@[simp] theorem setIff {mid : PUnit → σ → Prop} :
    Ends allowed (set t : StateT σ (Except ε) PUnit) s mid ↔ mid () t := Iff.rfl

@[simp] theorem modifyThen {change : σ → σ} {next : PUnit → StateT σ (Except ε) β} :
    Ends allowed (modify change >>= next) s after ↔ Ends allowed (next ()) (change s) after := Iff.rfl

@[simp] theorem modifyIff {change : σ → σ} {mid : PUnit → σ → Prop} :
    Ends allowed (modify change : StateT σ (Except ε) PUnit) s mid ↔ mid () (change s) := Iff.rfl

@[simp] theorem throwIff {fault : ε} :
    Ends allowed (throw fault : StateT σ (Except ε) α) s mid ↔ allowed fault := Iff.rfl

@[simp] theorem throwThen {fault : ε} :
    Ends allowed ((throw fault : StateT σ (Except ε) α) >>= next) s after ↔ allowed fault := Iff.rfl

end

section

variable {γ : Type} {s : σ} {after : β → σ → Prop}

/- The invariant is about the items still to come, or about how many rounds are left. -/
theorem loopOver {I : List γ → β → σ → Prop} {items : List γ} {init : β}
    {body : γ → β → StateT σ (Except ε) (ForInStep β)} (start : I items init s)
    (keeps : ∀ item rest b t, I (item :: rest) b t →
      Ends allowed (body item b) t fun step u => match step with
        | .done b => after b u
        | .yield b => I rest b u)
    (finish : ∀ b t, I [] b t → after b t) :
    Ends allowed (forIn items init body) s after := by
  induction items generalizing init s with
  | nil => exact finish init s start
  | cons item rest ih =>
    rw [List.forIn_cons]
    refine (keeps item rest init s start).andThen ?_
    intro step t held
    cases step with
    | done b => exact held
    | yield b => exact ih held

theorem loop {I : Nat → β → σ → Prop} {rounds : Nat} {init : β}
    {body : Nat → β → StateT σ (Except ε) (ForInStep β)} (start : I rounds init s)
    (keeps : ∀ i n b t, I (n + 1) b t →
      Ends allowed (body i b) t fun step u => match step with
        | .done b => after b u
        | .yield b => I n b u)
    (finish : ∀ b t, I 0 b t → after b t) :
    Ends allowed (forIn [0:rounds] init body) s after := by
  rw [Std.Legacy.Range.forIn_eq_forIn_range']
  refine loopOver (I := fun items => I items.length) ?_ (fun i rest => keeps i rest.length) finish
  simpa [Std.Legacy.Range.size] using start

end

end Ends

end FlowAtlas.Yaml
