import FlowAtlas.Proofs.Chain.Unfolding
/-! The nodes of a chain and what its root triggers. A key is expanded once, in the role that reaches it
first; a second role adds nothing. So the nodes are what is reached when each key keeps to one role, and
where roles agree on what they set off, they are exactly the root and the triggered keys. -/
namespace FlowAtlas

/-- What is reached when every key but the root sets things off in its given role only. -/
inductive Followed (inv : Inventory) (root : Key) (role : Key → Role) : Key → Prop
  | start {first key} (starts : Starts inv root first key) : Followed inv root role key
  | next {n later key} (before : Followed inv root role n) (other : n ≠ root)
      (step : SetsOff inv (role n) n later key) : Followed inv root role key

/-- Roles in which one key is triggered set off the same keys, and so does the root if it is triggered. -/
structure Unambiguous (inv : Inventory) (root : Key) : Prop where
  sameRole : ∀ {role other key later n}, Triggered inv root role key → Triggered inv root other key →
    SetsOff inv role key later n → ∃ later', SetsOff inv other key later' n
  sameRoot : ∀ {role later n}, Triggered inv root role root → SetsOff inv role root later n →
    ∃ later', Starts inv root later' n

theorem singleRoleUnambiguous {inv : Inventory} {root : Key} (role : Key → Role)
    (starts : ∀ {first n}, Starts inv root first n → first = role n ∧ n ≠ root)
    (steps : ∀ {n later m}, SetsOff inv (role n) n later m → later = role m ∧ m ≠ root) :
    Unambiguous inv root := by
  have single : ∀ {given n}, Triggered inv root given n → given = role n ∧ n ≠ root := by
    intro given n triggered
    induction triggered with
    | start first => exact starts first
    | next before step ih =>
      rw [ih.1] at step
      exact steps step
  constructor
  case sameRole =>
    intro given other key later n one two step
    rw [(single one).1, ← (single two).1] at step
    exact ⟨later, step⟩
  case sameRoot =>
    intro given later n triggered
    exact absurd rfl (single triggered).2

def roleAmong (entered : List Trigger) (n : Key) : Role :=
  ((entered.find? (fun d => d.target = n)).map (·.role)).getD .command

section

variable {inv : Inventory} {root : Key} {entered : List Trigger} {c : Chain}

theorem roleEntered {first : List Trigger} (u : Unfolds inv root first entered c) {d : Trigger}
    (mem : d ∈ entered) : roleAmong entered d.target = d.role := by
  have distinct := u.distinct
  rw [u.nodes, List.nodup_cons] at distinct
  cases found : entered.find? (fun t => t.target = d.target) with
  | none =>
    have absent := List.find?_eq_none.mp found d mem
    simp at absent
  | some t =>
    have same : t.target = d.target := by simpa using List.find?_some found
    have only := List.inj_on_of_nodup_map distinct.2 (List.mem_of_find?_eq_some found) mem same
    simp [roleAmong, found, only]

theorem startVisited (u : Unfolds inv root (Inventory.rootTriggers inv.index root) entered c) {role : Role}
    {key : Key} (starts : Starts inv root role key) : key ∈ c.nodes := by
  obtain ⟨_, offered, listed⟩ := startsOffered starts
  exact u.visited (Or.inl offered) listed

theorem enteredTriggered (u : Unfolds inv root (Inventory.rootTriggers inv.index root) entered c) :
    ∀ d ∈ entered, Triggered inv root d.role d.target := by
  apply enteredInduction u (motive := fun d => Triggered inv root d.role d.target)
  · intro d mem offered
    exact .start (offeredStarts offered (u.known d mem))
  · intro p _ parent d mem next
    exact .next parent (nextSetsOff next (u.known d mem))

theorem enteredFollowed (u : Unfolds inv root (Inventory.rootTriggers inv.index root) entered c) :
    ∀ d ∈ entered, Followed inv root (roleAmong entered) d.target := by
  apply enteredInduction u (motive := fun d => Followed inv root (roleAmong entered) d.target)
  · intro d mem offered
    exact .start (offeredStarts offered (u.known d mem))
  · intro p pMem parent d mem next
    have step := nextSetsOff next (u.known d mem)
    rw [← roleEntered u pMem] at step
    exact .next parent (enteredNotRoot u pMem) step

theorem followedVisited (u : Unfolds inv root (Inventory.rootTriggers inv.index root) entered c) {key : Key}
    (followed : Followed inv root (roleAmong entered) key) : key ∈ c.nodes := by
  induction followed with
  | start starts => exact startVisited u starts
  | @next n later key before other step ih =>
    obtain ⟨d, mem, rfl⟩ := nodeEntered u ih other
    rw [roleEntered u mem] at step
    exact (followedUp u mem step).1

theorem triggeredVisited (u : Unfolds inv root (Inventory.rootTriggers inv.index root) entered c)
    (unambiguous : Unambiguous inv root) {role : Role} {key : Key}
    (triggered : Triggered inv root role key) : key ∈ c.nodes := by
  induction triggered with
  | start starts => exact startVisited u starts
  | @next role key later n before step ih =>
    rcases (memNodes u).mp ih with rfl | ⟨d, mem, rfl⟩
    · obtain ⟨_, starts⟩ := unambiguous.sameRoot before step
      exact startVisited u starts
    -- The key may have been reached in another role; that role sets off the same keys.
    · obtain ⟨_, same⟩ := unambiguous.sameRole before (enteredTriggered u d mem) step
      exact (followedUp u mem same).1

end

theorem chainNodesTriggered (inv : Inventory) (root : Key) :
    (∃ role : Key → Role,
      (∀ n ∈ (inv.chainFrom root).nodes, n ≠ root → Triggered inv root (role n) n ∧
        ((inv.chainFrom root).discovery? n).map (·.label) = some (role n).label) ∧
      ∀ n, n ∈ (inv.chainFrom root).nodes ↔ n = root ∨ Followed inv root role n) ∧
    (Unambiguous inv root → ∀ n,
      n ∈ (inv.chainFrom root).nodes ↔ n = root ∨ ∃ role, Triggered inv root role n) := by
  obtain ⟨entered, u⟩ := chainFromUnfolds inv root
  have reached := enteredTriggered u
  have here : root ∈ (inv.chainFrom root).nodes := (memNodes u).mpr (Or.inl rfl)
  refine ⟨⟨roleAmong entered, ?_, ?_⟩, ?_⟩
  · intro n mem other
    obtain ⟨d, entry, rfl⟩ := nodeEntered u mem other
    rw [roleEntered u entry, u.discovers d entry]
    exact ⟨reached d entry, rfl⟩
  · intro n
    constructor
    · intro mem
      refine ((memNodes u).mp mem).imp_right ?_
      rintro ⟨d, entry, rfl⟩
      exact enteredFollowed u d entry
    · rintro (rfl | followed)
      · exact here
      · exact followedVisited u followed
  · intro unambiguous n
    constructor
    · intro mem
      refine ((memNodes u).mp mem).imp_right ?_
      rintro ⟨d, entry, rfl⟩
      exact ⟨d.role, reached d entry⟩
    · rintro (rfl | ⟨role, triggered⟩)
      · exact here
      · exact triggeredVisited u unambiguous triggered

def loopInventory : Inventory where
  controllers := [⟨⟨"Shop", "Shop"⟩, []⟩]
  commands := [⟨"Order", "Order"⟩]
  entities := [⟨⟨"Cart", "Cart"⟩, true, []⟩]
  domainEvents := [⟨"Ordered", "Ordered"⟩]
  domainEventHandlers := [⟨⟨"Mailer", "Mailer"⟩, "Ordered", ["Order"]⟩]
  relationships :=
    [⟨"Shop", "Post", "Order", "", "MethodToCommand"⟩,
      ⟨"Order", "", "Cart", "place", "CommandToAggregateMethod"⟩,
      ⟨"Cart", "place", "Ordered", "", "MethodToDomainEvent"⟩]

def loopRole (key : Key) : Role :=
  match key.typeName with
  | "Cart" => .aggregateMethod
  | "Ordered" => .domainEvent
  | "Mailer" => .handler ["Order"]
  | _ => .command

theorem loopUnambiguous : Unambiguous loopInventory ⟨"Shop", "Post"⟩ := by
  apply singleRoleUnambiguous loopRole
  case starts =>
    intro first n starts
    cases starts with
    | sent listed kind =>
      simp only [loopInventory, List.mem_cons, List.not_mem_nil, or_false] at listed
      rcases listed with rfl | rfl | rfl
      · exact ⟨rfl, by decide⟩
      · exact absurd kind (by decide)
      · exact absurd kind (by decide)
    | handled handler =>
      have none : loopInventory.index.handlerCommands "Shop" = none := by decide
      cases none.symm.trans handler
  case steps =>
    intro n later m step
    generalize role : loopRole n = given at step
    cases step with
    | executes listed kind =>
      simp only [loopInventory, List.mem_cons, List.not_mem_nil, or_false] at listed
      rcases listed with rfl | rfl | rfl
      · exact absurd kind (by decide)
      · exact ⟨rfl, by decide⟩
      · exact absurd kind (by decide)
    | publishes listed kind =>
      simp only [loopInventory, List.mem_cons, List.not_mem_nil, or_false] at listed
      rcases listed with rfl | rfl | rfl
      · exact absurd kind (by decide)
      · exact absurd kind (by decide)
      · exact ⟨rfl, by decide⟩
    | handled listed =>
      cases List.mem_singleton.mp listed
      exact ⟨rfl, by decide⟩
    | converted listed => cases listed
    | becomes =>
      unfold loopRole at role
      split at role <;> cases role
    | received listed => cases listed
    | sends listed =>
      unfold loopRole at role
      split at role <;> cases role
      cases List.mem_singleton.mp listed
      exact ⟨rfl, by decide⟩

theorem loopNodesTriggered : Unambiguous loopInventory ⟨"Shop", "Post"⟩ ∧
    ∀ n, n ∈ (loopInventory.chainFrom ⟨"Shop", "Post"⟩).nodes ↔
      n = ⟨"Shop", "Post"⟩ ∨ ∃ role, Triggered loopInventory ⟨"Shop", "Post"⟩ role n :=
  ⟨loopUnambiguous, (chainNodesTriggered loopInventory ⟨"Shop", "Post"⟩).2 loopUnambiguous⟩

def doorInventory : Inventory where
  controllers := [⟨⟨"Shop", "Shop"⟩, []⟩]
  commands := [⟨"Open", "Open"⟩, ⟨"Close", "Close"⟩]
  entities := [⟨⟨"Door", "Door"⟩, false, []⟩]
  relationships :=
    [⟨"Shop", "Post", "Open", "", "MethodToCommand"⟩,
      ⟨"Shop", "Post", "Close", "", "MethodToCommand"⟩,
      ⟨"Open", "", "Door", "open", "CommandToAggregateMethod"⟩,
      ⟨"Door", "open", "Close", "", "MethodToDomainEvent"⟩,
      ⟨"Close", "", "Door", "close", "CommandToAggregateMethod"⟩]

theorem secondRoleUnfollowed :
    Triggered doorInventory ⟨"Shop", "Post"⟩ .aggregateMethod ⟨"Door", "close"⟩ ∧
      (⟨"Door", "close"⟩ : Key) ∉ (doorInventory.chainFrom ⟨"Shop", "Post"⟩).nodes := by
  constructor
  · have sent : Starts doorInventory ⟨"Shop", "Post"⟩ .command ⟨"Close", ""⟩ :=
      .sent (r := ⟨"Shop", "Post", "Close", "", "MethodToCommand"⟩) (by decide) (by decide) rfl (by decide)
        (by decide)
    have step : SetsOff doorInventory .command ⟨"Close", ""⟩ .aggregateMethod ⟨"Door", "close"⟩ :=
      .executes (r := ⟨"Close", "", "Door", "close", "CommandToAggregateMethod"⟩) (by decide) (by decide) rfl
        (by decide)
    exact .next (.start sent) step
  · have nodes : (doorInventory.chainFrom ⟨"Shop", "Post"⟩).nodes =
        [⟨"Shop", "Post"⟩, ⟨"Open", ""⟩, ⟨"Door", "open"⟩, ⟨"Close", ""⟩] := by cbv
    rw [nodes]
    decide

end FlowAtlas
