import FlowAtlas.Proofs.Yaml.Fetching
import FlowAtlas.Yaml.Node.Reader
/-! Reading the nodes of a text always comes to an end: the fuel that a document gets is enough for every text. A
reader takes a token before it calls itself again, so what scanning leaves to be done bounds how deep the calls go. -/
namespace FlowAtlas.Yaml

def Reading.work (r : Reading) : Nat := r.scanner.work

namespace Read

variable {α β : Type} {r : Reading}

/-- A step that does not run out of fuel. -/
abbrev Leads (step : Read α) (r : Reading) (after : α → Reading → Prop) : Prop :=
  Ends (fun fault => fault ≠ .scalar .endless) step r after

theorem leadsFetch {step : Fetch α} {after : α → Scanner → Prop} (leads : Fetch.Leads step r.scanner after) :
    Leads (fetch step) r fun a t => after a t.scanner := by
  unfold Fetch.Leads Ends at leads
  simp only [fetch, Ends.getThen, StateT.run]
  split <;> rename_i taken <;> rw [taken] at leads
  · exact leads
  · rename_i fault
    cases fault <;> simp [ScanFault.fault]

theorem leadsPeek :
    Leads peek r fun placed t => t.work ≤ r.work ∧ (placed.token ≠ .streamEnd → t.scanner.tokens ≠ []) :=
  (leadsFetch Fetch.upcomingLeads).weaken fun _ _ ⟨within, _, more⟩ => ⟨within.work, more⟩

theorem leadsSkip (more : r.scanner.tokens ≠ []) : Leads skip r fun _ t => t.work + 1 ≤ r.work :=
  (leadsFetch (Fetch.nextLeads more)).andThen fun _ _ taken => taken

theorem leadsAccept (token : Token) (other : token ≠ .streamEnd) :
    Leads (accept token) r fun accepted t => t.work ≤ r.work ∧ (accepted → t.work + 1 ≤ r.work) := by
  refine leadsPeek.andThen fun placed s ⟨within, more⟩ => ?_
  split
  · rename_i same
    refine (leadsSkip (more (same ▸ other))).andThen fun _ t taken => ?_
    exact ⟨by omega, fun _ => by omega⟩
  · exact ⟨within, nofun⟩

theorem leadsSeparated (task : Task) (start : Place) (expected : String) :
    Leads (separated task start expected) r fun _ t => t.work ≤ r.work := by
  refine leadsPeek.andThen fun placed s ⟨within, more⟩ => ?_
  split
  · simp [failAt]
  · rename_i same
    refine (leadsSkip (more ?_)).weaken fun _ t taken => by omega
    rw [Decidable.not_not.mp same]
    nofun

/-! Steps that leave the tokens alone. -/

theorem leadsFailAt (task : Task) (start : Place) (wrong : Wrong) (place : Place) {after : α → Reading → Prop} :
    Leads (failAt task start wrong place) r after := nofun

theorem leadsFail (wrong : Wrong) (place : Place) {after : α → Reading → Prop} :
    Leads (fail wrong place) r after := nofun

theorem leadsAdd (node : Node) : Leads (add node) r fun _ t => t.work = r.work := rfl

theorem leadsSetContent (id : Nat) (content : Content) :
    Leads (setContent id content) r fun _ t => t.work = r.work := rfl

theorem leadsDefine (name : Option String) (id : Nat) : Leads (define name id) r fun _ t => t.work = r.work := by
  cases name <;> rfl

theorem leadsCheckAnchor (name : Option String) (place : Place) :
    Leads (checkAnchor name place) r fun _ t => t = r := by
  simp only [checkAnchor, Ends.getThen]
  split
  · exact leadsFailAt _ _ _ _
  · rfl

end Read

namespace Node

open Read

variable {r : Reading}

theorem leadsTagName (start place : Place) (tag : Option String × String) :
    Leads (tagName start place tag) r fun _ t => t.work = r.work := by
  obtain ⟨_ | handle, suffix⟩ := tag
  · rfl
  · simp only [tagName, Ends.getThen]
    split
    · rfl
    · exact leadsFailAt _ _ _ _

theorem leadsProperties :
    Leads properties r fun p t => t.work ≤ r.work ∧ (p.start.isSome → t.work + 1 ≤ r.work) := by
  refine leadsPeek.andThen fun first s ⟨within, more⟩ => ?_
  split
  · rename_i same
    refine (leadsSkip (more (by simp [same]))).andThen fun _ t taken => ?_
    refine leadsPeek.andThen fun second u ⟨further, again⟩ => ?_
    split
    · rename_i same
      refine (leadsSkip (again (by simp [same]))).andThen fun _ v last => ?_
      refine (leadsTagName _ _ _).andThen fun _ w kept => ?_
      exact ⟨by omega, fun _ => by omega⟩
    · exact ⟨by omega, fun _ => by omega⟩
  · rename_i same
    refine (leadsSkip (more (by simp [same]))).andThen fun _ t taken => ?_
    refine leadsPeek.andThen fun second u ⟨further, again⟩ => ?_
    split
    · rename_i same
      refine (leadsSkip (again (by simp [same]))).andThen fun _ v last => ?_
      refine (leadsTagName _ _ _).andThen fun _ w kept => ?_
      exact ⟨by omega, fun _ => by omega⟩
    · refine (leadsTagName _ _ _).andThen fun _ v kept => ?_
      exact ⟨by omega, fun _ => by omega⟩
  · exact ⟨within, nofun⟩

theorem leadsScalar (p : Properties) (start : Place) (text : String) (plain : Bool) :
    Leads (readScalar p start text plain) r fun _ t => t.work = r.work :=
  (leadsAdd _).andThen fun id _ added => (leadsDefine p.anchor id).andThen fun _ _ named => named.trans added

theorem leadsBare (p : Properties) (task : Task) (start : Place) (placed : Placed) :
    Leads (readBare p task start placed) r fun _ t => p.start.isSome ∧ t.work = r.work := by
  unfold readBare
  split
  · rename_i named
    exact (leadsScalar p start "" true).weaken fun _ _ kept => ⟨named, kept⟩
  · exact leadsFailAt _ _ _ _

theorem leadsCollection {α : Type} (p : Properties) (start : Place) (tag : Tag) (content : List α → Content)
    {parts : Read (List α)} (leads : ∀ s : Reading, s.work = r.work → Leads parts s fun _ t => t.work ≤ s.work) :
    Leads (readCollection p start tag content parts) r fun _ t => t.work ≤ r.work := by
  refine (leadsAdd _).andThen fun id s added => ?_
  refine (leadsDefine p.anchor id).andThen fun _ t named => ?_
  refine (leads t (named.trans added)).andThen fun _ u least => ?_
  exact (leadsSetContent id _).andThen fun _ v kept => show v.work ≤ r.work by omega

/-! The readers of nodes. -/

/-- The fuel that is enough for each reader, by the work that is left. -/
structure Enough (fuel : Nat) : Prop where
  read : ∀ block compact r, 3 * r.work + 2 ≤ fuel →
    Leads (Node.read block compact fuel) r fun _ t => t.work ≤ r.work ∧ (compact = false → t.work + 1 ≤ r.work)
  readUnless : ∀ stops place block compact r, 3 * r.work + 3 ≤ fuel →
    Leads (Node.readUnless stops place block compact fuel) r fun _ t => t.work ≤ r.work
  readValue : ∀ stops block compact r, 3 * r.work + 1 ≤ fuel →
    Leads (Node.readValue stops block compact fuel) r fun _ t => t.work ≤ r.work
  blockEntries : ∀ start r, 3 * r.work + 1 ≤ fuel →
    Leads (Node.blockEntries start fuel) r fun _ t => t.work ≤ r.work
  compactEntries : ∀ r, 3 * r.work + 1 ≤ fuel →
    Leads (Node.compactEntries fuel) r fun _ t => t.work ≤ r.work
  blockPairs : ∀ start r, 3 * r.work + 1 ≤ fuel →
    Leads (Node.blockPairs start fuel) r fun _ t => t.work ≤ r.work
  flowEntries : ∀ start first r, 3 * r.work + 3 ≤ fuel →
    Leads (Node.flowEntries start first fuel) r fun _ t => t.work ≤ r.work
  flowPairs : ∀ start first r, 3 * r.work + 3 ≤ fuel →
    Leads (Node.flowPairs start first fuel) r fun _ t => t.work ≤ r.work

section

variable {fuel : Nat} (enough : Enough fuel)

include enough

theorem enoughUnless (stops : List Token) (place : Place) (block compact : Bool) (bound : 3 * r.work + 2 ≤ fuel) :
    Leads (readUnless stops place block compact (fuel + 1)) r fun _ t => t.work ≤ r.work := by
  simp only [Node.readUnless]
  refine leadsPeek.andThen fun placed s ⟨within, more⟩ => ?_
  split
  · exact (leadsAdd _).weaken fun _ t kept => by omega
  · exact (enough.read block compact s (by omega)).weaken fun _ t ⟨least, _⟩ => by omega

theorem enoughValue (stops : List Token) (block compact : Bool) (bound : 3 * r.work ≤ fuel) :
    Leads (readValue stops block compact (fuel + 1)) r fun _ t => t.work ≤ r.work := by
  simp only [Node.readValue]
  refine leadsPeek.andThen fun placed s ⟨within, more⟩ => ?_
  split
  · rename_i same
    refine (leadsSkip (more (by simp [same]))).andThen fun _ t taken => ?_
    exact (enough.readUnless _ _ _ _ t (by omega)).weaken fun _ u least => by omega
  · exact (leadsAdd _).weaken fun _ t kept => by omega

theorem enoughBlockEntries (start : Place) (bound : 3 * r.work ≤ fuel) :
    Leads (blockEntries start (fuel + 1)) r fun _ t => t.work ≤ r.work := by
  simp only [Node.blockEntries]
  refine leadsPeek.andThen fun placed s ⟨within, more⟩ => ?_
  split
  · rename_i same
    refine (leadsSkip (more (by simp [same]))).andThen fun _ t taken => ?_
    refine (enough.readUnless _ _ _ _ t (by omega)).andThen fun item u read => ?_
    exact (enough.blockEntries start u (by omega)).andThen fun _ v rest => show v.work ≤ r.work by omega
  · rename_i same
    exact (leadsSkip (more (by simp [same]))).andThen fun _ t taken => show t.work ≤ r.work by omega
  · exact leadsFailAt _ _ _ _

theorem enoughCompactEntries (bound : 3 * r.work ≤ fuel) :
    Leads (compactEntries (fuel + 1)) r fun _ t => t.work ≤ r.work := by
  simp only [Node.compactEntries]
  refine leadsPeek.andThen fun placed s ⟨within, more⟩ => ?_
  split
  · rename_i same
    refine (leadsSkip (more (by simp [same]))).andThen fun _ t taken => ?_
    refine (enough.readUnless _ _ _ _ t (by omega)).andThen fun item u read => ?_
    exact (enough.compactEntries u (by omega)).andThen fun _ v rest => show v.work ≤ r.work by omega
  · exact within

theorem enoughBlockPairs (start : Place) (bound : 3 * r.work ≤ fuel) :
    Leads (blockPairs start (fuel + 1)) r fun _ t => t.work ≤ r.work := by
  simp only [Node.blockPairs]
  refine leadsPeek.andThen fun placed s ⟨within, more⟩ => ?_
  split
  · rename_i same
    refine (leadsSkip (more (by simp [same]))).andThen fun _ t taken => ?_
    refine (enough.readUnless _ _ _ _ t (by omega)).andThen fun key u read => ?_
    refine (enough.readValue _ _ _ u (by omega)).andThen fun value v valued => ?_
    exact (enough.blockPairs start v (by omega)).andThen fun _ w rest => show w.work ≤ r.work by omega
  · rename_i same
    exact (leadsSkip (more (by simp [same]))).andThen fun _ t taken => show t.work ≤ r.work by omega
  · exact leadsFailAt _ _ _ _

theorem enoughFlowEntries (start : Place) (first : Bool) (bound : 3 * r.work + 2 ≤ fuel) :
    Leads (flowEntries start first (fuel + 1)) r fun _ t => t.work ≤ r.work := by
  simp only [Node.flowEntries]
  refine (leadsAccept _ (by simp)).andThen fun closed s ⟨within, taken⟩ => ?_
  split
  · exact within
  · suffices entries : ∀ s : Reading, s.work ≤ r.work → Leads _ s fun _ t => t.work ≤ r.work by
      split
      · exact (leadsSeparated _ _ _).andThen fun _ t least => entries t (by omega)
      · exact entries s within
    intro s within
    refine leadsPeek.andThen fun placed t ⟨least, more⟩ => ?_
    split
    · rename_i same
      exact (leadsSkip (more (by simp [same]))).andThen fun _ u taken => show u.work ≤ r.work by omega
    · rename_i same
      refine (leadsSkip (more (by simp [same]))).andThen fun _ u taken => ?_
      refine (enough.readUnless _ _ _ _ u (by omega)).andThen fun key v read => ?_
      refine (enough.readValue _ _ _ v (by omega)).andThen fun value w valued => ?_
      refine (leadsAdd _).andThen fun pair x kept => ?_
      exact (enough.flowEntries start false x (by omega)).andThen fun _ y rest => show y.work ≤ r.work by omega
    · refine (enough.read false false t (by omega)).andThen fun item u ⟨_, read⟩ => ?_
      have := read rfl
      exact (enough.flowEntries start false u (by omega)).andThen fun _ v rest => show v.work ≤ r.work by omega

theorem enoughFlowPairs (start : Place) (first : Bool) (bound : 3 * r.work + 2 ≤ fuel) :
    Leads (flowPairs start first (fuel + 1)) r fun _ t => t.work ≤ r.work := by
  simp only [Node.flowPairs]
  refine (leadsAccept _ (by simp)).andThen fun closed s ⟨within, taken⟩ => ?_
  split
  · exact within
  · suffices pairs : ∀ s : Reading, s.work ≤ r.work → Leads _ s fun _ t => t.work ≤ r.work by
      split
      · exact (leadsSeparated _ _ _).andThen fun _ t least => pairs t (by omega)
      · exact pairs s within
    intro s within
    refine leadsPeek.andThen fun placed t ⟨least, more⟩ => ?_
    split
    · rename_i same
      exact (leadsSkip (more (by simp [same]))).andThen fun _ u taken => show u.work ≤ r.work by omega
    · rename_i same
      refine (leadsSkip (more (by simp [same]))).andThen fun _ u taken => ?_
      refine (enough.readUnless _ _ _ _ u (by omega)).andThen fun key v read => ?_
      refine (enough.readValue _ _ _ v (by omega)).andThen fun value w valued => ?_
      exact (enough.flowPairs start false w (by omega)).andThen fun _ x rest => show x.work ≤ r.work by omega
    · refine (enough.read false false t (by omega)).andThen fun key u ⟨_, read⟩ => ?_
      have := read rfl
      refine leadsPeek.andThen fun next v ⟨further, _⟩ => ?_
      refine (leadsAdd _).andThen fun value w kept => ?_
      exact (enough.flowPairs start false w (by omega)).andThen fun _ x rest => show x.work ≤ r.work by omega

theorem enoughRead (block compact : Bool) (bound : 3 * r.work + 1 ≤ fuel) :
    Leads (read block compact (fuel + 1)) r fun _ t =>
      t.work ≤ r.work ∧ (compact = false → t.work + 1 ≤ r.work) := by
  simp only [Node.read]
  refine leadsPeek.andThen fun first s peeked => ?_
  obtain ⟨within, more⟩ := peeked
  split
  · rename_i same
    refine (leadsSkip (more (by simp [same]))).andThen fun _ t taken => ?_
    simp only [Ends.getThen]
    split
    · exact ⟨by omega, fun _ => by omega⟩
    · exact leadsFail _ _
  · refine leadsProperties.andThen fun p t owned => ?_
    obtain ⟨least, taken⟩ := owned
    refine leadsPeek.andThen fun placed u peeked => ?_
    obtain ⟨further, more⟩ := peeked
    refine (leadsCheckAnchor _ _).andThen fun _ v same => ?_
    subst same
    have bare (task : Task) : Leads (readBare p task (p.start.getD placed.start) placed) v fun _ w =>
        w.work ≤ r.work ∧ (compact = false → w.work + 1 ≤ r.work) :=
      (leadsBare _ _ _ _).weaken fun _ w bare => by
        have := taken bare.1
        have := bare.2
        exact ⟨by omega, fun _ => by omega⟩
    have strictly (w : Reading) (less : w.work + 1 ≤ v.work) :
        w.work ≤ r.work ∧ (compact = false → w.work + 1 ≤ r.work) := ⟨by omega, fun _ => by omega⟩
    split
    · split
      · rename_i compact
        refine (leadsCollection p _ _ _ fun w kept => ?_).weaken fun _ x kept => ⟨by omega, fun other => ?_⟩
        · exact enough.compactEntries w (by omega)
        · rw [compact] at other
          cases other
      · exact bare _
    · rename_i same
      refine (leadsSkip (more (by simp [same]))).andThen fun _ w taken => ?_
      exact (leadsScalar _ _ _ _).weaken fun _ x kept => strictly x (by omega)
    · rename_i same
      refine (leadsSkip (more (by simp [same]))).andThen fun _ w taken => ?_
      refine (leadsCollection p _ _ _ fun x kept => ?_).weaken fun _ y least => strictly y (by omega)
      exact enough.flowEntries _ _ x (by omega)
    · rename_i same
      refine (leadsSkip (more (by simp [same]))).andThen fun _ w taken => ?_
      refine (leadsCollection p _ _ _ fun x kept => ?_).weaken fun _ y least => strictly y (by omega)
      exact enough.flowPairs _ _ x (by omega)
    · rename_i same
      split
      · exact bare _
      · refine (leadsSkip (more (by simp [same]))).andThen fun _ w taken => ?_
        refine (leadsCollection p _ _ _ fun x kept => ?_).weaken fun _ y least => strictly y (by omega)
        exact enough.blockEntries _ x (by omega)
    · rename_i same
      split
      · exact bare _
      · refine (leadsSkip (more (by simp [same]))).andThen fun _ w taken => ?_
        refine (leadsCollection p _ _ _ fun x kept => ?_).weaken fun _ y least => strictly y (by omega)
        exact enough.blockPairs _ x (by omega)
    · exact bare _

end

theorem enoughFuel (fuel : Nat) : Enough fuel := by
  induction fuel with
  | zero => constructor <;> intros <;> omega
  | succ fuel ih =>
    exact {
      read := fun block compact _ bound => enoughRead ih block compact (by omega)
      readUnless := fun stops place block compact _ bound => enoughUnless ih stops place block compact (by omega)
      readValue := fun stops block compact _ bound => enoughValue ih stops block compact (by omega)
      blockEntries := fun start _ bound => enoughBlockEntries ih start (by omega)
      compactEntries := fun _ bound => enoughCompactEntries ih (by omega)
      blockPairs := fun start _ bound => enoughBlockPairs ih start (by omega)
      flowEntries := fun start first _ bound => enoughFlowEntries ih start first (by omega)
      flowPairs := fun start first _ bound => enoughFlowPairs ih start first (by omega) }

end Node

namespace Document

open Read

variable {r : Reading} {fuel : Nat}

theorem enoughDirectives (version : Bool) (handles : List (String × String)) (bound : r.work + 1 ≤ fuel) :
    Leads (directives version handles fuel) r fun _ t => t.work ≤ r.work := by
  induction fuel generalizing version handles r with
  | zero => omega
  | succ fuel ih =>
    simp only [directives]
    refine leadsPeek.andThen fun placed s ⟨within, more⟩ => ?_
    split
    · rename_i same
      refine (leadsSkip (more (by simp [same]))).andThen fun _ t taken => ?_
      split
      · exact leadsFail _ _
      · split
        · exact leadsFail _ _
        · exact (ih true handles (by omega)).weaken fun _ u least => by omega
    · rename_i same
      refine (leadsSkip (more (by simp [same]))).andThen fun _ t taken => ?_
      split
      · exact leadsFail _ _
      · exact (ih version _ (by omega)).weaken fun _ u least => by omega
    · rename_i same
      refine (leadsSkip (more (by simp [same]))).andThen fun _ t taken => ?_
      exact (ih version handles (by omega)).weaken fun _ u least => by omega
    · exact within

theorem enoughStart (bound : r.work + 1 ≤ fuel) : Leads (start fuel) r fun _ t => t.work ≤ r.work := by
  refine (enoughDirectives false [] bound).andThen fun _ s directed => ?_
  refine leadsPeek.andThen fun placed t ⟨within, more⟩ => ?_
  split
  · exact leadsFail _ _
  · rename_i same
    refine (leadsSkip (more ?_)).weaken fun _ u taken => by omega
    rw [Decidable.not_not.mp same]
    nofun

theorem enoughContent (bound : 3 * r.work + 2 ≤ fuel) : Leads (content fuel) r fun _ t => t.work ≤ r.work := by
  refine leadsPeek.andThen fun placed s ⟨within, _⟩ => ?_
  split
  · exact (leadsAdd _).weaken fun _ t kept => by omega
  · exact ((Node.enoughFuel fuel).read true false s (by omega)).weaken fun _ t ⟨least, _⟩ => by omega

theorem enoughFirstRoot (bound : 3 * r.work + 2 ≤ fuel) :
    Leads (firstRoot fuel) r fun _ t => t.work ≤ r.work := by
  refine leadsPeek.andThen fun first s peeked => ?_
  have within := peeked.1
  split
  · refine (enoughStart (by omega)).andThen fun _ t started => ?_
    exact (enoughContent (by omega)).weaken fun _ u least => by omega
  · simp only [Ends.modifyThen]
    refine ((Node.enoughFuel fuel).read true false { s with handles := defaultHandles } ?_).weaken ?_
    · exact Nat.le_trans (Nat.add_le_add_right (Nat.mul_le_mul_left 3 within) 2) bound
    · exact fun _ t least => Nat.le_trans least.1 within

theorem enoughEnding (root : Nat) (bound : r.work + 1 ≤ fuel) : Leads (ending fuel root) r fun _ _ => True := by
  suffices passed : Leads _ r fun _ t => t.work ≤ r.work from passed.andThen fun _ s within => ?_
  · refine leadsPeek.andThen fun placed t peeked => ?_
    have least := peeked.1
    split
    · refine (enoughStart (by omega)).andThen fun _ u started => ?_
      simp only [Ends.getThen]
      exact leadsFailAt _ _ _ _
    · trivial
  · refine Ends.loop (I := fun _ _ t => t.work ≤ r.work) (Nat.le_refl _) ?_ fun _ _ => id
    intro _ _ _ s within
    refine (leadsAccept _ (by simp)).andThen fun accepted t accepting => ?_
    split <;> exact Nat.le_trans accepting.1 within

theorem enoughRoot (bound : 3 * r.work + 2 ≤ fuel) : Leads (root? fuel) r fun _ _ => True := by
  refine leadsPeek.andThen fun first s peeked => ?_
  have within := peeked.1
  split
  · trivial
  · refine (enoughFirstRoot (by omega)).andThen fun root t read => ?_
    exact (enoughEnding root (by omega)).andThen fun _ _ _ => trivial

/-- Whatever is wrong with a text, reading it does not run out of fuel. -/
theorem fuelSuffices (text : List Char) : ofText? text ≠ .error (.scalar .endless) := by
  have bound : 3 * Reading.work { scanner := .ofText text } + 2 ≤ fuelFor text := by
    simp only [Reading.work, Scanner.work, Scanner.ofText, fuelFor, List.length_nil, Bool.false_eq_true, if_false]
    omega
  have leads := enoughRoot bound
  unfold Leads Ends at leads
  unfold ofText?
  split
  · intro same
    cases same
  · rw [StateT.run]
    split at leads <;> rename_i read <;> rw [read] <;> intro same
    · cases same
    · exact leads (Except.error.inj same)

end Document

end FlowAtlas.Yaml
