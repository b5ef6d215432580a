import FlowAtlas.Proofs.Yaml.Ends
import FlowAtlas.Proofs.Yaml.Scanning
/-! What scanning leaves to be done. A character gives at most three tokens and opens at most one block, whose end
is a token again; so text, open blocks and tokens together never grow while tokens are fetched, and they shrink
when a token is taken. -/
namespace FlowAtlas.Yaml

open Scan (Advances setAllowKey)

def Scanner.work (s : Scanner) : Nat :=
  4 * s.rest.length + s.indents.length + s.tokens.length + (if s.done then 0 else 1)

/-- How often one can still fetch. -/
def Scanner.ahead (s : Scanner) : Nat := s.rest.length + (if s.done then 0 else 1)

structure Within (s t : Scanner) : Prop where
  work : t.work ≤ s.work
  ahead : t.ahead ≤ s.ahead
  tokens : s.tokens.length ≤ t.tokens.length

structure Fetched (s t : Scanner) : Prop extends Within s t where
  further : t.ahead < s.ahead

/-- A step from `s` to `t` that takes nothing of the text and adds up to `n` tokens and blocks. -/
structure Adds (n : Nat) (s t : Scanner) : Prop where
  text : t.rest = s.rest
  done : t.done = s.done
  blocks : t.indents.length + t.tokens.length ≤ s.indents.length + s.tokens.length + n
  tokens : s.tokens.length ≤ t.tokens.length

theorem Within.refl (s : Scanner) : Within s s := ⟨Nat.le_refl _, Nat.le_refl _, Nat.le_refl _⟩

theorem Within.trans {s t u : Scanner} (first : Within s t) (second : Within t u) : Within s u where
  work := Nat.le_trans second.work first.work
  ahead := Nat.le_trans second.ahead first.ahead
  tokens := Nat.le_trans first.tokens second.tokens

theorem Within.fetched {s t u : Scanner} (first : Within s t) (second : Fetched t u) : Fetched s u :=
  ⟨first.trans second.toWithin, Nat.lt_of_lt_of_le second.further first.ahead⟩

theorem Adds.ofSame {n : Nat} {s t : Scanner} (text : t.rest = s.rest) (done : t.done = s.done)
    (indents : t.indents = s.indents) (tokens : t.tokens = s.tokens) : Adds n s t where
  text := text
  done := done
  blocks := by simp only [indents, tokens, Nat.le_add_right]
  tokens := by simp only [tokens, Nat.le_refl]

theorem Adds.trans {n m : Nat} {s t u : Scanner} (first : Adds n s t) (second : Adds m t u) : Adds (n + m) s u where
  text := second.text.trans first.text
  done := second.done.trans first.done
  blocks := by
    have := first.blocks
    have := second.blocks
    omega
  tokens := Nat.le_trans first.tokens second.tokens

theorem Adds.within {s t : Scanner} (adds : Adds 0 s t) : Within s t where
  work := by
    have := adds.blocks
    simp only [Scanner.work, adds.text, adds.done]
    omega
  ahead := by simp only [Scanner.ahead, adds.text, adds.done, Nat.le_refl]
  tokens := adds.tokens

namespace Fetch

variable {α β : Type} {s : Scanner}

abbrev Leads (step : Fetch α) (s : Scanner) (after : α → Scanner → Prop) : Prop :=
  Ends (fun _ => True) step s after

theorem leadsScan {step : Scan α} {mid : Cursor → Prop} (ends : ∀ p, step s.toCursor = .ok p → mid p.1.2) :
    Leads (liftM step) s fun _ t => ∃ c, mid c ∧ t = { s with toCursor := c } := by
  unfold Leads Ends
  simp only [liftM, monadLift, MonadLift.monadLift]
  cases taken : step s.toCursor with
  | error fault => trivial
  | ok p => exact ⟨p.1.2, ends p taken, rfl⟩

theorem leadsAdvances {step : Scan α} (advances : Advances step s.toCursor) :
    Leads (liftM step) s fun _ t =>
      ∃ c : Cursor, c.rest.length < s.rest.length ∧ t = { s with toCursor := c } := by
  refine leadsScan fun p taken => ?_
  unfold Advances at advances
  rwa [taken] at advances

@[simp] theorem hereThen {next : Place → Fetch α} {after : α → Scanner → Prop} :
    Leads (liftM Scan.here >>= next) s after ↔ Leads (next s.place) s after := Iff.rfl

@[simp] theorem roundsThen {next : Nat → Fetch α} {after : α → Scanner → Prop} :
    Leads (liftM Scan.rounds >>= next) s after ↔ Leads (next (s.left + 1)) s after := Iff.rfl

@[simp] theorem pushHereThen {token : Token} {next : Unit → Fetch α} {after : α → Scanner → Prop} :
    Leads (pushHere token >>= next) s after ↔
      Leads (next ()) { s with tokens := s.tokens ++ [⟨token, s.place, s.place⟩] } after := Iff.rfl

/-! Steps that leave the text alone. -/

theorem addsSetAllowKey (allow : Bool) : Leads (liftM (setAllowKey allow)) s fun _ t => Adds 0 s t :=
  Adds.ofSame rfl rfl rfl rfl

theorem addsPushHere (t : Token) : Leads (pushHere t) s fun _ t => Adds 1 s t := by
  simp only [pushHere, push, hereThen, Ends.modifyIff]
  constructor <;> simp <;> omega

theorem addsInsertAt (n : Nat) (t : Placed) : Leads (insertAt n t) s fun _ t => Adds 1 s t := by
  simp only [insertAt, Ends.modifyIff]
  constructor <;> simp <;> omega

theorem addsDropKey : Leads dropKey s fun _ t => Adds 0 s t := by
  simp only [dropKey, Ends.getThen]
  split
  · split
    · trivial
    · exact Adds.ofSame rfl rfl rfl rfl
  · exact Adds.ofSame rfl rfl rfl rfl

theorem addsSaveKey : Leads saveKey s fun _ t => Adds 0 s t := by
  simp only [saveKey, Ends.getThen]
  split
  · refine addsDropKey.andThen fun _ t dropped => ?_
    exact ⟨dropped.text, dropped.done, dropped.blocks, dropped.tokens⟩
  · exact Adds.ofSame rfl rfl rfl rfl

theorem addsDropStaleKeys : Leads dropStaleKeys s fun _ t => Adds 0 s t := by
  simp only [dropStaleKeys, Ends.getThen]
  split
  · trivial
  · exact Adds.ofSame rfl rfl rfl rfl

/- Each block that is closed is one less that is open and one token more. -/
theorem addsCloseBlocks (column : Int) (indents : List Int) (same : s.indents = indents) :
    Leads (closeBlocks column indents) s fun _ t => Adds 0 s t := by
  induction indents generalizing s with
  | nil => exact Adds.ofSame rfl rfl rfl rfl
  | cons outer indents ih =>
    simp only [closeBlocks, Ends.getThen]
    split
    · simp only [Ends.modifyThen, pushHereThen]
      refine (ih rfl).weaken fun _ t closed => ⟨closed.text, closed.done, ?_, ?_⟩
      · have := closed.blocks
        simp only [List.length_append, List.length_singleton] at this
        simp only [same, List.length_cons]
        omega
      · have := closed.tokens
        simp only [List.length_append, List.length_singleton] at this
        omega
    · exact Adds.ofSame rfl rfl rfl rfl

theorem addsUnwind (column : Int) : Leads (unwind column) s fun _ t => Adds 0 s t := by
  simp only [unwind, Ends.getThen]
  split
  · exact addsCloseBlocks column s.indents rfl
  · exact Adds.ofSame rfl rfl rfl rfl

theorem addsAddIndent (column : Nat) : Leads (addIndent column) s fun _ t => Adds 1 s t := by
  simp only [addIndent, Ends.getThen]
  split
  · constructor <;> simp <;> omega
  · exact Adds.ofSame rfl rfl rfl rfl

theorem addsOpenBlock (start : Token) (what : String) : Leads (openBlock start what) s fun _ t => Adds 2 s t := by
  simp only [openBlock, Ends.getThen]
  split
  · split
    · trivial
    · refine (addsAddIndent s.place.column).andThen fun opened t indented => ?_
      split
      · exact (addsPushHere start).weaken fun _ _ pushed => indented.trans pushed
      · exact ⟨indented.text, indented.done, Nat.le_trans indented.blocks (by omega), indented.tokens⟩
  · exact Adds.ofSame rfl rfl rfl rfl

/-! Steps that take at least one character. -/

section

variable {n : Nat} {t : Scanner}

theorem fetchedTaking {c : Cursor} (token : Placed) (adds : Adds n s t) (few : n ≤ 3)
    (fewer : c.rest.length < t.rest.length) :
    Fetched s { t with toCursor := c, tokens := t.tokens ++ [token] } := by
  have blocks := adds.blocks
  have tokens := adds.tokens
  rw [adds.text] at fewer
  refine ⟨⟨?_, ?_, ?_⟩, ?_⟩
  all_goals
    simp only [Scanner.work, Scanner.ahead, adds.done, List.length_append, List.length_singleton]
    omega

theorem fetchedPush {scan : Scan Placed} (adds : Adds n s t) (few : n ≤ 3) (advances : Advances scan t.toCursor) :
    Leads (liftM scan >>= push) t fun _ u => Fetched s u := by
  refine (leadsAdvances advances).andThen ?_
  rintro token _ ⟨c, fewer, rfl⟩
  have fetched := fetchedTaking token adds few fewer
  exact fetched

theorem fetchedPushTaking {count : Nat} (token : Token) (positive : 0 < count) (adds : Adds n s t) (few : n ≤ 3)
    (more : s.rest ≠ []) : Leads (pushTaking count token) t fun _ u => Fetched s u := by
  simp only [pushTaking, hereThen]
  refine (leadsAdvances (Scan.forwardAdvances (adds.text ▸ more) positive)).andThen ?_
  rintro _ _ ⟨c, fewer, rfl⟩
  have fetched := fetchedTaking ⟨token, t.place, c.place⟩ adds few fewer
  exact fetched

end

theorem fetchedContent {scan : Scan Placed} (advances : ∀ c : Cursor, c.rest = s.rest → Advances scan c) :
    Leads (fetchContent scan) s fun _ t => Fetched s t := by
  refine addsSaveKey.andThen fun _ t saved => ?_
  refine (addsSetAllowKey false).andThen fun _ u set => ?_
  have adds := saved.trans set
  exact fetchedPush adds (Nat.zero_le 3) (advances u.toCursor adds.text)

/-! Each way to fetch, with characters left. -/

section

variable (more : s.rest ≠ [])

include more

theorem fetchedDirective : Leads fetchDirective s fun _ t => Fetched s t := by
  refine (addsUnwind (-1)).andThen fun _ t closed => ?_
  refine addsDropKey.andThen fun _ u dropped => ?_
  refine (addsSetAllowKey false).andThen fun _ v set => ?_
  have adds := (closed.trans dropped).trans set
  exact fetchedPush adds (Nat.zero_le 3) (Scan.directiveAdvances (adds.text ▸ more))

theorem fetchedDocumentMark (token : Token) : Leads (fetchDocumentMark token) s fun _ t => Fetched s t := by
  refine (addsUnwind (-1)).andThen fun _ t closed => ?_
  refine addsDropKey.andThen fun _ u dropped => ?_
  refine (addsSetAllowKey false).andThen fun _ v set => ?_
  exact fetchedPushTaking token (by decide) ((closed.trans dropped).trans set) (Nat.zero_le 3) more

theorem fetchedFlowStart (token : Token) : Leads (fetchFlowStart token) s fun _ t => Fetched s t := by
  refine addsSaveKey.andThen fun _ t saved => ?_
  simp only [Ends.modifyThen]
  have adds : Adds 0 s { t with flowLevel := t.flowLevel + 1, allowKey := true } :=
    ⟨saved.text, saved.done, saved.blocks, saved.tokens⟩
  exact fetchedPushTaking token Nat.one_pos adds (Nat.zero_le 3) more

theorem fetchedFlowEnd (token : Token) : Leads (fetchFlowEnd token) s fun _ t => Fetched s t := by
  refine addsDropKey.andThen fun _ t dropped => ?_
  simp only [Ends.modifyThen]
  have adds : Adds 0 s { t with flowLevel := t.flowLevel - 1, allowKey := false } :=
    ⟨dropped.text, dropped.done, dropped.blocks, dropped.tokens⟩
  exact fetchedPushTaking token Nat.one_pos adds (Nat.zero_le 3) more

theorem fetchedFlowEntry : Leads fetchFlowEntry s fun _ t => Fetched s t := by
  refine (addsSetAllowKey true).andThen fun _ t set => ?_
  refine addsDropKey.andThen fun _ u dropped => ?_
  exact fetchedPushTaking .flowEntry Nat.one_pos (set.trans dropped) (Nat.zero_le 3) more

theorem fetchedBlockEntry : Leads fetchBlockEntry s fun _ t => Fetched s t := by
  refine (addsOpenBlock .blockSequenceStart "sequence entries").andThen fun _ t opened => ?_
  refine (addsSetAllowKey true).andThen fun _ u set => ?_
  refine addsDropKey.andThen fun _ v dropped => ?_
  exact fetchedPushTaking .blockEntry Nat.one_pos ((opened.trans set).trans dropped) (by decide) more

theorem fetchedKey : Leads fetchKey s fun _ t => Fetched s t := by
  refine (addsOpenBlock .blockMappingStart "mapping keys").andThen fun _ t opened => ?_
  simp only [Ends.getThen]
  refine (addsSetAllowKey _).andThen fun _ u set => ?_
  refine addsDropKey.andThen fun _ v dropped => ?_
  exact fetchedPushTaking .key Nat.one_pos ((opened.trans set).trans dropped) (by decide) more

theorem fetchedLastValue {n : Nat} {t : Scanner} (adds : Adds n s t) (few : n ≤ 3) :
    Leads (do setAllowKey false; pushTaking 1 .value) t fun _ u => Fetched s u := by
  refine (addsSetAllowKey false).andThen fun _ u set => ?_
  exact fetchedPushTaking .value Nat.one_pos (adds.trans set) few more

theorem fetchedValue : Leads fetchValue s fun _ t => Fetched s t := by
  simp only [fetchValue, Ends.getThen]
  split
  · rename_i k _
    simp only [Ends.setThen]
    refine (addsInsertAt _ _).andThen fun _ t inserted => ?_
    have adds : Adds 1 s t := ⟨inserted.text, inserted.done, inserted.blocks, inserted.tokens⟩
    split
    · refine (addsAddIndent _).andThen fun opened u indented => ?_
      split
      · refine (addsInsertAt _ _).andThen fun _ v again => ?_
        exact fetchedLastValue more ((adds.trans indented).trans again) (Nat.le_refl 3)
      · exact fetchedLastValue more (adds.trans indented) (by decide)
    · exact fetchedLastValue more adds (by decide)
  · refine (addsOpenBlock .blockMappingStart "mapping values").andThen fun _ t opened => ?_
    refine (addsSetAllowKey _).andThen fun _ u set => ?_
    refine addsDropKey.andThen fun _ v dropped => ?_
    exact fetchedPushTaking .value Nat.one_pos ((opened.trans set).trans dropped) (by decide) more

theorem fetchedBlockScalar (folded : Bool) : Leads (fetchBlockScalar folded) s fun _ t => Fetched s t := by
  refine (addsSetAllowKey true).andThen fun _ t set => ?_
  refine addsDropKey.andThen fun _ u dropped => ?_
  have adds := set.trans dropped
  simp only [Ends.getThen]
  exact fetchedPush adds (Nat.zero_le 3) (Scan.blockAdvances (adds.text ▸ more) u.indent folded)

end

theorem fetchedPlain (c : Char) : Leads (fetchPlain c) s fun _ t => Fetched s t := by
  simp only [fetchPlain, Ends.getThen]
  split
  · rename_i starts
    exact fetchedContent fun c same => Scan.plainAdvances s.indent (by rwa [same])
  · trivial

theorem fetchedEnd (running : s.done = false) : Leads fetchEnd s fun _ t => Fetched s t := by
  refine (addsUnwind (-1)).andThen fun _ t closed => ?_
  refine addsDropKey.andThen fun _ u dropped => ?_
  have adds := closed.trans dropped
  have blocks := adds.blocks
  have tokens := adds.tokens
  simp only [Ends.modifyThen, pushHere, push, hereThen, Ends.modifyIff]
  refine ⟨⟨?_, ?_, ?_⟩, ?_⟩
  all_goals
    simp only [Scanner.work, Scanner.ahead, adds.text, running, List.length_append, List.length_singleton, if_true,
      Bool.false_eq_true, if_false]
    omega

theorem withinSkipToToken (flow : Bool) :
    Leads (liftM (Scan.skipToToken flow)) s fun _ t => Within s t ∧ t.done = s.done := by
  have moved : Leads (liftM (Scan.skipToToken flow)) s fun _ t =>
      ∃ c : Cursor, c.rest <:+ s.rest ∧ t = { s with toCursor := c } := leadsScan fun p _ => p.2
  refine moved.weaken ?_
  rintro _ _ ⟨c, left, rfl⟩
  have := left.length_le
  refine ⟨⟨?_, ?_, Nat.le_refl _⟩, rfl⟩
  all_goals
    simp only [Scanner.work, Scanner.ahead]
    omega

theorem atDocumentMarkThen {next : Bool → Fetch α} {after : α → Scanner → Prop}
    (leads : ∀ mark, Leads (next mark) s after) : Leads (liftM Scan.atDocumentMark >>= next) s after := leads _

theorem fetchedNext (running : s.done = false) : Leads fetch s fun _ t => Fetched s t := by
  simp only [fetch, Ends.getThen]
  refine (withinSkipToToken _).andThen fun _ t moved => ?_
  obtain ⟨skipped, same⟩ := moved
  refine addsDropStaleKeys.andThen fun _ u dropped => ?_
  simp only [hereThen]
  refine (addsUnwind _).andThen fun _ v closed => ?_
  have adds := dropped.trans closed
  suffices fetched : Leads _ v fun _ w => Fetched v w from
    fetched.weaken fun _ _ last => (skipped.trans adds.within).fetched last
  have running : v.done = false := by rw [adds.done, same, running]
  simp only [Ends.getThen]
  split
  · exact fetchedEnd running
  · rename_i c first
    have more : v.rest ≠ [] := by
      intro none
      rw [none] at first
      cases first
    split
    · exact fetchedDirective more
    · refine atDocumentMarkThen fun mark => ?_
      split
      · exact fetchedDocumentMark more _
      · split
        · exact fetchedFlowStart more _
        · exact fetchedFlowStart more _
        · exact fetchedFlowEnd more _
        · exact fetchedFlowEnd more _
        · exact fetchedFlowEntry more
        · split
          · exact fetchedBlockEntry more
          · exact fetchedPlain _
        · split
          · exact fetchedKey more
          · exact fetchedPlain _
        · split
          · exact fetchedValue more
          · exact fetchedPlain _
        · exact fetchedContent fun c same => Scan.nameTokenAdvances (same ▸ more) _ _
        · exact fetchedContent fun c same => Scan.nameTokenAdvances (same ▸ more) _ _
        · exact fetchedContent fun c same => Scan.tagAdvances (same ▸ more)
        · split
          · exact fetchedPlain _
          · exact fetchedBlockScalar more _
        · split
          · exact fetchedPlain _
          · exact fetchedBlockScalar more _
        · exact fetchedContent fun c same => Scan.quotedAdvances (same ▸ more) _
        · exact fetchedContent fun c same => Scan.quotedAdvances (same ▸ more) _
        · exact fetchedPlain _

/-! Fetching until a token can be given out. -/

/-- No more is to be fetched before the first token is taken. -/
def Settled (s : Scanner) : Prop := Leads needsMore s fun more _ => more = false

theorem settledDone (finished : s.done = true) : Settled s := by
  simp [Settled, Leads, needsMore, finished]

theorem dropStaleKeysSettles : Leads dropStaleKeys s fun _ t => Leads dropStaleKeys t fun _ u => u = t := by
  simp only [dropStaleKeys, Ends.getThen]
  split
  · trivial
  · simp only [Ends.setIff]
    split
    · trivial
    · simp [List.filter_filter]

theorem needsMoreLeads :
    Leads needsMore s fun more t => Within s t ∧ if more then t.done = false else Settled t := by
  simp only [needsMore, Ends.getThen]
  split
  · rename_i finished
    exact ⟨.refl s, settledDone finished⟩
  · rename_i running
    split
    · exact ⟨.refl s, by simpa using running⟩
    · rename_i some
      refine (addsDropStaleKeys.and dropStaleKeysSettles).andThen fun _ t both => ?_
      obtain ⟨dropped, settles⟩ := both
      have still : t.done = false := by simpa [dropped.done] using running
      simp only [Ends.getThen, Ends.pureIff]
      refine ⟨dropped.within, ?_⟩
      split
      · exact still
      · rename_i none
        have tokens : t.tokens ≠ [] := by
          have := dropped.tokens
          have := List.length_pos_iff.mpr (by simpa using some)
          exact List.length_pos_iff.mp (by omega)
        simp only [Settled, needsMore, Ends.getThen, still, List.isEmpty_iff, tokens, Bool.false_eq_true, if_false]
        refine settles.andThen fun _ u same => ?_
        subst same
        simp only [Ends.getThen, Ends.pureIff]
        simpa using none

theorem upcomingLeads :
    Leads upcoming s fun placed t => Within s t ∧ Settled t ∧ (placed.token ≠ .streamEnd → t.tokens ≠ []) := by
  simp only [upcoming, roundsThen]
  suffices fetched : Leads _ s fun _ t => Within s t ∧ Settled t from fetched.andThen ?_
  · rintro _ t ⟨within, settled⟩
    simp only [Ends.getThen]
    split
    · rename_i same
      exact ⟨within, settled, fun _ => by simp [same]⟩
    · exact ⟨within, settled, fun other => absurd rfl other⟩
  · refine Ends.loop (I := fun n _ t => Within s t ∧ t.ahead ≤ n) ⟨.refl s, ?_⟩ ?_ ?_
    · simp only [Scanner.ahead, s.counted]
      split <;> omega
    · rintro _ n _ t ⟨within, few⟩
      refine needsMoreLeads.andThen fun more u ⟨kept, rest⟩ => ?_
      cases more with
      | false => exact ⟨within.trans kept, rest⟩
      | true =>
        refine (fetchedNext rest).andThen fun _ v fetched => ?_
        have := fetched.further
        have := kept.ahead
        exact ⟨(within.trans kept).trans fetched.toWithin, by omega⟩
    · rintro _ t ⟨within, few⟩
      refine ⟨within, settledDone ?_⟩
      simp only [Scanner.ahead] at few
      split at few
      · assumption
      · omega

theorem nextLeads (some : s.tokens ≠ []) : Leads next s fun _ t => t.work + 1 ≤ s.work := by
  refine upcomingLeads.andThen fun _ t ⟨within, _⟩ => ?_
  have work := within.work
  have tokens := within.tokens
  have := List.length_pos_iff.mpr some
  simp only [Ends.modifyThen, Ends.pureIff, Scanner.work, List.length_drop] at work ⊢
  omega

end Fetch

end FlowAtlas.Yaml
