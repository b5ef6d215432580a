import FlowAtlas.Yaml.Token.Stream
/-! Scanning that takes at least one character. Every scan moves on in the text by its type; those that read the
content of a token also leave less of it than there was. -/
namespace FlowAtlas.Yaml.Scan

variable {α β : Type} {c : Cursor}

def Advances (step : Scan α) (c : Cursor) : Prop :=
  match step c with
  | .ok ⟨(_, d), _⟩ => d.rest.length < c.rest.length
  | .error _ => True

section

variable {step : Scan α} {next : α → Scan β}

/- What follows can only move on further. -/
theorem Advances.andThen (advances : Advances step c) : Advances (step >>= next) c := by
  unfold Advances at advances ⊢
  simp only [bind]
  cases taken : step c with
  | error fault => trivial
  | ok p =>
    obtain ⟨⟨a, d⟩, kept⟩ := p
    rw [taken] at advances
    cases later : next a d with
    | error fault => simp [later]
    | ok q =>
      obtain ⟨⟨b, e⟩, suffix⟩ := q
      simp only [later]
      exact Nat.lt_of_le_of_lt suffix.length_le advances

/- A loop with at least one round advances if its first round does. -/
theorem Advances.loop {rounds : Nat} {init : β} {body : Nat → β → Scan (ForInStep β)}
    (advances : Advances (body 0 init) c) : Advances (forIn [0:rounds + 1] init body) c := by
  rw [Std.Legacy.Range.forIn_eq_forIn_range', Std.Legacy.Range.size, Nat.sub_zero, Nat.add_sub_cancel, Nat.div_one,
    List.range'_succ, List.forIn_cons]
  exact advances.andThen

@[simp] theorem cursorThen {next : Cursor → Scan β} : Advances (cursor >>= next) c ↔ Advances (next c) c := by
  unfold Advances
  cases taken : next c c <;> simp [cursor, bind, taken]

@[simp] theorem hereThen {next : Place → Scan β} : Advances (here >>= next) c ↔ Advances (next c.place) c := by
  unfold Advances
  cases taken : next c.place c <;> simp [here, cursor, bind, pure, taken]

@[simp] theorem peekAtThen {next : Option Char → Scan β} (n : Nat) :
    Advances (peekAt n >>= next) c ↔ Advances (next c.rest[n]?) c := by
  unfold Advances
  cases taken : next c.rest[n]? c <;> simp [peekAt, cursor, bind, pure, taken]

@[simp] theorem peekThen {next : Option Char → Scan β} :
    Advances (peek >>= next) c ↔ Advances (next c.rest[0]?) c := peekAtThen 0

@[simp] theorem roundsThen {next : Nat → Scan β} :
    Advances (rounds >>= next) c ↔ Advances (next (c.left + 1)) c := by
  unfold Advances
  cases taken : next (c.left + 1) c <;> simp [rounds, cursor, bind, pure, taken]

@[simp] theorem setAllowKeyThen {next : Unit → Scan β} (allow : Bool) :
    Advances (setAllowKey allow >>= next) c ↔ Advances (next ()) { c with allowKey := allow } := by
  unfold Advances
  cases taken : next () { c with allowKey := allow } <;> simp [setAllowKey, bind, taken]

end

section

variable (more : c.rest ≠ [])

include more

theorem forwardAdvances {n : Nat} (positive : 0 < n) : Advances (forward n) c := by
  have fewer : (c.advanceBy n).rest.length < c.rest.length := by
    rw [c.advanceByRest, List.length_drop]
    have := List.length_pos_iff.mpr more
    omega
  exact fewer

theorem directiveAdvances : Advances directive c := by
  simp only [directive, hereThen]
  exact (forwardAdvances more Nat.one_pos).andThen

theorem nameTokenAdvances (task : Task) (token : String → Token) : Advances (nameToken task token) c := by
  simp only [nameToken, hereThen]
  exact (forwardAdvances more Nat.one_pos).andThen

theorem quotedAdvances (mark : Char) : Advances (Scan.quoted mark) c := by
  simp only [Scan.quoted, hereThen]
  exact (forwardAdvances more Nat.one_pos).andThen

theorem blockAdvances (indent : Int) (folded : Bool) : Advances (block indent folded) c := by
  simp only [block, hereThen]
  exact (forwardAdvances more Nat.one_pos).andThen

theorem tagHandleAdvances (task : Task) (start : Place) : Advances (tagHandle task start) c := by
  simp only [tagHandle, peekThen]
  split
  · trivial
  · exact (forwardAdvances more Nat.one_pos).andThen

theorem tagAdvances : Advances tag c := by
  simp only [tag, hereThen, peekAtThen]
  split
  · exact (forwardAdvances more Nat.two_pos).andThen
  · split
    · exact (forwardAdvances more Nat.one_pos).andThen
    · simp only [cursorThen]
      split
      · exact (tagHandleAdvances more .tag c.place).andThen
      · exact (forwardAdvances more Nat.one_pos).andThen

end

/-! Plain scalars, which start with a character that may not end them at once. -/

theorem plainRunStarts {flow : Bool} {rest : List Char} (starts : startsPlain flow rest) :
    rest.head? ≠ some '#' ∧ plainRun flow rest ≠ [] := by
  cases rest with
  | nil => cases starts
  | cons d rest =>
    simp only [startsPlain, Bool.or_eq_true, Bool.and_eq_true, Bool.not_eq_true', decide_eq_true_eq] at starts
    rcases starts with ⟨word, plain⟩ | ⟨word, rfl | ⟨block, rfl | rfl⟩⟩
    · simp only [indicators, List.contains_eq_mem, decide_eq_false_iff_not, List.mem_cons, not_or] at plain
      simp [plainRun, word, flowMarks, plain]
    all_goals simp_all [plainRun, flowMarks, separates, endsWord, endsLine, isBreak]

theorem plainAdvances {flow : Bool} (indent : Int) (starts : startsPlain flow c.rest) :
    Advances (plain flow indent) c := by
  obtain ⟨noComment, run⟩ := plainRunStarts starts
  have more : c.rest ≠ [] := by
    intro none
    rw [none] at starts
    cases starts
  simp only [plain, hereThen, roundsThen]
  refine (Advances.loop ?_).andThen
  rw [List.head?_eq_getElem?] at noComment
  simp only [peekThen, noComment, cursorThen, List.isEmpty_iff, run, setAllowKeyThen, if_false]
  exact (forwardAdvances (c := { c with allowKey := false }) more (List.length_pos_iff.mpr run)).andThen

end FlowAtlas.Yaml.Scan
