import FlowAtlas.Proofs.Json.Inline
import FlowAtlas.Proofs.Text.Runs
/-! Where a comment opens in a document that stands inside a script element. Neither the escapes of a text nor the guard
of closing tags touch the four characters of the opening, so it is in the written document just where it is in one of
its texts. -/
namespace FlowAtlas.Json

def commentOpening : List Char := "<!--".toList

mutual

def words : Json → List String
  | text s => [s]
  | array items => itemWords items
  | object fields => fieldWords fields
  | null | bool _ | int _ | float _ => []

def itemWords : List Json → List String
  | [] => []
  | v :: rest => words v ++ itemWords rest

def fieldWords : List (String × Json) → List String
  | [] => []
  | (k, v) :: rest => k :: words v ++ fieldWords rest

end

def OpensComment (words : List String) : Prop := ∃ w ∈ words, commentOpening <:+: w.toList

instance (words : List String) : Decidable (OpensComment words) :=
  inferInstanceAs (Decidable (∃ w ∈ words, commentOpening <:+: w.toList))

theorem itemWordsMap (items : List Json) : itemWords items = items.flatMap words := by
  induction items with
  | nil => rfl
  | cons v rest ih => rw [itemWords, ih, List.flatMap_cons]

theorem fieldWordsMap (fields : List (String × Json)) :
    fieldWords fields = fields.flatMap fun f => f.1 :: f.2.words := by
  induction fields with
  | nil => rfl
  | cons f rest ih => rw [fieldWords, ih, List.flatMap_cons]

theorem fieldSubset {fields : List (String × Json)} (key : String) {value : Json} (mem : (key, value) ∈ fields) :
    value.words ⊆ (object fields).words := by
  intro w inside
  rw [words, fieldWordsMap, List.mem_flatMap]
  exact ⟨(key, value), mem, List.mem_cons_of_mem _ inside⟩

theorem itemSubset {α : Type} (f : α → Json) {items : List α} {x : α} (mem : x ∈ items) :
    (f x).words ⊆ (array (items.map f)).words := by
  intro w inside
  rw [words, itemWordsMap, List.mem_flatMap]
  exact ⟨f x, List.mem_map_of_mem mem, inside⟩

theorem textField {fields : List (String × Json)} (key : String) {value : String}
    (mem : (key, .text value) ∈ fields) : value ∈ (object fields).words :=
  fieldSubset key mem List.mem_cons_self

theorem textsField {fields : List (String × Json)} (key : String) {values : List String}
    (mem : (key, .texts values) ∈ fields) : values ⊆ (object fields).words := by
  intro value listed
  exact fieldSubset key mem (itemSubset text listed List.mem_cons_self)

theorem opensFlatMap {α : Type} (xs : List α) (f : α → List String) :
    OpensComment (xs.flatMap f) ↔ ∃ x ∈ xs, OpensComment (f x) := by
  simp only [OpensComment, List.mem_flatMap]
  constructor
  · rintro ⟨w, ⟨x, mem, inside⟩, opens⟩
    exact ⟨x, mem, w, inside, opens⟩
  · rintro ⟨x, mem, w, inside, opens⟩
    exact ⟨w, ⟨x, mem, inside⟩, opens⟩

theorem opensCons (w : String) (words : List String) :
    OpensComment (w :: words) ↔ commentOpening <:+: w.toList ∨ OpensComment words := by
  simp [OpensComment]

theorem noneOpens : ¬ OpensComment [] := by decide

theorem opensAppend (first second : List String) :
    OpensComment (first ++ second) ↔ OpensComment first ∨ OpensComment second := by
  simp [OpensComment, or_and_right, exists_or]

theorem OpensComment.mono {some all : List String} (opens : OpensComment some) (sub : some ⊆ all) :
    OpensComment all := by
  obtain ⟨w, mem, inside⟩ := opens
  exact ⟨w, sub mem, inside⟩

theorem openingSome : commentOpening ≠ [] := by decide

theorem openingApart {c : Char} (absent : c ∉ commentOpening) {s t : List Char} :
    commentOpening <:+: s ++ c :: t ↔ commentOpening <:+: s ∨ commentOpening <:+: t :=
  Text.infixApart absent openingSome

theorem openingFirst {c : Char} (absent : c ∉ commentOpening) {t : List Char} :
    commentOpening <:+: c :: t ↔ commentOpening <:+: t := by
  rw [← List.nil_append (c :: t), openingApart absent, List.infix_nil]
  simp [openingSome]

theorem openingSkips {c : Char} {t : List Char} (apart : ¬ commentOpening <+: c :: t) :
    commentOpening <:+: c :: t ↔ commentOpening <:+: t := by
  rw [List.infix_cons_iff]
  simp [apart]

theorem openingLast {c : Char} (absent : c ∉ commentOpening) {s : List Char} :
    commentOpening <:+: s ++ [c] ↔ commentOpening <:+: s := by
  rw [openingApart absent, List.infix_nil]
  simp [openingSome]

/- The opening has no slash, so the guard leaves it alone and makes none. -/
theorem guardPrefix {run : List Char} (angle : '<' ∉ run) (s : List Char) : run <+: guardClosing s ↔ run <+: s := by
  induction s generalizing run with
  | nil => rfl
  | cons c rest ih =>
    cases run with
    | nil => simp
    | cons k more =>
      rw [List.mem_cons, not_or] at angle
      by_cases here : c = '<'
      · have starts := guardHead (c :: rest)
        obtain ⟨after, same⟩ := List.head?_eq_some_iff.mp starts
        have apart : k ≠ c := fun same => angle.1 (same.trans here).symm
        rw [same, List.cons_prefix_cons, List.cons_prefix_cons]
        simp [apart]
      · rw [guardOther here, List.cons_prefix_cons, List.cons_prefix_cons, ih angle.2]

theorem guardOpening (s : List Char) : commentOpening <:+: guardClosing s ↔ commentOpening <:+: s := by
  fun_induction guardClosing s with
  | case1 rest ih =>
    have guarded : commentOpening <:+: '<' :: '\\' :: '/' :: guardClosing rest ↔
        commentOpening <:+: '\\' :: '/' :: guardClosing rest := openingSkips (by simp [commentOpening])
    have plain : commentOpening <:+: '<' :: '/' :: rest ↔ commentOpening <:+: '/' :: rest :=
      openingSkips (by simp [commentOpening])
    rw [guarded, plain, openingFirst (by decide), openingFirst (by decide), openingFirst (by decide), ih]
  | case2 c rest _ ih =>
    have starts : commentOpening <+: c :: guardClosing rest ↔ commentOpening <+: c :: rest := by
      rw [show commentOpening = '<' :: ['!', '-', '-'] from rfl, List.cons_prefix_cons, List.cons_prefix_cons,
        guardPrefix (by decide)]
    rw [List.infix_cons_iff, List.infix_cons_iff, starts, ih]
  | case3 => rfl

theorem escapeExpands (c : Char) : Text.Expands (· ∈ commentOpening) escapeRaw c := by
  rcases escapeShape c with ⟨same, -⟩ | ⟨tail, same, letters⟩
  · exact Or.inl same
  · have apart : (escapeLetters.all fun d => d ∉ commentOpening) = true := by decide
    refine Or.inr ⟨?_, by simp [same], ?_⟩
    · rw [decide_eq_false_iff_not]
      intro kept
      have stays : (commentOpening.all fun d => escapeRaw d = [d]) = true := by decide
      have alone := of_decide_eq_true (List.all_eq_true.mp stays c kept)
      rw [same, List.cons.injEq] at alone
      rw [← alone.1] at kept
      exact absurd kept (by decide)
    · intro d mem
      rw [same] at mem
      rw [decide_eq_false_iff_not]
      rcases List.mem_cons.mp mem with rfl | later
      · decide
      · exact of_decide_eq_true (List.all_eq_true.mp apart d (letters later))

theorem escapedOpening (s : List Char) : commentOpening <:+: s.flatMap escapeRaw ↔ commentOpening <:+: s := by
  have whole : commentOpening <:+: s.flatMap escapeRaw ++ [] ↔ commentOpening <:+: s ++ [] :=
    Text.expandedInfix openingSome (fun c mem => decide_eq_true mem) fun c _ => escapeExpands c
  simpa using whole

theorem stringOpening (s : String) : commentOpening <:+: writeString escapeRaw s ↔ commentOpening <:+: s.toList := by
  rw [writeString, List.cons_append, openingFirst (by decide), openingLast (by decide), escapedOpening]

theorem itemsOpening (items : List Json) :
    commentOpening <:+: lineItems items ↔ ∃ v ∈ items, commentOpening <:+: lineChars v := by
  induction items with
  | nil => simp [lineItems, openingSome]
  | cons v rest ih =>
    cases rest with
    | nil => simp [lineItems]
    | cons w more =>
      have split : lineItems (v :: w :: more) = lineChars v ++ ',' :: ' ' :: lineItems (w :: more) := by
        simp [lineItems]
      rw [split, openingApart (by decide), openingFirst (by decide), ih]
      simp

theorem fieldOpening (k : String) (v : Json) :
    commentOpening <:+: writeString escapeRaw k ++ ':' :: ' ' :: lineChars v ↔
      commentOpening <:+: k.toList ∨ commentOpening <:+: lineChars v := by
  rw [openingApart (by decide), openingFirst (by decide), stringOpening]

theorem fieldsOpening (fields : List (String × Json)) : commentOpening <:+: lineFields fields ↔
    ∃ f ∈ fields, commentOpening <:+: f.1.toList ∨ commentOpening <:+: lineChars f.2 := by
  induction fields with
  | nil => simp [lineFields, openingSome]
  | cons f rest ih =>
    obtain ⟨k, v⟩ := f
    cases rest with
    | nil => simp [lineFields, fieldOpening]
    | cons e more =>
      have split : lineFields ((k, v) :: e :: more) =
          (writeString escapeRaw k ++ ':' :: ' ' :: lineChars v) ++ ',' :: ' ' :: lineFields (e :: more) := by
        simp [lineFields]
      rw [split, openingApart (by decide), openingFirst (by decide), fieldOpening, ih]
      simp

theorem Worded.lineOpens {v : Json} (worded : Worded v) : commentOpening <:+: lineChars v ↔ OpensComment v.words := by
  induction worded with
  | null => decide
  | bool value => cases value <;> decide
  | text value => simp [lineChars, stringOpening, words, OpensComment]
  | array each ih =>
    rw [lineChars, List.cons_append, openingFirst (by decide), openingLast (by decide), itemsOpening, words,
      itemWordsMap, opensFlatMap]
    exact exists_congr fun v => and_congr_right fun mem => ih v mem
  | object distinct each ih =>
    rw [lineChars, List.cons_append, openingFirst (by decide), openingLast (by decide), fieldsOpening, words,
      fieldWordsMap, opensFlatMap]
    refine exists_congr fun f => and_congr_right fun mem => ?_
    rw [opensCons, ih f mem]

theorem Worded.inlineOpens {v : Json} (worded : Worded v) :
    commentOpening <:+: v.inline.toList ↔ OpensComment v.words := by
  rw [inline, String.toList_ofList, guardOpening, worded.lineOpens]

end FlowAtlas.Json
