import FlowAtlas.Proofs.Diagram.Labels
/-! The escaping of labels as a whole. Its passes come to one substitution on single characters; so a label may be
escaped piece by piece, and just the labels without a replaced character are left as they are. -/
namespace FlowAtlas.Diagram

theorem escapedPasses {s : String} {t : List Char} :
    Text.Passes labelReplacements s.toList t ↔ t = (escapeLabel s).toList := by
  rw [Text.passesFold, escapeLabel, String.toList_ofList]

theorem escapedAppend (a b : String) : escapeLabel (a ++ b) = escapeLabel a ++ escapeLabel b := by
  apply String.toList_injective
  calc (escapeLabel (a ++ b)).toList
    _ = (a.toList ++ b.toList).flatMap labelChars := by rw [escapedChars, String.toList_append]
    _ = a.toList.flatMap labelChars ++ b.toList.flatMap labelChars := List.flatMap_append
    _ = (escapeLabel a ++ escapeLabel b).toList := by rw [String.toList_append, escapedChars, escapedChars]

theorem escapedSame {s : String} : escapeLabel s = s ↔ ∀ c ∈ replaced, c ∉ s.toList := by
  constructor
  · intro same c special
    rw [← same]
    exact escapedFree special s
  · intro free
    apply String.toList_injective
    rw [escapedChars]
    apply Text.flatMapAlone
    intro c mem
    exact labelCharsOther fun special => free c special mem

theorem escapedTwice (s : String) : escapeLabel (escapeLabel s) = escapeLabel s :=
  escapedSame.mpr fun _ special => escapedFree special s

/- The passes of the table against the one substitution. That what comes out is clear of the replaced characters, and
that such labels are the ones left alone, makes a second escaping idle. -/
theorem labelsSubstituted :
    (∀ s : String, ∀ t, Text.Passes labelReplacements s.toList t ↔ t = (escapeLabel s).toList) ∧
      (∀ s, escapeLabel s = String.ofList (s.toList.flatMap labelChars)) ∧
      (∀ a b, escapeLabel (a ++ b) = escapeLabel a ++ escapeLabel b) ∧
      (∀ s, escapeLabel (escapeLabel s) = escapeLabel s) ∧
      (∀ s, ∀ c ∈ ['"', '<', '>', '\n', '\r'], c ∉ (escapeLabel s).toList) ∧
      ∀ s, escapeLabel s = s ↔ ∀ c ∈ ['"', '<', '>', '\n', '\r'], c ∉ s.toList := by
  refine ⟨fun _ _ => escapedPasses, ?_, escapedAppend, escapedTwice, fun s _ special => escapedFree special s,
    fun _ => escapedSame⟩
  intro s
  rw [← escapedChars, String.ofList_toList]

end FlowAtlas.Diagram
