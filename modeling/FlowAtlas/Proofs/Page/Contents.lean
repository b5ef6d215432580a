import FlowAtlas.Page.Basic
import FlowAtlas.Proofs.Json.Inline
/-! What a page contains. No literal piece of the template has an underscore, so the marks are met where the
template puts them and nowhere else, and each gives way to its value. The inventory and the diagrams are documents
of texts and truth values, under keys that differ within every object. -/
namespace FlowAtlas

namespace Json

attribute [simp] Worded.bool Worded.text

theorem Worded.record {fields : List (String × Json)} (keys : List String) (same : fields.map (·.1) = keys)
    (distinct : keys.Nodup) (each : ∀ f ∈ fields, Worded f.2) : Worded (.object fields) :=
  .object (same ▸ distinct) each

theorem Worded.listed {α : Type} {items : List α} {f : α → Json} (each : ∀ x, Worded (f x)) :
    Worded (.array (items.map f)) := by
  refine .array fun v mem => ?_
  obtain ⟨x, -, rfl⟩ := List.mem_map.mp mem
  exact each x

@[simp] theorem Worded.texts (items : List String) : Worded (.texts items) := .listed .text

end Json

open Json (Worded)

theorem Element.worded (e : Element) : Worded e.toJson :=
  .record ["name", "fullName"] rfl (by decide) (by simp [fields])

theorem Controller.worded (c : Controller) : Worded c.toJson :=
  .record ["name", "fullName", "methods"] rfl (by decide) (by simp [Element.fields])

theorem Entity.worded (e : Entity) : Worded e.toJson :=
  .record ["name", "fullName", "isAggregateRoot", "methods"] rfl (by decide) (by simp [Element.fields])

theorem Handler.worded (h : Handler) : Worded h.toJson :=
  .record ["name", "fullName", "handledEventType", "commands"] rfl (by decide) (by simp [Element.fields])

theorem Converter.worded (v : Converter) : Worded v.toJson :=
  .record ["name", "fullName", "domainEventType", "integrationEventType"] rfl (by decide) (by simp [Element.fields])

theorem Relationship.worded (r : Relationship) : Worded r.toJson :=
  .record ["sourceType", "sourceMethod", "targetType", "targetMethod", "callType"] rfl (by decide) (by simp)

theorem Inventory.worded (inv : Inventory) : Worded inv.toJson := by
  refine .record ["controllers", "commands", "entities", "domainEvents", "integrationEvents", "domainEventHandlers",
    "integrationEventHandlers", "integrationEventConverters", "relationships"] rfl (by decide) ?_
  simp [Worded.listed, Controller.worded, Element.worded, Entity.worded, Handler.worded, Converter.worded,
    Relationship.worded]

namespace Page

section

variable (values : Place → String) (after : List Char)

theorem Place.markStarts (p : Place) : ∃ rest, p.mark.toList = '_' :: rest := by
  cases p <;> exact ⟨_, rfl⟩

theorem unmarked {c : Char} (plain : c ≠ '_') : marked? (c :: after) = none := by
  rw [marked?, List.findSome?_eq_none_iff]
  intro p _
  obtain ⟨rest, starts⟩ := p.markStarts
  simp [starts, plain.symm]

theorem marked (p : Place) : marked? (p.mark.toList ++ after) = some (p, after) := by
  cases p <;> rfl

theorem literalStays {before : List Char} (plain : '_' ∉ before) :
    substitute values (before ++ after) = before ++ substitute values after := by
  induction before with
  | nil => rfl
  | cons c rest ih =>
    rw [List.mem_cons, not_or] at plain
    rw [List.cons_append, substitute]
    split
    · rename_i p later found
      rw [unmarked _ (Ne.symm plain.1)] at found
      cases found
    · rw [ih plain.2, List.cons_append]

theorem markGives (p : Place) :
    substitute values (p.mark.toList ++ after) = (values p).toList ++ substitute values after := by
  obtain ⟨rest, starts⟩ := p.markStarts
  have found := marked after p
  rw [starts, List.cons_append] at found ⊢
  rw [substitute]
  split
  · rename_i q later same
    rw [found] at same
    cases same
    rfl
  · rename_i none
    rw [found] at none
    cases none

end

def Piece.filled (values : Place → String) : Piece → String
  | literal text => text
  | place p => values p

theorem piecesFilled (values : Place → String) {pieces : List Piece}
    (plain : ∀ text, .literal text ∈ pieces → '_' ∉ text.toList) :
    substitute values (String.join (pieces.map Piece.text)).toList =
      (String.join (pieces.map (Piece.filled values))).toList := by
  simp only [String.toList_join, List.flatMap_map]
  induction pieces with
  | nil => simp [substitute]
  | cons piece rest ih =>
    have later := ih fun text mem => plain text (List.mem_cons_of_mem piece mem)
    rw [List.flatMap_cons, List.flatMap_cons]
    cases piece with
    | literal text =>
      rw [Piece.text, literalStays values _ (plain text List.mem_cons_self), later]
      rfl
    | place p =>
      rw [Piece.text, markGives, later]
      rfl

theorem linesPlain {c : Char} (visible : c ≠ '\n') {lines : List String} (plain : ∀ l ∈ lines, c ∉ l.toList) :
    c ∉ ("\n".intercalate lines).toList := by
  rw [String.toList_intercalate]
  induction lines with
  | nil => simp
  | cons l rest ih =>
    obtain ⟨here, later⟩ := List.forall_mem_cons.mp plain
    cases rest with
    | nil => simpa using here
    | cons k rest =>
      rw [List.map_cons, List.map_cons, List.intercalate_cons_cons]
      simpa [here, visible] using ih later

theorem literalHolds {p : List Char → Prop} {chars : List Char} (holds : p chars) :
    p (String.ofList chars).toList := by
  rwa [String.toList_ofList]

theorem templatePlain (text : String) (mem : .literal text ∈ template) : '_' ∉ text.toList := by
  simp only [template, List.mem_cons, Piece.literal.injEq, List.not_mem_nil, or_false, reduceCtorEq, false_or] at mem
  rcases mem with rfl | rfl | rfl | rfl | rfl | rfl
  all_goals
    apply linesPlain (by decide)
    simp only [opening, beforeLibrary, style, beforeInventory, beforeDiagrams, script, List.forall_mem_cons,
      List.not_mem_nil, false_implies, implies_true, and_true]
    and_intros
  all_goals exact literalHolds (p := ('_' ∉ ·)) (by decide)

theorem figureWorded (f : Diagram.Figure) : Worded (figureJson f) :=
  .record ["name", "diagram"] rfl (by decide) (by simp)

theorem Gallery.worded (g : Gallery) : Worded g.toJson := by
  refine .record ["overview", "chains", "commandChains"] rfl (by decide) ?_
  simp [Worded.listed, figureWorded]

section

variable {c : Char}

def specials : List Char := ['&', '<', '>', '"', '\'']

theorem escapePlain (plain : c ∉ specials) : escapeChar c = [c] := by
  unfold escapeChar
  split <;> first | exact absurd (by decide) plain | rfl

/-- What the reader of a page sees of a text. -/
def readEntities : List Char → List Char
  | '&' :: 'a' :: 'm' :: 'p' :: ';' :: rest => '&' :: readEntities rest
  | '&' :: 'l' :: 't' :: ';' :: rest => '<' :: readEntities rest
  | '&' :: 'g' :: 't' :: ';' :: rest => '>' :: readEntities rest
  | '&' :: 'q' :: 'u' :: 'o' :: 't' :: ';' :: rest => '"' :: readEntities rest
  | '&' :: '#' :: 'x' :: '2' :: '7' :: ';' :: rest => '\'' :: readEntities rest
  | c :: rest => c :: readEntities rest
  | [] => []

theorem readPlainChar (plain : c ≠ '&') (rest : List Char) : readEntities (c :: rest) = c :: readEntities rest := by
  rw [readEntities]
  all_goals
    intros
    exact plain ‹c = '&'›

theorem readEscapedChar (c : Char) (rest : List Char) :
    readEntities (escapeChar c ++ rest) = c :: readEntities rest := by
  by_cases special : c ∈ specials
  · simp only [specials, List.mem_cons, List.not_mem_nil, or_false] at special
    rcases special with rfl | rfl | rfl | rfl | rfl <;> rfl
  · have other : c ≠ '&' := fun same => special (same ▸ List.mem_cons_self)
    rw [escapePlain special, List.singleton_append, readPlainChar other]

theorem escapeCharClear (c : Char) : ((escapeChar c).all fun d => d = '&' || d ∉ specials) = true := by
  by_cases special : c ∈ specials
  · simp only [specials, List.mem_cons, List.not_mem_nil, or_false] at special
    rcases special with rfl | rfl | rfl | rfl | rfl <;> decide
  · rw [escapePlain special, List.all_cons, List.all_nil]
    simp [special]

/- The ampersands that are left begin entities, and the entities stand for the text. -/
theorem escapeReadBack (s : String) : (∀ c ∈ (escape s).toList, c = '&' ∨ c ∉ specials) ∧
    readEntities (escape s).toList = s.toList := by
  rw [escape, String.toList_ofList]
  constructor
  · intro c mem
    obtain ⟨d, _, inside⟩ := List.mem_flatMap.mp mem
    simpa using List.all_eq_true.mp (escapeCharClear d) c inside
  · induction s.toList with
    | nil => rfl
    | cons c rest ih => rw [List.flatMap_cons, readEscapedChar, ih]

end

theorem templateFilled (values : Place → String) : fill values = String.join (template.map (Piece.filled values)) := by
  rw [fill, templateText, piecesFilled values templatePlain, String.ofList_toList]

theorem pageContents (inv : Inventory) (options : Options) :
    inv.page options = "\n".intercalate opening ++ escape options.title ++ "\n".intercalate beforeLibrary ++
        libraryAddress ++ "\n".intercalate style ++ escape options.title ++ "\n".intercalate beforeInventory ++
        inv.toJson.inline ++ "\n".intercalate beforeDiagrams ++
        (inv.gallery options.methodLimit options.choice).toJson.inline ++ "\n".intercalate script ∧
      Json.Embedded inv.toJson inv.toJson.inline ∧
      Json.Embedded (inv.gallery options.methodLimit options.choice).toJson
        (inv.gallery options.methodLimit options.choice).toJson.inline := by
  refine ⟨?_, inv.worded.embedded, (inv.gallery _ _).worded.embedded⟩
  rw [Inventory.page, templateFilled]
  simp only [template, List.map_cons, List.map_nil, Piece.filled, String.join_cons, String.join_nil,
    String.append_empty, String.append_assoc]

/- The mark of a place in a title is no place, and what the title opens is no tag. -/
theorem markedTitleStays : ∃ rest, ({} : Inventory).page { title := "<b>__DIAGRAM_DATA__" } =
    "\n".intercalate opening ++ "&lt;b&gt;__DIAGRAM_DATA__" ++ rest := by
  have shown : escape "<b>__DIAGRAM_DATA__" = "&lt;b&gt;__DIAGRAM_DATA__" := by decide
  have contents := (pageContents {} { title := "<b>__DIAGRAM_DATA__" }).1
  rw [shown] at contents
  simp only [String.append_assoc] at contents ⊢
  exact ⟨_, contents⟩

end Page

end FlowAtlas
