import FlowAtlas.Settings.Load
/-! What a settings file comes to. A file is taken as a whole or not at all: when some field of it does not fit, the
settings are the usual ones. A file that is no text is not ignored but stops the loading. -/
namespace FlowAtlas

namespace Schema

variable {α β γ : Type}

namespace Checked

theorem mapGood {f : α → β} {a : Checked α} {b : β} : f <$> a = .good b ↔ ∃ x, a = .good x ∧ f x = b := by
  change a.map f = .good b ↔ _
  cases a <;> simp [Checked.map]

theorem seqGood {f : Checked (α → β)} {a : Checked α} {b : β} :
    f <*> a = .good b ↔ ∃ g x, f = .good g ∧ a = .good x ∧ g x = b := by
  change f.seq a = .good b ↔ _
  cases f <;> cases a <;> simp [Checked.seq]

theorem withinGood {step : Step} {a : Checked α} {x : α} : a.within step = .good x ↔ a = .good x := by
  cases a <;> simp [within]

theorem andThenGood {a : Checked α} {check : α → Checked β} {b : β} :
    a.andThen check = .good b ↔ ∃ x, a = .good x ∧ check x = .good b := by
  cases a <;> simp [andThen]

end Checked

def Takes (fields : List (String × α)) (name : String) (usual : β) (read : α → Checked β) (value : β) : Prop :=
  match Table.get? name fields with
  | some given => read given = .good value
  | none => value = usual

theorem optionalGood {fields : List (String × α)} {name : String} {usual value : β} {read : α → Checked β} :
    optional (.word name) usual read fields = .good value ↔ Takes fields name usual read value := by
  unfold optional FieldName.find FieldName.word Takes
  cases Table.get? name fields with
  | none => simp [eq_comm]
  | some given => exact Checked.withinGood

section

variable {fields : List (String × α)} {name : String} {usual : γ} {read : α → Checked β} {widen : γ → β}

/- A further check that takes just the images of `widen` can be read as a condition on the value taken. -/
theorem takesNarrowed {narrow : β → Checked γ} {value : γ} (good : ∀ b c, narrow b = .good c ↔ b = widen c) :
    Takes fields name usual (fun v => (read v).andThen narrow) value ↔
      Takes fields name (widen usual) read (widen value) := by
  have apart : ∀ c d, widen c = widen d → c = d := by
    intro c d same
    have narrowed := (good (widen c) c).mpr rfl
    rw [same, (good (widen d) d).mpr rfl] at narrowed
    cases narrowed
    rfl
  unfold Takes
  cases Table.get? name fields with
  | none => exact ⟨congrArg widen, apart _ _⟩
  | some given => simp [Checked.andThenGood, good]

theorem takesOrUnread (fields : List (String × α)) (name : String) (usual : γ) (read : α → Checked β)
    (widen : γ → β) : (∃ value, Takes fields name (widen usual) read (widen value)) ∨
      ∃ given, Table.get? name fields = some given ∧ ∀ value, read given ≠ .good (widen value) := by
  unfold Takes
  cases Table.get? name fields with
  | none => exact Or.inl ⟨usual, rfl⟩
  | some given =>
    by_cases reads : ∃ value, read given = .good (widen value)
    · exact Or.inl reads
    · exact Or.inr ⟨given, rfl, not_exists.mp reads⟩

theorem takesGiven {value : β} {default : β} {given : α} (takes : Takes fields name default read value)
    (found : Table.get? name fields = some given) : read given = .good value := by
  unfold Takes at takes
  rwa [found] at takes

end

end Schema

open Schema (Checked Takes)

theorem DiagramKind.ofNameIff {name : String} {kind : DiagramKind} : ofName? name = some kind ↔ name = kind.name := by
  constructor
  · intro found
    have named := List.find?_some found
    exact (of_decide_eq_true named).symm
  · rintro rfl
    cases kind <;> decide

namespace Settings

theorem limitGood {given : Int} {limit : Nat} : checkLimit given = .good limit ↔ given = limit := by
  unfold checkLimit
  split <;> simp [Checked.fail] <;> omega

theorem unknownNone {names : List String} : (names.filter fun name => (DiagramKind.ofName? name).isNone) = [] ↔
    ∃ kinds : List DiagramKind, names = kinds.map (·.name) := by
  rw [List.filter_eq_nil_iff]
  constructor
  · intro known
    induction names with
    | nil => exact ⟨[], rfl⟩
    | cons name rest ih =>
      obtain ⟨here, later⟩ := List.forall_mem_cons.mp known
      obtain ⟨kinds, rfl⟩ := ih later
      obtain ⟨kind, found⟩ := Option.ne_none_iff_exists'.mp (by simpa using here)
      exact ⟨kind :: kinds, by rw [DiagramKind.ofNameIff.mp found, List.map_cons]⟩
  · rintro ⟨kinds, rfl⟩ name mem
    obtain ⟨kind, _, rfl⟩ := List.mem_map.mp mem
    simp [DiagramKind.ofNameIff.mpr rfl]

theorem namedKinds (kinds : List DiagramKind) : (kinds.map (·.name)).filterMap DiagramKind.ofName? = kinds := by
  have own : DiagramKind.ofName? ∘ DiagramKind.name = some := funext fun _ => DiagramKind.ofNameIff.mpr rfl
  rw [List.filterMap_map, own, List.filterMap_some]

theorem kindsGood {names : List String} {kinds : List DiagramKind} :
    checkKinds names = .good kinds ↔ names = kinds.map (·.name) := by
  unfold checkKinds
  split
  case h_1 known =>
    obtain ⟨given, rfl⟩ := unknownNone.mp known
    rw [namedKinds, Checked.good.injEq]
    constructor
    · rintro rfl
      rfl
    · intro same
      rw [← namedKinds given, same, namedKinds]
  case h_2 unknown =>
    exact iff_of_false nofun fun named => unknown (unknownNone.mpr ⟨kinds, named⟩)

section

variable {α : Type} [Schema.Viewed α] {fields : List (String × α)} {s : Settings}

structure Taken (fields : List (String × α)) (s : Settings) : Prop where
  title : Takes fields "title" ({} : Settings).title Schema.text s.title
  methodLimit : Takes fields "max_class_methods" (({} : Settings).methodLimit : Int) Schema.int s.methodLimit
  diagrams : Takes fields "diagrams" (({} : Settings).diagrams.map (·.name)) (Schema.listOf Schema.text)
    (s.diagrams.map (·.name))

inductive Unfit (fields : List (String × α)) : Prop
  | title {given} (found : Table.get? "title" fields = some given)
      (bad : ∀ title, Schema.text given ≠ .good title) : Unfit fields
  | methodLimit {given} (found : Table.get? "max_class_methods" fields = some given)
      (bad : ∀ limit : Nat, Schema.int given ≠ .good limit) : Unfit fields
  | diagrams {given} (found : Table.get? "diagrams" fields = some given)
      (bad : ∀ kinds : List DiagramKind, Schema.listOf Schema.text given ≠ .good (kinds.map (·.name))) : Unfit fields

theorem checkedGood : checkFields fields = .good s ↔ Taken fields s := by
  constructor
  · intro checked
    obtain ⟨_, kinds, front, diagrams, rfl⟩ := Checked.seqGood.mp checked
    obtain ⟨_, limit, first, methodLimit, rfl⟩ := Checked.seqGood.mp front
    obtain ⟨title, titled, rfl⟩ := Checked.mapGood.mp first
    constructor
    case title => exact Schema.optionalGood.mp titled
    case methodLimit => exact (Schema.takesNarrowed fun _ _ => limitGood).mp (Schema.optionalGood.mp methodLimit)
    case diagrams => exact (Schema.takesNarrowed fun _ _ => kindsGood).mp (Schema.optionalGood.mp diagrams)
  · rintro ⟨title, methodLimit, diagrams⟩
    have titled := Schema.optionalGood.mpr title
    have limited := Schema.optionalGood.mpr ((Schema.takesNarrowed fun _ _ => limitGood).mpr methodLimit)
    have chosen := Schema.optionalGood.mpr ((Schema.takesNarrowed fun _ _ => kindsGood).mpr diagrams)
    refine Checked.seqGood.mpr ⟨Settings.mk s.title s.methodLimit, s.diagrams, ?_, chosen, rfl⟩
    refine Checked.seqGood.mpr ⟨Settings.mk s.title, s.methodLimit, ?_, limited, rfl⟩
    exact Checked.mapGood.mpr ⟨s.title, titled, rfl⟩

theorem unfitNotTaken (unfit : Unfit fields) : ¬ Taken fields s := by
  intro taken
  cases unfit with
  | title found bad => exact bad _ (Schema.takesGiven taken.title found)
  | methodLimit found bad => exact bad _ (Schema.takesGiven taken.methodLimit found)
  | diagrams found bad => exact bad _ (Schema.takesGiven taken.diagrams found)

theorem takenOrUnfit (fields : List (String × α)) : (∃ s, Taken fields s) ∨ Unfit fields := by
  rcases Schema.takesOrUnread fields "title" _ Schema.text id with ⟨title, takesTitle⟩ | ⟨given, found, bad⟩
  case inr => exact Or.inr (.title found bad)
  rcases Schema.takesOrUnread fields "max_class_methods" _ Schema.int Int.ofNat with
    ⟨limit, takesLimit⟩ | ⟨given, found, bad⟩
  case inr => exact Or.inr (.methodLimit found bad)
  rcases Schema.takesOrUnread fields "diagrams" _ (Schema.listOf Schema.text) (List.map DiagramKind.name) with
    ⟨kinds, takesKinds⟩ | ⟨given, found, bad⟩
  case inr => exact Or.inr (.diagrams found bad)
  exact Or.inl ⟨⟨title, limit, kinds⟩, takesTitle, takesLimit, takesKinds⟩

theorem checkedRefused : (∃ issues, checkFields fields = .refused issues) ↔ Unfit fields := by
  constructor
  · rintro ⟨issues, refused⟩
    rcases takenOrUnfit fields with ⟨s, taken⟩ | unfit
    · rw [checkedGood.mpr taken] at refused
      cases refused
    · exact unfit
  · intro unfit
    cases checked : checkFields fields with
    | good s => exact absurd (checkedGood.mp checked) (unfitNotTaken unfit)
    | refused issues => exact ⟨issues, rfl⟩

end

inductive Yields (value : Yaml.Value) : Settings → Prop
  | plain (plain : ∀ entries, value.object ≠ .mapping entries) : Yields value {}
  | unfit {entries} (mapping : value.object = .mapping entries) (unfit : Unfit (value.textFields entries)) :
      Yields value {}
  | taken {entries s} (mapping : value.object = .mapping entries) (taken : Taken (value.textFields entries) s) :
      Yields value s

inductive Gives (text : String) : Settings → Prop
  | malformed {complaint} (faulty : Yaml.Value.ofText text = .error (.malformed complaint)) : Gives text {}
  | read {value s} (read : Yaml.Value.ofText text = .ok value) (yields : Yields value s) : Gives text s

theorem mappingChecked {value : Yaml.Value} {entries : List (Nat × Nat)}
    (mapping : value.object = .mapping entries) : check value = checkFields (value.textFields entries) := by
  have seen : Schema.Viewed.view value = .object (value.textFields entries) := by
    simp only [Schema.Viewed.view, mapping]
  rw [check, Schema.object, seen]
  rfl

theorem mappingSettings {value : Yaml.Value} {entries : List (Nat × Nat)}
    (mapping : value.object = .mapping entries) : (if value.object.isBlank then {} else ofValue value).settings =
      match checkFields (value.textFields entries) with
      | .good s => s
      | .refused _ => {} := by
  -- An empty mapping counts as blank, and checking it gives the usual settings as well.
  cases entries with
  | nil =>
    have usual : checkFields (value.textFields []) = .good {} := checkedGood.mpr ⟨rfl, rfl, rfl⟩
    rw [mapping, usual]
    rfl
  | cons entry rest =>
    have full : value.object.isBlank = false := by
      rw [mapping]
      rfl
    rw [full, ofValue, mapping, mappingChecked mapping]
    cases checkFields (value.textFields (entry :: rest)) <;> rfl

theorem plainSettings {value : Yaml.Value} (plain : ∀ entries, value.object ≠ .mapping entries) :
    (if value.object.isBlank then {} else ofValue value).settings = {} := by
  unfold ofValue
  split
  · rfl
  · split
    · rename_i entries mapping
      exact absurd mapping (plain entries)
    · rfl

theorem valueYields {value : Yaml.Value} {s : Settings} :
    (if value.object.isBlank then {} else ofValue value).settings = s ↔ Yields value s := by
  constructor
  · rintro rfl
    by_cases mapped : ∃ entries, value.object = .mapping entries
    · obtain ⟨entries, mapping⟩ := mapped
      rw [mappingSettings mapping]
      cases checked : checkFields (value.textFields entries) with
      | good s => exact .taken mapping (checkedGood.mp checked)
      | refused issues => exact .unfit mapping (checkedRefused.mp ⟨issues, checked⟩)
    · rw [plainSettings (not_exists.mp mapped)]
      exact .plain (not_exists.mp mapped)
  · intro yields
    cases yields with
    | plain plain => exact plainSettings plain
    | unfit mapping unfit =>
      obtain ⟨issues, refused⟩ := checkedRefused.mpr unfit
      rw [mappingSettings mapping, refused]
    | taken mapping taken => rw [mappingSettings mapping, checkedGood.mpr taken]

section

variable {text : String} {s : Settings}

theorem malformedGives {complaint : Yaml.Complaint} (faulty : Yaml.Value.ofText text = .error (.malformed complaint)) :
    Gives text s ↔ s = {} := by
  constructor
  · intro gives
    cases gives with
    | malformed _ => rfl
    | read read _ => simp [faulty] at read
  · rintro rfl
    exact .malformed faulty

theorem scalarGives {fault : Yaml.ScalarFault} (faulty : Yaml.Value.ofText text = .error (.scalar fault)) :
    ¬ Gives text s := by
  intro gives
  cases gives with
  | malformed malformed => simp [faulty] at malformed
  | read read _ => simp [faulty] at read

theorem valueGives {value : Yaml.Value} (read : Yaml.Value.ofText text = .ok value) :
    Gives text s ↔ Yields value s := by
  constructor
  · intro gives
    cases gives with
    | malformed faulty => simp [read] at faulty
    | read again yields =>
      rw [read] at again
      cases again
      exact yields
  · exact .read read

theorem textGives : (∃ ignored, ofText text = .ok ⟨s, ignored⟩) ↔ Gives text s := by
  have loaded (l : Loaded) : (∃ ignored, l = ⟨s, ignored⟩) ↔ l.settings = s := by
    constructor
    · rintro ⟨ignored, rfl⟩
      rfl
    · rintro rfl
      exact ⟨l.ignored, rfl⟩
  unfold ofText
  split
  case h_1 complaint faulty =>
    simp only [Except.ok.injEq, loaded]
    rw [malformedGives faulty, eq_comm]
  case h_2 fault faulty => exact iff_of_false nofun (scalarGives faulty)
  case h_3 value read =>
    simp only [Except.ok.injEq, loaded]
    rw [valueYields, valueGives read]

theorem textLoaded : (∃ loaded, ofText text = .ok loaded) ↔
    ∀ fault, Yaml.Value.ofText text ≠ .error (.scalar fault) := by
  unfold ofText
  split
  case h_1 complaint faulty => simp [faulty]
  case h_2 fault faulty => simp [faulty]
  case h_3 value read => simp [read]

theorem textDecoded {fault : Text.Utf8.Fault} : ofText text ≠ .error (.undecodable fault) := by
  unfold ofText
  split <;> simp

end

end Settings

open Settings

theorem settingsLoaded (location : Location) (bytes : List UInt8) :
    load location .nothing = .ok {} ∧
      ((∃ loaded, load location (.file bytes) = .ok loaded) ↔
        ∃ text, Text.Utf8.readText bytes = .ok text ∧ ∀ fault, Yaml.Value.ofText text ≠ .error (.scalar fault)) ∧
      (∀ fault, load location (.file bytes) = .error (.undecodable fault) ↔
        Text.Utf8.readText bytes = .error fault) ∧
      ∀ s, (∃ ignored, load location (.file bytes) = .ok ⟨s, ignored⟩) ↔
        ∃ text, Text.Utf8.readText bytes = .ok text ∧ Gives text s := by
  refine ⟨rfl, ?_⟩
  simp only [load]
  cases decoded : Text.Utf8.readText bytes with
  | error fault => simp [eq_comm]
  | ok text =>
    refine ⟨?_, ?_, ?_⟩
    · simpa using textLoaded
    · simpa using fun fault => textDecoded
    · simpa using fun s => textGives

theorem undecodableStops :
    load (Settings.location {}) (.file [0xff]) = .error (.undecodable ⟨0, 0, 0xff, .badStart⟩) ∧
      ¬ ∃ loaded, load (Settings.location {}) (.file [0xff]) = .ok loaded := by
  have stops : load (Settings.location {}) (.file [0xff]) = .error (.undecodable ⟨0, 0, 0xff, .badStart⟩) := rfl
  refine ⟨stops, ?_⟩
  rintro ⟨loaded, loads⟩
  rw [stops] at loads
  cases loads

end FlowAtlas
