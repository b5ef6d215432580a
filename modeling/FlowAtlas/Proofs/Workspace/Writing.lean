import FlowAtlas.Workspace.Folder
import Mathlib.Data.List.Basic
/-! Writing to the files of a folder. A file can be written where a location leads to a place that is no folder. No
write changes which places are folders, so every location goes on leading where it led before. -/
namespace FlowAtlas

theorem Except.bindOk {ε α β : Type} {x : Except ε α} {next : α → Except ε β} {b : β} :
    (x >>= next) = .ok b ↔ ∃ a, x = .ok a ∧ next a = .ok b := by
  cases x with
  | error e => exact iff_of_false (fun same => nomatch same) (fun ⟨_, same, _⟩ => nomatch same)
  | ok a => exact ⟨fun same => ⟨a, rfl, same⟩, fun ⟨_, rfl, same⟩ => same⟩

theorem Table.getAppend {κ β : Type} [DecidableEq κ] (key : κ) (first second : List (κ × β)) :
    get? key (first ++ second) = (get? key first).or (get? key second) := by
  induction first with
  | nil => rfl
  | cons entry rest ih =>
    obtain ⟨k, v⟩ := entry
    by_cases same : k = key <;> simp [get?, same, ih]

theorem joinedMem {c : Char} (apart : c ≠ '/') (parts : List String) :
    c ∈ (joinTexts "/" parts).toList ↔ ∃ part ∈ parts, c ∈ part.toList := by
  induction parts with
  | nil => simp [joinTexts]
  | cons part rest ih =>
    cases rest with
    | nil => simp [joinTexts]
    | cons next more =>
      rw [joinTexts, String.intercalate_cons_cons, ← joinTexts, String.toList_append, String.toList_append,
        List.mem_append, List.mem_append, ih]
      simp [apart]

theorem Location.textMem {c : Char} (slash : c ≠ '/') (point : c ≠ '.') (l : Location) :
    c ∈ l.text.toList ↔ c ∈ l.anchor.toList ∨ ∃ name ∈ l.names, c ∈ name.toList := by
  obtain ⟨anchor, names⟩ := l
  have joined := joinedMem slash names
  simp only [text]
  split
  · rename_i none
    subst none
    cases names <;> simp_all
  · split <;> simp [joined, slash]

namespace Folder

structure Keeps (f g : Folder) : Prop where
  root : g.root = f.root
  name : g.name = f.name
  folders : ∀ path, f.lookUp path = some .folder → g.lookUp path = some .folder

def SameFolders (f g : Folder) : Prop := Keeps f g ∧ Keeps g f

section

variable {f g : Folder}

theorem stepPath {names : List String} {name : String} {spot : Spot} : f.step (.path names) name = .ok spot ↔
    f.lookUp names = some .folder ∧ name.utf8ByteSize ≤ longestName ∧ .path (f.enter names name) = spot := by
  rw [step]
  cases f.lookUp names with
  | none => simp
  | some entry =>
    cases entry with
    | folder => by_cases long : longestName < name.utf8ByteSize <;> simp [long, Nat.not_le_of_lt, Nat.le_of_not_lt]
    | file bytes => simp

theorem stepTop {name : String} {spot : Spot} (down : name ≠ "..") : f.step .top name ≠ .ok spot := by
  simp [step, down]

theorem Keeps.step (keeps : Keeps f g) {spot next : Spot} {name : String} (taken : f.step spot name = .ok next) :
    g.step spot name = .ok next := by
  cases spot with
  | path names =>
    obtain ⟨folder, short, entered⟩ := stepPath.mp taken
    refine stepPath.mpr ⟨keeps.folders names folder, short, ?_⟩
    rw [← entered, enter, enter, keeps.name]
  | top => exact taken

theorem Keeps.steps (keeps : Keeps f g) {names : List String} {spot next : Spot}
    (taken : names.foldlM f.step spot = .ok next) : names.foldlM g.step spot = .ok next := by
  induction names generalizing spot with
  | nil => exact taken
  | cons name rest ih =>
    rw [List.foldlM_cons, Except.bindOk] at taken ⊢
    obtain ⟨middle, first, second⟩ := taken
    exact ⟨middle, keeps.step first, ih second⟩

theorem locateOk {l : Location} {spot : Spot} : f.locate l = .ok spot ↔
    l.text.contains '\x00' = false ∧ l.text.utf8ByteSize ≤ longestText ∧
      l.names.foldlM f.step (f.start l) = .ok spot := by
  rw [locate]
  by_cases empty : l.text.contains '\x00' = true
  · simp [empty]
  · by_cases long : l.text.utf8ByteSize > longestText
    · simp [empty, long, Nat.not_le_of_lt]
    · simp [empty, long, Nat.le_of_not_lt]

theorem Keeps.locate (keeps : Keeps f g) {l : Location} {spot : Spot} (found : f.locate l = .ok spot) :
    g.locate l = .ok spot := by
  obtain ⟨visible, short, taken⟩ := locateOk.mp found
  refine locateOk.mpr ⟨visible, short, ?_⟩
  rw [start, keeps.root]
  exact keeps.steps taken

theorem SameFolders.locate (same : SameFolders f g) {l : Location} {spot : Spot} :
    g.locate l = .ok spot ↔ f.locate l = .ok spot :=
  ⟨same.2.locate, same.1.locate⟩

theorem SameFolders.folders (same : SameFolders f g) {path : List String} :
    g.lookUp path = some .folder ↔ f.lookUp path = some .folder :=
  ⟨same.2.folders path, same.1.folders path⟩

def Takes (f : Folder) (l : Location) (path : List String) : Prop :=
  f.locate l = .ok (.path path) ∧ f.lookUp path ≠ some .folder

theorem SameFolders.takes (same : SameFolders f g) {l : Location} {path : List String} :
    g.Takes l path ↔ f.Takes l path := by
  rw [Takes, Takes, same.locate, Ne, same.folders]

theorem Keeps.trans {h : Folder} (one : Keeps f g) (two : Keeps g h) : Keeps f h :=
  ⟨two.root.trans one.root, two.name.trans one.name, fun path folder => two.folders path (one.folders path folder)⟩

theorem SameFolders.refl (f : Folder) : SameFolders f f :=
  ⟨⟨rfl, rfl, fun _ => id⟩, ⟨rfl, rfl, fun _ => id⟩⟩

theorem SameFolders.trans {h : Folder} (one : SameFolders f g) (two : SameFolders g h) : SameFolders f h :=
  ⟨one.1.trans two.1, two.2.trans one.2⟩

theorem Takes.below {l : Location} {path : List String} (takes : f.Takes l path) : isUpwards path = false := by
  by_contra upwards
  rw [Bool.not_eq_false] at upwards
  exact takes.2 (if_pos upwards)

theorem lookUpBelow {path : List String} (below : isUpwards path = false) :
    f.lookUp path = Table.get? path f.entries := by
  rw [lookUp, below]
  rfl

structure Written (f : Folder) (path : List String) (bytes : List UInt8) (g : Folder) : Prop where
  same : SameFolders f g
  here : g.lookUp path = some (.file bytes)
  elsewhere : ∀ other ≠ path, g.lookUp other = f.lookUp other

theorem writeTaken {l : Location} {path : List String} (takes : f.Takes l path) (bytes : List UInt8) :
    ∃ g, f.writeBytes l bytes = .ok g ∧ Written f path bytes g := by
  have below := takes.below
  have here : Table.get? path (Table.set path (.file bytes) f.entries) = some (.file bytes) :=
    Table.getSetSame path _ _
  refine ⟨{ f with entries := Table.set path (.file bytes) f.entries }, ?_, ?_⟩
  · rw [writeBytes, takes.1]
    dsimp only
    split
    · rename_i folder
      exact absurd folder takes.2
    · rfl
  · have elsewhere : ∀ other ≠ path,
        ({ f with entries := Table.set path (.file bytes) f.entries } : Folder).lookUp other = f.lookUp other := by
      intro other apart
      rw [lookUp, lookUp, Table.getSetOther apart]
    constructor
    case here => rw [lookUpBelow below, here]
    case elsewhere => exact elsewhere
    case same =>
      refine ⟨⟨rfl, rfl, fun other folder => ?_⟩, ⟨rfl, rfl, fun other folder => ?_⟩⟩
      · rw [elsewhere other fun at_ => takes.2 (at_ ▸ folder), folder]
      · by_cases at_ : other = path
        · subst at_
          rw [lookUpBelow below, here] at folder
          cases folder
        · rw [← elsewhere other at_, folder]

theorem writeRefused {l : Location} (untaken : ¬ ∃ path, f.Takes l path) (bytes : List UInt8) :
    ∃ fault, f.writeBytes l bytes = .error fault := by
  rw [writeBytes]
  cases place : f.locate l with
  | error cause => exact ⟨_, rfl⟩
  | ok spot =>
    cases spot with
    | top => exact ⟨_, rfl⟩
    | path path =>
      have folder : f.lookUp path = some .folder := by
        by_contra file
        exact untaken ⟨path, place, file⟩
      simp [folder]

theorem locateChild {home : Location} {spot next : Spot} {name : String} (found : f.locate home = .ok spot)
    (below : f.locate (home.child [name]) = .ok next) : f.step spot name = .ok next := by
  have whole := (locateOk.mp below).2.2
  rw [Location.child, List.foldlM_append] at whole
  obtain ⟨middle, first, second⟩ := Except.bindOk.mp whole
  cases (locateOk.mp found).2.2.symm.trans first
  simpa using second

/- The one name that leads out of a folder above the working folder leads to the working folder itself. -/
theorem childTaken {home : Location} {spot : Spot} {name : String} {path : List String}
    (found : f.locate home = .ok spot) (down : name ≠ "..") (takes : f.Takes (home.child [name]) path) :
    ∃ base, spot = .path base ∧ path = base ++ [name] := by
  have entered := locateChild found takes.1
  cases spot with
  | top => exact absurd entered (stepTop down)
  | path base =>
    obtain ⟨-, -, same⟩ := stepPath.mp entered
    refine ⟨base, rfl, ?_⟩
    rw [Spot.path.injEq, enter, if_neg down] at same
    split at same
    · subst same
      cases takes.below
    · exact same.symm

theorem findFolder {l : Location} : f.find l = .folder ↔
    f.locate l = .ok .top ∨ ∃ path, f.locate l = .ok (.path path) ∧ f.lookUp path = some .folder := by
  rw [find]
  cases place : f.locate l with
  | error cause => cases cause <;> simp
  | ok spot =>
    cases spot with
    | top => simp
    | path path =>
      cases there : f.lookUp path with
      | none => simp [there]
      | some entry => cases entry <;> simp [there]

theorem madeFound {l : Location} (made : f.makeFolder l = .ok g) : g.find l = .folder := by
  rw [makeFolder] at made
  split at made
  · cases made
  · rename_i path place
    split at made
    · cases made
    · rename_i vacant
      cases made
      have below : isUpwards path = false := by
        by_contra upwards
        rw [Bool.not_eq_false] at upwards
        rw [lookUp, if_pos upwards] at vacant
        cases vacant
      have keeps : Keeps f { f with entries := f.entries ++ [(path, .folder)] } := by
        refine ⟨rfl, rfl, fun other folder => ?_⟩
        rw [lookUp] at folder ⊢
        split
        · rfl
        · rename_i down
          rw [if_neg down] at folder
          rw [Table.getAppend, folder, Option.some_or]
      rw [lookUpBelow below] at vacant
      refine findFolder.mpr (Or.inr ⟨path, keeps.locate place, ?_⟩)
      rw [lookUpBelow below, Table.getAppend, vacant]
      simp [Table.get?]
  · cases made

theorem ensuredFound {l : Location} (ensured : f.ensureFolder l = .ok g) : g.find l = .folder := by
  rw [ensureFolder] at ensured
  split at ensured
  · rename_i made
    cases ensured
    exact madeFound made
  · split at ensured
    · rename_i there
      cases ensured
      exact there
    · cases ensured

theorem foldersFound {l : Location} (made : f.makeFolders l = .ok g) : g.find l = .folder := by
  rw [makeFolders] at made
  unfold makeFoldersFrom at made
  split at made
  · rename_i none
    have whole : (⟨l.anchor, []⟩ : Location) = l := by
      rw [← List.reverse_eq_nil_iff.mp none]
    exact whole ▸ ensuredFound made
  · rename_i name outer names
    have whole : (⟨l.anchor, (name :: outer).reverse⟩ : Location) = l := by
      rw [← names, List.reverse_reverse]
    simp only [whole] at made
    cases attempt : f.makeFolder l with
    | ok h =>
      rw [attempt] at made
      cases made
      exact madeFound attempt
    | error fault =>
      obtain ⟨cause, place⟩ := fault
      have there : (if f.find l = .folder then Except.ok f else .error (⟨cause, place⟩ : FileFault)) = .ok g →
          g.find l = .folder := by
        intro kept
        split at kept
        · rename_i folder
          cases kept
          exact folder
        · cases kept
      rw [attempt] at made
      cases cause with
      | notFound =>
        dsimp only at made
        split at made
        · exact ensuredFound made
        · cases made
      | _ => exact there made

end

theorem childVisible {home : Location} {name : String} (visible : home.text.contains '\x00' = false)
    (plain : '\x00' ∉ name.toList) : (home.child [name]).text.contains '\x00' = false := by
  have absent : '\x00' ∉ (home.child [name]).text.toList := by
    rw [Location.textMem (by decide) (by decide), Location.child]
    have outer : '\x00' ∉ home.text.toList := by simpa using visible
    rw [Location.textMem (by decide) (by decide)] at outer
    simp_all
  simpa using absent

structure Fits (f : Folder) (home : Location) (name : String) : Prop where
  short : name.utf8ByteSize ≤ longestName
  reachable : (home.child [name]).text.utf8ByteSize ≤ longestText
  vacant : f.find (home.child [name]) ≠ .folder

theorem takenFits {f : Folder} {home : Location} {base : List String} {name : String}
    (found : f.locate home = .ok (.path base)) (folder : f.lookUp base = some .folder) (plain : '\x00' ∉ name.toList) :
    (∃ path, f.Takes (home.child [name]) path) ↔ Fits f home name := by
  constructor
  · rintro ⟨path, place, file⟩
    obtain ⟨-, reachable, -⟩ := locateOk.mp place
    obtain ⟨-, short, -⟩ := stepPath.mp (locateChild found place)
    refine ⟨short, reachable, fun same => ?_⟩
    rcases findFolder.mp same with top | ⟨other, inside, stands⟩
    · cases top.symm.trans place
    · cases inside.symm.trans place
      exact file stands
  · intro fits
    obtain ⟨visible, -, steps⟩ := locateOk.mp found
    have place : f.locate (home.child [name]) = .ok (.path (f.enter base name)) := by
      refine locateOk.mpr ⟨childVisible visible plain, fits.reachable, ?_⟩
      have entered : f.step (.path base) name = .ok (.path (f.enter base name)) :=
        stepPath.mpr ⟨folder, fits.short, rfl⟩
      rw [Location.child, List.foldlM_append, Except.bindOk]
      refine ⟨_, steps, ?_⟩
      simpa using entered
    exact ⟨_, place, fun stands => fits.vacant (findFolder.mpr (Or.inr ⟨_, place, stands⟩))⟩

end Folder

end FlowAtlas
