import FlowAtlas.Command.Session
import FlowAtlas.Proofs.Chain.FileNames
import FlowAtlas.Proofs.Inventory.ReadBack
import FlowAtlas.Proofs.Page.Contents
import FlowAtlas.Proofs.Text.Utf8
import FlowAtlas.Proofs.Workspace.Writing
/-! Exporting chains to a folder, one file a chain. The run writes the files one after another and stops at the first
that the folder refuses; what has been written by then is all there, each file with its own chain. -/
namespace FlowAtlas

open Folder

structure Exported (before after : Folder) (home : Location) (files : List (String × String)) : Prop where
  distinct : (files.map (·.1)).Nodup
  placed : ∀ file ∈ files, ∃ base, after.locate home = .ok (.path base) ∧
    after.locate (home.child [file.1]) = .ok (.path (base ++ [file.1]))
  holds : ∀ file ∈ files, ∃ bytes, after.find (home.child [file.1]) = .file bytes ∧
    Text.Utf8.decode bytes = .ok file.2
  others : ∀ path, (∀ file ∈ files, after.locate (home.child [file.1]) ≠ .ok (.path path)) →
    after.lookUp path = before.lookUp path

theorem Exported.none (f : Folder) (home : Location) : Exported f f home [] := by
  constructor <;> simp

section

variable {f g h : Folder} {home : Location} {spot : Folder.Spot} {file : String × String}
  {files : List (String × String)} {path : List String}

theorem Exported.first (found : f.locate home = .ok spot) (down : file.1 ≠ "..")
    (takes : f.Takes (home.child [file.1]) path) (written : Written f path (Text.Utf8.encode file.2) g)
    (same : SameFolders g h) (later : Exported g h home files) (fresh : file.1 ∉ files.map (·.1)) :
    Exported f h home (file :: files) := by
  obtain ⟨base, rfl, rfl⟩ := childTaken found down takes
  have whole := written.same.trans same
  have root : h.locate home = .ok (.path base) := whole.locate.mpr found
  have place : h.locate (home.child [file.1]) = .ok (.path (base ++ [file.1])) := whole.locate.mpr takes.1
  have content : h.lookUp (base ++ [file.1]) = some (.file (Text.Utf8.encode file.2)) := by
    rw [later.others, written.here]
    intro other listed at_
    obtain ⟨root', found', below⟩ := later.placed other listed
    cases root.symm.trans found'
    rw [below, Except.ok.injEq, Spot.path.injEq, List.append_cancel_left_eq, List.singleton_inj] at at_
    exact fresh (at_ ▸ List.mem_map_of_mem listed)
  constructor
  case distinct => exact List.nodup_cons.mpr ⟨fresh, later.distinct⟩
  case placed => exact List.forall_mem_cons.mpr ⟨⟨base, root, place⟩, later.placed⟩
  case holds =>
    refine List.forall_mem_cons.mpr ⟨⟨_, ?_, Text.Utf8.decodeEncoded file.2⟩, later.holds⟩
    rw [find, place]
    simp [content]
  case others =>
    intro other away
    obtain ⟨here, elsewhere⟩ := List.forall_mem_cons.mp away
    rw [later.others other elsewhere, written.elsewhere]
    rintro rfl
    exact here place

end

namespace Command

namespace Step

def isQuiet : Step → Bool
  | print _ | complain _ | display _ | note _ | browse _ => true
  | makeFolders _ | write _ _ => false

end Step

namespace Session

/-- The steps lead from a session to another: to what comes after them, or to a stop. -/
structure Leads (verbose : Bool) (s : Session) (steps : List Step) (t : Session) : Prop where
  on : t.ending = .done → ∀ ending rest, takeAll verbose ending s (steps ++ rest) = takeAll verbose ending t rest
  stop : t.ending ≠ .done → ∀ ending rest, takeAll verbose ending s (steps ++ rest) = t

section

variable {s t u : Session} {verbose : Bool} {step : Step} {steps more : List Step}

theorem takeEnding (s : Session) (step : Step) :
    (s.take verbose step).ending = s.ending ∨ ∃ fault, (s.take verbose step).ending = .stopped fault := by
  cases step with
  | note n =>
    rw [take]
    split <;> exact Or.inl rfl
  | makeFolders l =>
    rw [take]
    cases s.folder.makeFolders l with
    | ok folder => exact Or.inl rfl
    | error fault => exact Or.inr ⟨_, rfl⟩
  | write l text =>
    rw [take]
    cases s.folder.writeText l text with
    | ok folder => exact Or.inl rfl
    | error fault => exact Or.inr ⟨_, rfl⟩
  | _ => exact Or.inl rfl

theorem quietTaken (verbose : Bool) (s : Session) (step : Step) (quiet : step.isQuiet = true) :
    (s.take verbose step).folder = s.folder ∧ (s.take verbose step).ending = s.ending := by
  cases step with
  | note n =>
    rw [take]
    split <;> exact ⟨rfl, rfl⟩
  | makeFolders l => cases quiet
  | write l text => cases quiet
  | _ => exact ⟨rfl, rfl⟩

theorem Leads.single (running : s.ending = .done) (step : Step) : Leads verbose s [step] (s.take verbose step) := by
  constructor
  case on =>
    intro done ending rest
    rw [List.singleton_append, takeAll]
    simp only [done]
  case stop =>
    intro stopped ending rest
    obtain ⟨fault, same⟩ := (takeEnding s step).resolve_left fun same => stopped (same.trans running)
    rw [List.singleton_append, takeAll]
    simp only [same]

theorem Leads.trans (one : Leads verbose s steps t) (running : t.ending = .done) (two : Leads verbose t more u) :
    Leads verbose s (steps ++ more) u := by
  constructor
  case on =>
    intro done ending rest
    rw [List.append_assoc, one.on running, two.on done]
  case stop =>
    intro stopped ending rest
    rw [List.append_assoc, one.on running, two.stop stopped]

theorem Leads.cut (one : Leads verbose s steps t) (stopped : t.ending ≠ .done) (more : List Step) :
    Leads verbose s (steps ++ more) t := by
  refine ⟨fun done => absurd done stopped, fun _ ending rest => ?_⟩
  rw [List.append_assoc, one.stop stopped]

theorem Leads.quietly (leads : Leads verbose s steps t) (step : Step) (quiet : step.isQuiet = true) :
    ∃ u : Session, u.folder = t.folder ∧ (u.ending = .done ↔ t.ending = .done) ∧
      Leads verbose s (steps ++ [step]) u := by
  by_cases done : t.ending = .done
  · obtain ⟨folder, same⟩ := quietTaken verbose t step quiet
    exact ⟨_, folder, same ▸ Iff.rfl, leads.trans done (.single done step)⟩
  · exact ⟨t, rfl, Iff.rfl, leads.cut done [step]⟩

theorem Leads.result (leads : Leads verbose s steps t) : (takeAll verbose .done s steps).folder = t.folder ∧
    ((takeAll verbose .done s steps).ending = .done ↔ t.ending = .done) := by
  by_cases done : t.ending = .done
  · have whole := leads.on done .done []
    rw [List.append_nil, takeAll] at whole
    rw [whole]
    exact ⟨rfl, iff_of_true rfl done⟩
  · have whole := leads.stop done .done []
    rw [List.append_nil] at whole
    rw [whole]
    exact ⟨rfl, Iff.rfl⟩

theorem makeStep (verbose : Bool) {l : Location} {made : Folder} (makes : s.folder.makeFolders l = .ok made) :
    (s.take verbose (.makeFolders l)).folder = made ∧ (s.take verbose (.makeFolders l)).ending = s.ending := by
  rw [take, makes]
  exact ⟨rfl, rfl⟩

theorem writeStep (verbose : Bool) (s : Session) (l : Location) (text : String) :
    (∃ path, s.folder.Takes l path ∧
        Written s.folder path (Text.Utf8.encode text) (s.take verbose (.write l text)).folder ∧
        (s.take verbose (.write l text)).ending = s.ending) ∨
      (¬ ∃ path, s.folder.Takes l path) ∧ (s.take verbose (.write l text)).folder = s.folder ∧
        ∃ fault, (s.take verbose (.write l text)).ending = .stopped fault := by
  rw [take, writeText]
  by_cases taken : ∃ path, s.folder.Takes l path
  · obtain ⟨path, takes⟩ := taken
    obtain ⟨g, wrote, written⟩ := writeTaken takes (Text.Utf8.encode text)
    rw [wrote]
    exact Or.inl ⟨path, takes, written, rfl⟩
  · obtain ⟨fault, refused⟩ := writeRefused taken (Text.Utf8.encode text)
    rw [refused]
    exact Or.inr ⟨taken, rfl, _, rfl⟩

theorem quietRun (verbose : Bool) (running : s.ending = .done) (quiet : ∀ step ∈ steps, step.isQuiet = true) :
    ∃ t : Session, t.folder = s.folder ∧ t.ending = .done ∧ Leads verbose s steps t := by
  induction steps generalizing s with
  | nil => exact ⟨s, rfl, running, fun _ _ _ => rfl, fun stopped => absurd running stopped⟩
  | cons step steps ih =>
    obtain ⟨here, later⟩ := List.forall_mem_cons.mp quiet
    obtain ⟨folder, same⟩ := quietTaken verbose s step here
    obtain ⟨t, kept, done, leads⟩ := ih (same.trans running) later
    exact ⟨t, kept.trans folder, done, (Leads.single running step).trans (same.trans running) leads⟩

end

end Session

theorem notesQuiet (notices : List Notice) : ∀ step ∈ noteAll notices, step.isQuiet = true := by
  intro step mem
  obtain ⟨n, _, rfl⟩ := List.mem_map.mp mem
  rfl

def exportFiles (ix : Index) (position : Nat) (chains : List Chain) : List (String × String) :=
  chains.mapIdx fun i c => (chainFileName (i + position : Nat) c.name, (Inventory.chainFigure ix c).text)

section

variable (ix : Index) (position : Nat) (c : Chain) (chains : List Chain)

theorem exportFilesCons : exportFiles ix position (c :: chains) =
    (chainFileName position c.name, (Inventory.chainFigure ix c).text) :: exportFiles ix (position + 1) chains := by
  simp only [exportFiles, List.mapIdx_cons, Nat.zero_add, Nat.add_right_comm _ 1 position, Nat.add_assoc]

theorem exportNamesLater {name : String} (listed : name ∈ (exportFiles ix position chains).map (·.1)) :
    ∃ later ≥ position, ∃ x, name = chainFileName (later : Nat) x := by
  obtain ⟨file, mem, rfl⟩ := List.mem_map.mp listed
  obtain ⟨i, inside, rfl⟩ := List.mem_mapIdx.mp mem
  exact ⟨i + position, Nat.le_add_left position i, _, rfl⟩

theorem exportNameFresh (name : String) :
    chainFileName position name ∉ (exportFiles ix (position + 1) chains).map (·.1) := by
  intro listed
  obtain ⟨later, after, x, same⟩ := exportNamesLater ix (position + 1) chains listed
  have equal := positionOfName same
  omega

theorem exportStepsCons (home : Location) : exportSteps ix home position (c :: chains) =
    noteAll ((Account.ofDrawing [c]).notices []) ++
      .write (home.child [chainFileName position c.name]) (Inventory.chainFigure ix c).text ::
        .note (.written (home.child [chainFileName position c.name]).text) ::
          exportSteps ix home (position + 1) chains := by
  rw [exportSteps, List.append_assoc]
  rfl

end

def AllTaken (f : Folder) (home : Location) (files : List (String × String)) : Prop :=
  ∀ file ∈ files, ∃ path, f.Takes (home.child [file.1]) path

theorem exportFits {f : Folder} {home : Location} {base : List String} (found : f.locate home = .ok (.path base))
    (folder : f.lookUp base = some .folder) (ix : Index) (position : Nat) (chains : List Chain) :
    AllTaken f home (exportFiles ix position chains) ↔
      ∀ file ∈ exportFiles ix position chains, Fits f home file.1 := by
  refine forall₂_congr fun file listed => takenFits found folder ?_
  obtain ⟨later, -, x, same⟩ := exportNamesLater ix position chains (List.mem_map_of_mem listed)
  intro empty
  rw [same] at empty
  cases fileNamePlain later x _ empty

structure Concluded (f : Folder) (home : Location) (files : List (String × String)) (t : Session) : Prop where
  part : ∃ written ≤ files.length, Exported f t.folder home (files.take written) ∧
    (t.ending = .done ↔ written = files.length)
  finished : t.ending = .done ↔ AllTaken f home files
  same : SameFolders f t.folder

theorem Concluded.transfer {f : Folder} {home : Location} {files : List (String × String)} {s t : Session}
    (settled : Concluded f home files t) (folder : s.folder = t.folder) (ending : s.ending = .done ↔ t.ending = .done) :
    Concluded f home files s := by
  obtain ⟨written, within, exported, whole⟩ := settled.part
  exact ⟨⟨written, within, folder ▸ exported, ending.trans whole⟩, ending.trans settled.finished,
    folder ▸ settled.same⟩

section

variable {f g : Folder} {home : Location} {t : Session} {file : String × String} {files : List (String × String)}

theorem Concluded.none (running : t.ending = .done) : Concluded t.folder home [] t := by
  refine ⟨⟨0, Nat.le_refl 0, .none _ _, iff_of_true running rfl⟩, iff_of_true running ?_, .refl _⟩
  intro file mem
  cases mem

theorem Concluded.first {spot : Folder.Spot} {path : List String} (found : f.locate home = .ok spot)
    (down : file.1 ≠ "..") (takes : f.Takes (home.child [file.1]) path)
    (written : Folder.Written f path (Text.Utf8.encode file.2) g) (fresh : file.1 ∉ files.map (·.1))
    (later : Concluded g home files t) : Concluded f home (file :: files) t := by
  obtain ⟨count, within, exported, whole⟩ := later.part
  constructor
  case part =>
    refine ⟨count + 1, Nat.succ_le_succ within, ?_, ?_⟩
    · exact exported.first found down takes written later.same fun listed =>
        fresh (List.map_subset _ (List.take_subset count _) listed)
    · rw [whole, List.length_cons, Nat.succ_inj]
  case finished =>
    rw [later.finished, AllTaken, AllTaken, List.forall_mem_cons]
    simp only [written.same.takes]
    exact ⟨fun rest => ⟨⟨path, takes⟩, rest⟩, And.right⟩
  case same => exact written.same.trans later.same

theorem Concluded.refused (refused : ¬ ∃ path, f.Takes (home.child [file.1]) path) (kept : t.folder = f)
    (stopped : t.ending ≠ .done) : Concluded f home (file :: files) t := by
  refine ⟨⟨0, Nat.zero_le _, kept ▸ .none _ _, ?_⟩, ?_, kept ▸ .refl _⟩
  · exact iff_of_false stopped (Nat.succ_ne_zero _).symm
  · exact iff_of_false stopped fun all => refused (all file List.mem_cons_self)

end

theorem exportRun (ix : Index) {home : Location} {spot : Folder.Spot} {s : Session} (verbose : Bool)
    (found : s.folder.locate home = .ok spot) (running : s.ending = .done) (position : Nat) (chains : List Chain) :
    ∃ t : Session, Concluded s.folder home (exportFiles ix position chains) t ∧
      Session.Leads verbose s (exportSteps ix home position chains) t := by
  induction chains generalizing s position with
  | nil => exact ⟨s, .none running, fun _ _ _ => rfl, fun stopped => absurd running stopped⟩
  | cons c chains ih =>
    rw [exportFilesCons, exportStepsCons]
    have fresh := exportNameFresh ix position chains c.name
    have down := fileNameDown position c.name
    generalize chainFileName position c.name = name at fresh down ⊢
    generalize (Inventory.chainFigure ix c).text = text
    obtain ⟨t, folder, done, noted⟩ :=
      Session.quietRun verbose running (notesQuiet ((Account.ofDrawing [c]).notices []))
    rw [← folder] at found ⊢
    have step := noted.trans done (Session.Leads.single done (.write (home.child [name]) text))
    rcases Session.writeStep verbose t (home.child [name]) text with
      ⟨path, takes, written, on⟩ | ⟨refused, kept, fault, stop⟩
    · generalize t.take verbose (.write (home.child [name]) text) = u at step written on
      obtain ⟨same, goes⟩ :=
        Session.quietTaken verbose u (.note (.written (home.child [name]).text)) rfl
      have step := step.trans (on.trans done)
        (Session.Leads.single (on.trans done) (.note (.written (home.child [name]).text)))
      generalize u.take verbose (.note (.written (home.child [name]).text)) = v at step same goes
      rw [← same] at written
      obtain ⟨w, later, leads⟩ := ih (written.same.locate.mpr found) (goes.trans (on.trans done)) (position + 1)
      refine ⟨w, .first found down takes written fresh later, ?_⟩
      simpa using step.trans (goes.trans (on.trans done)) leads
    · generalize t.take verbose (.write (home.child [name]) text) = u at step kept stop
      have stopped : u.ending ≠ .done := by rw [stop]; simp
      refine ⟨u, .refused refused kept stopped, ?_⟩
      simpa using
        step.cut stopped (.note (.written (home.child [name]).text) :: exportSteps ix home (position + 1) chains)

def chosenChains (inv : Inventory) (perCommand : Bool) : List Chain :=
  (if perCommand then inv.commandChains else inv.chains).map (·.toChain)

section

variable {w : Surroundings} {folder made : Folder} {file path : String} {inv : Inventory} {perCommand : Bool}

theorem exportPlan (path : String) (perCommand : Bool) (visible : file.contains '\x00' = false)
    (loaded : Inventory.load (Location.parse file) (w.find (Location.parse file)) = .ok inv) :
    ∃ opening : List Step, (∀ step ∈ opening, step.isQuiet = true) ∧
      planChains w file perCommand (some path) false =
        ⟨opening ++ if chosenChains inv perCommand = [] then [.sayWarning "No chains found"]
          else .makeFolders (Location.parse path) ::
            exportSteps inv.index (Location.parse path) 1 (chosenChains inv perCommand) ++
            [.sayDone ("Wrote " ++ toString (chosenChains inv perCommand).length ++ " chain diagram(s) to " ++
              (Location.parse path).text)], .done⟩ := by
  rw [planChains, withInventory, visible, loaded]
  simp only [Bool.false_eq_true, if_false, Plan.after, List.isEmpty_iff, chosenChains]
  rw [← List.append_assoc]
  refine ⟨_, ?_, rfl⟩
  intro step mem
  rcases List.mem_append.mp mem with opening | noted
  · rcases List.mem_cons.mp opening with rfl | warning
    · rfl
    · split at warning
      · rw [List.mem_singleton.mp warning]
        rfl
      · cases warning
  · exact notesQuiet _ step noted

variable {arguments : List String} {verbose : Bool}

theorem exportQuiet (read : Line.read arguments = .ok ⟨verbose, .chains file perCommand (some path) false⟩)
    (visible : file.contains '\x00' = false)
    (loaded : Inventory.load (Location.parse file) (folder.find (Location.parse file)) = .ok inv)
    (none : chosenChains inv perCommand = []) :
    (Session.run folder arguments).folder = folder ∧ (Session.run folder arguments).ending = .done := by
  obtain ⟨opening, quiet, plan⟩ := exportPlan (w := .ofFolder folder) path perCommand visible loaded
  rw [if_pos none] at plan
  have whole : ∀ step ∈ opening ++ [.sayWarning "No chains found"], step.isQuiet = true := by
    intro step mem
    rcases List.mem_append.mp mem with early | last
    · exact quiet step early
    · rw [List.mem_singleton.mp last]
      rfl
  obtain ⟨t, kept, done, leads⟩ := Session.quietRun (s := { folder }) verbose rfl whole
  have result := leads.result
  simp only [Session.run, read, Request.plan, plan]
  exact ⟨result.1.trans kept, result.2.mpr done⟩

theorem exportSettled (read : Line.read arguments = .ok ⟨verbose, .chains file perCommand (some path) false⟩)
    (visible : file.contains '\x00' = false)
    (loaded : Inventory.load (Location.parse file) (folder.find (Location.parse file)) = .ok inv)
    (some : chosenChains inv perCommand ≠ []) (makes : folder.makeFolders (Location.parse path) = .ok made) :
    Concluded made (Location.parse path) (exportFiles inv.index 1 (chosenChains inv perCommand))
      (Session.run folder arguments) := by
  obtain ⟨opening, quiet, plan⟩ := exportPlan (w := .ofFolder folder) path perCommand visible loaded
  rw [if_neg some] at plan
  obtain ⟨t, kept, done, opened⟩ := Session.quietRun (s := { folder }) verbose rfl quiet
  have makes' : t.folder.makeFolders (Location.parse path) = .ok made := by
    rw [kept, makes]
  obtain ⟨placed, running⟩ := Session.makeStep verbose makes'
  have reached := opened.trans done (Session.Leads.single done (.makeFolders (Location.parse path)))
  generalize t.take verbose (.makeFolders (Location.parse path)) = u at placed running reached
  obtain ⟨spot, found⟩ : ∃ spot, u.folder.locate (Location.parse path) = .ok spot := by
    rw [placed]
    rcases findFolder.mp (foldersFound makes) with top | ⟨base, inside, -⟩
    · exact ⟨_, top⟩
    · exact ⟨_, inside⟩
  obtain ⟨v, settled, ran⟩ := exportRun inv.index verbose found (running.trans done) 1 (chosenChains inv perCommand)
  rw [placed] at settled
  obtain ⟨last, same, ends, leads⟩ := (reached.trans (running.trans done) ran).quietly
    (.sayDone ("Wrote " ++ toString (chosenChains inv perCommand).length ++ " chain diagram(s) to " ++
      (Location.parse path).text)) rfl
  have result := leads.result
  rw [List.append_assoc, List.append_assoc, List.singleton_append] at result
  simp only [Session.run, read, Request.plan, plan]
  exact settled.transfer (result.1.trans same) (result.2.trans ends)

end

end Command

open Command FileName

/-- The position is read off a file name, whatever the chains are called; a file name is a plain one; and an export
leaves one file a chain right in its folder, exactly when every file fits there. -/
theorem exportedFilesApart {folder : Folder} {arguments : List String} {verbose perCommand : Bool} {file path : String}
    {inv : Inventory} (read : Line.read arguments = .ok ⟨verbose, .chains file perCommand (some path) false⟩)
    (visible : file.contains '\x00' = false)
    (loaded : Inventory.load (Location.parse file) (folder.find (Location.parse file)) = .ok inv) :
    (∀ (p q : Nat) (x y : String), chainFileName p x = chainFileName q y → p = q) ∧
    (∀ (p : Nat) (x : String), (∀ c ∈ (chainFileName p x).toList, isPlain c = true) ∧ ∃ slug, Slugged slug ∧
      (chainFileName p x).toList = padLeft 3 (toString p).toList ++ '-' :: slug ++ ".mmd".toList) ∧
    (chosenChains inv perCommand = [] →
      (Session.run folder arguments).folder = folder ∧ (Session.run folder arguments).ending = .done) ∧
    ∀ made, chosenChains inv perCommand ≠ [] → folder.makeFolders (Location.parse path) = .ok made →
      Concluded made (Location.parse path) (exportFiles inv.index 1 (chosenChains inv perCommand))
        (Session.run folder arguments) ∧
      ∀ base, made.locate (Location.parse path) = .ok (.path base) → ((Session.run folder arguments).ending = .done ↔
        ∀ e ∈ exportFiles inv.index 1 (chosenChains inv perCommand), Fits made (Location.parse path) e.1) := by
  refine ⟨fun p q x y => positionOfName, fun p x => ⟨fileNamePlain p x, ?_⟩, exportQuiet read visible loaded, ?_⟩
  · exact ⟨slug x.toList, slugged x.toList, fileNameChars p x⟩
  · intro made some makes
    have settled := exportSettled read visible loaded some makes
    refine ⟨settled, fun base inside => ?_⟩
    rw [settled.finished]
    rcases findFolder.mp (foldersFound makes) with top | ⟨base', inside', stands⟩
    · cases top.symm.trans inside
    · cases inside'.symm.trans inside
      exact exportFits inside stands inv.index 1 (chosenChains inv perCommand)

theorem Inventory.loadWritten (inv : Inventory) (location : Location) :
    Inventory.load location (.file (Text.Utf8.encode inv.toJson.inline)) = .ok inv := by
  have accepted : Inventory.ofJson inv.toJson = .ok inv := by
    rw [← inv.toJson.respelledCamel]
    exact Inventory.accepted (Inventory.readFields inv)
  have plain : '\r' ∉ inv.toJson.inline.toList :=
    fun mem => absurd (inv.worded.inlinePrinted '\r' mem) (by decide)
  simp only [Inventory.load, Inventory.ofBytes, Text.Utf8.readWritten plain, inv.worded.parsed, accepted]

def namesakes : Inventory where
  controllers := [⟨⟨"Shop", "North.Shop"⟩, []⟩, ⟨⟨"Shop", "South.Shop"⟩, []⟩]
  commands := [⟨"Buy", "Buy"⟩]
  relationships := [⟨"North.Shop", "Post", "Buy", "", "MethodToCommand"⟩,
    ⟨"South.Shop", "Post", "Buy", "", "MethodToCommand"⟩]

def snapshotFolder (bytes : List UInt8) (more : List (List String × Entry)) : Folder where
  root := "/home"
  name := "shop"
  entries := (["a.json"], .file bytes) :: more

def outFolder : Location := ⟨"", ["out"]⟩

theorem outParsed : Location.parse "out" = outFolder := by
  decide +kernel

section

variable (bytes : List UInt8)

theorem snapshotFound : (snapshotFolder bytes []).find (Location.parse "a.json") = .file bytes := by
  have parsed : Location.parse "a.json" = ⟨"", ["a.json"]⟩ := by decide +kernel
  have place : (snapshotFolder bytes []).locate ⟨"", ["a.json"]⟩ = .ok (.path ["a.json"]) :=
    locateOk.mpr ⟨by simp [Location.text, joinTexts], by simp [Location.text]; decide, rfl⟩
  rw [parsed, find, place]
  rfl

theorem outFound : (snapshotFolder bytes [(["out"], .folder)]).locate outFolder = .ok (.path ["out"]) :=
  locateOk.mpr ⟨by simp [outFolder, Location.text, joinTexts], by simp [outFolder, Location.text]; decide, rfl⟩

theorem outMade : (snapshotFolder bytes []).makeFolders outFolder = .ok (snapshotFolder bytes [(["out"], .folder)]) := by
  have place : (snapshotFolder bytes []).locate outFolder = .ok (.path ["out"]) :=
    locateOk.mpr ⟨by simp [outFolder, Location.text, joinTexts], by simp [outFolder, Location.text]; decide, rfl⟩
  have made : (snapshotFolder bytes []).makeFolder outFolder = .ok (snapshotFolder bytes [(["out"], .folder)]) := by
    rw [makeFolder, place]
    rfl
  rw [makeFolders]
  simp [outFolder, makeFoldersFrom] at made ⊢
  rw [made]

def exportLine : List String := ["chains", "a.json", "-o", "out"]

theorem exportLineRead : Line.read exportLine = .ok ⟨false, .chains "a.json" false (some "out") false⟩ := rfl

def namesakeFiles : List String := ["001-Shop.Post.mmd", "002-Shop.Post.mmd"]

theorem namesakeTaken {name : String} (named : name ∈ namesakeFiles) :
    (snapshotFolder bytes [(["out"], .folder)]).Takes (outFolder.child [name]) ["out", name] := by
  have each : name = "001-Shop.Post.mmd" ∨ name = "002-Shop.Post.mmd" := by
    simpa [namesakeFiles] using named
  have visible : (outFolder.child [name]).text.contains '\x00' = false := by
    rcases each with rfl | rfl <;> simp [outFolder, Location.text, Location.child, joinTexts]
  have short : (outFolder.child [name]).text.utf8ByteSize ≤ longestText := by
    rcases each with rfl | rfl <;> decide
  have free : (snapshotFolder bytes [(["out"], .folder)]).lookUp ["out", name] = none := rfl
  refine ⟨locateOk.mpr ⟨visible, short, ?_⟩, by simp [free]⟩
  rcases each with rfl | rfl <;> rfl

end

theorem namesakesExported :
    (exportFiles namesakes.index 1 (chosenChains namesakes false)).map (·.1) = namesakeFiles ∧
    (Session.run (snapshotFolder (Text.Utf8.encode namesakes.toJson.inline) []) exportLine).ending = .done ∧
    Exported (snapshotFolder (Text.Utf8.encode namesakes.toJson.inline) [(["out"], .folder)])
      (Session.run (snapshotFolder (Text.Utf8.encode namesakes.toJson.inline) []) exportLine).folder
      outFolder (exportFiles namesakes.index 1 (chosenChains namesakes false)) := by
  have names : (exportFiles namesakes.index 1 (chosenChains namesakes false)).map (·.1) = namesakeFiles := by
    decide +kernel
  have some : chosenChains namesakes false ≠ [] := by
    intro none
    rw [none] at names
    cases names
  have loaded := namesakes.loadWritten (Location.parse "a.json")
  generalize Text.Utf8.encode namesakes.toJson.inline = bytes at loaded ⊢
  rw [← snapshotFound bytes] at loaded
  obtain ⟨-, -, -, exporting⟩ := exportedFilesApart exportLineRead (by simp) loaded
  have settled := (exporting _ some (outParsed ▸ outMade bytes)).1
  rw [outParsed] at settled
  have takes : AllTaken (snapshotFolder bytes [(["out"], .folder)]) outFolder
      (exportFiles namesakes.index 1 (chosenChains namesakes false)) := by
    intro file listed
    have named := List.mem_map_of_mem (f := (·.1)) listed
    rw [names] at named
    exact ⟨_, namesakeTaken bytes named⟩
  obtain ⟨count, within, exported, whole⟩ := settled.part
  have done := settled.finished.mpr takes
  rw [whole.mp done, List.take_length] at exported
  exact ⟨names, done, exported⟩

def stretched : Inventory where
  controllers := [⟨⟨"Shop", "Shop"⟩, []⟩]
  commands := [⟨"Buy", "Buy"⟩]
  relationships := [⟨"Shop", String.ofList (List.replicate 250 'L'), "Buy", "", "MethodToCommand"⟩]

theorem stretchedRefused :
    (chosenChains stretched false).length = 1 ∧
    (Session.run (snapshotFolder (Text.Utf8.encode stretched.toJson.inline) []) exportLine).ending ≠ .done ∧
    ∀ path, (Session.run (snapshotFolder (Text.Utf8.encode stretched.toJson.inline) []) exportLine).folder.lookUp path =
      (snapshotFolder (Text.Utf8.encode stretched.toJson.inline) [(["out"], .folder)]).lookUp path := by
  have long : (exportFiles stretched.index 1 (chosenChains stretched false)).map
      (fun file => decide (file.1.utf8ByteSize ≤ longestName)) = [false] := by decide +kernel
  have count : (exportFiles stretched.index 1 (chosenChains stretched false)).length = 1 := by
    rw [← List.length_map, long]
    rfl
  have chains : (chosenChains stretched false).length = 1 := by
    rw [← count, exportFiles, List.length_mapIdx]
  have some : chosenChains stretched false ≠ [] := List.ne_nil_of_length_pos (chains ▸ Nat.one_pos)
  have loaded := stretched.loadWritten (Location.parse "a.json")
  generalize Text.Utf8.encode stretched.toJson.inline = bytes at loaded ⊢
  rw [← snapshotFound bytes] at loaded
  have settled := exportSettled (exportLineRead) (by simp) loaded some (outParsed ▸ outMade bytes)
  rw [outParsed] at settled
  have refused : (Session.run (snapshotFolder bytes []) exportLine).ending ≠ .done := by
    rw [Ne, settled.finished, exportFits (outFound bytes) rfl]
    intro fits
    generalize exportFiles stretched.index 1 (chosenChains stretched false) = files at long fits
    obtain ⟨file, listed, longer⟩ := List.mem_map.mp (long ▸ List.mem_singleton_self false)
    exact of_decide_eq_false longer (fits file listed).short
  obtain ⟨written, within, exported, whole⟩ := settled.part
  have none : written = 0 := by
    have apart := mt whole.mpr refused
    omega
  subst none
  refine ⟨chains, refused, fun path => exported.others path (by simp)⟩

end FlowAtlas
