import FlowAtlas.Chain.Extract
import FlowAtlas.Proofs.Inventory.Scan
/-! What sets off what, said of the collections and relationships alone, with no agenda and no visited
keys: in which roles a root reaches which keys. The triggers of the walk are compared with it. -/
namespace FlowAtlas

inductive SetsOff (inv : Inventory) : Role → Key → Role → Key → Prop
  | executes {command r} (listed : r ∈ inv.relationships) (kind : r.isOf .commandToAggregateMethod = true)
      (source : r.sourceType = command.typeName) (known : inv.index.isKnown r.targetType = true) :
      SetsOff inv .command command .aggregateMethod r.target
  | publishes {method r} (listed : r ∈ inv.relationships) (kind : r.isOf .methodToDomainEvent = true)
      (source : r.sourceType = method.typeName) (within : r.sourceMethod = method.method)
      (known : inv.index.isKnown r.targetType = true) :
      SetsOff inv .aggregateMethod method .domainEvent ⟨r.targetType, ""⟩
  | handled {event h} (listed : h ∈ inv.domainEventHandlers) (handles : h.handledEventType = event.typeName) :
      SetsOff inv .domainEvent event (.handler h.commands) ⟨h.fullName, ""⟩
  | converted {event v} (listed : v ∈ inv.integrationEventConverters)
      (converts : v.domainEventType = event.typeName) :
      SetsOff inv .domainEvent event (.converter v.integrationEventType) ⟨v.fullName, ""⟩
  | becomes {event converter} (known : inv.index.isKnown event = true) :
      SetsOff inv (.converter event) converter .integrationEvent ⟨event, ""⟩
  | received {event h} (listed : h ∈ inv.integrationEventHandlers)
      (handles : h.handledEventType = event.typeName) :
      SetsOff inv .integrationEvent event (.handler h.commands) ⟨h.fullName, ""⟩
  | sends {commands handler command} (listed : command ∈ commands)
      (known : inv.index.isKnown command = true) :
      SetsOff inv (.handler commands) handler .command ⟨command, ""⟩

inductive Starts (inv : Inventory) (root : Key) : Role → Key → Prop
  | sent {r} (listed : r ∈ inv.relationships) (kind : r.isOf .methodToCommand = true)
      (source : r.sourceType = root.typeName) (within : root.method = "" ∨ r.sourceMethod = root.method)
      (known : inv.index.isKnown r.targetType = true) : Starts inv root .command ⟨r.targetType, ""⟩
  | handled {commands command} (handler : inv.index.handlerCommands root.typeName = some commands)
      (listed : command ∈ commands) (known : inv.index.isKnown command = true) :
      Starts inv root .command ⟨command, ""⟩

inductive Triggered (inv : Inventory) (root : Key) : Role → Key → Prop
  | start {role key} (first : Starts inv root role key) : Triggered inv root role key
  | next {role key later n} (before : Triggered inv root role key) (step : SetsOff inv role key later n) :
      Triggered inv root later n

def Role.closes : Role → Bool
  | .handler _ | .converter _ => false
  | _ => true

theorem labelRole {a b : Role} (plain : b.closes = true) (same : a.label = b.label) : a = b := by
  cases b <;> cases a <;> simp [Role.closes, Role.label] at plain same ⊢

namespace Inventory

theorem keyKnown {inv : Inventory} {key : Key} (mem : key ∈ inv.keys) :
    inv.index.isKnown key.typeName = true := by
  simp only [keys, List.mem_append, List.mem_map, List.mem_filter] at mem
  rcases mem with ⟨e, listed, rfl⟩ | ⟨_, known⟩
  · exact knownIff.mpr ⟨e, listed, rfl⟩
  · exact known

theorem typeListed {inv : Inventory} {name : String} (known : inv.index.isKnown name = true) :
    (⟨name, ""⟩ : Key) ∈ inv.keys := by
  obtain ⟨e, listed, rfl⟩ := knownIff.mp known
  exact List.mem_append_left _ (List.mem_map.mpr ⟨e, listed, rfl⟩)

theorem methodListed {inv : Inventory} {r : Relationship} (listed : r ∈ inv.relationships)
    (kind : r.isOf .commandToAggregateMethod = true) (known : inv.index.isKnown r.targetType = true) :
    r.target ∈ inv.keys := by
  refine List.mem_append_right _ (List.mem_filter.mpr ⟨?_, known⟩)
  exact List.mem_map.mpr ⟨r, List.mem_filter.mpr ⟨listed, kind⟩, rfl⟩

end Inventory

theorem nextShape {ix : Index} {d t : Trigger} (mem : t ∈ d.next ix) :
    t = ⟨d.target, t.target, t.role, t.role.closes⟩ := by
  obtain ⟨source, target, role, closes⟩ := d
  cases role <;> simp only [Trigger.next, List.mem_append, List.mem_map, List.mem_singleton] at mem
  case command => obtain ⟨r, _, rfl⟩ := mem; rfl
  case aggregateMethod => obtain ⟨r, _, rfl⟩ := mem; rfl
  case domainEvent => rcases mem with ⟨h, _, rfl⟩ | ⟨v, _, rfl⟩ <;> rfl
  case integrationEvent => obtain ⟨h, _, rfl⟩ := mem; rfl
  case handler commands => obtain ⟨c, _, rfl⟩ := mem; rfl
  case converter event => rw [mem]; rfl

theorem nextSource {ix : Index} {d t : Trigger} (mem : t ∈ d.next ix) : t.source = d.target :=
  congrArg Trigger.source (nextShape mem)

theorem nextCloses {ix : Index} {d t : Trigger} (mem : t ∈ d.next ix) : t.closes = t.role.closes :=
  congrArg Trigger.closes (nextShape mem)

theorem nextSetsOff {inv : Inventory} {d t : Trigger} (mem : t ∈ d.next inv.index)
    (listed : t.target ∈ inv.keys) : SetsOff inv d.role d.target t.role t.target := by
  have known := Inventory.keyKnown listed
  obtain ⟨source, target, role, closes⟩ := d
  cases role <;> simp only [Trigger.next, List.mem_append, List.mem_map, List.mem_singleton] at mem
  case command =>
    obtain ⟨r, out, rfl⟩ := mem
    obtain ⟨mem, kind, source⟩ := Inventory.memOutgoingOf.mp out
    exact .executes mem kind source known
  case aggregateMethod =>
    obtain ⟨r, out, rfl⟩ := mem
    obtain ⟨out, within⟩ := List.mem_filter.mp out
    obtain ⟨mem, kind, source⟩ := Inventory.memOutgoingOf.mp out
    exact .publishes mem kind source (of_decide_eq_true within) known
  case domainEvent =>
    rcases mem with ⟨h, mem, rfl⟩ | ⟨v, mem, rfl⟩
    · rw [Inventory.domainHandlersScan, List.mem_filter] at mem
      exact .handled mem.1 (of_decide_eq_true mem.2)
    · rw [Inventory.convertersScan, List.mem_filter] at mem
      exact .converted mem.1 (of_decide_eq_true mem.2)
  case integrationEvent =>
    obtain ⟨h, mem, rfl⟩ := mem
    rw [Inventory.integrationHandlersScan, List.mem_filter] at mem
    exact .received mem.1 (of_decide_eq_true mem.2)
  case handler commands =>
    obtain ⟨c, mem, rfl⟩ := mem
    exact .sends mem known
  case converter event =>
    subst mem
    exact .becomes known

theorem setsOffNext {inv : Inventory} {d : Trigger} {role : Role} {key : Key}
    (step : SetsOff inv d.role d.target role key) :
    ⟨d.target, key, role, role.closes⟩ ∈ d.next inv.index ∧ key ∈ inv.keys := by
  obtain ⟨source, target, given, closes⟩ := d
  cases step with
  | executes listed kind source known =>
    refine ⟨List.mem_map.mpr ⟨_, Inventory.memOutgoingOf.mpr ⟨listed, kind, source⟩, rfl⟩, ?_⟩
    exact Inventory.methodListed listed kind known
  | publishes listed kind source within known =>
    refine ⟨List.mem_map.mpr ⟨_, List.mem_filter.mpr ⟨?_, by simpa using within⟩, rfl⟩, ?_⟩
    · exact Inventory.memOutgoingOf.mpr ⟨listed, kind, source⟩
    · exact Inventory.typeListed known
  | handled listed handles =>
    refine ⟨List.mem_append_left _ (List.mem_map.mpr ⟨_, ?_, rfl⟩), ?_⟩
    · simpa [Inventory.domainHandlersScan] using ⟨listed, handles⟩
    · exact Inventory.typeListed (Inventory.domainHandlerKnown listed)
  | converted listed converts =>
    refine ⟨List.mem_append_right _ (List.mem_map.mpr ⟨_, ?_, rfl⟩), ?_⟩
    · simpa [Inventory.convertersScan] using ⟨listed, converts⟩
    · exact Inventory.typeListed (Inventory.converterKnown listed)
  | becomes known => exact ⟨List.mem_singleton.mpr rfl, Inventory.typeListed known⟩
  | received listed handles =>
    refine ⟨List.mem_map.mpr ⟨_, ?_, rfl⟩, ?_⟩
    · simpa [Inventory.integrationHandlersScan] using ⟨listed, handles⟩
    · exact Inventory.typeListed (Inventory.integrationHandlerKnown listed)
  | sends listed known => exact ⟨List.mem_map.mpr ⟨_, listed, rfl⟩, Inventory.typeListed known⟩

theorem firstOfGroup {α : Type} {items : List α} (name : α → String) {event : α → String} {make : α → Trigger}
    {key : String} {d : Trigger} (targets : ∀ a, (make a).target = ⟨name a, ""⟩)
    (found : ((items.filter (fun a => event a = key)).map make).find? (fun t => t.target = d.target) = some d) :
    ∃ a, d = make a ∧ items.find? (fun b => name b = name a ∧ event b = key) = some a := by
  rw [List.find?_map, List.find?_filter, Option.map_eq_some_iff] at found
  obtain ⟨a, found, rfl⟩ := found
  refine ⟨a, rfl, ?_⟩
  rw [← found]
  congr 1
  funext b
  simp [targets, and_comm]

theorem domainEventEntry {inv : Inventory} {p d : Trigger} (event : p.role = .domainEvent)
    (found : (p.next inv.index).find? (fun t => t.target = d.target) = some d) :
    (∃ h, d = ⟨p.target, ⟨h.fullName, ""⟩, .handler h.commands, false⟩ ∧
        inv.domainEventHandlers.find? (fun other =>
          other.fullName = h.fullName ∧ other.handledEventType = p.target.typeName) = some h) ∨
      ∃ v, d = ⟨p.target, ⟨v.fullName, ""⟩, .converter v.integrationEventType, false⟩ ∧
        inv.integrationEventConverters.find? (fun other =>
          other.fullName = v.fullName ∧ other.domainEventType = p.target.typeName) = some v := by
  simp only [Trigger.next, event, List.find?_append, Option.or_eq_some_iff, Inventory.domainHandlersScan,
    Inventory.convertersScan] at found
  rcases found with handler | ⟨_, converter⟩
  · exact Or.inl (firstOfGroup (fun h : Handler => h.fullName) (fun _ => rfl) handler)
  · exact Or.inr (firstOfGroup (fun v : Converter => v.fullName) (fun _ => rfl) converter)

theorem integrationEventEntry {inv : Inventory} {p d : Trigger} (event : p.role = .integrationEvent)
    (found : (p.next inv.index).find? (fun t => t.target = d.target) = some d) :
    ∃ h, d = ⟨p.target, ⟨h.fullName, ""⟩, .handler h.commands, false⟩ ∧
      inv.integrationEventHandlers.find? (fun other =>
        other.fullName = h.fullName ∧ other.handledEventType = p.target.typeName) = some h := by
  simp only [Trigger.next, event, Inventory.integrationHandlersScan] at found
  exact firstOfGroup (fun h : Handler => h.fullName) (fun _ => rfl) found

theorem handlerSetOff {inv : Inventory} {role : Role} {n key : Key} {commands : List String}
    (step : SetsOff inv role n (.handler commands) key) : role = .domainEvent ∨ role = .integrationEvent := by
  cases step with
  | handled => exact Or.inl rfl
  | received => exact Or.inr rfl

theorem converterSetOff {inv : Inventory} {role : Role} {n key : Key} {event : String}
    (step : SetsOff inv role n (.converter event) key) : role = .domainEvent := by
  cases step
  rfl

theorem handlerEntry {inv : Inventory} {p d : Trigger} {commands : List String}
    (role : d.role = .handler commands) (listed : d.target ∈ inv.keys)
    (found : (p.next inv.index).find? (fun t => t.target = d.target) = some d) :
    ∃ h, d.target = ⟨h.fullName, ""⟩ ∧ h.commands = commands ∧
      ((p.role = .domainEvent ∧ inv.domainEventHandlers.find? (fun other =>
          other.fullName = h.fullName ∧ other.handledEventType = p.target.typeName) = some h) ∨
        (p.role = .integrationEvent ∧ inv.integrationEventHandlers.find? (fun other =>
          other.fullName = h.fullName ∧ other.handledEventType = p.target.typeName) = some h)) := by
  have step := nextSetsOff (List.mem_of_find?_eq_some found) listed
  rw [role] at step
  rcases handlerSetOff step with domain | integration
  · rcases domainEventEntry domain found with ⟨h, rfl, first⟩ | ⟨v, rfl, _⟩
    · cases role
      exact ⟨h, rfl, rfl, Or.inl ⟨domain, first⟩⟩
    · cases role
  · obtain ⟨h, rfl, first⟩ := integrationEventEntry integration found
    cases role
    exact ⟨h, rfl, rfl, Or.inr ⟨integration, first⟩⟩

theorem converterEntry {inv : Inventory} {p d : Trigger} {event : String} (role : d.role = .converter event)
    (listed : d.target ∈ inv.keys)
    (found : (p.next inv.index).find? (fun t => t.target = d.target) = some d) :
    ∃ v, d.target = ⟨v.fullName, ""⟩ ∧ v.integrationEventType = event ∧
      inv.integrationEventConverters.find? (fun other =>
        other.fullName = v.fullName ∧ other.domainEventType = p.target.typeName) = some v := by
  have step := nextSetsOff (List.mem_of_find?_eq_some found) listed
  rw [role] at step
  rcases domainEventEntry (converterSetOff step) found with ⟨h, rfl, _⟩ | ⟨v, rfl, first⟩
  · cases role
  · cases role
    exact ⟨v, rfl, rfl, first⟩

theorem memRootTriggers {ix : Index} {root : Key} {t : Trigger} :
    t ∈ Inventory.rootTriggers ix root ↔ ∃ command, t = ⟨root, ⟨command, ""⟩, .command, false⟩ ∧
      ((∃ r ∈ ix.outgoingOf .methodToCommand root.typeName,
          (root.method = "" ∨ r.sourceMethod = root.method) ∧ r.targetType = command) ∨
        ∃ commands, ix.handlerCommands root.typeName = some commands ∧ command ∈ commands) := by
  constructor
  · intro offered
    obtain ⟨command, mem, rfl⟩ := List.mem_map.mp offered
    refine ⟨command, rfl, ?_⟩
    rcases List.mem_append.mp mem with sent | handled
    · obtain ⟨r, out, rfl⟩ := List.mem_map.mp sent
      obtain ⟨out, within⟩ := List.mem_filter.mp out
      exact Or.inl ⟨r, out, by simpa using within, rfl⟩
    · cases handler : ix.handlerCommands root.typeName with
      | none => simp [handler] at handled
      | some commands => exact Or.inr ⟨commands, rfl, by simpa [handler] using handled⟩
  · rintro ⟨command, rfl, ⟨r, out, within, rfl⟩ | ⟨commands, handler, mem⟩⟩
    · refine List.mem_map.mpr ⟨_, List.mem_append_left _ (List.mem_map.mpr ⟨r, ?_, rfl⟩), rfl⟩
      exact List.mem_filter.mpr ⟨out, by simpa using within⟩
    · exact List.mem_map.mpr ⟨_, List.mem_append_right _ (by simpa [handler] using mem), rfl⟩

theorem startsOffered {inv : Inventory} {root : Key} {role : Role} {key : Key}
    (first : Starts inv root role key) :
    role = .command ∧ ⟨root, key, .command, false⟩ ∈ Inventory.rootTriggers inv.index root ∧
      key ∈ inv.keys := by
  cases first with
  | sent listed kind source within known =>
    refine ⟨rfl, memRootTriggers.mpr ⟨_, rfl, Or.inl ⟨_, ?_, within, rfl⟩⟩, Inventory.typeListed known⟩
    exact Inventory.memOutgoingOf.mpr ⟨listed, kind, source⟩
  | handled handler listed known =>
    exact ⟨rfl, memRootTriggers.mpr ⟨_, rfl, Or.inr ⟨_, handler, listed⟩⟩, Inventory.typeListed known⟩

theorem offeredStarts {inv : Inventory} {root : Key} {t : Trigger}
    (mem : t ∈ Inventory.rootTriggers inv.index root) (listed : t.target ∈ inv.keys) :
    Starts inv root t.role t.target := by
  have known := Inventory.keyKnown listed
  obtain ⟨command, rfl, ⟨r, out, within, rfl⟩ | ⟨commands, handler, mem⟩⟩ := memRootTriggers.mp mem
  · obtain ⟨mem, kind, source⟩ := Inventory.memOutgoingOf.mp out
    exact .sent mem kind source within known
  · exact .handled handler mem known

end FlowAtlas
