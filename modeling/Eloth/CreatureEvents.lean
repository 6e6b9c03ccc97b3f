import Mathlib.Data.List.Nodup
import Mathlib.Logic.Function.Basic

/-!
# Script events of creatures

The scripted events of the server are kept by name; a reload empties them and fills them again in
place. A creature lists the events that it has registered, and a word of bits says of which types
they are, so that a creature without events of a type answers without going through its list.
-/

namespace Eloth

inductive CreatureEventType where
  | none
  | login
  | logout
  | think
  | prepareDeath
  | death
  | kill
  | advance
  | textEdit
  | healthChange
  | manaChange
  | extendedOpcode
  deriving DecidableEq

namespace CreatureEventType

/-- The values of the enumerators. -/
def value : CreatureEventType → Nat
  | none => 0 | login => 1 | logout => 2 | think => 3 | prepareDeath => 4 | death => 5
  | kill => 6 | advance => 7 | textEdit => 8 | healthChange => 9 | manaChange => 10
  | extendedOpcode => 11

theorem value_lt (type : CreatureEventType) : type.value < 32 := by cases type <;> decide

theorem value_injective : Function.Injective value := by
  intro t u h
  cases t <;> cases u <;> first | rfl | cases h

end CreatureEventType

structure CreatureEvent (I : Type) where
  eventName : String
  type : CreatureEventType := .none
  loaded : Bool := false
  scripted : Bool := false
  fromLua : Bool := false
  scriptId : Int := 0
  scriptInterface : Option I

namespace CreatureEvent

variable {I : Type}

def copyEvent (event creatureEvent : CreatureEvent I) : CreatureEvent I :=
  { event with
    scriptId := creatureEvent.scriptId
    scriptInterface := creatureEvent.scriptInterface
    scripted := creatureEvent.scripted
    loaded := creatureEvent.loaded }

def clearEvent (event : CreatureEvent I) : CreatureEvent I :=
  { event with
    scriptId := 0
    scriptInterface := .none
    scripted := false
    loaded := false }

/-- What an execution of the event relies on. -/
def Executable (event : CreatureEvent I) : Prop :=
  event.scripted = true ∧ event.scriptInterface.isSome = true

end CreatureEvent

/-- The nodes of `creatureEvents`; an event stands under its own name. -/
abbrev CreatureEventMap (I : Type) := List (CreatureEvent I)

namespace CreatureEventMap

variable {I : Type} (creatureEvents : CreatureEventMap I)

def clear (fromLua : Bool) : CreatureEventMap I :=
  creatureEvents.map fun event => if fromLua = event.fromLua then event.clearEvent else event

/-- The iteration erases the node on which it stands: without a value when that happens. -/
def removeInvalidEvents : Option (CreatureEventMap I) :=
  if creatureEvents.any (·.scriptId = 0) then none else some creatureEvents

def getEventByName (name : String) (forceLoaded : Bool) : Option (CreatureEvent I) :=
  match creatureEvents.find? (·.eventName = name) with
  | some event => if !forceLoaded || event.loaded then some event else none
  | none => none

/-- `registerEvent`, and `registerLuaEvent`, which does the same. -/
def registerEvent (creatureEvent : CreatureEvent I) : Bool × CreatureEventMap I :=
  if creatureEvent.type = .none then (false, creatureEvents)
  else
    match getEventByName creatureEvents creatureEvent.eventName false with
    | some oldEvent =>
      if !oldEvent.loaded ∧ oldEvent.type = creatureEvent.type then
        (false, creatureEvents.map fun event =>
          if event.eventName = creatureEvent.eventName then event.copyEvent creatureEvent
          else event)
      else (false, creatureEvents)
    | none => (true, creatureEvents ++ [creatureEvent])

/-- The type that stands behind a pointer to the node of a name. -/
def typeOf (name : String) : Option CreatureEventType :=
  (creatureEvents.find? (·.eventName = name)).map CreatureEvent.type

end CreatureEventMap

/-- The pointers of the list are given by the names of the nodes. -/
structure RegisteredEvents where
  eventsList : List String := []
  scriptEventsBitField : BitVec 32 := 0

namespace RegisteredEvents

variable {I : Type} (creature : RegisteredEvents) (creatureEvents : CreatureEventMap I)

def hasEventRegistered (type : CreatureEventType) : Bool :=
  0 ≠ creature.scriptEventsBitField &&& BitVec.twoPow 32 type.value

def registerCreatureEvent (name : String) : Bool × RegisteredEvents :=
  match creatureEvents.getEventByName name true with
  | none => (false, creature)
  | some event =>
    if creature.hasEventRegistered event.type then
      if name ∈ creature.eventsList then (false, creature)
      else (true, { creature with eventsList := creature.eventsList ++ [name] })
    else
      (true,
        { eventsList := creature.eventsList ++ [name]
          scriptEventsBitField :=
            creature.scriptEventsBitField ||| BitVec.twoPow 32 event.type.value })

/-- The loop over the list, with `resetTypeBit`. -/
def eraseEvent (name : String) (type : CreatureEventType) :
    List String → Bool → List String × Bool
  | [], resetTypeBit => ([], resetTypeBit)
  | curEvent :: rest, resetTypeBit =>
    if curEvent = name then eraseEvent name type rest resetTypeBit
    else
      let rest := eraseEvent name type rest
        (if creatureEvents.typeOf curEvent = some type then false else resetTypeBit)
      (curEvent :: rest.1, rest.2)

def unregisterCreatureEvent (name : String) : Bool × RegisteredEvents :=
  match creatureEvents.getEventByName name true with
  | none => (false, creature)
  | some event =>
    if creature.hasEventRegistered event.type then
      let left := eraseEvent creatureEvents name event.type creature.eventsList true
      (true,
        { eventsList := left.1
          scriptEventsBitField :=
            if left.2 then
              creature.scriptEventsBitField &&& ~~~(BitVec.twoPow 32 event.type.value)
            else creature.scriptEventsBitField })
    else (false, creature)

/-- The events of the list that are loaded and of the type. -/
def pick (type : CreatureEventType) (eventsList : List String) : List (CreatureEvent I) :=
  (eventsList.filterMap fun name => creatureEvents.find? (·.eventName = name)).filter fun event =>
    event.loaded && event.type = type

def getCreatureEvents (type : CreatureEventType) : List (CreatureEvent I) :=
  if creature.hasEventRegistered type then pick creatureEvents type creature.eventsList else []

end RegisteredEvents

inductive EventOp (I : Type) where
  | clear (fromLua : Bool)
  | registerEvent (creatureEvent : CreatureEvent I)
  | removeInvalidEvents
  | registerCreatureEvent (creature : Nat) (name : String)
  | unregisterCreatureEvent (creature : Nat) (name : String)
  | getCreatureEvents (creature : Nat) (type : CreatureEventType)

inductive EventReply (I : Type) where
  | done
  | returned (value : Bool)
  | events (events : List (CreatureEvent I))

/-- The events of the server with what is kept at each creature. -/
structure EventWorld (I C : Type) where
  creatureEvents : CreatureEventMap I
  creatures : Nat → C

namespace EventWorld

variable {I C : Type}

/-- The functions of a creature. -/
structure CreatureFunctions (I C : Type) where
  registerCreatureEvent : CreatureEventMap I → C → String → Bool × C
  unregisterCreatureEvent : CreatureEventMap I → C → String → Bool × C
  getCreatureEvents : CreatureEventMap I → C → CreatureEventType → List (CreatureEvent I)

variable (functions : CreatureFunctions I C) (w : EventWorld I C)

/-- The value that was returned, and the creature afterwards. -/
def withCreature (creature : Nat) (result : Bool × C) : EventWorld I C × EventReply I :=
  ({ w with creatures := Function.update w.creatures creature result.2 }, .returned result.1)

def apply : EventOp I → Option (EventWorld I C × EventReply I)
  | .clear fromLua => some ({ w with creatureEvents := w.creatureEvents.clear fromLua }, .done)
  | .registerEvent creatureEvent =>
    let registered := w.creatureEvents.registerEvent creatureEvent
    some ({ w with creatureEvents := registered.2 }, .returned registered.1)
  | .removeInvalidEvents =>
    w.creatureEvents.removeInvalidEvents.map fun creatureEvents =>
      ({ w with creatureEvents := creatureEvents }, .done)
  | .registerCreatureEvent creature name =>
    some (w.withCreature creature
      (functions.registerCreatureEvent w.creatureEvents (w.creatures creature) name))
  | .unregisterCreatureEvent creature name =>
    some (w.withCreature creature
      (functions.unregisterCreatureEvent w.creatureEvents (w.creatures creature) name))
  | .getCreatureEvents creature type =>
    some (w, .events (functions.getCreatureEvents w.creatureEvents (w.creatures creature) type))

/-- The replies to the calls, one after the other. -/
def run (w : EventWorld I C) : List (EventOp I) → Option (EventWorld I C × List (EventReply I))
  | [] => some (w, [])
  | op :: ops =>
    match apply functions w op with
    | none => none
    | some (w', reply) => (run w' ops).map fun (w'', replies) => (w'', reply :: replies)

end EventWorld

def creatureFunctions (I : Type) : EventWorld.CreatureFunctions I RegisteredEvents where
  registerCreatureEvent creatureEvents creature name :=
    creature.registerCreatureEvent creatureEvents name
  unregisterCreatureEvent creatureEvents creature name :=
    creature.unregisterCreatureEvent creatureEvents name
  getCreatureEvents creatureEvents creature type := creature.getCreatureEvents creatureEvents type

/-! ## Creatures without bits -/

/-- What the list alone says: an event that is loaded comes to its end unless it is there, and is
taken out again; the reply to the latter is whether an event of the type was there. -/
def listFunctions (I : Type) : EventWorld.CreatureFunctions I (List String) where
  registerCreatureEvent creatureEvents eventsList name :=
    if (creatureEvents.getEventByName name true).isSome ∧ name ∉ eventsList then
      (true, eventsList ++ [name])
    else (false, eventsList)
  unregisterCreatureEvent creatureEvents eventsList name :=
    match creatureEvents.getEventByName name true with
    | none => (false, eventsList)
    | some event =>
      (eventsList.any fun other => creatureEvents.typeOf other = some event.type,
        eventsList.filter (· ≠ name))
  getCreatureEvents creatureEvents eventsList type :=
    RegisteredEvents.pick creatureEvents type eventsList

namespace EventWorld

variable {I : Type}

def lists (w : EventWorld I RegisteredEvents) : EventWorld I (List String) where
  creatureEvents := w.creatureEvents
  creatures c := (w.creatures c).eventsList

end EventWorld

/-! ## The nodes -/

namespace CreatureEventMap

variable {I : Type} {creatureEvents : CreatureEventMap I} {name : String}

/-- A change of the events in place. -/
theorem find?_map_event {f : CreatureEvent I → CreatureEvent I}
    (hname : ∀ event, (f event).eventName = event.eventName) (name : String) :
    (creatureEvents.map f).find? (·.eventName = name) =
      (creatureEvents.find? (·.eventName = name)).map f := by
  rw [List.find?_map]
  congr 2
  funext event
  simp only [Function.comp_apply, hname]

theorem typeOf_map {f : CreatureEvent I → CreatureEvent I}
    (hname : ∀ event, (f event).eventName = event.eventName)
    (htype : ∀ event, (f event).type = event.type) (name : String) :
    typeOf (creatureEvents.map f) name = typeOf creatureEvents name := by
  unfold typeOf
  rw [find?_map_event hname, Option.map_map]
  congr 1
  funext event
  exact htype event

theorem getEventByName_eq_some {forceLoaded : Bool} {event : CreatureEvent I}
    (h : creatureEvents.getEventByName name forceLoaded = some event) :
    creatureEvents.find? (·.eventName = name) = some event ∧
      (forceLoaded = true → event.loaded = true) := by
  unfold getEventByName at h
  split at h
  · next event' hfind =>
    split_ifs at h with hloaded
    obtain rfl := Option.some.inj h
    exact ⟨hfind, fun hforce => by simpa [hforce] using hloaded⟩
  · cases h

theorem typeOf_of_getEventByName {forceLoaded : Bool} {event : CreatureEvent I}
    (h : creatureEvents.getEventByName name forceLoaded = some event) :
    creatureEvents.typeOf name = some event.type := by
  rw [typeOf, (getEventByName_eq_some h).1]
  rfl

theorem typeOf_clear (fromLua : Bool) (name : String) :
    (creatureEvents.clear fromLua).typeOf name = creatureEvents.typeOf name :=
  typeOf_map (by intro event; split_ifs <;> rfl) (by intro event; split_ifs <;> rfl) name

theorem typeOf_registerEvent (creatureEvent : CreatureEvent I)
    (h : (creatureEvents.typeOf name).isSome = true) :
    (creatureEvents.registerEvent creatureEvent).2.typeOf name = creatureEvents.typeOf name := by
  unfold registerEvent
  split_ifs with hnone
  · rfl
  split
  · next oldEvent hold =>
    split_ifs with hreuse
    · exact typeOf_map (by intro event; split_ifs <;> rfl) (by intro event; split_ifs <;> rfl) name
    · rfl
  · unfold typeOf at h ⊢
    rw [Option.isSome_map] at h
    rw [List.find?_append, Option.or_of_isSome h]

end CreatureEventMap

/-! ## The bits -/

namespace RegisteredEvents

open CreatureEventMap

variable {I : Type} {creature : RegisteredEvents} {creatureEvents : CreatureEventMap I}
  {name : String} {type type' : CreatureEventType}

/-- The nodes of the list exist, each stands there once, and the bits are those of their types. -/
structure Agrees (creature : RegisteredEvents) (creatureEvents : CreatureEventMap I) : Prop where
  known : ∀ name ∈ creature.eventsList, (creatureEvents.typeOf name).isSome = true
  nodup : creature.eventsList.Nodup
  bits : ∀ type, creature.hasEventRegistered type = true ↔
    ∃ name ∈ creature.eventsList, creatureEvents.typeOf name = some type

theorem hasEventRegistered_eq :
    creature.hasEventRegistered type = creature.scriptEventsBitField.getLsbD type.value := by
  have hbit : BitVec.twoPow 32 type.value ≠ 0 := by cases type <;> decide
  unfold hasEventRegistered
  rw [BitVec.and_twoPow]
  split_ifs with h
  · rw [h]
    exact decide_eq_true (Ne.symm hbit)
  · rw [Bool.eq_false_iff.mpr h]
    exact decide_eq_false fun hne => hne rfl

theorem getLsbD_twoPow_value :
    (BitVec.twoPow 32 type.value).getLsbD type'.value = decide (type = type') := by
  rw [BitVec.getLsbD_twoPow, decide_eq_true type.value_lt, Bool.true_and]
  exact decide_eq_decide.mpr CreatureEventType.value_injective.eq_iff

theorem Agrees.congr (h : creature.Agrees creatureEvents) {creatureEvents' : CreatureEventMap I}
    (htype : ∀ name, (creatureEvents.typeOf name).isSome = true →
      creatureEvents'.typeOf name = creatureEvents.typeOf name) :
    creature.Agrees creatureEvents' where
  known name hname := by
    rw [htype name (h.known name hname)]
    exact h.known name hname
  nodup := h.nodup
  bits type := by
    rw [h.bits type]
    refine exists_congr fun name => and_congr_right fun hname => ?_
    rw [htype name (h.known name hname)]

/-- An event goes to the end of the list, with the bit of its type. -/
theorem Agrees.push (h : creature.Agrees creatureEvents)
    (htype : creatureEvents.typeOf name = some type) (hname : name ∉ creature.eventsList)
    {bits : BitVec 32}
    (hbits : ∀ type', bits.getLsbD type'.value = true ↔
      creature.hasEventRegistered type' = true ∨ type = type') :
    Agrees ⟨creature.eventsList ++ [name], bits⟩ creatureEvents where
  known other hother := by
    rcases List.mem_append.mp hother with hother | hother
    · exact h.known other hother
    · rw [List.mem_singleton.mp hother, htype]
      rfl
  nodup := List.nodup_append_comm.mp (List.nodup_cons.mpr ⟨hname, h.nodup⟩)
  bits type' := by
    rw [hasEventRegistered_eq, hbits, h.bits]
    constructor
    · rintro (⟨other, hother, heq⟩ | rfl)
      · exact ⟨other, List.mem_append_left _ hother, heq⟩
      · exact ⟨name, List.mem_append_right _ (List.mem_singleton_self _), htype⟩
    · rintro ⟨other, hother, heq⟩
      rcases List.mem_append.mp hother with hother | hother
      · exact .inl ⟨other, hother, heq⟩
      · rw [List.mem_singleton.mp hother, htype] at heq
        exact .inr (Option.some.inj heq)

theorem eraseEvent_eq (name : String) (type : CreatureEventType) (l : List String)
    (resetTypeBit : Bool) :
    eraseEvent creatureEvents name type l resetTypeBit =
      (l.filter (· ≠ name), resetTypeBit &&
        !(l.filter (· ≠ name)).any fun other => creatureEvents.typeOf other = some type) := by
  induction l generalizing resetTypeBit with
  | nil => simp [eraseEvent]
  | cons curEvent rest ih =>
    rw [eraseEvent]
    by_cases hcur : curEvent = name
    · rw [if_pos hcur, ih, List.filter_cons_of_neg (by simpa using hcur)]
    · rw [if_neg hcur, ih, List.filter_cons_of_pos (by simpa using hcur), List.any_cons]
      by_cases htype : creatureEvents.typeOf curEvent = some type <;> simp [htype]

/-! ## The functions -/

theorem registerCreatureEvent_agrees (h : creature.Agrees creatureEvents) (name : String) :
    (creature.registerCreatureEvent creatureEvents name).2.Agrees creatureEvents ∧
      (listFunctions I).registerCreatureEvent creatureEvents creature.eventsList name =
        ((creature.registerCreatureEvent creatureEvents name).1,
          (creature.registerCreatureEvent creatureEvents name).2.eventsList) := by
  unfold registerCreatureEvent
  change _ ∧ (if (creatureEvents.getEventByName name true).isSome ∧ name ∉ creature.eventsList then
    (true, creature.eventsList ++ [name]) else (false, creature.eventsList)) = _
  cases hevent : creatureEvents.getEventByName name true with
  | none => exact ⟨h, if_neg (by simp)⟩
  | some event =>
    have htype := typeOf_of_getEventByName hevent
    dsimp only
    by_cases hregistered : creature.hasEventRegistered event.type = true
    · rw [if_pos hregistered]
      by_cases hname : name ∈ creature.eventsList
      · rw [if_pos hname]
        exact ⟨h, if_neg fun hnew => hnew.2 hname⟩
      · rw [if_neg hname]
        refine ⟨h.push htype hname fun type' => ?_, if_pos ⟨rfl, hname⟩⟩
        rw [← hasEventRegistered_eq]
        refine ⟨.inl, ?_⟩
        rintro (hold | rfl)
        · exact hold
        · exact hregistered
    · rw [if_neg hregistered]
      have hname : name ∉ creature.eventsList := fun hname =>
        hregistered ((h.bits _).mpr ⟨name, hname, htype⟩)
      refine ⟨h.push htype hname fun type' => ?_, if_pos ⟨rfl, hname⟩⟩
      rw [BitVec.getLsbD_or, getLsbD_twoPow_value, ← hasEventRegistered_eq]
      simp

theorem unregisterCreatureEvent_agrees (h : creature.Agrees creatureEvents) (name : String) :
    (creature.unregisterCreatureEvent creatureEvents name).2.Agrees creatureEvents ∧
      (listFunctions I).unregisterCreatureEvent creatureEvents creature.eventsList name =
        ((creature.unregisterCreatureEvent creatureEvents name).1,
          (creature.unregisterCreatureEvent creatureEvents name).2.eventsList) := by
  unfold unregisterCreatureEvent
  dsimp only [listFunctions]
  cases hevent : creatureEvents.getEventByName name true with
  | none => exact ⟨h, rfl⟩
  | some event =>
    have htype := typeOf_of_getEventByName hevent
    have hany : (creature.eventsList.any fun other =>
        creatureEvents.typeOf other = some event.type) =
          creature.hasEventRegistered event.type := by
      rw [Bool.eq_iff_iff, h.bits, List.any_eq_true]
      simp only [decide_eq_true_eq]
    dsimp only
    rw [hany]
    by_cases hregistered : creature.hasEventRegistered event.type = true
    · rw [if_pos hregistered, eraseEvent_eq]
      refine ⟨⟨fun other hother => h.known other (List.mem_filter.mp hother).1, h.nodup.filter _,
        fun type' => ?_⟩, by rw [hregistered]⟩
      -- an event of another type is left, and one of the type unless the bit is taken away
      have hleft : (∃ other ∈ creature.eventsList.filter (· ≠ name),
          creatureEvents.typeOf other = some type') ↔
          if event.type = type' then
            ((creature.eventsList.filter (· ≠ name)).any fun other =>
              creatureEvents.typeOf other = some event.type) = true
          else creature.hasEventRegistered type' = true := by
        split_ifs with htype'
        · subst htype'
          rw [List.any_eq_true]
          simp only [decide_eq_true_eq]
        · rw [h.bits]
          refine exists_congr fun other => and_congr_left fun hother => ?_
          rw [List.mem_filter, decide_eq_true_eq]
          refine and_iff_left ?_
          rintro rfl
          exact htype' (Option.some.inj (htype.symm.trans hother))
      rw [hleft, hasEventRegistered_eq]
      cases hother : (creature.eventsList.filter (· ≠ name)).any fun other =>
          creatureEvents.typeOf other = some event.type with
      | true =>
        rw [if_neg (by simp), ← hasEventRegistered_eq]
        split_ifs with htype'
        · exact iff_of_true (htype' ▸ hregistered) rfl
        · rfl
      | false =>
        rw [if_pos (by simp), BitVec.getLsbD_and, BitVec.getLsbD_not, getLsbD_twoPow_value,
          ← hasEventRegistered_eq, decide_eq_true type'.value_lt]
        split_ifs with htype' <;> simp [htype']
    · rw [if_neg hregistered]
      refine ⟨h, ?_⟩
      rw [Bool.eq_false_iff.mpr hregistered, List.filter_eq_self.mpr]
      intro other hother
      refine decide_eq_true ?_
      rintro rfl
      exact hregistered ((h.bits _).mpr ⟨other, hother, htype⟩)

theorem getCreatureEvents_eq (h : creature.Agrees creatureEvents) (type : CreatureEventType) :
    creature.getCreatureEvents creatureEvents type =
      pick creatureEvents type creature.eventsList := by
  unfold getCreatureEvents
  split_ifs with hregistered
  · rfl
  · refine (List.filter_eq_nil_iff.mpr fun event hevent hpicked => hregistered ?_).symm
    obtain ⟨name, hname, hfind⟩ := List.mem_filterMap.mp hevent
    have htype : event.type = type := by simpa using (Bool.and_eq_true_iff.mp hpicked).2
    refine (h.bits type).mpr ⟨name, hname, ?_⟩
    rw [typeOf, hfind, ← htype]
    rfl

end RegisteredEvents

/-! ## Runs -/

namespace EventWorld

variable {I : Type} {w w' : EventWorld I RegisteredEvents} {op : EventOp I} {reply : EventReply I}

/-- The events that are given to `registerEvent` can be executed when they say that they are
loaded. -/
def Prepared : EventOp I → Prop
  | .registerEvent creatureEvent => creatureEvent.loaded = true → creatureEvent.Executable
  | _ => True

structure Sound (w : EventWorld I RegisteredEvents) : Prop where
  executable : ∀ event ∈ w.creatureEvents, event.loaded = true → event.Executable
  agrees : ∀ c, (w.creatures c).Agrees w.creatureEvents

/-- The events that are handed out are loaded, and can be executed. -/
def HandsOut : EventReply I → Prop
  | .events events => ∀ event ∈ events, event.loaded = true ∧ event.Executable
  | _ => True

theorem executable_clear (h : ∀ event ∈ w.creatureEvents, event.loaded = true → event.Executable)
    (fromLua : Bool) :
    ∀ event ∈ w.creatureEvents.clear fromLua, event.loaded = true → event.Executable := by
  intro event hevent
  obtain ⟨old, hold, rfl⟩ := List.mem_map.mp hevent
  split_ifs
  · exact fun hloaded => absurd hloaded (by simp [CreatureEvent.clearEvent])
  · exact h old hold

theorem executable_registerEvent
    (h : ∀ event ∈ w.creatureEvents, event.loaded = true → event.Executable)
    {creatureEvent : CreatureEvent I}
    (hprepared : creatureEvent.loaded = true → creatureEvent.Executable) :
    ∀ event ∈ (w.creatureEvents.registerEvent creatureEvent).2,
      event.loaded = true → event.Executable := by
  unfold CreatureEventMap.registerEvent
  split_ifs with hnone
  · exact h
  split
  · split_ifs with hreuse
    · intro event hevent
      obtain ⟨old, hold, rfl⟩ := List.mem_map.mp hevent
      split_ifs
      · exact hprepared
      · exact h old hold
    · exact h
  · intro event hevent
    rcases List.mem_append.mp hevent with hevent | hevent
    · exact h event hevent
    · rw [List.mem_singleton.mp hevent]
      exact hprepared

theorem Sound.withCreature (h : w.Sound) (creature : Nat) {result : Bool × RegisteredEvents}
    (hresult : result.2.Agrees w.creatureEvents) : (w.withCreature creature result).1.Sound where
  executable := h.executable
  agrees c := by
    change (Function.update w.creatures creature result.2 c).Agrees w.creatureEvents
    by_cases hc : c = creature
    · rw [hc, Function.update_self]
      exact hresult
    · rw [Function.update_of_ne hc]
      exact h.agrees c

theorem lists_withCreature (creature : Nat) (result : Bool × RegisteredEvents) :
    w.lists.withCreature creature (result.1, result.2.eventsList) =
      ((w.withCreature creature result).1.lists, (w.withCreature creature result).2) := by
  unfold EventWorld.withCreature lists
  dsimp only
  congr 2
  funext c
  by_cases hc : c = creature
  · rw [hc, Function.update_self, Function.update_self]
  · rw [Function.update_of_ne hc, Function.update_of_ne hc]

/-- A call to a creature with bits is a call to one without. -/
theorem apply_lists (h : w.Sound) (op : EventOp I) :
    apply (listFunctions I) w.lists op =
      (apply (creatureFunctions I) w op).map fun r => (r.1.lists, r.2) := by
  cases op with
  | clear fromLua => rfl
  | registerEvent creatureEvent => rfl
  | removeInvalidEvents =>
    dsimp only [apply]
    rw [Option.map_map]
    rfl
  | registerCreatureEvent creature name =>
    refine congrArg some (Eq.trans ?_ (lists_withCreature creature _))
    exact congrArg _ (RegisteredEvents.registerCreatureEvent_agrees (h.agrees creature) name).2
  | unregisterCreatureEvent creature name =>
    refine congrArg some (Eq.trans ?_ (lists_withCreature creature _))
    exact congrArg _ (RegisteredEvents.unregisterCreatureEvent_agrees (h.agrees creature) name).2
  | getCreatureEvents creature type =>
    dsimp only [apply, Option.map_some]
    congr 3
    exact (RegisteredEvents.getCreatureEvents_eq (h.agrees creature) type).symm

theorem Sound.apply (h : w.Sound) (hprepared : Prepared op)
    (happly : EventWorld.apply (creatureFunctions I) w op = some (w', reply)) :
    w'.Sound ∧ HandsOut reply := by
  cases op with
  | clear fromLua =>
    cases happly
    exact ⟨⟨executable_clear h.executable fromLua, fun c =>
      (h.agrees c).congr fun name _ => CreatureEventMap.typeOf_clear fromLua name⟩, trivial⟩
  | registerEvent creatureEvent =>
    cases happly
    exact ⟨⟨executable_registerEvent h.executable hprepared, fun c =>
      (h.agrees c).congr fun name hname =>
        CreatureEventMap.typeOf_registerEvent creatureEvent hname⟩, trivial⟩
  | removeInvalidEvents =>
    obtain ⟨creatureEvents, hremoved, heq⟩ := Option.map_eq_some_iff.mp happly
    unfold CreatureEventMap.removeInvalidEvents at hremoved
    split_ifs at hremoved
    cases hremoved
    cases heq
    exact ⟨h, trivial⟩
  | registerCreatureEvent creature name =>
    cases happly
    exact ⟨h.withCreature creature
      (RegisteredEvents.registerCreatureEvent_agrees (h.agrees creature) name).1, trivial⟩
  | unregisterCreatureEvent creature name =>
    cases happly
    exact ⟨h.withCreature creature
      (RegisteredEvents.unregisterCreatureEvent_agrees (h.agrees creature) name).1, trivial⟩
  | getCreatureEvents creature type =>
    cases happly
    refine ⟨h, fun event hevent => ?_⟩
    dsimp only [creatureFunctions] at hevent
    rw [RegisteredEvents.getCreatureEvents_eq (h.agrees creature)] at hevent
    obtain ⟨hlisted, hpicked⟩ := List.mem_filter.mp hevent
    obtain ⟨name, -, hfind⟩ := List.mem_filterMap.mp hlisted
    have hloaded := (Bool.and_eq_true_iff.mp hpicked).1
    exact ⟨hloaded, h.executable event (List.mem_of_find?_eq_some hfind) hloaded⟩

theorem run_agrees (ops : List (EventOp I)) (h : w.Sound) (hprepared : ∀ op ∈ ops, Prepared op) :
    run (listFunctions I) w.lists ops =
      (run (creatureFunctions I) w ops).map (fun r => (r.1.lists, r.2)) ∧
    ∀ w' replies, run (creatureFunctions I) w ops = some (w', replies) →
      w'.Sound ∧ ∀ reply ∈ replies, HandsOut reply := by
  induction ops generalizing w with
  | nil =>
    refine ⟨rfl, fun w' replies hrun => ?_⟩
    cases hrun
    exact ⟨h, fun reply hreply => absurd hreply List.not_mem_nil⟩
  | cons op ops ih =>
    dsimp only [run]
    rw [apply_lists h op]
    cases happly : EventWorld.apply (creatureFunctions I) w op with
    | none => exact ⟨rfl, fun w' replies hrun => by cases hrun⟩
    | some r =>
      obtain ⟨w₁, reply⟩ := r
      obtain ⟨hsound, hreply⟩ := h.apply (hprepared op List.mem_cons_self) happly
      obtain ⟨hlists, hrest⟩ := ih hsound fun op' hop' =>
        hprepared op' (List.mem_cons_of_mem _ hop')
      dsimp only [Option.map_some]
      refine ⟨?_, fun w' replies hrun => ?_⟩
      · rw [hlists, Option.map_map, Option.map_map]
        rfl
      · obtain ⟨⟨w₂, replies'⟩, hrun', heq⟩ := Option.map_eq_some_iff.mp hrun
        cases heq
        obtain ⟨hsound', hreplies⟩ := hrest _ _ hrun'
        exact ⟨hsound', List.forall_mem_cons.mpr ⟨hreply, hreplies⟩⟩

/-- No event, and creatures without any. -/
def start (I : Type) : EventWorld I RegisteredEvents where
  creatureEvents := []
  creatures _ := {}

theorem sound_start (I : Type) : (start I).Sound where
  executable event hevent := absurd hevent List.not_mem_nil
  agrees c :=
    { known := fun name hname => absurd hname List.not_mem_nil
      nodup := List.nodup_nil
      bits := fun type => by
        rw [RegisteredEvents.hasEventRegistered_eq]
        simp [start] }

def taskEvent (scriptId : Int) : CreatureEvent Unit where
  eventName := "Task"
  type := .kill
  loaded := true
  scripted := true
  scriptId := scriptId
  scriptInterface := some ()

/-- The events are loaded again after a creature has registered one of them. -/
def reload : List (EventOp Unit) :=
  [.registerEvent (taskEvent 1), .registerCreatureEvent 5 "Task", .registerCreatureEvent 5 "Task",
    .clear false, .getCreatureEvents 5 .kill, .unregisterCreatureEvent 5 "Task",
    .registerEvent (taskEvent 2), .removeInvalidEvents, .getCreatureEvents 5 .kill,
    .unregisterCreatureEvent 5 "Task", .getCreatureEvents 5 .kill]

end EventWorld

end Eloth
