import SoundRouting.Manager.Route
import SoundRouting.Manager.Settings
import SoundRouting.Proofs.Streams
/-!
Requests to a manager, and what serving them can do.

To the devices, a request does what performing its plan does; to the desk too, unless it is about the
settings of a stream. A stream is opened, routed, released, or has the bindings of its settings
remembered; nothing else ever happens to it.
-/
namespace SoundRouting

inductive Request where
  | acquire (devices : DeviceMask) (format : AudioFormat)
  | acquireNamed (name : String)
  | route (id : StreamId) (mask : DeviceMask)
  | release (id : StreamId)
  | setVolume (id : StreamId) (left right : Int)
  | applyUseCase (id : StreamId) (setting caseName : String)
  deriving DecidableEq, Repr

def Request.mask? : Request → Option DeviceMask
  | .acquire devices _ => some devices
  | .route _ mask => some mask
  | _ => none

/-- Whether serving a request comes to performing a plan. The settings of a stream are not planned: they write
to controls of their own. -/
def Request.isPlanned : Request → Bool
  | .setVolume .. | .applyUseCase .. => false
  | _ => true

namespace Stream

/-- A stream with one instance less. With the last one the devices are left. -/
def released (s : Stream) : Stream :=
  { s with
    refCount := s.refCount - 1
    routed := if 1 < s.refCount then s.routed else DeviceMask.nothing }

/-- What a request for the devices `mask?` can make of a stream. -/
inductive Step (mask? : Option DeviceMask) (s : Stream) : Stream → Prop
  | opened (h : Manager.hasRoom s = true) : Step mask? s { s with refCount := s.refCount + 1 }
  | routed {mask new : DeviceMask} (hmask : mask? = some mask) (hopen : s.isOpen = true)
      (h : Plan.clip? s.type.isInput mask = some new) : Step mask? s { s with routed := new }
  | released (h : s.isOpen = true) : Step mask? s s.released
  | settled (left right : Option VolumeControl) (useCases : GranularArray UseCase) :
      Step mask? s { s with left := left, right := right, useCases := useCases }

def SameSettings (s t : Stream) : Prop :=
  t.useCases = s.useCases ∧ t.left = s.left ∧ t.right = s.right

/-- A stream stays routed in its direction. -/
theorem isRoute_step {mask? : Option DeviceMask} {s t : Stream} (hstep : Step mask? s t)
    (h : DeviceMask.IsRoute s.type.isInput s.routed) : DeviceMask.IsRoute t.type.isInput t.routed := by
  cases hstep with
  | opened | settled => exact h
  | routed _ _ hclip => exact DeviceMask.isRoute_clip hclip
  | released =>
    by_cases hlast : 1 < s.refCount
    · rw [Stream.released, if_pos hlast]
      exact h
    · rw [Stream.released, if_neg hlast]
      exact Or.inl rfl

end Stream

namespace Manager

def serve (disk : Disk) (m : Manager) : Request → Manager
  | .acquire devices format => (m.acquire disk devices format).1
  | .acquireNamed name => (m.acquireNamed disk name).1
  | .route id mask => m.route disk id mask
  | .release id => m.release disk id
  | .setVolume id left right => (m.setVolume id left right).1
  | .applyUseCase id setting caseName => (m.applyUseCase disk id setting caseName).1

def serveAll (m : Manager) (requests : List (Disk × Request)) : Manager :=
  requests.foldl (fun m r => m.serve r.1 r.2) m

/-- The stream of which a request opens an instance. -/
def wanted? (m : Manager) : Request → Option StreamId
  | .acquire devices format => m.available? (.forRequest devices.isInput format.isLinearPcm)
  | .acquireNamed name =>
    ((m.model.namedPlace? name).map (StreamId.mk .named)).filter fun id => (m.model.stream? id).any hasRoom
  | _ => none

def openingPlan (m : Manager) (id : StreamId) : List PlannedPath :=
  match m.model.stream? id with
  | none => []
  | some s => if s.isOpen then [] else Plan.forOpening m.model s

def routingPlan (m : Manager) (id : StreamId) (mask : DeviceMask) : List PlannedPath :=
  match m.model.stream? id with
  | none => []
  | some s =>
    if s.isOpen then ((Plan.clip? s.type.isInput mask).map (Plan.forRoute m.model s)).getD [] else []

def closingPlan (m : Manager) (id : StreamId) : List PlannedPath :=
  match m.model.stream? id with
  | none => []
  | some s => if s.refCount = 1 then Plan.forClosing m.model s else []

def planOf (disk : Disk) (m : Manager) : Request → List PlannedPath
  | .acquire devices format => match m.wanted? (.acquire devices format) with
    | none => []
    | some id => m.openingPlan id ++ (m.openStream disk id).routingPlan id devices
  | .acquireNamed name => match m.wanted? (.acquireNamed name) with
    | none => []
    | some id => m.openingPlan id
  | .route id mask => m.routingPlan id mask
  | .release id => m.closingPlan id
  | .setVolume _ _ _ | .applyUseCase _ _ _ => []

def appliedBy (disk : Disk) (m : Manager) (r : Request) : List (Nat × PathId) :=
  m.applied disk (m.planOf disk r)

/-- What the paths of a manager change: the desk, and the devices themselves. -/
def wiring (m : Manager) : Desk × GranularArray Device :=
  (m.desk, m.model.devices)

theorem forOpening_modifyStream (m : Model) (id : StreamId) (f : Stream → Stream) (s : Stream) :
    Plan.forOpening (m.modifyStream id f) s = Plan.forOpening m s := by
  simp only [Plan.forOpening, Plan.forGlobal, Model.globalPlace?, Model.devices_modifyStream]

theorem forClosing_modifyStream (m : Model) (id : StreamId) (f : Stream → Stream) (s : Stream) :
    Plan.forClosing (m.modifyStream id f) s = Plan.forClosing m s := by
  simp only [Plan.forClosing, Plan.forMask, Plan.forGlobal, Model.globalPlace?,
    Model.devices_modifyStream]

/-- Opening performs the plan for it and counts the instance. -/
theorem openStream_eq (disk : Disk) {m : Manager} {id : StreamId} {s : Stream}
    (hs : m.model.stream? id = some s) :
    m.openStream disk id = (m.perform disk (m.openingPlan id)).modifyStream id fun s =>
      { s with refCount := s.refCount + 1 } := by
  simp only [openStream, openingPlan, hs]
  by_cases hopen : s.isOpen = true
  · rw [if_pos hopen, if_pos hopen, perform_nil]
  · rw [if_neg hopen, if_neg hopen, ← (perform_modifyStream disk m id _ _).1]
    exact congrArg _ (forOpening_modifyStream m.model id _ s)

theorem stream?_openStream (disk : Disk) {m : Manager} {id : StreamId} {s : Stream}
    (hs : m.model.stream? id = some s) :
    (m.openStream disk id).model.stream? id = some { s with refCount := s.refCount + 1 } := by
  rw [openStream_eq disk hs, modifyStream, Model.stream?_modifyStream_same, stream?_perform, hs, Option.map_some]

/-- Routing an open stream performs the plan for it and notes the new route. -/
theorem route_of_open (disk : Disk) {m : Manager} {id : StreamId} {s : Stream} {mask new : DeviceMask}
    (hs : m.model.stream? id = some s) (hopen : s.isOpen = true) (hclip : Plan.clip? s.type.isInput mask = some new) :
    m.routingPlan id mask = Plan.forRoute m.model s new
      ∧ m.route disk id mask = (m.perform disk (Plan.forRoute m.model s new)).modifyStream id fun s =>
        { s with routed := new } := by
  simp [route, routingPlan, hs, hopen, hclip]

theorem stream?_route (disk : Disk) {m : Manager} {id : StreamId} {s : Stream} {mask new : DeviceMask}
    (hs : m.model.stream? id = some s) (hopen : s.isOpen = true) (hclip : Plan.clip? s.type.isInput mask = some new) :
    (m.route disk id mask).model.stream? id = some { s with routed := new } := by
  rw [(route_of_open disk hs hopen hclip).2, modifyStream, Model.stream?_modifyStream_same, stream?_perform, hs,
    Option.map_some]

/-- Routing a stream does nothing, or it performs the plan for it and notes the new route. -/
theorem route_cases (disk : Disk) (m : Manager) (id : StreamId) (mask : DeviceMask) :
    (m.route disk id mask = m ∧ m.routingPlan id mask = [])
      ∨ ∃ s new, m.model.stream? id = some s ∧ s.isOpen = true
        ∧ Plan.clip? s.type.isInput mask = some new
        ∧ m.routingPlan id mask = Plan.forRoute m.model s new
        ∧ m.route disk id mask = (m.perform disk (Plan.forRoute m.model s new)).modifyStream id fun s =>
          { s with routed := new } := by
  cases hs : m.model.stream? id with
  | none => exact Or.inl (by simp [route, routingPlan, hs])
  | some s =>
    by_cases hopen : s.isOpen = true
    · cases hclip : Plan.clip? s.type.isInput mask with
      | none => exact Or.inl (by simp [route, routingPlan, hs, hopen, hclip])
      | some new => exact Or.inr ⟨s, new, rfl, hopen, hclip, route_of_open disk hs hopen hclip⟩
    · exact Or.inl (by simp [route, routingPlan, hs, hopen])

/-- The plan that routing performs is for one of the streams, or it is empty. -/
theorem routingPlan_cases (m : Manager) (id : StreamId) (mask : DeviceMask) :
    m.routingPlan id mask = [] ∨ ∃ s new, m.model.stream? id = some s
      ∧ Plan.clip? s.type.isInput mask = some new ∧ m.routingPlan id mask = Plan.forRoute m.model s new := by
  rcases route_cases ⟨default, ⟨""⟩⟩ m id mask with ⟨-, h⟩ | ⟨s, new, hs, -, hclip, h, -⟩
  · exact Or.inl h
  · exact Or.inr ⟨s, new, hs, hclip, h⟩

/-- The plan that opening performs is for one of the streams, or it is empty. -/
theorem openingPlan_cases (m : Manager) (id : StreamId) :
    m.openingPlan id = [] ∨ ∃ s, m.model.stream? id = some s ∧ m.openingPlan id = Plan.forOpening m.model s := by
  simp only [openingPlan]
  cases m.model.stream? id with
  | none => exact Or.inl rfl
  | some s =>
    by_cases hopen : s.isOpen = true
    · exact Or.inl (if_pos hopen)
    · exact Or.inr ⟨s, rfl, if_neg hopen⟩

/-- The plan that releasing performs is for one of the streams, or it is empty. -/
theorem closingPlan_cases (m : Manager) (id : StreamId) :
    m.closingPlan id = [] ∨ ∃ s, m.model.stream? id = some s ∧ m.closingPlan id = Plan.forClosing m.model s := by
  simp only [closingPlan]
  cases m.model.stream? id with
  | none => exact Or.inl rfl
  | some s =>
    by_cases hlast : s.refCount = 1
    · exact Or.inr ⟨s, rfl, if_pos hlast⟩
    · exact Or.inl (if_neg hlast)

/-- Releasing a stream that is not open does nothing. -/
theorem release_of_closed (disk : Disk) {m : Manager} {id : StreamId}
    (h : (m.model.stream? id).any (·.isOpen) = false) : m.release disk id = m ∧ m.closingPlan id = [] := by
  simp only [release, closingPlan]
  cases hs : m.model.stream? id with
  | none => exact ⟨rfl, rfl⟩
  | some s =>
    rw [hs, Option.any_some] at h
    have hzero : s.refCount ≠ 1 := by
      intro hone
      simp [Stream.isOpen, hone] at h
    simp [h, hzero]

/-- Releasing an open stream performs the plan for it and counts one instance less. -/
theorem release_of_open (disk : Disk) {m : Manager} {id : StreamId} {s : Stream}
    (hs : m.model.stream? id = some s) (hopen : s.isOpen = true) :
    m.closingPlan id = (if s.refCount = 1 then Plan.forClosing m.model s else [])
      ∧ m.release disk id = (m.perform disk (m.closingPlan id)).modifyStream id Stream.released := by
  have hpos : 0 < s.refCount := by simpa [Stream.isOpen] using hopen
  simp only [release, closingPlan, hs, hopen, true_and]
  by_cases hlast : s.refCount = 1
  · have hone : ¬ 1 < s.refCount := by omega
    simp only [hlast, Bool.not_true, Bool.false_eq_true, if_false, if_true, Nat.lt_irrefl]
    rw [← (perform_modifyStream disk m id _ _).1]
    simp only [modifyStream, forClosing_modifyStream, Model.modifyStream_modifyStream]
    congr 2
    refine Model.modifyStream_congr fun t ht => ?_
    rw [hs, Option.some.injEq] at ht
    rw [← ht, Stream.released, if_neg hone]
  · have hmany : 1 < s.refCount := by omega
    simp only [hlast, hmany, Bool.not_true, Bool.false_eq_true, if_false, if_true, perform_nil]
    refine congrArg (Manager.mk m.desk) (Model.modifyStream_congr fun t ht => ?_)
    rw [hs, Option.some.injEq] at ht
    rw [← ht, Stream.released, if_pos hmany]

theorem release_cases (disk : Disk) (m : Manager) (id : StreamId) :
    (m.release disk id = m ∧ m.closingPlan id = [])
      ∨ ∃ s, m.model.stream? id = some s ∧ s.isOpen = true
        ∧ m.closingPlan id = (if s.refCount = 1 then Plan.forClosing m.model s else [])
        ∧ m.release disk id = (m.perform disk (m.closingPlan id)).modifyStream id Stream.released := by
  cases h : (m.model.stream? id).any (·.isOpen) with
  | false => exact Or.inl (release_of_closed disk h)
  | true =>
    obtain ⟨s, hs, hopen⟩ := (Option.any_eq_true _ _).mp h
    exact Or.inr ⟨s, hs, hopen, release_of_open disk hs hopen⟩

/-- The stream that is found for a type is of this type, and has an instance to spare. -/
theorem exists_of_available? {m : Manager} {type : StreamType} {id : StreamId} (h : m.available? type = some id) :
    ∃ s, m.model.stream? id = some s ∧ s.type = type ∧ hasRoom s = true := by
  obtain ⟨i, hi, rfl⟩ := Option.map_eq_some_iff.mp h
  obtain ⟨s, hs, htest⟩ := Model.exists_of_lastPlace?_eq_some hi
  rw [Bool.and_eq_true, beq_iff_eq] at htest
  exact ⟨s, by rwa [GranularArray.getElem?_toList] at hs, htest⟩

/-- The stream that is to be opened has an instance to spare. -/
theorem exists_of_wanted? {m : Manager} {r : Request} {id : StreamId} (h : m.wanted? r = some id) :
    ∃ s, m.model.stream? id = some s ∧ hasRoom s = true := by
  cases r with
  | acquire devices format =>
    obtain ⟨s, hs, -, hroom⟩ := exists_of_available? h
    exact ⟨s, hs, hroom⟩
  | acquireNamed name =>
    obtain ⟨-, hany⟩ := Option.filter_eq_some_iff.mp h
    rwa [Option.any_eq_true] at hany
  | route | release | setVolume | applyUseCase => cases h

/-- Acquiring opens the wanted stream, if there is one, and routes it to the devices. -/
theorem serve_acquire (disk : Disk) (m : Manager) (devices : DeviceMask) (format : AudioFormat) :
    m.serve disk (.acquire devices format) = match m.wanted? (.acquire devices format) with
      | none => m
      | some id => (m.openStream disk id).route disk id devices := by
  simp only [serve, acquire, wanted?]
  cases m.available? (.forRequest devices.isInput format.isLinearPcm) <;> rfl

/-- Acquiring by name opens the wanted stream, if there is one. -/
theorem serve_acquireNamed (disk : Disk) (m : Manager) (name : String) :
    m.serve disk (.acquireNamed name) = match m.wanted? (.acquireNamed name) with
      | none => m
      | some id => m.openStream disk id := by
  simp only [serve, acquireNamed, wanted?]
  cases m.model.namedPlace? name with
  | none => rfl
  | some i =>
    simp only [Option.map_some, Option.filter_some]
    cases (m.model.stream? ⟨.named, i⟩).any hasRoom <;> rfl

/-- Setting a volume does nothing, or it writes to the volume controls of the stream and remembers
what they were bound to. -/
theorem setVolume_cases (m : Manager) (id : StreamId) (left right : Int) :
    (m.setVolume id left right).1 = m ∨ ∃ s percent leftDone rightDone,
      m.model.stream? id = some s ∧ leftDone = writeVolume? m.desk s.left percent
        ∧ rightDone = writeVolume? leftDone.1 s.right right
        ∧ (m.setVolume id left right).1 = ⟨rightDone.1, m.model.modifyStream id fun s =>
          { s with left := leftDone.2, right := rightDone.2 }⟩ := by
  simp only [setVolume]
  split
  · exact Or.inl rfl
  · cases hs : m.model.stream? id with
    | none => exact Or.inl rfl
    | some s =>
      by_cases hnone : (s.left.isNone && s.right.isNone) = true
      · exact Or.inl (by simp only [hnone, if_true])
      · exact Or.inr ⟨s, _, _, _, rfl, rfl, rfl, by simp only [hnone, Bool.false_eq_true, if_false]; rfl⟩

/-- Applying a use-case does nothing, or it applies the assignments of an alternative and remembers
what they were bound to. -/
theorem applyUseCase_cases (disk : Disk) (m : Manager) (id : StreamId) (setting caseName : String) :
    (m.applyUseCase disk id setting caseName).1 = m ∨ ∃ s u c useCase caseOf done,
      m.model.stream? id = some s ∧ s.useCases.get? u = some useCase ∧ useCase.cases.get? c = some caseOf
        ∧ done = m.desk.apply disk caseOf.assignments.toList
        ∧ (m.applyUseCase disk id setting caseName).1 = ⟨done.1, m.model.modifyStream id fun s =>
          { s with
            useCases := s.useCases.modify u fun uc =>
              { uc with
                cases := uc.cases.modify c fun k =>
                  { k with assignments := caseOf.assignments.withItems done.2 } } }⟩ := by
  simp only [applyUseCase]
  split
  · exact Or.inl rfl
  · rename_i u c assignments hfound
    simp only [Option.bind_eq_bind, Option.bind_eq_some_iff, Option.pure_def, Option.some.injEq,
      Prod.mk.injEq] at hfound
    obtain ⟨s, hs, ⟨u', c'⟩, -, useCase, huse, caseOf, hcase, rfl, rfl, rfl⟩ := hfound
    exact Or.inr ⟨s, u', c', useCase, caseOf, _, hs, huse, hcase, rfl, rfl⟩

section Settings

variable {p : Stream → Bool}
  (hp : ∀ (s : Stream) left right useCases, p { s with left := left, right := right, useCases := useCases } = p s)

include hp

/-- Volumes have no part in what is counted of streams otherwise. -/
theorem countP_setVolume (m : Manager) (id : StreamId) (left right : Int) :
    (m.setVolume id left right).1.model.streams.countP p = m.model.streams.countP p := by
  rcases setVolume_cases m id left right with he | ⟨_, _, _, _, -, -, -, he⟩
  · rw [he]
  · rw [he]
    exact Model.countP_streams_modifyStream_of_eq fun s => hp s _ _ _

/-- Use-cases have no part in what is counted of streams otherwise. -/
theorem countP_applyUseCase (disk : Disk) (m : Manager) (id : StreamId) (setting caseName : String) :
    (m.applyUseCase disk id setting caseName).1.model.streams.countP p = m.model.streams.countP p := by
  rcases applyUseCase_cases disk m id setting caseName with he | ⟨_, _, _, _, _, _, -, -, -, -, he⟩
  · rw [he]
  · rw [he]
    exact Model.countP_streams_modifyStream_of_eq fun s => hp s _ _ _

end Settings

@[simp] theorem wiring_modifyStream (m : Manager) (id : StreamId) (f : Stream → Stream) :
    (m.modifyStream id f).wiring = m.wiring :=
  congrArg (Prod.mk m.desk) (Model.devices_modifyStream m.model id f)

/-- Routing does to the desk and to the devices what performing the plan for it does. -/
theorem wiring_route (disk : Disk) (m : Manager) (id : StreamId) (mask : DeviceMask) :
    (m.route disk id mask).wiring = (m.perform disk (m.routingPlan id mask)).wiring := by
  rcases route_cases disk m id mask with ⟨h, hplan⟩ | ⟨s, new, -, -, -, hplan, h⟩
  · rw [h, hplan, perform_nil]
  · rw [h, hplan, wiring_modifyStream]

/-- Serving a request that is planned does to the desk and to the devices what performing its plan does. -/
theorem wiring_serve (disk : Disk) (m : Manager) {r : Request} (hr : r.isPlanned = true) :
    (m.serve disk r).wiring = (m.perform disk (m.planOf disk r)).wiring := by
  cases r with
  | acquire devices format =>
    rw [serve_acquire, planOf]
    cases hw : m.wanted? (.acquire devices format) with
    | none => rfl
    | some id =>
      obtain ⟨s, hs, -⟩ := exists_of_wanted? hw
      simp only [wiring_route, perform_append]
      rw [openStream_eq disk hs, (perform_modifyStream disk _ id _ _).1, wiring_modifyStream]
  | acquireNamed name =>
    rw [serve_acquireNamed, planOf]
    cases hw : m.wanted? (.acquireNamed name) with
    | none => rfl
    | some id =>
      obtain ⟨s, hs, -⟩ := exists_of_wanted? hw
      simp only [openStream_eq disk hs, wiring_modifyStream]
  | route id mask => exact wiring_route disk m id mask
  | release id =>
    rcases release_cases disk m id with ⟨h, hplan⟩ | ⟨s, -, -, -, h⟩
    · simp only [serve, planOf, h, hplan, perform_nil]
    · simp only [serve, planOf, h, wiring_modifyStream]
  | setVolume | applyUseCase => cases hr

/-- Serving a request does to the devices what performing its plan does. -/
theorem devices_serve (disk : Disk) (m : Manager) (r : Request) :
    (m.serve disk r).model.devices = (m.perform disk (m.planOf disk r)).model.devices := by
  cases r with
  | acquire | acquireNamed | route | release => exact congrArg Prod.snd (wiring_serve disk m rfl)
  | setVolume id left right =>
    rcases setVolume_cases m id left right with h | ⟨_, _, _, _, -, -, -, h⟩
    · rw [serve, h, planOf, perform_nil]
    · rw [serve, h]
      exact Model.devices_modifyStream _ _ _
  | applyUseCase id setting caseName =>
    rcases applyUseCase_cases disk m id setting caseName with h | ⟨_, _, _, _, _, _, -, -, -, -, h⟩
    · rw [serve, h, planOf, perform_nil]
    · rw [serve, h]
      exact Model.devices_modifyStream _ _ _

/-- Serving a request runs the use count of a device through what the request asks of it. -/
theorem tally_serve (disk : Disk) {m : Manager} {i : Nat} {d : Device} (hd : m.model.devices.get? i = some d)
    (r : Request) :
    ∃ e, (m.serve disk r).model.devices.get? i = some e ∧ e.outline = d.outline
      ∧ PathId.tally d.useCount (idsOf i (m.model.asks (m.planOf disk r)))
        = (e.useCount, idsOf i (m.appliedBy disk r)) := by
  rw [devices_serve]
  exact tally_perform disk hd (m.planOf disk r)

/-- The single things that serving a request for the devices `mask?` is made of. -/
inductive Move (disk : Disk) (mask? : Option DeviceMask) (m : Manager) : Manager → Prop
  | path (p : PlannedPath) : Move disk mask? m (m.applyPath disk p)
  | noted {id : StreamId} {s : Stream} {f : Stream → Stream} (hs : m.model.stream? id = some s)
      (hstep : Stream.Step mask? s (f s)) (hf : ∀ s : Stream, s.SameSettings (f s)) :
      Move disk mask? m (m.modifyStream id f)
  | volume {id : StreamId} {s : Stream} {first second : Desk × Option VolumeControl} {left right : Int}
      (hs : m.model.stream? id = some s) (hfirst : first = writeVolume? m.desk s.left left)
      (hsecond : second = writeVolume? first.1 s.right right) :
      Move disk mask? m ⟨second.1, m.model.modifyStream id fun s =>
        { s with left := first.2, right := second.2 }⟩
  | useCase {id : StreamId} {s : Stream} {u c : Nat} {useCase : UseCase} {caseOf : Case}
      {done : Desk × List Assignment} (hs : m.model.stream? id = some s) (hu : s.useCases.get? u = some useCase)
      (hc : useCase.cases.get? c = some caseOf) (hdone : done = m.desk.apply disk caseOf.assignments.toList) :
      Move disk mask? m ⟨done.1, m.model.modifyStream id fun s =>
        { s with
          useCases := s.useCases.modify u fun uc =>
            { uc with
              cases := uc.cases.modify c fun k =>
                { k with assignments := caseOf.assignments.withItems done.2 } } }⟩

section Moves

variable {I : Manager → Prop} {disk : Disk} {mask? : Option DeviceMask}
  (hmove : ∀ m n, Move disk mask? m n → I m → I n) {m : Manager}

include hmove

theorem perform_moves (h : I m) (plan : List PlannedPath) : I (m.perform disk plan) := by
  induction plan generalizing m with
  | nil => exact h
  | cons p plan ih => exact ih (hmove _ _ (.path p) h)

theorem openStream_moves (h : I m) {id : StreamId} {s : Stream} (hs : m.model.stream? id = some s)
    (hroom : hasRoom s = true) : I (m.openStream disk id) := by
  rw [openStream_eq disk hs]
  have hopened : (m.perform disk (m.openingPlan id)).model.stream? id = some s := by rwa [stream?_perform]
  exact hmove _ _ (.noted hopened (.opened hroom) fun _ => ⟨rfl, rfl, rfl⟩) (perform_moves hmove h _)

theorem route_moves (h : I m) (id : StreamId) {mask : DeviceMask} (hmask : mask? = some mask) :
    I (m.route disk id mask) := by
  rcases route_cases disk m id mask with ⟨he, -⟩ | ⟨s, new, hs, hopen, hclip, -, he⟩
  · rwa [he]
  · rw [he]
    have hrouted : (m.perform disk (Plan.forRoute m.model s new)).model.stream? id = some s := by
      rwa [stream?_perform]
    exact hmove _ _ (.noted hrouted (.routed hmask hopen hclip) fun _ => ⟨rfl, rfl, rfl⟩) (perform_moves hmove h _)

end Moves

/-- What every single thing keeps, serving a request keeps. -/
theorem serve_moves {I : Manager → Prop} {disk : Disk} {r : Request}
    (hmove : ∀ m n, Move disk r.mask? m n → I m → I n) {m : Manager} (h : I m) : I (m.serve disk r) := by
  cases r with
  | acquire devices format =>
    rw [serve_acquire]
    cases hw : m.wanted? (.acquire devices format) with
    | none => exact h
    | some id =>
      obtain ⟨s, hs, hroom⟩ := exists_of_wanted? hw
      exact route_moves hmove (openStream_moves hmove h hs hroom) id rfl
  | acquireNamed name =>
    rw [serve_acquireNamed]
    cases hw : m.wanted? (.acquireNamed name) with
    | none => exact h
    | some id =>
      obtain ⟨s, hs, hroom⟩ := exists_of_wanted? hw
      exact openStream_moves hmove h hs hroom
  | route id mask => exact route_moves hmove h id rfl
  | release id =>
    rcases release_cases disk m id with ⟨he, -⟩ | ⟨s, hs, hopen, -, he⟩
    · rwa [serve, he]
    · rw [serve, he]
      have hreleased : (m.perform disk (m.closingPlan id)).model.stream? id = some s := by rwa [stream?_perform]
      exact hmove _ _ (.noted hreleased (.released hopen) fun _ => ⟨rfl, rfl, rfl⟩) (perform_moves hmove h _)
  | setVolume id left right =>
    rcases setVolume_cases m id left right with he | ⟨s, _, _, _, hs, hfirst, hsecond, he⟩
    · rwa [serve, he]
    · rw [serve, he]
      exact hmove _ _ (.volume hs hfirst hsecond) h
  | applyUseCase id setting caseName =>
    rcases applyUseCase_cases disk m id setting caseName with he | ⟨s, _, _, _, _, _, hs, hu, hc, hdone, he⟩
    · rwa [serve, he]
    · rw [serve, he]
      exact hmove _ _ (.useCase hs hu hc hdone) h

/-- What changes of devices keep, and steps of single streams, serving a request keeps. -/
theorem serve_induction {Q : Model → Prop} {r : Request} (hdevices : ∀ m devices, Q m → Q { m with devices := devices })
    (hstream : ∀ m id s f, Model.stream? m id = some s → Stream.Step r.mask? s (f s) → Q m →
      Q (m.modifyStream id f))
    (disk : Disk) {m : Manager} (h : Q m.model) : Q (m.serve disk r).model := by
  refine serve_moves (I := fun m => Q m.model) (fun m n hmove hm => ?_) h
  cases hmove with
  | path p =>
    obtain ⟨devices, he⟩ := model_perform disk m [p]
    have hmodel : (m.applyPath disk p).model = { m.model with devices := devices } := he
    rw [hmodel]
    exact hdevices _ _ hm
  | noted hs hstep _ => exact hstream _ _ _ _ hs hstep hm
  | volume hs => exact hstream _ _ _ _ hs (.settled _ _ _) hm
  | useCase hs => exact hstream _ _ _ _ hs (.settled _ _ _) hm

/-- What every step of a stream keeps, serving a request keeps of all streams. -/
theorem forall_streams_serve {P : Stream → Prop} {r : Request}
    (hstep : ∀ s t, Stream.Step r.mask? s t → P s → P t) (disk : Disk) {m : Manager}
    (h : ∀ s ∈ m.model.streams, P s) : ∀ s ∈ (m.serve disk r).model.streams, P s := by
  refine serve_induction (Q := fun m => ∀ s ∈ m.streams, P s) (fun _ _ h => h) ?_ disk h
  intro m id s f hs hf h
  refine Model.forall_streams_modifyStream h fun t ht => ?_
  obtain rfl : s = t := Option.some.inj (hs.symm.trans ht)
  exact hstep _ _ hf (h s (Model.mem_of_stream? hs))

theorem outlines_serve (disk : Disk) (m : Manager) (r : Request) :
    (m.serve disk r).model.outlines = m.model.outlines := by
  rw [Model.outlines, devices_serve, ← Model.outlines, outlines_perform]

/-- An invariant of serving holds after any requests. -/
theorem serveAll_induction {I : Manager → Prop} {requests : List (Disk × Request)}
    (hstep : ∀ m disk r, (disk, r) ∈ requests → I m → I (m.serve disk r)) {m : Manager} (h : I m) :
    I (m.serveAll requests) := by
  induction requests generalizing m with
  | nil => exact h
  | cons e more ih =>
    exact ih (fun m disk r hr => hstep m disk r (List.mem_cons_of_mem _ hr))
      (hstep m e.1 e.2 List.mem_cons_self h)

theorem outlines_serveAll (m : Manager) (requests : List (Disk × Request)) :
    (m.serveAll requests).model.outlines = m.model.outlines :=
  serveAll_induction (I := fun n => n.model.outlines = m.model.outlines)
    (fun n disk r _ h => (outlines_serve disk n r).trans h) rfl

/-- Streams that are routed in their direction stay so, whatever is asked for. -/
theorem isRoute_serveAll {m : Manager} (h : ∀ s ∈ m.model.streams, DeviceMask.IsRoute s.type.isInput s.routed)
    (requests : List (Disk × Request)) :
    ∀ s ∈ (m.serveAll requests).model.streams, DeviceMask.IsRoute s.type.isInput s.routed :=
  serveAll_induction (I := fun n => ∀ s ∈ n.model.streams, DeviceMask.IsRoute s.type.isInput s.routed)
    (fun _ disk _ _ hn => forall_streams_serve (fun _ _ hstep hs => Stream.isRoute_step hstep hs) disk hn) h

end Manager

end SoundRouting
