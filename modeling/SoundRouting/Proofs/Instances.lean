import SoundRouting.Proofs.Served
/-!
Acquired and released instances of streams.

A stream has as many open instances as it has been acquired more often than released. A release of a
stream that is not open is none. A stream without open instances is routed nowhere.
-/
namespace SoundRouting

namespace Model

def instances (m : Model) (id : StreamId) : Nat :=
  ((m.stream? id).map (·.refCount)).getD 0

theorem instances_of_stream? {m : Model} {id : StreamId} {s : Stream} (hs : m.stream? id = some s) :
    m.instances id = s.refCount := by
  rw [instances, hs, Option.map_some, Option.getD_some]

theorem instances_of_idle {m : Model} (h : ∀ s ∈ m.streams, s.refCount = 0) (id : StreamId) :
    m.instances id = 0 := by
  rw [instances]
  cases hs : m.stream? id with
  | none => rfl
  | some s => exact h s (mem_of_stream? hs)

/-- A change of one stream changes the instances of that one only. -/
theorem instances_modifyStream {m : Model} {id : StreamId} {s : Stream} (hs : m.stream? id = some s)
    (f : Stream → Stream) (other : StreamId) :
    (m.modifyStream id f).instances other = if id = other then (f s).refCount else m.instances other := by
  by_cases h : id = other
  · subst h
    rw [if_pos rfl, instances, stream?_modifyStream_same, hs, Option.map_some, Option.map_some, Option.getD_some]
  · rw [if_neg h, instances, stream?_modifyStream_other m f h, instances]

/-- A change that keeps the instances of a stream keeps those of all. -/
theorem instances_modifyStream_of_refCount (m : Model) (id : StreamId) {f : Stream → Stream}
    (hf : ∀ s, (f s).refCount = s.refCount) (other : StreamId) :
    (m.modifyStream id f).instances other = m.instances other := by
  by_cases h : id = other
  · subst h
    rw [instances, stream?_modifyStream_same, Option.map_map, instances]
    exact congrArg (fun n => Option.getD n 0) (Option.map_congr fun s _ => hf s)
  · rw [instances, stream?_modifyStream_other m f h, instances]

theorem isSome_modifyStream (m : Model) (id : StreamId) (f : Stream → Stream) (other : StreamId) :
    ((m.modifyStream id f).stream? other).isSome = (m.stream? other).isSome := by
  by_cases h : id = other
  · subst h
    rw [stream?_modifyStream_same, Option.isSome_map]
  · rw [stream?_modifyStream_other m f h]

end Model

namespace Manager

/-- The stream that a request is answered with. -/
def granted? (disk : Disk) (m : Manager) : Request → Option StreamId
  | .acquire devices format => (m.acquire disk devices format).2.map (·.id)
  | .acquireNamed name => (m.acquireNamed disk name).2.map (·.id)
  | _ => none

/-- Whether a request releases an instance of a stream: it is to be released, and it is open. -/
def releases (m : Manager) (id : StreamId) (r : Request) : Bool :=
  r == .release id && (m.model.stream? id).any (·.isOpen)

def acquired (m : Manager) (id : StreamId) : List (Disk × Request) → Nat
  | [] => 0
  | (disk, r) :: more => (m.granted? disk r == some id).toNat + (m.serve disk r).acquired id more

def released (m : Manager) (id : StreamId) : List (Disk × Request) → Nat
  | [] => 0
  | (disk, r) :: more => (m.releases id r).toNat + (m.serve disk r).released id more

/-- Whatever happens, streams neither come nor go. -/
theorem isSome_move {disk : Disk} {mask? : Option DeviceMask} {m n : Manager} (hmove : Move disk mask? m n)
    (id : StreamId) :
    (n.model.stream? id).isSome = (m.model.stream? id).isSome := by
  cases hmove with
  | path p => exact congrArg Option.isSome (stream?_perform disk m [p] id)
  | noted | volume | useCase => exact Model.isSome_modifyStream _ _ _ id

theorem map_id_handle? {m : Manager} {id : StreamId} (h : (m.model.stream? id).isSome = true) :
    (m.handle? id).map (·.id) = some id := by
  obtain ⟨s, hs⟩ := Option.isSome_iff_exists.mp h
  rw [handle?, hs]
  rfl

/-- A request is answered with the stream of which it opens an instance. -/
theorem granted?_eq (disk : Disk) (m : Manager) (r : Request) : m.granted? disk r = m.wanted? r := by
  have hopened : ∀ (id : StreamId) s, m.model.stream? id = some s → hasRoom s = true →
      ((m.openStream disk id).model.stream? id).isSome = true := by
    intro id s hs hroom
    refine openStream_moves (I := fun n => (n.model.stream? id).isSome = true)
      (fun _ _ (hmove : Move disk none _ _) h => (isSome_move hmove id).trans h) ?_ hs hroom
    rw [hs, Option.isSome_some]
  cases r with
  | acquire devices format =>
    simp only [granted?, acquire, wanted?]
    cases hw : m.available? (.forRequest devices.isInput format.isLinearPcm) with
    | none => rfl
    | some id =>
      obtain ⟨s, hs, hroom⟩ := exists_of_wanted? (r := .acquire devices format) hw
      exact map_id_handle? (route_moves (I := fun n => (n.model.stream? id).isSome = true)
        (fun _ _ hmove h => (isSome_move hmove id).trans h) (hopened id s hs hroom) id rfl)
  | acquireNamed name =>
    simp only [granted?, acquireNamed, wanted?]
    cases m.model.namedPlace? name with
    | none => rfl
    | some index =>
      rw [Option.map_some, Option.filter_some]
      by_cases hroom : (m.model.stream? ⟨.named, index⟩).any hasRoom = true
      · obtain ⟨s, hs, hspare⟩ := (Option.any_eq_true _ _).mp hroom
        simp only [hroom, if_true]
        exact map_id_handle? (hopened _ s hs hspare)
      · simp only [hroom, Bool.false_eq_true, if_false, Option.map_none]
  | route | release | setVolume | applyUseCase => rfl

theorem instances_perform (disk : Disk) (m : Manager) (plan : List PlannedPath) (id : StreamId) :
    (m.perform disk plan).model.instances id = m.model.instances id := by
  rw [Model.instances, stream?_perform, Model.instances]

theorem instances_openStream (disk : Disk) {m : Manager} {opened : StreamId} {s : Stream}
    (hs : m.model.stream? opened = some s) (id : StreamId) :
    (m.openStream disk opened).model.instances id = m.model.instances id + (opened == id).toNat := by
  rw [openStream_eq disk hs]
  refine (Model.instances_modifyStream (by rwa [stream?_perform]) _ id).trans ?_
  by_cases h : opened = id
  · subst h
    rw [if_pos rfl, Model.instances_of_stream? hs, beq_self_eq_true, Bool.toNat_true]
  · rw [if_neg h, instances_perform, beq_eq_false_iff_ne.mpr h, Bool.toNat_false, Nat.add_zero]

theorem instances_route (disk : Disk) (m : Manager) (routed : StreamId) (mask : DeviceMask) (id : StreamId) :
    (m.route disk routed mask).model.instances id = m.model.instances id := by
  rcases route_cases disk m routed mask with ⟨he, -⟩ | ⟨s, new, -, -, -, -, he⟩
  · rw [he]
  · rw [he]
    refine (Model.instances_modifyStream_of_refCount _ _ (by exact fun _ => rfl) id).trans ?_
    exact instances_perform disk m _ id

theorem instances_release (disk : Disk) (m : Manager) (closed id : StreamId) :
    (m.release disk closed).model.instances id + (m.releases id (.release closed)).toNat
      = m.model.instances id := by
  cases hopen : (m.model.stream? closed).any (·.isOpen) with
  | false =>
    have hnot : m.releases id (.release closed) = false := by
      rw [releases, Bool.and_eq_false_iff]
      by_cases hsame : closed = id
      · subst hsame
        exact Or.inr hopen
      · exact Or.inl (by simp [hsame])
    rw [(release_of_closed disk hopen).1, hnot, Bool.toNat_false, Nat.add_zero]
  | true =>
    obtain ⟨s, hs, hisOpen⟩ := (Option.any_eq_true _ _).mp hopen
    have hpos : 0 < s.refCount := by simpa [Stream.isOpen] using hisOpen
    have hafter : (m.release disk closed).model.instances id
        = if closed = id then s.refCount - 1 else m.model.instances id := by
      rw [(release_of_open disk hs hisOpen).2, ← instances_perform disk m (m.closingPlan closed) id]
      exact Model.instances_modifyStream (by rwa [stream?_perform]) Stream.released id
    rw [hafter]
    by_cases hsame : closed = id
    · subst hsame
      have hreleases : m.releases closed (.release closed) = true := by simp [releases, hopen]
      rw [if_pos rfl, hreleases, Bool.toNat_true, Model.instances_of_stream? hs]
      omega
    · have hreleases : m.releases id (.release closed) = false := by simp [releases, hsame]
      rw [if_neg hsame, hreleases, Bool.toNat_false, Nat.add_zero]

/-- A request opens the instance that it is answered with, or releases one, or leaves all instances. -/
theorem instances_serve (disk : Disk) (m : Manager) (r : Request) (id : StreamId) :
    (m.serve disk r).model.instances id + (m.releases id r).toNat
      = m.model.instances id + (m.granted? disk r == some id).toNat := by
  rw [granted?_eq]
  cases r with
  | acquire devices format =>
    have hnot : m.releases id (.acquire devices format) = false := rfl
    rw [serve_acquire, hnot, Bool.toNat_false, Nat.add_zero]
    cases hw : m.wanted? (.acquire devices format) with
    | none => rfl
    | some opened =>
      obtain ⟨s, hs, -⟩ := exists_of_wanted? hw
      exact (instances_route disk _ opened devices id).trans (instances_openStream disk hs id)
  | acquireNamed name =>
    have hnot : m.releases id (.acquireNamed name) = false := rfl
    rw [serve_acquireNamed, hnot, Bool.toNat_false, Nat.add_zero]
    cases hw : m.wanted? (.acquireNamed name) with
    | none => rfl
    | some opened =>
      obtain ⟨s, hs, -⟩ := exists_of_wanted? hw
      exact instances_openStream disk hs id
  | route routed mask => exact instances_route disk m routed mask id
  | release closed => exact instances_release disk m closed id
  | setVolume changed left right =>
    rcases setVolume_cases m changed left right with he | ⟨_, _, _, _, -, -, -, he⟩
    · rw [serve, he]
      rfl
    · rw [serve, he]
      exact Model.instances_modifyStream_of_refCount _ _ (by exact fun _ => rfl) id
  | applyUseCase changed setting caseName =>
    rcases applyUseCase_cases disk m changed setting caseName with he | ⟨_, _, _, _, _, _, -, -, -, -, he⟩
    · rw [serve, he]
      rfl
    · rw [serve, he]
      exact Model.instances_modifyStream_of_refCount _ _ (by exact fun _ => rfl) id

/-- The open instances are those that have been acquired and not released. -/
theorem instances_serveAll (m : Manager) (requests : List (Disk × Request)) (id : StreamId) :
    (m.serveAll requests).model.instances id + m.released id requests
      = m.model.instances id + m.acquired id requests := by
  induction requests generalizing m with
  | nil => rfl
  | cons e more ih =>
    obtain ⟨disk, r⟩ := e
    have hone := instances_serve disk m r id
    have hrest := ih (m.serve disk r)
    rw [serveAll] at hrest
    simp only [serveAll, List.foldl_cons, acquired, released]
    omega

/-- A stream that is not open stays routed nowhere. -/
theorem routed_of_closed {m : Manager} (h : ∀ s ∈ m.model.streams, s.refCount = 0 → s.routed = DeviceMask.nothing)
    (requests : List (Disk × Request)) :
    ∀ s ∈ (m.serveAll requests).model.streams, s.refCount = 0 → s.routed = DeviceMask.nothing := by
  refine serveAll_induction
    (I := fun n => ∀ s ∈ n.model.streams, s.refCount = 0 → s.routed = DeviceMask.nothing)
    (fun n disk r _ hn => forall_streams_serve (fun s t hstep hs hzero => ?_) disk hn) h
  cases hstep with
  | opened => cases hzero
  | routed _ hopen _ =>
    have hpos : 0 < s.refCount := by simpa [Stream.isOpen] using hopen
    exact absurd hzero (Nat.ne_of_gt hpos)
  | released hopen =>
    have hone : ¬ 1 < s.refCount := by
      simp only [Stream.released] at hzero
      omega
    simp only [Stream.released, if_neg hone]
  | settled => exact hs hzero

/-- Once every stream has been released as often as it was acquired, none is routed anywhere. -/
theorem holders_of_released {m : Manager} (h : ∀ s ∈ m.model.streams, s.refCount = 0 ∧ s.routed = DeviceMask.nothing)
    {requests : List (Disk × Request)} (hreleased : ∀ id, m.acquired id requests = m.released id requests)
    (mask : DeviceMask) : (m.serveAll requests).model.holders mask = 0 := by
  rw [Model.holders, List.countP_eq_zero]
  intro s hs
  obtain ⟨id, hid⟩ := Model.mem_streams_iff.mp hs
  have hstart := Model.instances_of_idle (fun t ht => (h t ht).1) id
  have hbalance := instances_serveAll m requests id
  rw [Model.instances_of_stream? hid, hstart, hreleased id] at hbalance
  have hrouted := routed_of_closed (fun t ht _ => (h t ht).2) requests s hs (by omega)
  rw [hrouted, DeviceMask.reaches_nothing]
  exact Bool.false_ne_true

end Manager

end SoundRouting
