import SoundRouting.Proofs.Acquisition
import SoundRouting.Proofs.GlobalUses
/-!
The life of a stream: opened, routed, released.

Handles are copies, so that a stream can be asked for anything at any time, released ones included. Its
instances are counted right all the same and stay below their bound, it is routed nowhere while it is closed,
and to devices of its own direction while it is open.
-/
namespace SoundRouting

open DeviceMask Config

namespace DeviceMask

def Confined : Bool → DeviceMask → Prop
  | false, mask => mask.isInput = false ∧ mask &&& allOutputs = mask
  | true, mask => mask = nothing ∨ mask.isInput = true ∧ mask &&& allInputs = mask

theorem confined_nothing (input : Bool) : Confined input nothing := by
  cases input with
  | false => exact ⟨rfl, rfl⟩
  | true => exact Or.inl rfl

/-- What is common to a mask and a wider one lies within the wider one, and so does a bit of that. -/
theorem and_or_and_of_and {bit all : DeviceMask} (h : bit &&& all = bit) (mask : DeviceMask) :
    ((mask &&& all) ||| bit) &&& all = (mask &&& all) ||| bit := by
  refine BitVec.eq_of_getLsbD_eq fun i _ => ?_
  have hi := congrArg (·.getLsbD i) h
  simp only [BitVec.getLsbD_and, BitVec.getLsbD_or] at hi ⊢
  revert hi
  cases mask.getLsbD i <;> cases all.getLsbD i <;> cases bit.getLsbD i <;> decide

/-- Clipping confines a mask. -/
theorem confined_clip {input : Bool} {mask new : DeviceMask} (h : Plan.clip? input mask = some new) :
    Confined input new := by
  have hroute := isRoute_clip h
  rcases hroute with rfl | hdir
  · exact confined_nothing input
  · simp only [Plan.clip?, beq_iff_eq] at h
    split at h
    · obtain rfl := Option.some.inj h
      subst ‹mask = nothing›
      exact confined_nothing input
    · cases hm : mask.isInput <;> cases input <;>
        simp only [hm, Bool.false_eq_true, if_true, if_false, Option.some.injEq, reduceCtorEq] at h
      · refine ⟨hdir, ?_⟩
        rw [← h, BitVec.and_assoc, BitVec.and_self]
      · refine Or.inr ⟨hdir, ?_⟩
        rw [← h, and_or_and_of_and (by decide)]

end DeviceMask

namespace Stream

/-- What holds of a stream at any time. -/
structure Consistent (s : Stream) : Prop where
  instances : s.refCount ≤ s.maxRefCount
  room : s.maxRefCount < UInt32.size
  closed : s.refCount = 0 → s.routed = nothing
  confined : Confined s.type.isInput s.routed

/-- Whatever is asked for keeps a stream consistent. -/
theorem consistent_step {mask? : Option DeviceMask} {s t : Stream} (hstep : Step mask? s t)
    (hs : s.Consistent) : t.Consistent := by
  cases hstep with
  | opened hroom =>
    have hlt : s.refCount < s.maxRefCount := of_decide_eq_true hroom
    exact ⟨hlt, hs.room, fun hzero => absurd hzero (Nat.succ_ne_zero _), hs.confined⟩
  | routed _ hopen hclip =>
    have hpos : 0 < s.refCount := of_decide_eq_true hopen
    exact ⟨hs.instances, hs.room, fun hzero => absurd hzero (Nat.ne_of_gt hpos), confined_clip hclip⟩
  | released hopen =>
    have hless : s.refCount - 1 ≤ s.maxRefCount := Nat.le_trans (Nat.sub_le _ _) hs.instances
    by_cases hlast : 1 < s.refCount
    · rw [Stream.released, if_pos hlast]
      refine ⟨hless, hs.room, fun hzero => ?_, hs.confined⟩
      have hone : s.refCount - 1 = 0 := hzero
      omega
    · rw [Stream.released, if_neg hlast]
      exact ⟨hless, hs.room, fun _ => rfl, confined_nothing _⟩
  | settled => exact ⟨hs.instances, hs.room, hs.closed, hs.confined⟩

end Stream

namespace Manager

theorem consistent_serveAll {m : Manager} (h : ∀ s ∈ m.model.streams, s.Consistent)
    (requests : List (Disk × Request)) : ∀ s ∈ (m.serveAll requests).model.streams, s.Consistent :=
  serveAll_induction (I := fun n => ∀ s ∈ n.model.streams, s.Consistent)
    (fun _ disk _ _ hn => forall_streams_serve (fun _ _ hstep hs => Stream.consistent_step hstep hs) disk hn) h

/-- A stream that is acquired for devices is of their direction, open, and routed to what is left of them when
they are clipped. -/
theorem exists_of_acquire {disk : Disk} {m : Manager} {devices : DeviceMask} {format : AudioFormat} {h : Handle}
    (hanswer : (m.acquire disk devices format).2 = some h) :
    ∃ s, (m.acquire disk devices format).1.model.stream? h.id = some s ∧ s.isOpen = true
      ∧ s.type = .forRequest devices.isInput format.isLinearPcm ∧ s.routed = clipped devices.isInput devices := by
  obtain ⟨i, s, hoffers, rfl, hbecomes⟩ := offers_of_acquire hanswer
  exact ⟨_, hbecomes.here, decide_eq_true (Nat.succ_pos _), hoffers.ofType, rfl⟩

/-- Releasing the last instance of a stream closes it and leaves its devices. -/
theorem stream?_release_of_last (disk : Disk) {m : Manager} {id : StreamId} {s : Stream}
    (hs : m.model.stream? id = some s) (hlast : s.refCount = 1) :
    (m.release disk id).model.stream? id = some { s with refCount := 0, routed := nothing } := by
  have hopen : s.isOpen = true := by
    rw [Stream.isOpen, hlast]
    rfl
  rw [(release_of_open disk hs hopen).2, modifyStream, Model.stream?_modifyStream_same, stream?_perform, hs,
    Option.map_some, Stream.released, hlast]
  rfl

/-- Whatever is asked for, with handles that are held, copied or stale, every stream stays consistent and has
as many instances as it has been acquired more often than it was released while open. A stream that is acquired
for devices has been routed to them on return, and the last release leaves it routed nowhere. -/
theorem lifecycle_of_load {disk : Disk} {rack after : Rack} {file : Location} {loaded : Loaded}
    (hload : load disk rack file = (.ok loaded, after)) (card : Card) {requests : List (Disk × Request)}
    {m : Manager} (hm : m = (ofLoaded card loaded).serveAll requests) :
    (∀ id s, m.model.stream? id = some s → s.Consistent
      ∧ s.refCount + (ofLoaded card loaded).released id requests = (ofLoaded card loaded).acquired id requests
      ∧ (s.refCount = 1 → ∀ files, (m.release files id).model.stream? id
        = some { s with refCount := 0, routed := nothing }))
      ∧ ∀ files devices format h, (m.acquire files devices format).2 = some h →
        ∃ s, (m.acquire files devices format).1.model.stream? h.id = some s ∧ s.isOpen = true
          ∧ s.type = .forRequest devices.isInput format.isLinearPcm
          ∧ s.routed = clipped devices.isInput devices := by
  have hrest := atRest_of_load hload
  have hstart : ∀ s ∈ (ofLoaded card loaded).model.streams, s.Consistent := by
    intro s hs
    obtain ⟨hzero, hnothing⟩ := hrest.idle s hs
    refine ⟨by rw [hzero]; exact Nat.zero_le _, hrest.room s hs, fun _ => hnothing, ?_⟩
    rw [hnothing]
    exact confined_nothing _
  refine ⟨fun id s hs => ⟨?_, ?_, fun hlast files => stream?_release_of_last files hs hlast⟩,
    fun files devices format h => exists_of_acquire⟩
  · subst hm
    exact consistent_serveAll hstart requests s (Model.mem_of_stream? hs)
  · have hbalance := instances_serveAll (ofLoaded card loaded) requests id
    have hnone : (ofLoaded card loaded).model.instances id = 0 :=
      Model.instances_of_idle (fun t ht => (hrest.idle t ht).1) id
    rwa [← hm, Model.instances_of_stream? hs, hnone, Nat.zero_add] at hbalance

/-- A stream is released once more than it was acquired, with a handle that is stale by then, and acquired again;
the other stream is acquired for every output device there could be. -/
theorem lifecycle_of_load_board :
    let start := ofLoaded boardCard.openMixer.2 boardLoaded
    let requests := [(boardDisk, Request.acquire 0x70#32 .pcm16), (boardDisk, .release ⟨.anonymous, 1⟩),
      (boardDisk, .release ⟨.anonymous, 1⟩), (boardDisk, .acquire 0x2#32 .pcm16)]
    let m := start.serveAll requests
    load boardDisk ⟨[boardCard]⟩ ⟨"a"⟩ = (.ok boardLoaded, ⟨[boardCard.openMixer.2]⟩)
      ∧ (∃ s, m.model.stream? ⟨.anonymous, 1⟩ = some s ∧ s.Consistent ∧ s.refCount + 1 = 2
        ∧ (m.release boardDisk ⟨.anonymous, 1⟩).model.stream? ⟨.anonymous, 1⟩
          = some { s with refCount := 0, routed := nothing })
      ∧ ∃ h s, (m.acquire boardDisk 0x7FFFFFFF#32 .pcm16).2 = some h ∧ h.id = ⟨.anonymous, 0⟩
        ∧ (m.acquire boardDisk 0x7FFFFFFF#32 .pcm16).1.model.stream? h.id = some s ∧ s.routed = 0x41FFFFFF#32 := by
  intro start requests m
  obtain ⟨hstreams, hacquire⟩ :=
    lifecycle_of_load load_board boardCard.openMixer.2 (rfl : m = start.serveAll requests)
  have hstate : (m.model.stream? ⟨.anonymous, 1⟩).any (fun s => decide (s.refCount = 1
      ∧ start.released ⟨.anonymous, 1⟩ requests = 1 ∧ start.acquired ⟨.anonymous, 1⟩ requests = 2)) = true := by
    decide +kernel
  have hanswer : (m.acquire boardDisk 0x7FFFFFFF#32 .pcm16).2.any (fun h =>
      decide (h.id = ⟨.anonymous, 0⟩)) = true := by decide +kernel
  obtain ⟨s, hs, hstate⟩ := (Option.any_eq_true _ _).mp hstate
  obtain ⟨hone, hreleased, hacquired⟩ := of_decide_eq_true hstate
  obtain ⟨h, hh, hid⟩ := (Option.any_eq_true _ _).mp hanswer
  obtain ⟨hconsistent, hcount, hlast⟩ := hstreams _ s hs
  obtain ⟨t, ht, -, -, hrouted⟩ := hacquire boardDisk 0x7FFFFFFF#32 .pcm16 h hh
  rw [hreleased, hacquired] at hcount
  exact ⟨load_board, ⟨s, hs, hconsistent, hcount, hlast hone boardDisk⟩, h, t, hh, of_decide_eq_true hid, ht, hrouted⟩

end Manager

end SoundRouting
