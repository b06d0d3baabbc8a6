import SoundRouting.Proofs.GlobalUses
import SoundRouting.Proofs.Instances
/-!
Calls that are denied.

A request may find no stream to be answered with, or be about a stream that is not open or has another direction, or
be answered with an error. Then nothing happens: neither to the model, nor to the card, nor to what the mixer knows of
it. So the calls that are denied can be left out of any run.
-/
namespace SoundRouting

open DeviceMask Config

/-- What a client can call: a request, or a question for a constant of a stream, which may have to be a number. -/
inductive Call where
  | request (r : Request)
  | text (id : StreamId) (name : String)
  | unsigned (id : StreamId) (name : String)
  | signed (id : StreamId) (name : String)
  deriving DecidableEq, Repr

/-- A mask is clipped for streams of its direction, and the empty mask for all. -/
theorem Plan.clip?_eq_none_iff {input : Bool} {mask : DeviceMask} :
    Plan.clip? input mask = none ↔ mask ≠ nothing ∧ input ≠ mask.isInput := by
  by_cases hmask : mask = nothing
  · simp only [clip?, hmask, beq_self_eq_true, if_true, reduceCtorEq, ne_eq, not_true_eq_false, false_and]
  · simp only [clip?, beq_iff_eq, hmask, if_false, ne_eq, not_false_eq_true, true_and]
    cases mask.isInput <;> cases input <;> simp

namespace Manager

variable {disk : Disk} {m : Manager}

def after (disk : Disk) (m : Manager) : Call → Manager
  | .request r => m.serve disk r
  | .text _ _ | .unsigned _ _ | .signed _ _ => m

def hasOpen (m : Manager) (id : StreamId) : Bool :=
  (m.model.stream? id).any (·.isOpen)

/-- Whether a stream is of another direction than a mask. The empty mask has no direction. -/
def opposes (m : Manager) (id : StreamId) (mask : DeviceMask) : Bool :=
  mask != nothing && (m.model.stream? id).any (·.type.isInput != mask.isInput)

/-- Whether a call is denied: there is no stream for it, or the stream is not open or of the other direction, or the
answer is an error. -/
def denies (disk : Disk) (m : Manager) : Call → Bool
  | .request (.acquire devices format) => (m.acquire disk devices format).2.isNone
  | .request (.acquireNamed name) => (m.acquireNamed disk name).2.isNone
  | .request (.route id mask) => !m.hasOpen id || m.opposes id mask
  | .request (.release id) => !m.hasOpen id
  | .request (.setVolume id left right) => !(m.setVolume id left right).2.isOk
  | .request (.applyUseCase id setting caseName) => !(m.applyUseCase disk id setting caseName).2.isOk
  | .text id name => !(m.constant id name).isOk
  | .unsigned id name => !(m.unsignedConstant id name).isOk
  | .signed id name => !(m.signedConstant id name).isOk

/-- A request for a stream that is answered with none opens none. -/
theorem acquire_of_unanswered {devices : DeviceMask} {format : AudioFormat}
    (h : (m.acquire disk devices format).2 = none) : (m.acquire disk devices format).1 = m := by
  have hwanted : m.wanted? (.acquire devices format) = none := by
    rw [← granted?_eq disk, granted?, h, Option.map_none]
  have hserve := serve_acquire disk m devices format
  rwa [hwanted] at hserve

theorem acquireNamed_of_unanswered {name : String} (h : (m.acquireNamed disk name).2 = none) :
    (m.acquireNamed disk name).1 = m := by
  have hwanted : m.wanted? (.acquireNamed name) = none := by
    rw [← granted?_eq disk, granted?, h, Option.map_none]
  have hserve := serve_acquireNamed disk m name
  rwa [hwanted] at hserve

/-- A stream that is not open, or is of another direction than the mask, is not routed. -/
theorem route_of_denied {id : StreamId} {mask : DeviceMask} (h : (!m.hasOpen id || m.opposes id mask) = true) :
    m.route disk id mask = m := by
  rcases route_cases disk m id mask with ⟨he, -⟩ | ⟨s, new, hs, hopen, hclip, -⟩
  · exact he
  · have hpasses : Plan.clip? s.type.isInput mask ≠ none := by
      rw [hclip]
      exact Option.some_ne_none new
    rw [ne_eq, Plan.clip?_eq_none_iff] at hpasses
    simp only [hasOpen, opposes, hs, Option.any_some, hopen, Bool.not_true, Bool.false_or, Bool.and_eq_true,
      bne_iff_ne] at h
    exact absurd h hpasses

theorem setVolume_of_error {id : StreamId} {left right : Int} (h : (m.setVolume id left right).2.isOk = false) :
    (m.setVolume id left right).1 = m := by
  simp only [setVolume] at h ⊢
  split
  · rfl
  · rename_i hpercents
    simp only [hpercents] at h
    cases hs : m.model.stream? id with
    | none => rfl
    | some s =>
      by_cases hnone : (s.left.isNone && s.right.isNone) = true
      · simp only [hnone, if_true]
      · simp only [hs, hnone, Bool.false_eq_true, if_false] at h
        cases h

theorem applyUseCase_of_error {id : StreamId} {setting caseName : String}
    (h : (m.applyUseCase disk id setting caseName).2.isOk = false) :
    (m.applyUseCase disk id setting caseName).1 = m := by
  simp only [applyUseCase] at h ⊢
  split
  · rfl
  · rename_i hfound
    simp only [hfound] at h
    cases h

/-- A call that is denied leaves the manager as it was: its model, its card, and what its mixer knows. -/
theorem after_of_denied {call : Call} (h : m.denies disk call = true) : m.after disk call = m := by
  cases call with
  | text | unsigned | signed => rfl
  | request r =>
    cases r <;> simp only [denies, Option.isNone_iff_eq_none, Bool.not_eq_true'] at h
    case acquire => exact acquire_of_unanswered h
    case acquireNamed => exact acquireNamed_of_unanswered h
    case route => exact route_of_denied h
    case release => exact (release_of_closed disk h).1
    case setVolume => exact setVolume_of_error h
    case applyUseCase => exact applyUseCase_of_error h

def afterAll (m : Manager) (calls : List (Disk × Call)) : Manager :=
  calls.foldl (fun m c => m.after c.1 c.2) m

/-- The calls that are not denied when all are made in order. -/
def heard (m : Manager) : List (Disk × Call) → List (Disk × Call)
  | [] => []
  | (disk, call) :: more =>
    if m.denies disk call then (m.after disk call).heard more else (disk, call) :: (m.after disk call).heard more

/-- A run comes to what it would have come to without the calls that were denied. -/
theorem afterAll_heard (m : Manager) (calls : List (Disk × Call)) : m.afterAll (m.heard calls) = m.afterAll calls := by
  induction calls generalizing m with
  | nil => rfl
  | cons c more ih =>
    obtain ⟨disk, call⟩ := c
    rw [heard]
    by_cases hdenied : m.denies disk call = true
    · rw [if_pos hdenied, after_of_denied hdenied, ih, afterAll, afterAll, List.foldl_cons, after_of_denied hdenied]
    · rw [if_neg hdenied]
      exact ih (m.after disk call)

/-- Calls that are denied change nothing, one by one and in any run. -/
theorem unchanged_of_denied (m : Manager) :
    (∀ disk call, m.denies disk call = true → m.after disk call = m)
      ∧ ∀ calls, m.afterAll (m.heard calls) = m.afterAll calls :=
  ⟨fun _ _ => after_of_denied, afterAll_heard m⟩

/-- One stream of the board is open and the other one is not; calls of every kind are denied. -/
theorem unchanged_of_denied_board :
    let m := (ofLoaded boardCard.openMixer.2 boardLoaded).afterAll
      [(boardDisk, .request (.acquire 0x70#32 .pcm16)), (boardDisk, .request (.acquire 0x2#32 .pcm16)),
        (boardDisk, .request (.release ⟨.anonymous, 1⟩))]
    let calls : List Call := [.request (.acquire 0x80000004#32 .pcm16), .request (.acquireNamed "global"),
      .request (.route ⟨.anonymous, 0⟩ 0x80000004#32), .request (.route ⟨.anonymous, 1⟩ 0x2#32),
      .request (.release ⟨.anonymous, 1⟩), .request (.setVolume ⟨.anonymous, 0⟩ 100 101),
      .request (.setVolume ⟨.anonymous, 0⟩ 50 50), .request (.applyUseCase ⟨.anonymous, 0⟩ "mode" "call"),
      .text ⟨.anonymous, 0⟩ "delay", .unsigned ⟨.anonymous, 0⟩ "delay", .signed ⟨.named, 0⟩ "delay"]
    (∀ call ∈ calls, m.denies boardDisk call = true ∧ m.after boardDisk call = m)
      ∧ m.afterAll (calls.map fun call => (boardDisk, call)) = m := by
  intro m calls
  obtain ⟨hone, hall⟩ := unchanged_of_denied m
  have hdenied : ∀ call ∈ calls, m.denies boardDisk call = true := by decide +kernel
  have hheard : m.heard (calls.map fun call => (boardDisk, call)) = [] := by decide +kernel
  have hrun := hall (calls.map fun call => (boardDisk, call))
  rw [hheard] at hrun
  exact ⟨fun call hcall => ⟨hdenied call hcall, hone boardDisk call (hdenied call hcall)⟩, hrun.symm⟩

end Manager

end SoundRouting
