import SoundRouting.Proofs.Effects
import SoundRouting.Proofs.Load.Frame
/-!
What the events of a load come to for the cards.

A ledger is kept over the events that have been taken. It notes which card has been selected, which assignments
have been listed to come before everything else and which to come last, and what has been done to the cards: a
mixer is opened where one is declared, and where early writes end they are applied and the mixer is opened again.
Of all other elements it knows nothing, and all along a load it tells what becomes of the cards.
-/
namespace SoundRouting.Config

open Runs

def State.known (s : State) : List Nat :=
  (s.mixer.map (·.known)).getD []

/-- An assignment that is declared in this state, bound on the mixer that is open, if its control is there. -/
def State.bindNow (disk : Disk) (s : State) (a : Assignment) : Assignment :=
  match s.desk? with
  | none => a
  | some desk => (desk.mixer.bind disk desk.card a).2.1

namespace Event

/-- The card that an event selects if it declares a mixer. -/
def mixerCard? (s : State) (event : Event) : Option Nat :=
  (event.values? .mixer).bind (·.cardNumber? s.rack)

/-- The assignment that an event lists if it declares one in an element of this kind. -/
def listed? (disk : Disk) (s : State) (kind : ElementKind) (event : Event) : Option Assignment :=
  (event.values? .control).bind fun values =>
    if s.inner.element = some kind then (values.assignment? s.file).map (s.bindNow disk) else none

/-- Whether the writes that come before everything else end at an event. -/
def endsEarly (s : State) : Event → Bool
  | .opens _ _ _ => false
  | .closes _ => s.inner.element == some .preInit

end Event

/-- The card that has been selected, the assignments listed for it, and what has been done to the cards. -/
structure Ledger where
  card : Option Nat
  early : List Assignment
  initial : List Assignment
  effects : List Effect
  deriving DecidableEq, Repr

namespace Ledger

def blank : Ledger :=
  ⟨none, [], [], []⟩

/-- A mixer is opened on another card; what has been bound on one before is not bound any more. -/
def select (l : Ledger) (number : Nat) : Ledger :=
  { l with
    card := some number
    initial := l.initial.map Assignment.unbind
    effects := l.effects ++ [.opened number] }

/-- The early writes are applied by a mixer that knows these controls, and it is opened again. -/
def applyEarly (l : Ledger) (known : List Nat) : Ledger :=
  { l with
    early := []
    initial := l.initial.map Assignment.unbind
    effects := l.effects ++ l.card.toList.flatMap fun number => [.applied ⟨number, known⟩ l.early, .opened number] }

def list (l : Ledger) (early initial : Option Assignment) : Ledger :=
  { l with early := l.early ++ early.toList, initial := l.initial ++ initial.toList }

def note (disk : Disk) (l : Ledger) (step : State × Event) : Ledger :=
  let (s, e) := step
  match e.mixerCard? s with
  | some number => l.select number
  | none =>
    if e.endsEarly s then l.applyEarly s.known
    else l.list (e.listed? disk s .preInit) (e.listed? disk s .init)

def ofSteps (disk : Disk) (done : List (State × Event)) : Ledger :=
  done.foldl (note disk) blank

/-- All that is done to the cards by a load that stops in this state: if it succeeds, the writes that come last are
applied. -/
def total (l : Ledger) (s : State) (succeeds : Bool) : List Effect :=
  l.effects ++ if succeeds then l.card.toList.map fun number => .applied ⟨number, s.known⟩ l.initial else []

variable {disk : Disk}

theorem ofSteps_append (done : List (State × Event)) (step : State × Event) :
    ofSteps disk (done ++ [step]) = (ofSteps disk done).note disk step := by
  rw [ofSteps, List.foldl_append]
  rfl

/-! ### What stands in a ledger -/

/-- An element of this kind has declared the assignment; it may have been bound since, and not be any more. -/
def Declares (disk : Disk) (done : List (State × Event)) (kind : ElementKind) (a : Assignment) : Prop :=
  ∃ step ∈ done, ∃ b, step.2.listed? disk step.1 kind = some b ∧ (a = b ∨ a = b.unbind)

theorem Declares.append {done : List (State × Event)} {kind : ElementKind} {a : Assignment}
    (h : Declares disk done kind a) (step : State × Event) : Declares disk (done ++ [step]) kind a := by
  obtain ⟨earlier, hmem, hb⟩ := h
  exact ⟨earlier, List.mem_append_left _ hmem, hb⟩

theorem Declares.unbind {done : List (State × Event)} {kind : ElementKind} {a : Assignment}
    (h : Declares disk done kind a) : Declares disk done kind a.unbind := by
  obtain ⟨step, hmem, b, hb, rfl | rfl⟩ := h
  · exact ⟨step, hmem, a, hb, Or.inr rfl⟩
  · exact ⟨step, hmem, b, hb, Or.inr rfl⟩

/-- Every entry of a ledger comes from an event: a card from a mixer, an assignment from an element in the list, and
what is applied from the end of early writes. -/
structure Grounded (disk : Disk) (done : List (State × Event)) (l : Ledger) : Prop where
  card : ∀ number, l.card = some number → ∃ step ∈ done, step.2.mixerCard? step.1 = some number
  early : ∀ a ∈ l.early, Declares disk done .preInit a
  initial : ∀ a ∈ l.initial, Declares disk done .init a
  selected : ∀ mixer list, .applied mixer list ∈ l.effects →
    ∃ step ∈ done, step.2.mixerCard? step.1 = some mixer.card
  ended : ∀ mixer list, .applied mixer list ∈ l.effects → ∃ step ∈ done, step.2.endsEarly step.1 = true
  applied : ∀ mixer list, .applied mixer list ∈ l.effects → ∀ a ∈ list, Declares disk done .preInit a

theorem Grounded.append {done : List (State × Event)} {l : Ledger} (h : Grounded disk done l) (step : State × Event) :
    Grounded disk (done ++ [step]) l := by
  have hlater : ∀ {p : State × Event → Prop}, (∃ step ∈ done, p step) → ∃ earlier ∈ done ++ [step], p earlier :=
    fun ⟨earlier, hmem, hp⟩ => ⟨earlier, List.mem_append_left _ hmem, hp⟩
  exact
    { card := fun number hcard => hlater (h.card number hcard)
      early := fun a ha => (h.early a ha).append step
      initial := fun a ha => (h.initial a ha).append step
      selected := fun mixer list hmem => hlater (h.selected mixer list hmem)
      ended := fun mixer list hmem => hlater (h.ended mixer list hmem)
      applied := fun mixer list hmem a ha => (h.applied mixer list hmem a ha).append step }

theorem Grounded.select {done : List (State × Event)} {l : Ledger} (h : Grounded disk done l) {number : Nat}
    (hnumber : ∃ step ∈ done, step.2.mixerCard? step.1 = some number) : Grounded disk done (l.select number) := by
  have hold : ∀ mixer list, Effect.applied mixer list ∈ l.effects ++ [.opened number] →
      .applied mixer list ∈ l.effects := by
    intro mixer list hmem
    simpa using hmem
  refine
    { card := ?_
      early := h.early
      initial := List.forall_mem_map.mpr fun a ha => (h.initial a ha).unbind
      selected := fun mixer list hmem => h.selected mixer list (hold mixer list hmem)
      ended := fun mixer list hmem => h.ended mixer list (hold mixer list hmem)
      applied := fun mixer list hmem => h.applied mixer list (hold mixer list hmem) }
  rintro _ ⟨⟩
  exact hnumber

theorem Grounded.applyEarly {done : List (State × Event)} {l : Ledger} (h : Grounded disk done l) {known : List Nat}
    (hends : ∃ step ∈ done, step.2.endsEarly step.1 = true) : Grounded disk done (l.applyEarly known) := by
  have hnew : ∀ mixer list, .applied mixer list ∈ (l.applyEarly known).effects →
      .applied mixer list ∈ l.effects ∨ l.card = some mixer.card ∧ list = l.early := by
    intro mixer list hmem
    refine (List.mem_append.mp hmem).imp_right fun hmem => ?_
    obtain ⟨number, hnumber, hmem⟩ := List.mem_flatMap.mp hmem
    rw [List.mem_pair] at hmem
    rcases hmem with heq | heq <;> cases heq
    exact ⟨Option.mem_toList.mp hnumber, rfl⟩
  refine
    { card := h.card
      early := fun _ ha => absurd ha List.not_mem_nil
      initial := List.forall_mem_map.mpr fun a ha => (h.initial a ha).unbind
      selected := fun mixer list hmem => ?_
      ended := fun _ _ _ => hends
      applied := fun mixer list hmem => ?_ }
  · rcases hnew mixer list hmem with hmem | ⟨hcard, -⟩
    · exact h.selected mixer list hmem
    · exact h.card _ hcard
  · rcases hnew mixer list hmem with hmem | ⟨-, rfl⟩
    · exact h.applied mixer list hmem
    · exact h.early

theorem Grounded.list {done : List (State × Event)} {l : Ledger} (h : Grounded disk done l)
    {early initial : Option Assignment} (hearly : ∀ a ∈ early.toList, Declares disk done .preInit a)
    (hinitial : ∀ a ∈ initial.toList, Declares disk done .init a) : Grounded disk done (l.list early initial) :=
  { h with
    early := List.forall_mem_append.mpr ⟨h.early, hearly⟩
    initial := List.forall_mem_append.mpr ⟨h.initial, hinitial⟩ }

theorem Grounded.note {done : List (State × Event)} {l : Ledger} (h : Grounded disk done l) (step : State × Event) :
    Grounded disk (done ++ [step]) (l.note disk step) := by
  have hlast : step ∈ done ++ [step] := List.mem_append_right _ List.mem_cons_self
  have hkept := h.append step
  obtain ⟨s, e⟩ := step
  rw [Ledger.note]
  split
  · rename_i number hnumber
    exact hkept.select ⟨_, hlast, hnumber⟩
  · split
    · rename_i hends
      exact hkept.applyEarly ⟨_, hlast, hends⟩
    · exact hkept.list (fun a ha => ⟨_, hlast, a, Option.mem_toList.mp ha, Or.inl rfl⟩)
        fun a ha => ⟨_, hlast, a, Option.mem_toList.mp ha, Or.inl rfl⟩

theorem grounded_ofSteps (disk : Disk) (done : List (State × Event)) : Grounded disk done (ofSteps disk done) := by
  induction done using List.reverseRecOn with
  | nil => exact ⟨nofun, nofun, nofun, nofun, nofun, nofun⟩
  | append_singleton done step ih =>
    rw [ofSteps_append]
    exact ih.note step

/-- All that a load writes is listed in early writes or in those that come last, and goes to a card that a mixer
selects. -/
theorem Grounded.total {done : List (State × Event)} {l : Ledger} (h : Grounded disk done l) {s : State}
    {succeeds : Bool} {mixer : Mixer} {list : List Assignment} (hmem : .applied mixer list ∈ l.total s succeeds) :
    (∃ step ∈ done, step.2.mixerCard? step.1 = some mixer.card)
      ∧ ∀ a ∈ list, Declares disk done .preInit a ∨ Declares disk done .init a := by
  rcases List.mem_append.mp hmem with hmem | hmem
  · exact ⟨h.selected mixer list hmem, fun a ha => Or.inl (h.applied mixer list hmem a ha)⟩
  · split at hmem
    · obtain ⟨number, hnumber, heq⟩ := List.mem_map.mp hmem
      cases heq
      exact ⟨h.card number (Option.mem_toList.mp hnumber), fun a ha => Or.inr (h.initial a ha)⟩
    · cases hmem

theorem total_of_failure (l : Ledger) (s : State) : l.total s false = l.effects :=
  List.append_nil l.effects

end Ledger

end SoundRouting.Config
