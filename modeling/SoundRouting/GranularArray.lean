import SoundRouting.Error
/-!
Arrays that grow by granules.

The capacity of such an array is part of its value. An element more than the capacity makes it
grow by one granule, up to a limit; compressing it gives back what is not used.
-/
namespace SoundRouting

/-- Elements, and how many of them there is room for. -/
structure GranularArray (α : Type) where
  items : Array α
  capacity : Nat
  deriving DecidableEq, Repr

namespace GranularArray

variable {α : Type}

/-- The number of elements that the capacity grows by. -/
def granule : Nat := 16

def maxCapacity : Nat := 0xFFFF

def empty : GranularArray α := ⟨#[], 0⟩

instance : Inhabited (GranularArray α) := ⟨empty⟩

def size (a : GranularArray α) : Nat :=
  a.items.size

def toList (a : GranularArray α) : List α :=
  a.items.toList

/-- The capacity that one element more needs. -/
def grownCapacity (a : GranularArray α) : Except Error Nat :=
  if a.size < a.capacity then .ok a.capacity
  else if maxCapacity - granule < a.capacity then .error .outOfMemory
  else .ok (a.capacity + granule)

def push (a : GranularArray α) (x : α) : Except Error (GranularArray α) :=
  match a.grownCapacity with
  | .ok capacity => .ok ⟨a.items.push x, capacity⟩
  | .error e => .error e

/-- Makes the capacity the number of elements. -/
def compress (a : GranularArray α) : GranularArray α :=
  { a with capacity := a.items.size }

def get? (a : GranularArray α) (i : Nat) : Option α :=
  a.items[i]?

def modify (a : GranularArray α) (i : Nat) (f : α → α) : GranularArray α :=
  { a with items := a.items.modify i f }

def map (f : α → α) (a : GranularArray α) : GranularArray α :=
  { a with items := a.items.map f }

/-- Puts other elements in place of the elements; the capacity stays. -/
def withItems (a : GranularArray α) (items : List α) : GranularArray α :=
  { a with items := items.toArray }

/-- Whether all room is used. -/
def isCompressed (a : GranularArray α) : Bool :=
  a.capacity == a.items.size

@[simp] theorem toList_empty : (empty : GranularArray α).toList = [] := rfl

@[simp] theorem toList_compress (a : GranularArray α) : a.compress.toList = a.toList := rfl

@[simp] theorem capacity_compress (a : GranularArray α) : a.compress.capacity = a.size := rfl

/-- An element that is added stands behind the others. -/
theorem toList_push {a b : GranularArray α} {x : α} (h : a.push x = .ok b) :
    b.toList = a.toList ++ [x] := by
  simp only [push] at h
  split at h
  · cases h
    simp [toList]
  · cases h

@[simp] theorem toList_map (f : α → α) (a : GranularArray α) :
    (a.map f).toList = a.toList.map f := by
  simp [map, toList]

@[simp] theorem toList_withItems (a : GranularArray α) (items : List α) :
    (a.withItems items).toList = items := rfl

@[simp] theorem length_toList (a : GranularArray α) : a.toList.length = a.size := rfl

@[simp] theorem getElem?_toList (a : GranularArray α) (i : Nat) : a.toList[i]? = a.get? i := by
  simp [get?, toList]

theorem mem_toList_iff {a : GranularArray α} {x : α} : x ∈ a.toList ↔ ∃ i, a.get? i = some x := by
  simp only [List.mem_iff_getElem?, getElem?_toList]

theorem mem_of_get? {a : GranularArray α} {i : Nat} {x : α} (h : a.get? i = some x) : x ∈ a.toList :=
  mem_toList_iff.mpr ⟨i, h⟩

@[simp] theorem toList_modify (a : GranularArray α) (i : Nat) (f : α → α) :
    (a.modify i f).toList = a.toList.modify i f := by
  simp [modify, toList]

/-- A change that a view does not see leaves the view of the whole array as it was. -/
theorem map_toList_modify {β : Type} (a : GranularArray α) {i : Nat} {f : α → α} {view : α → β}
    (h : ∀ x, a.get? i = some x → view (f x) = view x) :
    (a.modify i f).toList.map view = a.toList.map view := by
  apply List.ext_getElem?
  intro j
  rw [toList_modify, List.getElem?_map, List.getElem?_map, List.getElem?_modify]
  by_cases hj : i = j
  · subst hj
    cases hx : a.toList[i]? with
    | none => simp
    | some x => simp [h x (by rwa [getElem?_toList] at hx)]
  · simp [hj]

theorem forall_push {P : α → Prop} {a b : GranularArray α} {x : α} (h : a.push x = .ok b)
    (hall : ∀ y ∈ a.toList, P y) (hx : P x) : ∀ y ∈ b.toList, P y := by
  rw [toList_push h, List.forall_mem_append, List.forall_mem_singleton]
  exact ⟨hall, hx⟩

theorem forall_modify {P : α → Prop} {a : GranularArray α} {i : Nat} {f : α → α}
    (hall : ∀ y ∈ a.toList, P y) (hf : ∀ x, a.get? i = some x → P (f x)) :
    ∀ y ∈ (a.modify i f).toList, P y := by
  intro y hy
  rw [toList_modify, List.mem_iff_getElem?] at hy
  obtain ⟨j, hj⟩ := hy
  rw [List.getElem?_modify, getElem?_toList, Option.map_eq_map, Option.map_eq_some_iff] at hj
  obtain ⟨x, hx, rfl⟩ := hj
  by_cases hij : i = j
  · subst hij
    rw [if_pos rfl]
    exact hf x hx
  · rw [if_neg hij]
    exact hall x (mem_of_get? hx)

def Bounded (a : GranularArray α) : Prop :=
  a.size ≤ a.capacity ∧ a.capacity ≤ maxCapacity

theorem bounded_empty : (empty : GranularArray α).Bounded :=
  ⟨Nat.le_refl 0, Nat.zero_le _⟩

theorem bounded_push {a b : GranularArray α} {x : α} (h : a.push x = .ok b) (ha : a.Bounded) : b.Bounded := by
  obtain ⟨hsize, hmax⟩ := ha
  simp only [push, grownCapacity] at h
  split at h
  · rename_i capacity hgrown
    cases h
    simp only [Bounded, size, Array.size_push] at hsize ⊢
    split at hgrown
    · rename_i hroom
      cases hgrown
      exact ⟨hroom, hmax⟩
    · split at hgrown
      · cases hgrown
      · rename_i hlimit
        cases hgrown
        simp only [granule, maxCapacity] at *
        omega
  · cases h

@[simp] theorem size_modify (a : GranularArray α) (i : Nat) (f : α → α) :
    (a.modify i f).size = a.size := by
  simp [modify, size]

theorem get?_modify_same (a : GranularArray α) (i : Nat) (f : α → α) :
    (a.modify i f).get? i = (a.get? i).map f := by
  simp [modify, get?, Array.getElem?_modify]

theorem get?_modify_other (a : GranularArray α) {i j : Nat} (f : α → α) (h : i ≠ j) :
    (a.modify i f).get? j = a.get? j := by
  simp [modify, get?, Array.getElem?_modify, h]

/-- What a change does elsewhere than at its place does not matter. -/
theorem modify_congr (a : GranularArray α) {i : Nat} {f g : α → α}
    (h : ∀ x, a.get? i = some x → f x = g x) : a.modify i f = a.modify i g := by
  simp only [modify, mk.injEq, and_true]
  apply Array.ext_getElem?
  intro j
  rw [Array.getElem?_modify, Array.getElem?_modify]
  by_cases hj : i = j
  · subst hj
    rw [if_pos rfl, if_pos rfl]
    cases hx : a.items[i]? with
    | none => rfl
    | some x => rw [Option.map_some, Option.map_some, h x hx]
  · rw [if_neg hj, if_neg hj]

theorem modify_modify (a : GranularArray α) (i : Nat) (f g : α → α) :
    (a.modify i f).modify i g = a.modify i fun x => g (f x) := by
  simp only [modify, mk.injEq, and_true]
  apply Array.ext_getElem?
  intro j
  simp only [Array.getElem?_modify]
  by_cases hj : i = j <;> simp [hj, Function.comp_def]

end GranularArray

end SoundRouting
