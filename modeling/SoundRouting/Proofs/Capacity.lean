import SoundRouting.GranularArray
/-!
The room of an array.

An array is changed in its place: it grows by a granule when an element more finds no room, and it gives back what is
not used when it is compressed. However it has been changed, less than a granule of its room is unused, and an
element more is refused only near the limit.
-/
namespace SoundRouting.GranularArray

variable {α : Type} {a b : GranularArray α} {x : α}

/-- The places that the storage is asked for when the array grows. -/
def reserve (a : GranularArray α) : Nat :=
  a.capacity + granule - a.size

/-- Makes room for an element more, if there is none, and says whether that failed. -/
def makeRoom (a : GranularArray α) : GranularArray α × Except Error Unit :=
  if a.size < a.capacity then (a, .ok ())
  else if maxCapacity - granule < a.capacity then (a, .error .outOfMemory)
  else ({ a with capacity := a.capacity + granule }, .ok ())

def add (a : GranularArray α) (x : α) : GranularArray α × Except Error Unit :=
  match a.makeRoom with
  | (grown, .ok ()) => ({ grown with items := grown.items.push x }, .ok ())
  | (kept, .error e) => (kept, .error e)

/-- An element that can be added is added in place; one that cannot leaves the array as it is. -/
theorem add_eq (a : GranularArray α) (x : α) :
    a.add x = match a.push x with
      | .ok b => (b, .ok ())
      | .error e => (a, .error e) := by
  simp only [add, makeRoom, push, grownCapacity]
  by_cases hroom : a.size < a.capacity
  · rw [if_pos hroom, if_pos hroom]
  · rw [if_neg hroom, if_neg hroom]
    by_cases hlimit : maxCapacity - granule < a.capacity
    · rw [if_pos hlimit, if_pos hlimit]
    · rw [if_neg hlimit, if_neg hlimit]

/-- The array holds its elements within the limit, and less than a granule of its room is unused. -/
structure Tight (a : GranularArray α) : Prop where
  holds : a.size ≤ a.capacity
  limit : a.capacity ≤ maxCapacity
  spare : a.capacity - a.size < granule

theorem tight_empty : (empty : GranularArray α).Tight :=
  ⟨Nat.le_refl 0, Nat.zero_le _, of_decide_eq_true rfl⟩

theorem tight_compress (h : a.Tight) : a.compress.Tight := by
  refine ⟨Nat.le_refl a.size, Nat.le_trans h.holds h.limit, ?_⟩
  change a.size - a.size < granule
  rw [Nat.sub_self]
  decide

theorem tight_modify (h : a.Tight) (i : Nat) (f : α → α) : (a.modify i f).Tight := by
  obtain ⟨hholds, hlimit, hspare⟩ := h
  rw [← size_modify a i f] at hholds hspare
  exact ⟨hholds, hlimit, hspare⟩

/-- There is room for an element more, or for a granule more, or the array is full and a granule more is beyond the
limit. -/
theorem push_cases (h : a.Tight) (x : α) :
    a.size < a.capacity ∧ a.push x = .ok ⟨a.items.push x, a.capacity⟩
      ∨ a.size = a.capacity ∧ a.capacity + granule ≤ maxCapacity
        ∧ a.push x = .ok ⟨a.items.push x, a.capacity + granule⟩
      ∨ a.size = a.capacity ∧ maxCapacity < a.capacity + granule ∧ a.push x = .error .outOfMemory := by
  have hholds := h.holds
  have hlimits : granule ≤ maxCapacity := by decide
  simp only [push, grownCapacity]
  by_cases hroom : a.size < a.capacity
  · rw [if_pos hroom]
    exact Or.inl ⟨hroom, rfl⟩
  · rw [if_neg hroom]
    by_cases hlimit : maxCapacity - granule < a.capacity
    · rw [if_pos hlimit]
      exact Or.inr (Or.inr ⟨by omega, by omega, rfl⟩)
    · rw [if_neg hlimit]
      exact Or.inr (Or.inl ⟨by omega, by omega, rfl⟩)

/-- An element more takes one place, and the room stays tight. -/
theorem tight_push (h : a.Tight) (hpush : a.push x = .ok b) : b.Tight ∧ b.size = a.size + 1
    ∧ (b.capacity = a.capacity ∨ b.capacity = a.capacity + granule) := by
  obtain ⟨hholds, hlimit, hspare⟩ := h
  have hgranule : granule = 16 := rfl
  have hsize : ∀ capacity, size ⟨a.items.push x, capacity⟩ = a.size + 1 := fun _ => Array.size_push x
  rcases push_cases ⟨hholds, hlimit, hspare⟩ x with ⟨hroom, he⟩ | ⟨hfull, hgrown, he⟩ | ⟨-, -, he⟩
  · obtain rfl := Except.ok.inj (hpush.symm.trans he)
    refine ⟨⟨?_, hlimit, ?_⟩, hsize _, Or.inl rfl⟩
    · rw [hsize]
      exact hroom
    · rw [hsize]
      exact Nat.lt_of_le_of_lt (Nat.sub_le_sub_left (Nat.le_succ _) _) hspare
  · obtain rfl := Except.ok.inj (hpush.symm.trans he)
    have hroom : a.size + 1 ≤ a.capacity + granule ∧ a.capacity + granule - (a.size + 1) < granule := by omega
    refine ⟨⟨?_, hgrown, ?_⟩, hsize _, Or.inr rfl⟩
    · rw [hsize]
      exact hroom.1
    · rw [hsize]
      exact hroom.2
  · cases hpush.symm.trans he

/-- An element more is taken unless the array is full and a granule more is beyond the limit. -/
theorem exists_push (h : a.Tight) (hroom : a.size = a.capacity → a.capacity + granule ≤ maxCapacity) (x : α) :
    ∃ b, a.push x = .ok b := by
  rcases push_cases h x with ⟨-, hpush⟩ | ⟨-, -, hpush⟩ | ⟨hfull, hbeyond, -⟩
  · exact ⟨_, hpush⟩
  · exact ⟨_, hpush⟩
  · exact absurd (hroom hfull) (Nat.not_le_of_lt hbeyond)

/-! ### Changes -/

/-- What can be done to an array: an element is added, the default one of its type for instance, the array is
compressed, all of it is given up, or one of its elements changes. -/
inductive Change (α : Type) where
  | push (x : α)
  | extend (type : Inhabited α)
  | compress
  | free
  | update (i : Nat) (f : α → α)

def Change.apply (a : GranularArray α) : Change α → GranularArray α × Except Error Unit
  | .push x => a.add x
  | .extend type => a.add type.default
  | .compress => (a.compress, .ok ())
  | .free => (.empty, .ok ())
  | .update i f => (a.modify i f, .ok ())

def run (a : GranularArray α) (changes : List (Change α)) : GranularArray α :=
  changes.foldl (fun a change => (change.apply a).1) a

theorem run_append (a : GranularArray α) (first rest : List (Change α)) :
    a.run (first ++ rest) = (a.run first).run rest :=
  List.foldl_append

theorem tight_add (h : a.Tight) (x : α) : (a.add x).1.Tight := by
  rw [add_eq]
  cases hpush : a.push x with
  | ok b => exact (tight_push h hpush).1
  | error e => exact h

theorem tight_apply (h : a.Tight) (change : Change α) : (change.apply a).1.Tight := by
  cases change with
  | push x => exact tight_add h x
  | extend type => exact tight_add h type.default
  | compress => exact tight_compress h
  | free => exact tight_empty
  | update i f => exact tight_modify h i f

theorem tight_run (h : a.Tight) (changes : List (Change α)) : (a.run changes).Tight := by
  induction changes generalizing a with
  | nil => exact h
  | cons change more ih => exact ih (tight_apply h change)

/-- However an array has been changed since it was empty, its elements fit its capacity, which is within its limit
and of which less than a granule is unused. An element more is taken as long as a granule more would be, and refused
at the limit; it stands behind the others, and one that is refused changes nothing. Compressing keeps the elements and
leaves no room unused. Where the array grows, the storage is asked for the places that are missing, up to a capacity
that is within the limit. -/
theorem room_of_changes (changes : List (Change α)) : let a := run .empty changes
    a.size ≤ a.capacity ∧ a.capacity ≤ maxCapacity ∧ a.capacity - a.size < 16
      ∧ (∀ x, a.size < maxCapacity - 15 → ∃ b, a.push x = .ok b)
      ∧ (∀ x, a.size = maxCapacity → a.push x = .error .outOfMemory)
      ∧ (∀ x e, a.push x = .error e → e = .outOfMemory ∧ a.add x = (a, .error e))
      ∧ (∀ x b, a.push x = .ok b → a.add x = (b, .ok ()) ∧ b.toList = a.toList ++ [x])
      ∧ a.compress.capacity = a.size ∧ a.compress.toList = a.toList
      ∧ (a.capacity ≤ a.size → ¬ maxCapacity - granule < a.capacity →
        a.size ≤ a.capacity + granule ∧ a.size + a.reserve = a.capacity + granule
          ∧ a.capacity + granule ≤ maxCapacity) := by
  intro a
  have h : a.Tight := tight_run tight_empty changes
  have hholds := h.holds
  have hlimit := h.limit
  have hgranule : granule = 16 := rfl
  have hmax : maxCapacity = 65535 := rfl
  refine ⟨hholds, hlimit, h.spare, ?_, ?_, ?_, ?_, rfl, rfl, ?_⟩
  · exact fun x hsize => exists_push h (fun hfull => by omega) x
  · intro x hsize
    rcases push_cases h x with ⟨hroom, -⟩ | ⟨hfull, hgrown, -⟩ | ⟨-, -, hpush⟩
    · omega
    · omega
    · exact hpush
  · intro x e hpush
    rcases push_cases h x with ⟨-, he⟩ | ⟨-, -, he⟩ | ⟨-, -, he⟩
    · cases hpush.symm.trans he
    · cases hpush.symm.trans he
    · obtain rfl := Except.error.inj (hpush.symm.trans he)
      exact ⟨rfl, by rw [add_eq, hpush]⟩
  · exact fun x b hpush => ⟨by rw [add_eq, hpush], toList_push hpush⟩
  · intro hfull hgrows
    rw [reserve]
    omega

/-- Three elements that are compressed have no room for one more, for which a granule is added to theirs. -/
example : (run .empty [.push 'a', .push 'b', .push 'c', .compress, .push 'd']).capacity = 19 := by decide

/-- A capacity that is one below a multiple of the granule stays so while elements are added, up to the limit. -/
theorem size_run_pushes (h : a.Tight) (hodd : a.capacity % granule = 15) (x : α) {n : Nat}
    (hn : a.size + n ≤ maxCapacity) : (a.run (List.replicate n (.push x))).size = a.size + n := by
  induction n generalizing a with
  | zero => rfl
  | succ n ih =>
    have hgranule : granule = 16 := rfl
    have hmax : maxCapacity = 65535 := rfl
    have hlimit := h.limit
    rw [hgranule] at hodd
    obtain ⟨b, hpush⟩ := exists_push h (fun hfull => by omega) x
    obtain ⟨hb, hsize, hcapacity⟩ := tight_push h hpush
    have hstep : a.run (List.replicate (n + 1) (.push x)) = b.run (List.replicate n (.push x)) := by
      rw [List.replicate_succ, run, List.foldl_cons, Change.apply, add_eq, hpush, run]
    have hcapacity' : b.capacity % granule = 15 := by
      rw [hgranule]
      omega
    rw [hstep, ih hb hcapacity' (by omega), hsize, Nat.add_right_comm, Nat.add_assoc]

def filling (n : Nat) : List (Change Unit) :=
  List.replicate 15 (.push ()) ++ .compress :: List.replicate n (.push ())

theorem size_run_filling {n : Nat} (hn : 15 + n ≤ maxCapacity) : (run .empty (filling n)).size = 15 + n := by
  let fifteen : GranularArray Unit := ⟨⟨List.replicate 15 ()⟩, 15⟩
  have htight : fifteen.Tight := ⟨by decide, by decide, by decide⟩
  have hpacked : run .empty (filling n) = fifteen.run (List.replicate n (.push ())) := by
    rw [filling, run_append]
    rfl
  rw [hpacked]
  exact size_run_pushes htight rfl () hn

/-- The array can be filled to the limit, and takes no more. -/
theorem room_of_changes_filling : (run .empty (filling 65520)).size = maxCapacity
    ∧ (run .empty (filling 65520)).capacity = maxCapacity
    ∧ (run .empty (filling 65520)).push () = .error .outOfMemory := by
  have hsize : (run .empty (filling 65520)).size = maxCapacity := size_run_filling (by decide)
  obtain ⟨hholds, hlimit, -, -, hrefused, -⟩ := room_of_changes (filling 65520)
  rw [hsize] at hholds
  exact ⟨hsize, Nat.le_antisymm hlimit hholds, hrefused () hsize⟩

end SoundRouting.GranularArray
