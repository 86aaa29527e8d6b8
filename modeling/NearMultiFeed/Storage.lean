import NearMultiFeed.Codec

/-!
# Collections that satisfy the SDK laws

A write-back map over stored bytes, a membership set and an element list with
the removal order of `swap_remove`. The contract runs on them.
-/
namespace NearMultiFeed

/-- Stored bytes under a cache of the values written in this call. -/
structure PendingMap (K V : Type) where
  storage : K → Option (List UInt8)
  pending : K → Option V

namespace PendingMap
variable {K V : Type} [DecidableEq K] [Borsh V]

def get (m : PendingMap K V) (k : K) : Option V :=
  match m.pending k with
  | some v => some v
  | none => (m.storage k).bind fun bytes => (tryFromSlice bytes).toOption

def insert (m : PendingMap K V) (k : K) (v : V) : PendingMap K V :=
  { m with pending := Function.update m.pending k (some v) }

def flush (m : PendingMap K V) : PendingMap K V where
  storage k := ((m.pending k).map toVec).or (m.storage k)
  pending _ := none

instance : LookupMap (PendingMap K V) K V where
  new := ⟨fun _ => none, fun _ => none⟩
  get := get
  insert := insert
  flush := flush
  get_new _ := rfl
  get_insert_self m k v := by simp only [get, insert, Function.update_self]
  get_insert_of_ne m k v k' h := by simp only [get, insert, Function.update_of_ne h]
  flush_new := rfl
  flush_flush _ := rfl
  get_flush_insert_self m k v v' h := by
    simp only [get, insert, flush, Function.update_self, Option.map_some, Option.some_or,
      Option.bind_some, h]
    rfl
  get_flush_insert_of_ne m k v k' h := by
    simp only [get, insert, flush, Function.update_of_ne h]

end PendingMap

/-- A set known by its membership test. -/
structure MemberSet (T : Type) where
  has : T → Bool

instance {T : Type} [DecidableEq T] : LookupSet (MemberSet T) T where
  new := ⟨fun _ => false⟩
  contains := MemberSet.has
  insert s a := (!s.has a, ⟨Function.update s.has a true⟩)
  remove s a := (s.has a, ⟨Function.update s.has a false⟩)
  contains_new _ := rfl
  insert_changed _ _ := rfl
  contains_insert_self s a := Function.update_self a true s.has
  contains_insert_of_ne s _ _ h := Function.update_of_ne h true s.has
  remove_changed _ _ := rfl
  contains_remove_self s a := Function.update_self a false s.has
  contains_remove_of_ne s _ _ h := Function.update_of_ne h false s.has

section SwapRemove
variable {T : Type} [DecidableEq T]

/-- `Vec::swap_remove`: the last element takes the place of the removed one. -/
def swapRemove (a : T) (l : List T) : List T :=
  match l.getLast? with
  | none => []
  | some z => l.dropLast.map fun x => if x = a then z else x

theorem swapRemove_concat (a z : T) (init : List T) :
    swapRemove a (init ++ [z]) = init.map fun x => if x = a then z else x := by
  simp only [swapRemove, List.getLast?_append, List.getLast?_singleton, Option.some_or,
    List.dropLast_concat]

theorem mem_swapRemove {a : T} {l : List T} (nodup : l.Nodup) (ha : a ∈ l) (b : T) :
    b ∈ swapRemove a l ↔ b ∈ l ∧ b ≠ a := by
  rcases List.eq_nil_or_concat l with rfl | ⟨init, z, rfl⟩
  · cases ha
  · rw [List.concat_eq_append] at nodup ha ⊢
    obtain ⟨-, -, apart⟩ := List.nodup_append'.mp nodup
    have fresh : z ∉ init := fun hz => apart hz (List.mem_singleton.mpr rfl)
    simp only [swapRemove_concat, List.mem_map, List.mem_append, List.mem_singleton] at ha ⊢
    constructor
    · rintro ⟨x, hx, rfl⟩
      by_cases same : x = a
      · subst same
        rw [if_pos rfl]
        exact ⟨.inr rfl, fun he => fresh (he ▸ hx)⟩
      · rw [if_neg same]
        exact ⟨.inl hx, same⟩
    · rintro ⟨hb | rfl, other⟩
      · exact ⟨b, hb, if_neg other⟩
      · have earlier : a ∈ init := ha.resolve_right (Ne.symm other)
        exact ⟨a, earlier, if_pos rfl⟩

theorem nodup_swapRemove {a : T} {l : List T} (nodup : l.Nodup) : (swapRemove a l).Nodup := by
  rcases List.eq_nil_or_concat l with rfl | ⟨init, z, rfl⟩
  · exact List.nodup_nil
  · rw [List.concat_eq_append] at nodup ⊢
    obtain ⟨distinct, -, apart⟩ := List.nodup_append'.mp nodup
    have fresh : z ∉ init := fun hz => apart hz (List.mem_singleton.mpr rfl)
    rw [swapRemove_concat]
    refine List.Nodup.map_on ?_ distinct
    intro x hx y hy same
    split_ifs at same with h₁ h₂ h₂
    · rw [h₁, h₂]
    · exact absurd (same ▸ hy) fresh
    · exact absurd (same ▸ hx) fresh
    · exact same

end SwapRemove

/-- Elements in the order they are listed, without repetition. -/
structure ElementList (T : Type) where
  elements : List T
  nodup : elements.Nodup

namespace ElementList
variable {T : Type} [DecidableEq T]

def insert (s : ElementList T) (a : T) : Bool × ElementList T :=
  if h : a ∈ s.elements then (false, s)
  else (true, ⟨s.elements ++ [a], by
    rw [← List.concat_eq_append]
    exact List.Nodup.concat h s.nodup⟩)

def remove (s : ElementList T) (a : T) : Bool × ElementList T :=
  if a ∈ s.elements then (true, ⟨swapRemove a s.elements, nodup_swapRemove s.nodup⟩)
  else (false, s)

theorem mem_insert (s : ElementList T) (a b : T) :
    b ∈ (s.insert a).2.elements ↔ b ∈ s.elements ∨ b = a := by
  unfold insert
  split_ifs with h
  · constructor
    · exact Or.inl
    · rintro (hb | rfl)
      · exact hb
      · exact h
  · simp only [List.mem_append, List.mem_singleton]

theorem mem_remove (s : ElementList T) (a b : T) :
    b ∈ (s.remove a).2.elements ↔ b ∈ s.elements ∧ b ≠ a := by
  unfold remove
  split_ifs with h
  · exact mem_swapRemove s.nodup h b
  · constructor
    · intro hb
      exact ⟨hb, fun same => h (same ▸ hb)⟩
    · exact And.left

instance : IterableSet (ElementList T) T where
  new := ⟨[], List.nodup_nil⟩
  contains s a := decide (a ∈ s.elements)
  insert := insert
  remove := remove
  contains_new _ := rfl
  insert_changed s a := by
    unfold insert
    split_ifs with h <;> simp only [h, decide_true, decide_false, Bool.not_true, Bool.not_false]
  contains_insert_self s a := decide_eq_true ((mem_insert s a a).mpr (.inr rfl))
  contains_insert_of_ne s _ _ h := by simp only [mem_insert, h, or_false]
  remove_changed s a := by
    unfold remove
    split_ifs with h <;> simp only [h, decide_true, decide_false]
  contains_remove_self s a := by simp only [mem_remove, ne_eq, not_true, and_false, decide_false]
  contains_remove_of_ne s _ _ h := by simp only [mem_remove, ne_eq, h, not_false_iff, and_true]
  iter := elements
  mem_iter s a := decide_eq_true_iff.symm
  nodup_iter := nodup

end ElementList

end NearMultiFeed
