import Mathlib.Algebra.BigOperators.Group.List.Basic
import Mathlib.Algebra.GroupWithZero.Nat
import Mathlib.Data.List.Infix

/-!
# Cutting a sequence between its items

A sequence of items of different sizes has to fit in a given room.  The longest
prefix made of whole items exists and is the only one; taking items from the
front while they fit computes it.  If some prefix fills the room exactly, it is
that prefix, because no item is empty.
-/

namespace TcpMonitor.WholePrefix

variable {Item : Type*} (size : Item → ℕ)

/-- The room that the items take. -/
def total (items : List Item) : ℕ := (items.map size).sum

@[simp]
theorem total_nil : total size [] = 0 := rfl

@[simp]
theorem total_cons (item : Item) (items : List Item) :
    total size (item :: items) = size item + total size items := by
  rw [total, List.map_cons, List.sum_cons]
  rfl

@[simp]
theorem total_append (front back : List Item) :
    total size (front ++ back) = total size front + total size back := by
  rw [total, List.map_append, List.sum_append]
  rfl

theorem total_replicate (count : ℕ) (item : Item) :
    total size (List.replicate count item) = count * size item := by
  rw [total, List.map_replicate, List.sum_replicate, Nat.nsmul_eq_mul]

/-- A prefix that fits, and none that fits is longer. -/
structure Longest (room : ℕ) (items kept : List Item) : Prop where
  isPrefix : kept <+: items
  fits : total size kept ≤ room
  longest : ∀ other, other <+: items → total size other ≤ room → other.length ≤ kept.length

/-- The items from the front on, as long as they fit. -/
def fitting : ℕ → List Item → List Item
  | _, [] => []
  | room, item :: items =>
      if size item ≤ room then item :: fitting (room - size item) items else []

variable {size}

theorem fitting_initial (room : ℕ) (items : List Item) : fitting size room items <+: items := by
  induction items generalizing room with
  | nil => exact List.nil_prefix
  | cons item items ih =>
      rw [fitting]
      split
      · exact List.cons_prefix_cons.mpr ⟨rfl, ih _⟩
      · exact List.nil_prefix

theorem total_fitting_le (room : ℕ) (items : List Item) :
    total size (fitting size room items) ≤ room := by
  induction items generalizing room with
  | nil => exact Nat.zero_le _
  | cons item items ih =>
      rw [fitting]
      split
      · next hroom =>
          have hrest := ih (room - size item)
          rw [total_cons]
          omega
      · exact Nat.zero_le _

theorem length_le_fitting {room : ℕ} {items other : List Item} (hinitial : other <+: items)
    (hfits : total size other ≤ room) : other.length ≤ (fitting size room items).length := by
  induction other generalizing room items with
  | nil => exact Nat.zero_le _
  | cons item other ih =>
      cases items with
      | nil => exact absurd (List.prefix_nil.mp hinitial) (List.cons_ne_nil _ _)
      | cons first items =>
          obtain ⟨rfl, hrest⟩ := List.cons_prefix_cons.mp hinitial
          rw [total_cons] at hfits
          rw [fitting, if_pos (by omega), List.length_cons, List.length_cons]
          exact Nat.succ_le_succ (ih hrest (by omega))

/-- Taking items while they fit gives the longest prefix, and there is no
other. -/
theorem longest_iff {room : ℕ} {items kept : List Item} :
    Longest size room items kept ↔ kept = fitting size room items := by
  constructor
  · intro hlongest
    have hle := length_le_fitting hlongest.isPrefix hlongest.fits
    have hge := hlongest.longest _ (fitting_initial room items) (total_fitting_le room items)
    have hinitial := List.prefix_of_prefix_length_le hlongest.isPrefix
      (fitting_initial room items) hle
    exact hinitial.eq_of_length_le hge
  · rintro rfl
    exact ⟨fitting_initial room items, total_fitting_le room items,
      fun _ hinitial hfits => length_le_fitting hinitial hfits⟩

/-- A prefix that fits is the longest one if the item behind it does not fit. -/
theorem longest_of_next {room : ℕ} {kept rest : List Item} {next : Item}
    (hfits : total size kept ≤ room) (hnext : room < total size kept + size next) :
    Longest size room (kept ++ next :: rest) kept := by
  refine ⟨List.prefix_append kept (next :: rest), hfits, ?_⟩
  intro other hother hothers
  by_contra hlonger
  have hwhole : kept ++ [next] <+: other := by
    apply List.prefix_of_prefix_length_le _ hother
    · rw [List.length_append, List.length_singleton]
      exact Nat.lt_of_not_le hlonger
    · exact ⟨rest, by rw [List.append_assoc, List.singleton_append]⟩
  obtain ⟨extra, rfl⟩ := hwhole
  rw [total_append, total_append, total_cons] at hothers
  omega

/-- A prefix that fills the room is the longest one. -/
theorem Longest.eq_of_total_eq (hsize : ∀ item, 0 < size item) {room : ℕ}
    {items kept front : List Item} (hlongest : Longest size room items kept)
    (hinitial : front <+: items) (hfull : total size front = room) : kept = front := by
  have hlength := hlongest.longest front hinitial hfull.le
  obtain ⟨extra, rfl⟩ := List.prefix_of_prefix_length_le hinitial hlongest.isPrefix hlength
  have hfits := hlongest.fits
  rw [total_append, hfull] at hfits
  cases extra with
  | nil => exact List.append_nil front
  | cons item extra =>
      have hpositive := hsize item
      rw [total_cons] at hfits
      omega

end TcpMonitor.WholePrefix
