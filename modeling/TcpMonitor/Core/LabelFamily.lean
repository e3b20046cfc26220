import Mathlib.Data.List.AList
import Mathlib.Data.Finset.Card

/-!
# Families of labelled values

A family maps a label set to one value per label and creates the entry of a
label on first use; entries are never removed.  Reading a family never changes
it, so a label is either absent or has the value of its last update.
-/

namespace TcpMonitor.LabelFamily

abbrev Family (Label Value : Type*) := AList fun _ : Label => Value

namespace Family

variable {Label Value : Type*} [DecidableEq Label]

/-- The value of a label, or `default` while the label has no entry. -/
def valueOr (default : Value) (family : Family Label Value) (label : Label) : Value :=
  (family.lookup label).getD default

/-- Create the entry of `label` with `value`, or overwrite it. -/
def set (family : Family Label Value) (label : Label) (value : Value) :
    Family Label Value :=
  family.insert label value

/-- Create the entry of `label` with the default value if it has none. -/
def getOrCreate (default : Value) (family : Family Label Value) (label : Label) :
    Family Label Value :=
  if label ∈ family then family else family.insert label default

/-- Change the value of `label`, starting from the default. -/
def update (default : Value) (change : Value → Value) (family : Family Label Value)
    (label : Label) : Family Label Value :=
  family.insert label (change (family.valueOr default label))

theorem lookup_set (family : Family Label Value) (label other : Label) (value : Value) :
    (family.set label value).lookup other =
      if other = label then some value else family.lookup other := by
  by_cases hother : other = label
  · subst hother
    simp [set]
  · simp [set, hother]

theorem lookup_update (default : Value) (change : Value → Value)
    (family : Family Label Value) (label other : Label) :
    (family.update default change label).lookup other =
      if other = label then some (change (family.valueOr default label))
      else family.lookup other :=
  lookup_set family label other _

theorem valueOr_update (default : Value) (change : Value → Value)
    (family : Family Label Value) (label other : Label) :
    (family.update default change label).valueOr default other =
      if other = label then change (family.valueOr default other)
      else family.valueOr default other := by
  by_cases hother : other = label
  · subst hother
    simp [valueOr, lookup_update]
  · simp [valueOr, lookup_update, hother]

theorem lookup_getOrCreate (default : Value) (family : Family Label Value)
    (label other : Label) :
    (family.getOrCreate default label).lookup other =
      if other = label then some (family.valueOr default label)
      else family.lookup other := by
  by_cases hmem : label ∈ family
  · rw [getOrCreate, if_pos hmem]
    by_cases hother : other = label
    · subst hother
      obtain ⟨value, hvalue⟩ := Option.isSome_iff_exists.mp (AList.lookup_isSome.mpr hmem)
      simp [valueOr, hvalue]
    · simp [hother]
  · have hnone : family.lookup label = none := AList.lookup_eq_none.mpr hmem
    rw [getOrCreate, if_neg hmem]
    by_cases hother : other = label
    · subst hother
      simp [valueOr, hnone]
    · simp [hother]

/-- Creating an entry with the default value is not visible through
`valueOr`. -/
@[simp]
theorem valueOr_getOrCreate (default : Value) (family : Family Label Value)
    (label other : Label) :
    (family.getOrCreate default label).valueOr default other =
      family.valueOr default other := by
  by_cases hother : other = label
  · subst hother
    simp [valueOr, lookup_getOrCreate]
  · simp [valueOr, lookup_getOrCreate, hother]

@[simp]
theorem mem_set (family : Family Label Value) (label other : Label) (value : Value) :
    other ∈ family.set label value ↔ other = label ∨ other ∈ family :=
  AList.mem_insert family

@[simp]
theorem mem_update (default : Value) (change : Value → Value)
    (family : Family Label Value) (label other : Label) :
    other ∈ family.update default change label ↔ other = label ∨ other ∈ family :=
  AList.mem_insert family

@[simp]
theorem mem_getOrCreate (default : Value) (family : Family Label Value)
    (label other : Label) :
    other ∈ family.getOrCreate default label ↔ other = label ∨ other ∈ family := by
  by_cases hmem : label ∈ family
  · rw [getOrCreate, if_pos hmem]
    constructor
    · exact Or.inr
    · rintro (rfl | hother)
      · exact hmem
      · exact hother
  · rw [getOrCreate, if_neg hmem]
    exact AList.mem_insert family

/-- A family has at most as many entries as any finite set that contains all
its labels. -/
theorem length_keys_le {family : Family Label Value} {labels : Finset Label}
    (hsubset : ∀ label ∈ family, label ∈ labels) :
    family.keys.length ≤ labels.card := by
  have hkeys : family.keys.toFinset ⊆ labels := fun label hlabel =>
    hsubset label (AList.mem_keys.mpr (List.mem_toFinset.mp hlabel))
  calc
    family.keys.length = family.keys.toFinset.card :=
      (List.toFinset_card_of_nodup family.keys_nodup).symm
    _ ≤ labels.card := Finset.card_le_card hkeys

end Family

end TcpMonitor.LabelFamily
