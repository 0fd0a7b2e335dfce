/-!
# Association lists

Tables and file trees keep what belongs to a key as a list of pairs, of which the first pair with a
key counts. `put` leaves no other pair with its key behind, so a list that was built by it never
holds a key twice. The lemmas say what `List.lookup` sees after each change; nothing else needs to
know how the list is kept.
-/

namespace ExportTables.Association

variable {α β : Type} [BEq α]

/-- The pairs with other keys. -/
def erase (key : α) (pairs : List (α × β)) : List (α × β) := pairs.filter (·.1 != key)

/-- The pairs with this value for the key. -/
def put (key : α) (value : β) (pairs : List (α × β)) : List (α × β) :=
  (key, value) :: erase key pairs

variable [LawfulBEq α]

theorem lookup_erase_self (key : α) (pairs : List (α × β)) :
    (erase key pairs).lookup key = none := by
  induction pairs with
  | nil => rfl
  | cons pair rest ih =>
    obtain ⟨k, v⟩ := pair
    by_cases hk : k = key
    · simpa only [erase, List.filter_cons, hk, bne_self_eq_false, Bool.false_eq_true, if_false]
        using ih
    · have hkey : (key == k) = false := beq_eq_false_iff_ne.mpr (Ne.symm hk)
      simpa only [erase, List.filter_cons, bne_iff_ne, ne_eq, hk, not_false_eq_true, if_true,
        List.lookup_cons, hkey] using ih

theorem lookup_erase_of_ne {key other : α} (h : other ≠ key) (pairs : List (α × β)) :
    (erase key pairs).lookup other = pairs.lookup other := by
  induction pairs with
  | nil => rfl
  | cons pair rest ih =>
    obtain ⟨k, v⟩ := pair
    unfold erase at ih ⊢
    by_cases hk : k = key
    · have hother : (other == k) = false := beq_eq_false_iff_ne.mpr (hk ▸ h)
      simp only [List.filter_cons, hk, bne_self_eq_false, Bool.false_eq_true, if_false, ih,
        List.lookup_cons, hk ▸ hother]
    · simp only [List.filter_cons, bne_iff_ne, ne_eq, hk, not_false_eq_true, if_true,
        List.lookup_cons, ih]

theorem lookup_put_self (key : α) (value : β) (pairs : List (α × β)) :
    (put key value pairs).lookup key = some value := by simp [put]

theorem lookup_put_of_ne {key other : α} (h : other ≠ key) (value : β) (pairs : List (α × β)) :
    (put key value pairs).lookup other = pairs.lookup other := by
  have hother : (other == key) = false := by simpa using h
  simp [put, List.lookup_cons, hother, lookup_erase_of_ne h]

end ExportTables.Association
