/-
  LintReport.Proofs.Json.Members — objects that say the same to a reader who looks for some names.

  Proved:
  - `named?_of_extends`: members in another order, among others with names that are not looked for,
    are found as before.
-/

import LintReport.Json.Value

namespace LintReport.Json

open Text (symbols)

namespace Members

theorem get?_eq_head? (ms : Members) (key : Key) :
    ms.get? key = ((ms.filter (·.1 == key)).head?).map (·.2) := by
  induction ms with
  | nil => rfl
  | cons m ms ih =>
    obtain ⟨k, v⟩ := m
    by_cases h : key = k
    · subst h
      simp [get?]
    · have hk : (k == key) = false := beq_eq_false_iff_ne.mpr (Ne.symm h)
      have hk' : (key == k) = false := beq_eq_false_iff_ne.mpr h
      have step : get? ((k, v) :: ms) key = get? ms key := by
        simp only [get?, List.lookup_cons, hk']
      rw [step, ih, List.filter_cons_of_neg (by simp [hk])]

/-- The members `core` in any order, and with them only members that have none of the known
names. -/
def Extends (known : List String) (core ms : Members) : Prop :=
  ∃ others : Members, (∀ o ∈ others, ∀ name ∈ known, o.1 ≠ symbols name.toList) ∧
    ms.Perm (core ++ others)

theorem Extends.refl (known : List String) (core : Members) : Extends known core core :=
  ⟨[], nofun, by rw [List.append_nil]⟩

theorem length_filter_key_le {ms : Members} (h : (ms.map (·.1)).Nodup) (key : Key) :
    (ms.filter (·.1 == key)).length ≤ 1 := by
  have once := List.nodup_iff_count.mp h key
  rw [List.count, List.countP_map] at once
  rw [← List.countP_eq_length_filter]
  exact once

/-- A known name is found with the same value, whatever the order and the other members are. -/
theorem named?_of_extends {known : List String} {core ms : Members} (h : Extends known core ms)
    (distinct : (core.map (·.1)).Nodup) {name : String} (hname : name ∈ known) :
    ms.named? name = core.named? name := by
  obtain ⟨others, unknown, perm⟩ := h
  have none : others.filter (·.1 == symbols name.toList) = [] := by
    refine List.filter_eq_nil_iff.mpr fun o ho => ?_
    simpa using unknown o ho name hname
  have same : (ms.filter (·.1 == symbols name.toList)).Perm
      (core.filter (·.1 == symbols name.toList)) := by
    have := perm.filter (·.1 == symbols name.toList)
    rwa [List.filter_append, none, List.append_nil] at this
  have eq : ms.filter (·.1 == symbols name.toList) = core.filter (·.1 == symbols name.toList) := by
    match found : core.filter (·.1 == symbols name.toList), length_filter_key_le distinct _ with
    | [], _ => exact (found ▸ same).eq_nil
    | [m], _ => exact List.perm_singleton.mp (found ▸ same)
    | _ :: _ :: _, short => simp at short
  rw [named?, named?, get?_eq_head?, get?_eq_head?, eq]

end Members

end LintReport.Json
