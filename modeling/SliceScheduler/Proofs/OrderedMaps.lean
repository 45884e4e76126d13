import Mathlib.Data.List.Sort
import Std.Data.ExtTreeMap
/-!
# Maps and the lists of their entries

1. `entries_inj` says that two lists in strict order with the same members are the same;
2. `toList_eq_map_toList` says that a map with the entries of another, recoded in order, lists them
   in the same order;
3. `foldl_insert_toList` says that a map is built again from its entries.
-/
namespace SliceScheduler.OrderedMap

open Std

variable {α β γ δ : Type} {cmp : α → α → Ordering} {cmp' : γ → γ → Ordering}

theorem values_eq_map_snd [TransCmp cmp] (t : ExtTreeMap α β cmp) :
    t.values = t.toList.map Prod.snd := by
  obtain ⟨⟨inner⟩⟩ := t
  induction inner using Quotient.inductionOn with
  | h inner =>
    -- the entries of the tree under the map, with their values in the same order
    show inner.inner.values = (DTreeMap.Internal.Impl.Const.toList inner.inner).map Prod.snd
    rw [DTreeMap.Internal.Impl.values_eq_map_snd,
      DTreeMap.Internal.Impl.Const.toList_eq_toListModel_map, List.map_map]
    rfl

theorem entries_inj (key : β → α) [TransCmp cmp] {xs ys : List β}
    (ordered : xs.Pairwise fun a b => cmp (key a) (key b) = .lt)
    (ordered' : ys.Pairwise fun a b => cmp (key a) (key b) = .lt)
    (same : ∀ a, a ∈ xs ↔ a ∈ ys) : xs = ys := by
  have distinct : ∀ {l : List β}, l.Pairwise (fun a b => cmp (key a) (key b) = .lt) → l.Nodup := by
    intro l ordered
    refine ordered.imp fun {a b} less => ?_
    rintro rfl
    exact absurd (ReflCmp.compare_self.symm.trans less) (by decide)
  refine List.Perm.eq_of_pairwise (fun a b _ _ less more => ?_) ordered ordered'
    ((List.perm_ext_iff_of_nodup (distinct ordered) (distinct ordered')).mpr same)
  have swapped : cmp (key a) (key b) = (cmp (key b) (key a)).swap := OrientedCmp.eq_swap
  rw [swapped, more] at less
  cases less

theorem mem_of_mem_toList [TransCmp cmp] [LawfulEqCmp cmp] {t : ExtTreeMap α β cmp} {entry : α × β}
    (mem : entry ∈ t.toList) : entry.1 ∈ t := by
  have found := ExtTreeMap.mem_toList_iff_getElem?_eq_some.mp mem
  exact ExtTreeMap.mem_iff_isSome_getElem?.mpr (by rw [found]; rfl)

theorem toList_eq_map_toList [TransCmp cmp] [LawfulEqCmp cmp] [TransCmp cmp'] [LawfulEqCmp cmp']
    {m : ExtTreeMap α β cmp} {t : ExtTreeMap γ δ cmp'} {key : α → γ} {value : β → δ}
    (mono : ∀ a b, a ∈ m → b ∈ m → cmp a b = .lt → cmp' (key a) (key b) = .lt)
    (same : ∀ c d, t[c]? = some d ↔ ∃ a b, m[a]? = some b ∧ key a = c ∧ value b = d) :
    t.toList = m.toList.map fun (a, b) => (key a, value b) := by
  have ordered : t.toList.Pairwise fun a b => cmp' a.1 b.1 = .lt := ExtTreeMap.ordered_keys_toList
  apply entries_inj Prod.fst ordered
  · rw [List.pairwise_map]
    refine ExtTreeMap.ordered_keys_toList.imp_of_mem fun {p q} mem mem' less => ?_
    exact mono p.1 q.1 (mem_of_mem_toList mem) (mem_of_mem_toList mem') less
  · intro (c, d)
    rw [ExtTreeMap.mem_toList_iff_getElem?_eq_some, same, List.mem_map]
    constructor
    · rintro ⟨a, b, found, rfl, rfl⟩
      exact ⟨(a, b), ExtTreeMap.mem_toList_iff_getElem?_eq_some.mpr found, rfl⟩
    · rintro ⟨⟨a, b⟩, mem, entry⟩
      exact ⟨a, b, ExtTreeMap.mem_toList_iff_getElem?_eq_some.mp mem, congrArg Prod.fst entry,
        congrArg Prod.snd entry⟩

theorem foldl_insert_toList [TransCmp cmp] [LawfulEqCmp cmp] [BEq α] [LawfulBEqCmp cmp]
    (t : ExtTreeMap α β cmp) :
    t.toList.foldl (fun m (a, b) => m.insert a b) ∅ = t := by
  show t.toList.foldl (fun m entry => m.insert entry.1 entry.2) ∅ = t
  rw [← ExtTreeMap.insertMany_list_eq_foldl]
  apply ExtTreeMap.ext_getElem?
  intro a
  cases found : t[a]? with
  | some b =>
    exact ExtTreeMap.getElem?_insertMany_list_of_mem ReflCmp.compare_self
      ExtTreeMap.distinct_keys_toList (ExtTreeMap.mem_toList_iff_getElem?_eq_some.mpr found)
  | none =>
    rw [ExtTreeMap.getElem?_insertMany_list_of_contains_eq_false]
    · exact ExtTreeMap.getElem?_empty
    · rw [ExtTreeMap.map_fst_toList_eq_keys, Bool.eq_false_iff, ne_eq,
        List.contains_iff_exists_mem_beq]
      rintro ⟨a', mem, same⟩
      have equal : cmp a a' = .eq := LawfulBEqCmp.compare_eq_iff_beq.mpr same
      have present := ExtTreeMap.mem_iff_isSome_getElem?.mp (ExtTreeMap.mem_keys.mp mem)
      rw [← LawfulEqCmp.eq_of_compare equal, found] at present
      cases present

end SliceScheduler.OrderedMap
