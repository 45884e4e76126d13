import Mathlib.Data.String.Basic
import Mathlib.Tactic.Ring
import SliceScheduler.Job.Id
import SliceScheduler.Proofs.Numerals
/-!
# The texts of job ids

1. `JobId.ofText?_text` says that the text of an id stands for the id;
2. `JobId.compare_text` says that ids come in the order of their texts, so that a table sorted by
   text lists jobs as a map sorted by id does.
-/
namespace SliceScheduler.JobId

open Text

/-! ## Hexadecimal digits -/

theorem length_hexDigits (count n : Nat) : (hexDigits count n).length = count := by
  induction count generalizing n with
  | zero => rfl
  | succ count ih => simp [hexDigits, ih]

/-- The last digits stand for the remainder of the number. -/
theorem appendDigits?_hexDigits (count n m : Nat) :
    appendDigits? 16 m (hexDigits count n) = some (m * 16 ^ count + n % 16 ^ count) := by
  induction count generalizing n with
  | zero => simp [hexDigits, appendDigits?, Nat.mod_one]
  | succ count ih =>
    have last := digitIn?_digitChar (d := n % 16) (by omega)
    have split : n % (16 * 16 ^ count) = n % 16 + 16 * (n / 16 % 16 ^ count) := Nat.mod_mul
    unfold appendDigits? at ih ⊢
    rw [hexDigits, List.foldlM_append, ih, Nat.pow_succ']
    simp only [List.foldlM_cons, List.foldlM_nil, last, Option.map_some, Option.bind_eq_bind,
      Option.bind_some, Option.pure_def, Option.some.injEq]
    rw [split]
    ring

theorem numberIn?_hexDigits {count n : Nat} (positive : 0 < count) (small : n < 16 ^ count) :
    numberIn? 16 (hexDigits count n) = some n := by
  have nonempty : (hexDigits count n).isEmpty = false := by
    rw [List.isEmpty_eq_false_iff, ← List.length_pos_iff, length_hexDigits]
    exact positive
  simp [numberIn?, nonempty, appendDigits?_hexDigits, Nat.mod_eq_of_lt small]

theorem digitChar_lt_digitChar : ∀ b < 16, ∀ a < b, a.digitChar < b.digitChar := by decide

/-- Beginnings of one length decide the order, unless they are the same. -/
theorem append_lt_append_iff {as bs cs ds : List Char} (length : as.length = bs.length) :
    as ++ cs < bs ++ ds ↔ as < bs ∨ as = bs ∧ cs < ds := by
  induction as generalizing bs with
  | nil =>
    rw [List.length_nil, eq_comm, List.length_eq_zero_iff] at length
    simp [length]
  | cons a as ih =>
    cases bs with
    | nil => simp at length
    | cons b bs =>
      rw [List.cons_append, List.cons_append, List.cons_lt_cons_iff, List.cons_lt_cons_iff,
        ih (by simpa using length), List.cons.injEq]
      tauto

theorem hexDigits_lt {a b : Nat} (count : Nat) (less : a < b) (small : b < 16 ^ count) :
    hexDigits count a < hexDigits count b := by
  induction count generalizing a b with
  | zero => rw [Nat.pow_zero] at small; omega
  | succ count ih =>
    rw [Nat.pow_succ] at small
    rw [hexDigits, hexDigits]
    -- the digits before the last one decide, unless they are the same
    rcases Nat.lt_or_ge (a / 16) (b / 16) with before | notBefore
    · exact (append_lt_append_iff (by rw [length_hexDigits, length_hexDigits])).mpr
        (.inl (ih before (by omega)))
    · have same : a / 16 = b / 16 := by omega
      have last := digitChar_lt_digitChar (b % 16) (by omega) (a % 16) (by omega)
      rw [same]
      exact List.append_left_lt (List.cons_lt_cons_iff.mpr (.inl last))

/-! ## Groups -/

theorem unhyphenate?_hyphenate {ns : List Nat} {cs : List Char} (length : cs.length = ns.sum) :
    unhyphenate? ns (hyphenate ns cs) = some cs := by
  induction ns generalizing cs with
  | nil => rfl
  | cons n ns ih =>
    cases ns with
    | nil =>
      have all : cs.length = n := by simpa using length
      simp [hyphenate, unhyphenate?, all, List.take_of_length_le (Nat.le_of_eq all)]
    | cons m ns =>
      have rest : unhyphenate? (m :: ns) (hyphenate (m :: ns) (cs.drop n)) = some (cs.drop n) :=
        ih (by simp at length ⊢; omega)
      have first : (cs.take n).length = n := by simp at length ⊢; omega
      simp only [hyphenate, unhyphenate?, List.drop_left' first, List.take_left' first, rest,
        Option.map_some, List.take_append_drop]

theorem hyphenate_lt {ns : List Nat} {cs ds : List Char} (nonempty : ns ≠ [])
    (length : cs.length = ns.sum) (length' : ds.length = ns.sum) (less : cs < ds) :
    hyphenate ns cs < hyphenate ns ds := by
  induction ns generalizing cs ds with
  | nil => exact absurd rfl nonempty
  | cons n ns ih =>
    cases ns with
    | nil =>
      rw [hyphenate, hyphenate, List.take_of_length_le (by simp at length; omega),
        List.take_of_length_le (by simp at length'; omega)]
      exact less
    | cons m ns =>
      have first : (cs.take n).length = (ds.take n).length := by simp at length length' ⊢; omega
      rw [← List.take_append_drop n cs, ← List.take_append_drop n ds,
        append_lt_append_iff first] at less
      show cs.take n ++ '-' :: hyphenate (m :: ns) (cs.drop n)
        < ds.take n ++ '-' :: hyphenate (m :: ns) (ds.drop n)
      rw [append_lt_append_iff first]
      rcases less with before | ⟨same, after⟩
      · exact .inl before
      · have rest := ih (by simp) (by simp at length ⊢; omega) (by simp at length' ⊢; omega) after
        exact .inr ⟨same, List.cons_lt_cons_iff.mpr (.inr ⟨rfl, rest⟩)⟩

/-! ## Ids -/

variable {a b : JobId}

theorem length_chars (id : JobId) : id.chars.length = 36 := by
  have := length_hexDigits 32 id.value
  simp [chars, groups, hyphenate]
  omega

theorem ofText?_text (id : JobId) : ofText? id.text = some id := by
  have small : id.value < 16 ^ 32 := id.value_lt
  have read := numberIn?_hexDigits (by decide) small
  have digits : unhyphenate? groups (hyphenate groups (hexDigits 32 id.value))
      = some (hexDigits 32 id.value) := unhyphenate?_hyphenate (length_hexDigits 32 id.value)
  have found : ofGroups? id.chars = some id := by
    simp [ofGroups?, chars, digits, read, ofNat?, id.value_lt]
  simp [ofText?, text, length_chars, found]

theorem text_lt (less : a.value < b.value) : a.text < b.text := by
  rw [String.lt_iff, text, text, String.toList_ofList, String.toList_ofList]
  exact hyphenate_lt (by decide) (length_hexDigits 32 _) (length_hexDigits 32 _)
    (hexDigits_lt 32 less b.value_lt)

theorem compare_text (a b : JobId) : compare a.text b.text = compare a b := by
  show _ = compare a.value b.value
  rcases Nat.lt_trichotomy a.value b.value with less | same | more
  · rw [compare_lt_iff_lt.mpr (text_lt less), compare_lt_iff_lt.mpr less]
  · have one : a = b := by cases a; cases b; simp_all
    rw [one, compare_eq_iff_eq.mpr rfl, compare_eq_iff_eq.mpr rfl]
  · rw [compare_gt_iff_gt.mpr (text_lt more), compare_gt_iff_gt.mpr more]

theorem text_inj {a b : JobId} : a.text = b.text ↔ a = b := by
  constructor
  · intro same
    have read := ofText?_text a
    rw [same, ofText?_text] at read
    exact (Option.some.inj read).symm
  · exact congrArg text

end SliceScheduler.JobId
