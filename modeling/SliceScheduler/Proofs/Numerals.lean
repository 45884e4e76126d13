import Mathlib.Data.List.Basic
import Mathlib.Data.List.TakeDrop
import Mathlib.Tactic.IntervalCases
import SliceScheduler.Text.Decimal
import SliceScheduler.Text.Radix
import SliceScheduler.Text.Reader
/-!
# Numbers and their digits

What is written as decimal or hexadecimal digits reads back as the same number.

1. `digitsValue_naturalChars` and `digitsValue_padded` are the decimal numbers, without and with
   zeros in front;
2. `Reader.number_append` and `Reader.longNumber_append` take such a number off the front of a text;
3. `hexValue?_digitChar` is one hexadecimal digit in lower case.
-/
namespace SliceScheduler.Text

/-! ## Decimal digits -/

@[simp] theorem digitsValue_naturalChars (n : Nat) : digitsValue (naturalChars n) = n :=
  Nat.ofDigitChars_ten_toDigits

theorem isDigit_of_mem_naturalChars {n : Nat} {c : Char} (mem : c ∈ naturalChars n) : c.isDigit :=
  Nat.isDigit_of_mem_toDigits (by decide) (by decide) mem

@[simp] theorem naturalChars_ne_nil (n : Nat) : naturalChars n ≠ [] := Nat.toDigits_ne_nil

theorem exists_cons_naturalChars (n : Nat) : ∃ d ds, naturalChars n = d :: ds ∧ d.isDigit := by
  cases shape : naturalChars n with
  | nil => exact absurd shape (naturalChars_ne_nil n)
  | cons d ds => exact ⟨d, ds, rfl, isDigit_of_mem_naturalChars (shape ▸ List.mem_cons_self)⟩

theorem naturalChars_of_lt {n : Nat} (small : n < 10) : naturalChars n = [n.digitChar] :=
  Nat.toDigits_of_lt_base small

theorem naturalChars_of_le {n : Nat} (large : 10 ≤ n) :
    naturalChars n = naturalChars (n / 10) ++ [(n % 10).digitChar] :=
  Nat.toDigits_of_base_le (by decide) large

theorem naturalChars_inj {a b : Nat} (same : naturalChars a = naturalChars b) : a = b := by
  have values := congrArg digitsValue same
  rwa [digitsValue_naturalChars, digitsValue_naturalChars] at values

theorem minus_notMem_naturalChars (n : Nat) : '-' ∉ naturalChars n :=
  fun mem => absurd (isDigit_of_mem_naturalChars mem) (by decide)

theorem integerChars_inj {a b : Int} (same : integerChars a = integerChars b) : a = b := by
  unfold integerChars at same
  split at same
  · split at same
    · have := naturalChars_inj (List.cons.inj same).2
      omega
    · exact absurd (same ▸ List.mem_cons_self) (minus_notMem_naturalChars b.natAbs)
  · split at same
    · exact absurd (same ▸ List.mem_cons_self) (minus_notMem_naturalChars a.natAbs)
    · have := naturalChars_inj same
      omega

theorem length_naturalChars_le {n width : Nat} (positive : 0 < width) (small : n < 10 ^ width) :
    (naturalChars n).length ≤ width :=
  (Nat.length_toDigits_le_iff (by decide) positive).mpr small

/-- A number does not start with a zero, unless it is zero. -/
theorem head?_naturalChars_ne_zero {n : Nat} (positive : 0 < n) :
    (naturalChars n).head? ≠ some '0' := by
  induction n using Nat.strongRecOn with
  | ind n ih =>
    rcases Nat.lt_or_ge n 10 with small | large
    · rw [naturalChars_of_lt small]
      interval_cases n <;> decide
    · rw [naturalChars_of_le large, List.head?_append_of_ne_nil _ (naturalChars_ne_nil _)]
      exact ih (n / 10) (by omega) (by omega)

@[simp] theorem digitsValue_zeros_append (k : Nat) (cs : List Char) :
    digitsValue (List.replicate k '0' ++ cs) = digitsValue cs := by
  induction k with
  | zero => rfl
  | succ k ih => exact ih

@[simp] theorem digitsValue_padded (width n : Nat) : digitsValue (padded width n) = n := by
  simp [padded]

theorem isDigit_of_mem_padded {width n : Nat} {c : Char} (mem : c ∈ padded width n) :
    c.isDigit := by
  rcases List.mem_append.mp mem with zero | digit
  · rw [List.eq_of_mem_replicate zero]
    decide
  · exact isDigit_of_mem_naturalChars digit

@[simp] theorem padded_ne_nil (width n : Nat) : padded width n ≠ [] := by
  simp [padded]

theorem exists_cons_padded (width n : Nat) : ∃ d ds, padded width n = d :: ds ∧ d.isDigit := by
  cases shape : padded width n with
  | nil => exact absurd shape (padded_ne_nil width n)
  | cons d ds => exact ⟨d, ds, rfl, isDigit_of_mem_padded (shape ▸ List.mem_cons_self)⟩

theorem length_padded {width n : Nat} (positive : 0 < width) (small : n < 10 ^ width) :
    (padded width n).length = width := by
  have := length_naturalChars_le positive small
  simp only [padded, List.length_append, List.length_replicate]
  omega

/-! ## Taking digits off a text -/

theorem isBlank_of_isDigit {c : Char} (digit : c.isDigit) : isBlank c = false := by
  simp only [Char.isDigit, Bool.and_eq_true, decide_eq_true_eq] at digit
  obtain ⟨low, high⟩ := digit
  have low : 48 ≤ c.toNat := low
  have high : c.toNat ≤ 57 := high
  simp [isBlank]
  omega

/-- The text does not go on with a digit. -/
def EndsDigits (rest : List Char) : Prop := ∀ c ∈ rest.head?, ¬c.isDigit

theorem span_append {ds rest : List Char} (digits : ∀ c ∈ ds, c.isDigit) (ends : EndsDigits rest) :
    (ds ++ rest).span Char.isDigit = (ds, rest) := by
  rw [List.span_eq_takeWhile_dropWhile, List.takeWhile_append_of_pos digits,
    List.dropWhile_append_of_pos digits]
  cases rest with
  | nil => simp
  | cons c rest =>
    have stops : ¬c.isDigit := ends c rfl
    simp [stops]

theorem dropWhile_isDigit {rest : List Char} (ends : EndsDigits rest) :
    rest.dropWhile Char.isDigit = rest := by
  have none_ : ([] ++ rest).span Char.isDigit = ([], rest) := span_append (by simp) ends
  simpa [List.span_eq_takeWhile_dropWhile] using congrArg Prod.snd none_

namespace Reader

variable {α β : Type} {a : α} {cs rest : List Char}

theorem bind_apply {r : Reader α} {f : α → Reader β} (read : r cs = some (a, rest)) :
    (r >>= f) cs = f a rest := by
  show (r cs).bind (fun p => f p.1 p.2) = f a rest
  rw [read]
  rfl

theorem rest_apply (cs : List Char) : Reader.rest cs = some (cs, cs) := rfl

theorem char_cons (c : Char) (cs : List Char) : Reader.char c (c :: cs) = some ((), cs) :=
  if_pos rfl

theorem blanks_cons {c : Char} (plain : isBlank c = false) (cs : List Char) :
    blanks (c :: cs) = some ((), c :: cs) := by
  rw [blanks, dropBlanks, List.dropWhile_cons_of_neg (by simp [plain])]

theorem blanks_padded (width n : Nat) (rest : List Char) :
    blanks (padded width n ++ rest) = some ((), padded width n ++ rest) := by
  obtain ⟨d, ds, shape, digit⟩ := exists_cons_padded width n
  rw [shape]
  exact blanks_cons (isBlank_of_isDigit digit) _

theorem spanUpTo_append {ds : List Char} {limit : Nat} (digits : ∀ c ∈ ds, c.isDigit)
    (fits : ds.length ≤ limit) (ends : ds.length = limit ∨ EndsDigits rest) :
    spanUpTo Char.isDigit limit (ds ++ rest) = (ds, rest) := by
  induction ds generalizing limit with
  | nil =>
    cases limit with
    | zero => rfl
    | succ limit =>
      -- nothing is taken, since the text does not go on with a digit
      have ends : EndsDigits rest := ends.resolve_left (by simp)
      cases rest with
      | nil => rfl
      | cons c rest =>
        have stops : ¬c.isDigit := ends c rfl
        simp [spanUpTo, stops]
  | cons d ds ih =>
    cases limit with
    | zero => simp at fits
    | succ limit =>
      have digit := digits d List.mem_cons_self
      have tail : spanUpTo Char.isDigit limit (ds ++ rest) = (ds, rest) :=
        ih (fun c mem => digits c (List.mem_cons_of_mem _ mem)) (by simpa using fits)
          (by simpa using ends)
      simp [spanUpTo, digit, tail]

theorem digits_append {ds : List Char} {limit : Nat} (nonempty : ds ≠ [])
    (digits : ∀ c ∈ ds, c.isDigit) (fits : ds.length ≤ limit)
    (ends : ds.length = limit ∨ EndsDigits rest) :
    Reader.digits limit (ds ++ rest) = some (ds, rest) := by
  unfold Reader.digits
  rw [spanUpTo_append digits fits ends]
  cases ds with
  | nil => exact absurd rfl nonempty
  | cons d ds => rfl

/-- A number of a fixed width is read whatever follows it. -/
theorem number_append {width n : Nat} (positive : 0 < width) (small : n < 10 ^ width) :
    number width (padded width n ++ rest) = some (n, rest) := by
  have length := length_padded positive small
  have taken : Reader.digits width (padded width n ++ rest) = some (padded width n, rest) :=
    digits_append (padded_ne_nil width n) (fun _ => isDigit_of_mem_padded) (Nat.le_of_eq length)
      (.inl length)
  rw [number, bind_apply taken, digitsValue_padded]
  rfl

/-- A number of any width is read if no digit follows it. -/
theorem longNumber_append (width n : Nat) (ends : EndsDigits rest) :
    longNumber (padded width n ++ rest) = some (n, rest) := by
  unfold longNumber
  rw [span_append (fun _ => isDigit_of_mem_padded) ends]
  have value := digitsValue_padded width n
  cases shape : padded width n with
  | nil => exact absurd shape (padded_ne_nil width n)
  | cons d ds => rw [← value, shape]

end Reader

/-! ## Hexadecimal digits -/

theorem hexValue?_digitChar {d : Nat} (small : d < 16) : hexValue? d.digitChar = some d := by
  interval_cases d <;> decide

theorem digitIn?_digitChar {d : Nat} (small : d < 16) : digitIn? 16 d.digitChar = some d := by
  simp [digitIn?, hexValue?_digitChar small, small]

end SliceScheduler.Text
