import Mathlib.Algebra.Order.BigOperators.Group.List
import SliceScheduler.Job.Trigger
import SliceScheduler.Proofs.DurationText
/-!
# The grammar of duration expressions

A duration expression is one or more items, each a number and the letter of a unit, with blanks
around them at most.

1. `Item` and `Expresses` are the grammar, without any mention of how a text is read;
2. `sumItems_flatMap_chars` reads the items that are written, and `exists_items_of_sumItems` finds
   the items in what is read;
3. `parse_iff_expresses` puts the two together: what is read are the expressions of the grammar and
   nothing else.
-/
namespace SliceScheduler.Duration

/-! ## The grammar -/

/-- What an item of a duration expression counts. -/
inductive TimeUnit where
  | second
  | minute
  | hour
  | day
deriving DecidableEq, Repr

namespace TimeUnit

def letter : TimeUnit → Char
  | second => 's'
  | minute => 'm'
  | hour => 'h'
  | day => 'd'

def seconds : TimeUnit → Nat
  | second => 1
  | minute => 60
  | hour => 3600
  | day => 86400

theorem seconds_pos (unit : TimeUnit) : 0 < unit.seconds := by
  cases unit <;> decide

end TimeUnit

/-- A number and its unit. The number has one or more decimal digits, and zeros in front if any. -/
structure Item where
  digits : List Char
  unit : TimeUnit
  nonempty : digits ≠ []
  decimal : ∀ c ∈ digits, c.isDigit

namespace Item

def chars (item : Item) : List Char := item.digits ++ [item.unit.letter]

def number (item : Item) : Nat := Text.digitsValue item.digits

def seconds (item : Item) : Nat := item.number * item.unit.seconds

theorem number_le_seconds (item : Item) : item.number ≤ item.seconds :=
  Nat.le_mul_of_pos_right _ item.unit.seconds_pos

end Item

/-- The seconds that items add up to. -/
def sumSeconds (items : List Item) : Nat := (items.map Item.seconds).sum

@[simp] theorem sumSeconds_nil : sumSeconds [] = 0 := rfl

@[simp] theorem sumSeconds_cons (item : Item) (items : List Item) :
    sumSeconds (item :: items) = item.seconds + sumSeconds items := rfl

/-- Every number, every product with a unit and every sum fits 64 bits. -/
structure Fits (items : List Item) : Prop where
  numbers : ∀ item ∈ items, item.number < Word.size64
  products : ∀ item ∈ items, item.seconds < Word.size64
  sums : ∀ k, sumSeconds (items.take k) < Word.size64

/-- The characters are a non-empty run of items that add up to `n` seconds, a positive number. -/
def Expresses (cs : List Char) (n : Nat) : Prop :=
  ∃ items : List Item, items ≠ [] ∧ cs = items.flatMap Item.chars ∧ Fits items ∧
    sumSeconds items = n ∧ 0 < n

/-! ## What fits -/

theorem seconds_le_sumSeconds {items : List Item} {item : Item} (mem : item ∈ items) :
    item.seconds ≤ sumSeconds items :=
  List.single_le_sum (fun _ _ => Nat.zero_le _) _ (List.mem_map_of_mem mem)

theorem sumSeconds_take_le (items : List Item) (k : Nat) :
    sumSeconds (items.take k) ≤ sumSeconds items := by
  have split : sumSeconds items = sumSeconds (items.take k) + sumSeconds (items.drop k) := by
    simp only [sumSeconds, ← List.sum_append, ← List.map_append, List.take_append_drop]
  omega

/-- Items fit if their sum does, since no part is greater than the whole. -/
theorem fits_iff (items : List Item) : Fits items ↔ sumSeconds items < Word.size64 := by
  constructor
  · intro fits
    have whole := fits.sums items.length
    rwa [List.take_length] at whole
  · intro whole
    have products : ∀ item ∈ items, item.seconds < Word.size64 := fun item mem =>
      Nat.lt_of_le_of_lt (seconds_le_sumSeconds mem) whole
    exact ⟨fun item mem => Nat.lt_of_le_of_lt item.number_le_seconds (products item mem), products,
      fun k => Nat.lt_of_le_of_lt (sumSeconds_take_le items k) whole⟩

/-! ## Reading what is written -/

theorem unitSeconds?_eq_some_iff {c : Char} {n : Nat} :
    unitSeconds? c = some n ↔ ∃ unit : TimeUnit, unit.letter = c ∧ unit.seconds = n := by
  constructor
  · intro known
    unfold unitSeconds? at known
    split at known
    · exact ⟨.second, rfl, Option.some.inj known⟩
    · exact ⟨.minute, rfl, Option.some.inj known⟩
    · exact ⟨.hour, rfl, Option.some.inj known⟩
    · exact ⟨.day, rfl, Option.some.inj known⟩
    · cases known
  · rintro ⟨unit, rfl, rfl⟩
    cases unit <;> rfl

/-- A unit ends the number before it, which has to be there. -/
theorem sumItems_letter (pending : Option Nat) (total : Nat) (unit : TimeUnit) (cs : List Char) :
    sumItems pending total (unit.letter :: cs) =
      match pending with
      | some n =>
        if n < Word.size64 ∧ n * unit.seconds < Word.size64 ∧
            total + n * unit.seconds < Word.size64 then
          sumItems none (total + n * unit.seconds) cs
        else none
      | none => none := by
  have letter : unit.letter.isDigit = false := by cases unit <;> decide
  have known : unitSeconds? unit.letter = some unit.seconds :=
    unitSeconds?_eq_some_iff.mpr ⟨unit, rfl, rfl⟩
  rw [sumItems.eq_def]
  simp only [letter, known, Bool.false_eq_true, if_false]
  cases pending <;> rfl

/-- An item adds its seconds, if the sum fits. -/
theorem sumItems_chars (item : Item) (total : Nat) (cs : List Char) :
    sumItems none total (item.chars ++ cs) =
      if total + item.seconds < Word.size64 then sumItems none (total + item.seconds) cs
      else none := by
  obtain ⟨digits, unit, nonempty, decimal⟩ := item
  cases digits with
  | nil => exact absurd rfl nonempty
  | cons d ds =>
    have number : ds.foldl (fun n c => 10 * n + Text.digitValue c)
        (10 * (none : Option Nat).getD 0 + Text.digitValue d) = Text.digitsValue (d :: ds) := rfl
    have least : Text.digitsValue (d :: ds) ≤ Text.digitsValue (d :: ds) * unit.seconds :=
      Nat.le_mul_of_pos_right _ unit.seconds_pos
    rw [Item.chars, List.append_assoc, List.cons_append,
      sumItems_digit (decimal d List.mem_cons_self),
      sumItems_digits (fun c mem => decimal c (List.mem_cons_of_mem d mem)), number,
      List.singleton_append, sumItems_letter]
    -- the other two bounds follow from the one on the sum
    refine if_congr ⟨fun bounds => bounds.2.2, fun fits => ⟨?_, ?_, fits⟩⟩ rfl rfl
    · exact Nat.lt_of_le_of_lt (Nat.le_trans least (Nat.le_add_left _ total)) fits
    · exact Nat.lt_of_le_of_lt (Nat.le_add_left _ total) fits

/-- Items that are written one after the other are read as their sum. -/
theorem sumItems_flatMap_chars {items : List Item} {total : Nat}
    (fits : total + sumSeconds items < Word.size64) :
    sumItems none total (items.flatMap Item.chars) = some (total + sumSeconds items) := by
  induction items generalizing total with
  | nil => rfl
  | cons item items ih =>
    rw [sumSeconds_cons, ← Nat.add_assoc] at fits ⊢
    rw [List.flatMap_cons, sumItems_chars, if_pos (by omega), ih fits]

/-! ## Finding the items in what is read -/

/-- The number of a run of digits, absent before the first. -/
def numberSoFar (ds : List Char) : Option Nat :=
  if ds = [] then none else some (Text.digitsValue ds)

theorem numberSoFar_append_digit (ds : List Char) (d : Char) :
    numberSoFar (ds ++ [d]) = some (10 * (numberSoFar ds).getD 0 + Text.digitValue d) := by
  rw [numberSoFar, if_neg (by simp)]
  cases ds with
  | nil => rfl
  | cons c ds => simp [numberSoFar, Text.digitsValue]

/-- What is read are items. The induction is on the characters that are left; `ds` are the digits
of the item at hand. -/
theorem exists_items_of_sumItems {cs : List Char} (ds : List Char) {total n : Nat}
    (decimal : ∀ c ∈ ds, c.isDigit) (read : sumItems (numberSoFar ds) total cs = some n) :
    ∃ items : List Item, ds ++ cs = items.flatMap Item.chars ∧ n = total + sumSeconds items := by
  induction cs generalizing ds total with
  | nil =>
    rw [sumItems, numberSoFar] at read
    split at read
    · rename_i complete
      obtain rfl : ds = [] := by simpa using complete
      exact ⟨[], rfl, (Option.some.inj read).symm⟩
    · cases read
  | cons c cs ih =>
    by_cases digit : c.isDigit
    · rw [sumItems_digit digit, ← numberSoFar_append_digit] at read
      obtain ⟨items, shape, sum⟩ := ih (ds ++ [c]) (by
        intro d mem
        rcases List.mem_append.mp mem with earlier | last
        · exact decimal d earlier
        · exact List.mem_singleton.mp last ▸ digit) read
      exact ⟨items, by rw [← shape, List.append_assoc, List.singleton_append], sum⟩
    · rw [sumItems.eq_def] at read
      simp only [digit, Bool.false_eq_true, if_false] at read
      cases number : numberSoFar ds with
      | none => simp [number] at read
      | some value =>
        cases known : unitSeconds? c with
        | none => simp [number, known] at read
        | some seconds =>
          obtain ⟨unit, rfl, rfl⟩ := unitSeconds?_eq_some_iff.mp known
          simp only [number, known] at read
          split at read
          · have nonempty : ds ≠ [] := by
              rintro rfl
              cases number
            have value_eq : Text.digitsValue ds = value := by
              rw [numberSoFar, if_neg nonempty] at number
              exact Option.some.inj number
            obtain ⟨items, shape, sum⟩ := ih [] (by simp) read
            refine ⟨⟨ds, unit, nonempty, decimal⟩ :: items, ?_, ?_⟩
            · rw [List.flatMap_cons, ← shape, Item.chars, List.append_assoc]
              rfl
            · rw [sum, sumSeconds_cons, Item.seconds, Item.number, value_eq, Nat.add_assoc]
          · cases read

/-- Characters are read as `n` seconds if they are items with this sum and it fits 64 bits. -/
theorem sumItems_eq_some_iff {cs : List Char} {n : Nat} :
    sumItems none 0 cs = some n ↔
      ∃ items : List Item, cs = items.flatMap Item.chars ∧ sumSeconds items = n ∧
        n < Word.size64 := by
  constructor
  · intro read
    have fits := sumItems_lt read (by decide)
    obtain ⟨items, shape, sum⟩ := exists_items_of_sumItems [] (by simp) read
    exact ⟨items, shape, by omega, fits⟩
  · rintro ⟨items, rfl, rfl, fits⟩
    rw [sumItems_flatMap_chars (by omega), Nat.zero_add]

/-! ## Expressions -/

theorem expresses_iff {cs : List Char} {n : Nat} :
    Expresses cs n ↔ sumItems none 0 cs = some n ∧ 0 < n := by
  rw [sumItems_eq_some_iff]
  constructor
  · rintro ⟨items, -, shape, fits, sum, positive⟩
    exact ⟨⟨items, shape, sum, sum ▸ (fits_iff items).mp fits⟩, positive⟩
  · rintro ⟨⟨items, shape, sum, fits⟩, positive⟩
    refine ⟨items, ?_, shape, (fits_iff items).mpr (sum ▸ fits), sum, positive⟩
    rintro rfl
    exact absurd sum (by rw [sumSeconds_nil]; omega)

/-- An expression stands for one number of seconds. -/
theorem Expresses.unique {cs : List Char} {n m : Nat} (first : Expresses cs n)
    (second : Expresses cs m) : n = m :=
  Option.some.inj ((expresses_iff.mp first).1.symm.trans (expresses_iff.mp second).1)

theorem ofExpression?_eq_some_iff {s : String} {d : Duration} :
    ofExpression? s = some d ↔
      ∃ n, Expresses (Text.strip s).toList n ∧ d.nanos = n * nanosPerSecond := by
  rw [ofExpression?, Text.toList_strip]
  cases read : sumItems none 0 (Text.stripChars s.toList) with
  | none => simp [expresses_iff, read]
  | some total =>
    have whole : d.nanos = total * nanosPerSecond ↔ ofSeconds total = d := by
      rw [← nanos_ofSeconds (sumItems_lt read (by decide)), nanos_inj, eq_comm]
    by_cases zero : total = 0
    · simp [expresses_iff, read, zero]
    · simp [expresses_iff, read, zero, whole, Nat.pos_of_ne_zero zero]

/-- A text is read as a length of time exactly when it is, without the blanks at either end, an
expression of the grammar; the length is then the number of seconds it stands for. Any other text is
refused, and the refusal names it without these blanks. A number of seconds reads back. -/
theorem parse_iff_expresses (s : String) :
    Text.Trimmed s.toList (Text.strip s).toList ∧
    (∀ d, parse s = .ok d ↔
      ∃ n, Expresses (Text.strip s).toList n ∧ d.nanos = n * nanosPerSecond) ∧
    ((∀ n, ¬Expresses (Text.strip s).toList n) →
      parse s = .error (.invalidDuration (Text.strip s))) ∧
    ∀ n, 0 < n → n < Word.size64 → parse (Text.naturalText n ++ "s") = .ok (ofSeconds n) := by
  refine ⟨Text.trimmed_strip s, fun d => ?_, fun unread => ?_, fun n positive fits => ?_⟩
  · rw [← ofExpression?_eq_some_iff, parse]
    cases ofExpression? s <;> simp
  · rw [parse]
    cases read : ofExpression? s with
    | none => rfl
    | some d =>
      obtain ⟨n, expresses, -⟩ := ofExpression?_eq_some_iff.mp read
      exact absurd expresses (unread n)
  · rw [parse, ofExpression?_seconds positive fits]

example : Duration.parse " 1h030m\t" = .ok (ofSeconds 5400) := by decide +kernel

example : Duration.parse " 1h 30m" = .error (.invalidDuration "1h 30m") := by decide +kernel

end SliceScheduler.Duration
