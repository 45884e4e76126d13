import SliceScheduler.Proofs.Numerals
import SliceScheduler.Proofs.Trimming
import SliceScheduler.Time.Duration
/-!
# Lengths of whole seconds and their text

1. `Duration.nanos_ofSeconds` and the lemmas after it are the views of a length of whole seconds;
2. `Duration.ofExpression?_seconds` says that a number of seconds reads back from its text, and
   `Duration.whole_of_ofExpression?` that whatever is read is a positive number of whole seconds.
-/
namespace SliceScheduler.Duration

/-! ## Whole seconds -/

theorem nanos_inj {a b : Duration} : a.nanos = b.nanos ↔ a = b := by
  cases a
  cases b
  simp only [Duration.mk.injEq]

theorem seconds_lt (d : Duration) : d.seconds < Word.size64 := by
  have := d.nanos_lt
  simp only [seconds, nanosPerSecond, Word.size64] at *
  omega

theorem nanos_ofSeconds {n : Nat} (fits : n < Word.size64) :
    (ofSeconds n).nanos = n * nanosPerSecond := by
  have inRange : n * nanosPerSecond < Word.size64 * nanosPerSecond :=
    Nat.mul_lt_mul_of_pos_right fits (by decide)
  simp only [ofSeconds, ofNanos?, dif_pos inRange, Option.getD_some]

theorem seconds_ofSeconds {n : Nat} (fits : n < Word.size64) : (ofSeconds n).seconds = n := by
  rw [seconds, nanos_ofSeconds fits, Nat.mul_div_cancel _ (by decide)]

theorem millis_ofSeconds {n : Nat} (fits : n < Word.size64) : (ofSeconds n).millis = n * 1000 := by
  rw [millis, nanos_ofSeconds fits]
  simp only [nanosPerSecond, nanosPerMilli]
  omega

theorem millis_of_dvd {d : Duration} (whole : nanosPerSecond ∣ d.nanos) :
    d.millis = d.seconds * 1000 := by
  simp only [millis, seconds, nanosPerSecond, nanosPerMilli] at *
  omega

/-- A length of whole seconds is the length of its seconds. -/
theorem ofSeconds_seconds {d : Duration} (whole : nanosPerSecond ∣ d.nanos) :
    ofSeconds d.seconds = d := by
  have parts : d.seconds * nanosPerSecond = d.nanos := Nat.div_mul_cancel whole
  simp only [ofSeconds, ofNanos?, parts, d.nanos_lt, dite_true, Option.getD_some]

/-! ## Their text -/

theorem sumItems_digit {c : Char} (digit : c.isDigit) (pending : Option Nat) (total : Nat)
    (cs : List Char) : sumItems pending total (c :: cs) =
      sumItems (some (10 * pending.getD 0 + Text.digitValue c)) total cs := by
  rw [sumItems.eq_def]
  simp only [digit, if_true]

/-- Digits go on with a number that has begun. -/
theorem sumItems_digits {ds rest : List Char} (digits : ∀ c ∈ ds, c.isDigit) (n total : Nat) :
    sumItems (some n) total (ds ++ rest) =
      sumItems (some (ds.foldl (fun n c => 10 * n + Text.digitValue c) n)) total rest := by
  induction ds generalizing n with
  | nil => rfl
  | cons d ds ih =>
    rw [List.cons_append, sumItems_digit (digits d List.mem_cons_self)]
    exact ih (fun c mem => digits c (List.mem_cons_of_mem d mem)) _

/-- A sum of items fits 64 bits. -/
theorem sumItems_lt {cs : List Char} {pending : Option Nat} {total n : Nat}
    (summed : sumItems pending total cs = some n) (fits : total < Word.size64) :
    n < Word.size64 := by
  induction cs generalizing pending total with
  | nil =>
    rw [sumItems] at summed
    split at summed
    · exact Option.some.inj summed ▸ fits
    · cases summed
  | cons c cs ih =>
    rw [sumItems.eq_def] at summed
    dsimp only at summed
    split at summed
    · exact ih summed fits
    · split at summed
      · split at summed
        · exact ih summed (by omega)
        · cases summed
      · cases summed

/-- A number of seconds has no blanks around it. -/
theorem stripChars_seconds (n : Nat) :
    Text.stripChars (Text.naturalChars n ++ ['s']) = Text.naturalChars n ++ ['s'] := by
  refine Text.stripChars_of_bareEnds ⟨fun c mem => ?_, fun c mem => ?_⟩
  · obtain ⟨d, ds, shape, digit⟩ := Text.exists_cons_naturalChars n
    rw [shape] at mem
    obtain rfl := Option.some.inj mem
    exact Text.isBlank_of_isDigit digit
  · rw [List.getLast?_concat] at mem
    obtain rfl := Option.some.inj mem
    rfl

/-- A number of seconds reads back from its text. -/
theorem ofExpression?_seconds {n : Nat} (pos : 0 < n) (fits : n < Word.size64) :
    ofExpression? (Text.naturalText n ++ "s") = some (ofSeconds n) := by
  have chars : (Text.naturalText n ++ "s").toList = Text.naturalChars n ++ ['s'] := by
    simp [Text.naturalText]
  have total : sumItems none 0 (Text.naturalChars n ++ ['s']) = some n := by
    have value := Text.digitsValue_naturalChars n
    obtain ⟨d, ds, shape, digit⟩ := Text.exists_cons_naturalChars n
    have digits : ∀ c ∈ ds, c.isDigit := fun c mem =>
      Text.isDigit_of_mem_naturalChars (shape ▸ List.mem_cons_of_mem d mem)
    rw [shape] at value ⊢
    have last : sumItems (some n) 0 ['s'] = some n := by simp [sumItems, unitSeconds?, fits]
    rw [List.cons_append, sumItems_digit digit, sumItems_digits digits]
    exact value ▸ last
  simp only [ofExpression?, chars, stripChars_seconds, total, if_neg (Nat.ne_of_gt pos)]

/-- What is read from an expression is a positive number of whole seconds. -/
theorem whole_of_ofExpression? {text : String} {d : Duration} (read : ofExpression? text = some d) :
    nanosPerSecond ∣ d.nanos ∧ 0 < d.seconds := by
  unfold ofExpression? at read
  split at read
  · rename_i total summed
    split at read
    · cases read
    · rename_i positive
      have fits := sumItems_lt summed (by decide)
      obtain rfl := Option.some.inj read
      rw [seconds_ofSeconds fits, nanos_ofSeconds fits]
      exact ⟨Nat.dvd_mul_left .., Nat.pos_of_ne_zero positive⟩
  · cases read

end SliceScheduler.Duration
