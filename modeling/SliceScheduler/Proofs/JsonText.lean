import SliceScheduler.Json.Reader
import SliceScheduler.Proofs.Numerals
/-!
# Reading back written JSON

`Json.ofText?_render` says that a value reads back as itself from its own text, with nothing left
over. The values that this is said of are those of `Json.IsWritable`: they nest no deeper than the
reader goes, their numbers are whole and fit a word, and no part of them is broken.

The text of a value is read wherever it stands, before the end or before what may follow an item or
a member: `Json.readValue_renderChars`, with its companions for the rest of an array and of an
object. The fuel of the reader pays once for a value and once for the list that it stands in.
-/
namespace SliceScheduler.Json

open Text

/-! ## Quoted texts -/

variable {c d : Char} {cs rest : List Char}

theorem hexWord?_low {n : Nat} (small : n < 256) :
    hexWord? '0' '0' (n / 16).digitChar (n % 16).digitChar = some n := by
  have zero : digitIn? 16 '0' = some 0 := by decide
  have high := digitIn?_digitChar (d := n / 16) (by omega)
  have low := digitIn?_digitChar (d := n % 16) (by omega)
  simp only [hexWord?, numberIn?, appendDigits?, List.isEmpty_cons, List.foldlM_cons,
    List.foldlM_nil, zero, high, low, Option.map_some, Option.bind_eq_bind, Option.bind_some,
    Option.pure_def, Bool.false_eq_true, if_false, Option.some.injEq]
  omega

theorem readQuoted_escape (stands : unescape? d = some c) (unit : d ≠ 'u') (cs : List Char) :
    readQuoted ('\\' :: d :: cs) = (readQuoted cs).map fun (s, rest) => (c :: s, rest) := by
  rw [readQuoted, stands]
  · cases readQuoted cs <;> rfl
  · intro a b c d cs same
    exact absurd same unit

theorem readQuoted_plain (quote : c ≠ '"') (backslash : c ≠ '\\') (visible : 32 ≤ c.toNat)
    (cs : List Char) :
    readQuoted (c :: cs) = (readQuoted cs).map fun (s, rest) => (c :: s, rest) := by
  rw [readQuoted]
  · simp only [Nat.not_lt.mpr visible]
    cases readQuoted cs <;> rfl
  · assumption
  · intro a b c d cs same
    exact absurd same backslash
  · intro a b same
    exact absurd same backslash

theorem readQuoted_unit (low : c.toNat < 256) (cs : List Char) :
    readQuoted ('\\' :: 'u' :: '0' :: '0' :: (c.toNat / 16).digitChar ::
        (c.toNat % 16).digitChar :: cs)
      = (readQuoted cs).map fun (s, rest) => (c :: s, rest) := by
  rw [readQuoted, hexWord?_low low, Option.bind_eq_bind, Option.bind_some,
    if_neg (by omega), if_neg (by omega), Char.ofNat_toNat]
  cases readQuoted cs <;> rfl

theorem readQuoted_escapeChar (c : Char) (cs : List Char) :
    readQuoted (escapeChar c ++ cs) = (readQuoted cs).map fun (s, rest) => (c :: s, rest) := by
  unfold escapeChar
  split
  case h_6 quote backslash _ _ _ =>
    split
    case isTrue backspace =>
      have same : c = Char.ofNat 8 := by rw [← backspace, Char.ofNat_toNat]
      exact readQuoted_escape (by rw [same]; rfl) (by decide) cs
    split
    case isTrue feed =>
      have same : c = Char.ofNat 12 := by rw [← feed, Char.ofNat_toNat]
      exact readQuoted_escape (by rw [same]; rfl) (by decide) cs
    split
    -- the other control characters are written as numbers of four digits
    case isTrue control => exact readQuoted_unit (by omega) cs
    case isFalse visible => exact readQuoted_plain quote backslash (by omega) cs
  all_goals exact readQuoted_escape rfl (by decide) cs

theorem readQuoted_flatMap_escapeChar (s rest : List Char) :
    readQuoted (s.flatMap escapeChar ++ '"' :: rest) = some (s, rest) := by
  induction s with
  | nil => rw [List.flatMap_nil, List.nil_append, readQuoted]
  | cons c s ih => rw [List.flatMap_cons, List.append_assoc, readQuoted_escapeChar, ih]; rfl

/-! ## Numbers -/

/-- A value that ends here: nothing follows, or what may follow an item or a member. -/
def Delimited (rest : List Char) : Prop := ∀ c ∈ rest.head?, c = ',' ∨ c = ']' ∨ c = '}'

theorem Delimited.endsDigits {rest : List Char} (ends : Delimited rest) : EndsDigits rest := by
  intro c head
  rcases ends c head with rfl | rfl | rfl <;> decide

theorem readFraction_delimited {rest : List Char} (ends : Delimited rest) :
    readFraction rest = some (none, rest) := by
  rw [readFraction]
  rintro cs rfl
  exact absurd (ends '.' rfl) (by decide)

theorem readExponent_delimited {rest : List Char} (ends : Delimited rest) :
    readExponent rest = some (none, rest) := by
  rw [readExponent]
  · rintro cs rfl
    exact absurd (ends 'e' rfl) (by decide)
  · rintro cs rfl
    exact absurd (ends 'E' rfl) (by decide)

/-- Whole numbers that are kept by value. -/
def IsWord (n : Int) : Prop := -Word.size63 ≤ n ∧ n < Word.size64

theorem readNumeral_integerChars (n : Int) {rest : List Char} (ends : Delimited rest) :
    readNumeral (integerChars n ++ rest)
      = some (⟨decide (n < 0), naturalChars n.natAbs, none, none⟩, rest) := by
  have digits : (naturalChars n.natAbs ++ rest).span Char.isDigit = (naturalChars n.natAbs, rest) :=
    span_append (fun _ => isDigit_of_mem_naturalChars) ends.endsDigits
  have proper : ¬(naturalChars n.natAbs = [] ∨
      (1 < (naturalChars n.natAbs).length ∧ (naturalChars n.natAbs).head? = some '0')) := by
    rintro (empty | ⟨long, zero⟩)
    · exact naturalChars_ne_nil _ empty
    -- only zero itself starts with a zero, and it has no second digit
    · rcases Nat.eq_zero_or_pos n.natAbs with none_ | positive
      · rw [none_, naturalChars_of_lt (by decide)] at long
        exact absurd long (by decide)
      · exact head?_naturalChars_ne_zero positive zero
  by_cases negative : n < 0
  · simp only [integerChars, if_pos negative, List.cons_append, readNumeral, digits, if_neg proper]
    simp [readFraction_delimited ends, readExponent_delimited ends, negative]
  · obtain ⟨d, ds, shape, digit⟩ := exists_cons_naturalChars n.natAbs
    have unsigned : d ≠ '-' := by rintro rfl; exact absurd digit (by decide)
    rw [shape, List.cons_append] at digits
    simp only [shape, reduceCtorEq, List.length_cons, List.head?_cons, false_or] at proper
    simp [integerChars, negative, readNumeral, shape, unsigned, digits,
      -List.span_eq_takeWhile_dropWhile]
    simpa [readFraction_delimited ends, readExponent_delimited ends] using proper

theorem readNumber_integerChars {n : Int} (word : IsWord n) {rest : List Char}
    (ends : Delimited rest) : readNumber (integerChars n ++ rest) = some (int n, rest) := by
  have value : Numeral.word? ⟨decide (n < 0), naturalChars n.natAbs, none, none⟩ = some n := by
    unfold Numeral.word?
    simp only [digitsValue_naturalChars, Option.isSome_none, Bool.false_eq_true, or_self, if_false]
    obtain ⟨low, high⟩ := word
    simp only [Word.size63, Word.size64] at low high ⊢
    by_cases negative : n < 0
    · rw [if_pos (decide_eq_true negative), if_pos (by omega)]
      exact congrArg some (by omega)
    · rw [if_neg (by simpa using negative), if_pos (by omega)]
      exact congrArg some (by omega)
  rw [readNumber, readNumeral_integerChars n ends]
  simp [Numeral.value?, value]

/-! ## Values -/

mutual

/-- The value nests at most `depth` deep, and every part of it has characters of its own. -/
def IsWritable (depth : Nat) : Json → Prop
  | int n => IsWord n
  | arr items => 0 < depth ∧ AreWritable (depth - 1) items
  | obj members => 0 < depth ∧ HaveWritable (depth - 1) members
  | real | broken => False
  | null | bool _ | str _ => True

/-- All the items of an array are writable. -/
def AreWritable (depth : Nat) : List Json → Prop
  | [] => True
  | v :: vs => v.IsWritable depth ∧ AreWritable depth vs

/-- The values of all the members of an object are writable. -/
def HaveWritable (depth : Nat) : List (String × Json) → Prop
  | [] => True
  | (_, v) :: vs => v.IsWritable depth ∧ HaveWritable depth vs

end

theorem exists_start_integerChars (n : Int) :
    ∃ c cs, integerChars n = c :: cs ∧ (c.isDigit ∨ c = '-') := by
  by_cases negative : n < 0
  · exact ⟨'-', _, if_pos negative, .inr rfl⟩
  · obtain ⟨d, ds, shape, digit⟩ := exists_cons_naturalChars n.natAbs
    exact ⟨d, ds, by rw [integerChars, if_neg negative, shape], .inl digit⟩

theorem skip_cons {c : Char} (token : isSpace c = false) (cs : List Char) :
    skip (c :: cs) = c :: cs :=
  List.dropWhile_cons_of_neg (by simp [token])

theorem isSpace_of_start {c : Char} (start : c.isDigit ∨ c = '-') : isSpace c = false := by
  have others : c ≠ ' ' ∧ c ≠ '\n' ∧ c ≠ '\t' ∧ c ≠ '\r' := by
    refine ⟨?_, ?_, ?_, ?_⟩ <;> rintro rfl <;> revert start <;> decide
  simp [isSpace, others]

/-- A value starts with a token, and not with a closing bracket. -/
theorem exists_token_renderChars (v : Json) :
    ∃ c cs, v.renderChars = c :: cs ∧ isSpace c = false ∧ c ≠ ']' := by
  cases v with
  | int n =>
    obtain ⟨c, cs, shape, start⟩ := exists_start_integerChars n
    refine ⟨c, cs, by rw [renderChars, shape], isSpace_of_start start, ?_⟩
    rintro rfl
    revert start
    decide
  | bool b => cases b <;> exact ⟨_, _, rfl, by decide, by decide⟩
  | null | real | str _ | arr _ | obj _ | broken => exact ⟨_, _, rfl, by decide, by decide⟩

theorem readValue_number {c : Char} {cs : List Char} (start : c.isDigit ∨ c = '-')
    (fuel depth : Nat) :
    readValue keepAll (fuel + 1) depth (c :: cs) = orBroken (readNumber (c :: cs)) := by
  have others : c ≠ 'n' ∧ c ≠ 't' ∧ c ≠ 'f' ∧ c ≠ '"' ∧ c ≠ '[' ∧ c ≠ '{' := by
    refine ⟨?_, ?_, ?_, ?_, ?_, ?_⟩ <;> rintro rfl <;> revert start <;> decide
  obtain ⟨null, true_, false_, quote, square, curly⟩ := others
  rw [readValue, skip_cons (isSpace_of_start start)]
  simp [null, true_, false_, quote, square, curly]

theorem renderItems_cons_cons (v w : Json) (vs : List Json) :
    renderItems (v :: w :: vs) = v.renderChars ++ ',' :: renderItems (w :: vs) := by
  rw [renderItems]
  simp

theorem renderMembers_cons_cons (k l : String) (v w : Json) (vs : List (String × Json)) :
    renderMembers ((k, v) :: (l, w) :: vs)
      = Json.quote k ++ ':' :: (v.renderChars ++ ',' :: renderMembers ((l, w) :: vs)) := by
  rw [renderMembers, List.append_assoc, List.cons_append]
  simp

theorem exists_token_renderItems (v : Json) (vs : List Json) :
    ∃ c cs, renderItems (v :: vs) = c :: cs ∧ isSpace c = false ∧ c ≠ ']' := by
  obtain ⟨c, cs, shape, token⟩ := exists_token_renderChars v
  cases vs with
  | nil => exact ⟨c, cs ++ [']'], by rw [renderItems, shape, List.cons_append], token⟩
  | cons w vs =>
    exact ⟨c, cs ++ ',' :: renderItems (w :: vs),
      by rw [renderItems_cons_cons, shape, List.cons_append], token⟩

theorem exists_quote_renderMembers (k : String) (v : Json) (vs : List (String × Json)) :
    ∃ cs, renderMembers ((k, v) :: vs) = '"' :: cs := by
  cases vs with
  | nil => exact ⟨_, by rw [renderMembers, Json.quote]; rfl⟩
  | cons w vs => exact ⟨_, by rw [renderMembers_cons_cons, Json.quote]; rfl⟩

theorem readValue_square {c : Char} {cs : List Char} {items : List Json} {rest : List Char}
    {fuel depth : Nat} (token : isSpace c = false) (more : c ≠ ']') (room : 0 < depth)
    (read : readItems fuel (depth - 1) (c :: cs) = (items, some rest)) :
    readValue keepAll (fuel + 1) depth ('[' :: c :: cs) = (arr items, some rest) := by
  rw [readValue, skip_cons (by decide)]
  simp [skip_cons token, more, read]
  omega

theorem readValue_curly {cs : List Char} {members : List (String × Json)} {rest : List Char}
    {fuel depth : Nat} (room : 0 < depth)
    (read : readMembers keepAll fuel (depth - 1) ('"' :: cs) = (members, some rest)) :
    readValue keepAll (fuel + 1) depth ('{' :: '"' :: cs) = (obj members, some rest) := by
  rw [readValue, skip_cons (by decide)]
  simp [skip_cons, isSpace, read]
  omega

theorem readItems_last {text rest : List Char} {v : Json} {fuel depth : Nat}
    (read : readValue keepAll fuel depth text = (v, some (']' :: rest))) :
    readItems (fuel + 1) depth text = ([v], some rest) := by
  rw [readItems, read]
  simp [skip_cons, isSpace]

theorem readItems_cons {text more : List Char} {v : Json} {vs : List Json} {fuel depth : Nat}
    {rest : List Char} (read : readValue keepAll fuel depth text = (v, some (',' :: more)))
    (readMore : readItems fuel depth more = (vs, some rest)) :
    readItems (fuel + 1) depth text = (v :: vs, some rest) := by
  rw [readItems, read]
  simp [skip_cons, isSpace, readMore]

theorem readMembers_last {k : String} {text rest : List Char} {v : Json} {fuel depth : Nat}
    (read : readValue keepAll fuel depth text = (v, some ('}' :: rest))) :
    readMembers keepAll (fuel + 1) depth (Json.quote k ++ ':' :: text) = ([(k, v)], some rest) := by
  have name := readQuoted_flatMap_escapeChar k.toList (':' :: text)
  simp [readMembers, Json.quote, skip_cons, isSpace, name, keepAll, read]

theorem readMembers_cons {k : String} {text more : List Char} {v : Json}
    {vs : List (String × Json)} {fuel depth : Nat} {rest : List Char}
    (read : readValue keepAll fuel depth text = (v, some (',' :: more)))
    (readMore : readMembers keepAll fuel depth more = (vs, some rest)) :
    readMembers keepAll (fuel + 1) depth (Json.quote k ++ ':' :: text)
      = ((k, v) :: vs, some rest) := by
  have name := readQuoted_flatMap_escapeChar k.toList (':' :: text)
  simp [readMembers, Json.quote, skip_cons, isSpace, name, keepAll, read, readMore]

theorem delimited_comma (rest : List Char) : Delimited (',' :: rest) := by
  rintro c ⟨⟩; exact .inl rfl

theorem delimited_square (rest : List Char) : Delimited (']' :: rest) := by
  rintro c ⟨⟩; exact .inr (.inl rfl)

theorem delimited_curly (rest : List Char) : Delimited ('}' :: rest) := by
  rintro c ⟨⟩; exact .inr (.inr rfl)

mutual

/-- A value is read from its own text, with fuel for twice the length of the text: once for each
value and once for the list that it stands in. -/
theorem readValue_renderChars (v : Json) (fuel depth : Nat) (rest : List Char)
    (writable : v.IsWritable depth) (enough : 2 * v.renderChars.length ≤ fuel)
    (ends : Delimited rest) :
    readValue keepAll fuel depth (v.renderChars ++ rest) = (v, some rest) := by
  -- by recursion on the fuel, as the readers go; a text that is not empty has some left
  obtain ⟨c, cs, shape, -⟩ := exists_token_renderChars v
  match fuel, v with
  | 0, _ => simp [shape] at enough
  | fuel + 1, null | fuel + 1, bool true | fuel + 1, bool false =>
    simp [renderChars, readValue, skip_cons, isSpace]
  | fuel + 1, int n =>
    obtain ⟨d, ds, text, start⟩ := exists_start_integerChars n
    have read := readNumber_integerChars writable ends
    -- a number is what is read when the text starts with no other token
    rw [renderChars, text, List.cons_append, readValue_number start, ← List.cons_append, ← text,
      read]
    rfl
  | fuel + 1, str s =>
    have read := readQuoted_flatMap_escapeChar s.toList rest
    simp [renderChars, Json.quote, readValue, skip_cons, isSpace, read, orBroken]
  | fuel + 1, arr [] =>
    have room : depth ≠ 0 := Nat.ne_of_gt writable.1
    simp [renderChars, renderItems, readValue, skip_cons, isSpace, room]
  | fuel + 1, arr (v :: vs) =>
    obtain ⟨c, cs, text, token, more⟩ := exists_token_renderItems v vs
    have read := readItems_renderItems v vs fuel (depth - 1) rest writable.2
      (by simp [renderChars] at enough; omega)
    rw [renderChars, text, List.cons_append, List.cons_append]
    rw [text, List.cons_append] at read
    exact readValue_square token more writable.1 read
  | fuel + 1, obj [] =>
    have room : depth ≠ 0 := Nat.ne_of_gt writable.1
    simp [renderChars, renderMembers, readValue, skip_cons, isSpace, room]
  | fuel + 1, obj ((k, v) :: vs) =>
    obtain ⟨cs, text⟩ := exists_quote_renderMembers k v vs
    have read := readMembers_renderMembers k v vs fuel (depth - 1) rest writable.2
      (by simp [renderChars] at enough; omega)
    rw [renderChars, text, List.cons_append, List.cons_append]
    rw [text, List.cons_append] at read
    exact readValue_curly writable.1 read

theorem readItems_renderItems (v : Json) (vs : List Json) (fuel depth : Nat) (rest : List Char)
    (writable : AreWritable depth (v :: vs)) (enough : 2 * (renderItems (v :: vs)).length ≤ fuel) :
    readItems fuel depth (renderItems (v :: vs) ++ rest) = (v :: vs, some rest) := by
  obtain ⟨c, cs, shape, -⟩ := exists_token_renderItems v vs
  match fuel, vs with
  | 0, _ => simp [shape] at enough
  | fuel + 1, [] =>
    rw [renderItems, List.append_assoc]
    exact readItems_last (readValue_renderChars v fuel depth _ writable.1
      (by simp [renderItems] at enough; omega) (delimited_square rest))
  | fuel + 1, w :: vs =>
    rw [renderItems_cons_cons, List.length_append, List.length_cons] at enough
    rw [renderItems_cons_cons, List.append_assoc]
    exact readItems_cons (readValue_renderChars v fuel depth _ writable.1 (by omega)
      (delimited_comma _)) (readItems_renderItems w vs fuel depth rest writable.2 (by omega))

theorem readMembers_renderMembers (k : String) (v : Json) (vs : List (String × Json))
    (fuel depth : Nat) (rest : List Char) (writable : HaveWritable depth ((k, v) :: vs))
    (enough : 2 * (renderMembers ((k, v) :: vs)).length ≤ fuel) :
    readMembers keepAll fuel depth (renderMembers ((k, v) :: vs) ++ rest)
      = ((k, v) :: vs, some rest) := by
  obtain ⟨cs, shape⟩ := exists_quote_renderMembers k v vs
  match fuel, vs with
  | 0, _ => simp [shape] at enough
  | fuel + 1, [] =>
    rw [renderMembers, List.append_assoc, List.append_assoc, List.cons_append]
    exact readMembers_last (readValue_renderChars v fuel depth _ writable.1
      (by simp [renderMembers] at enough; omega) (delimited_curly rest))
  | fuel + 1, (l, w) :: vs =>
    rw [renderMembers_cons_cons, List.length_append, List.length_cons, List.length_append,
      List.length_cons] at enough
    rw [renderMembers_cons_cons, List.append_assoc, List.cons_append, List.append_assoc]
    exact readMembers_cons (readValue_renderChars v fuel depth _ writable.1 (by omega)
      (delimited_comma _)) (readMembers_renderMembers l w vs fuel depth rest writable.2 (by omega))

end

mutual

theorem IsWritable.isWhole {v : Json} {depth : Nat} (writable : v.IsWritable depth) :
    v.isWhole := by
  match v with
  | null | bool _ | int _ | str _ => rfl
  | real | broken => exact absurd writable not_false
  | arr items => exact AreWritable.areWhole writable.2
  | obj members => exact HaveWritable.haveWhole writable.2

theorem AreWritable.areWhole {vs : List Json} {depth : Nat} (writable : AreWritable depth vs) :
    areWhole vs := by
  match vs with
  | [] => rfl
  | v :: vs =>
    rw [Json.areWhole, writable.1.isWhole, AreWritable.areWhole writable.2]
    rfl

theorem HaveWritable.haveWhole {vs : List (String × Json)} {depth : Nat}
    (writable : HaveWritable depth vs) : haveWhole vs := by
  match vs with
  | [] => rfl
  | (_, v) :: vs =>
    rw [Json.haveWhole, writable.1.isWhole, HaveWritable.haveWhole writable.2]
    rfl

end

/-- What is written reads back as the same value. -/
theorem ofText?_render {v : Json} (writable : v.IsWritable deepest) :
    ofText? v.render = some v := by
  have read := readValue_renderChars v (2 * v.renderChars.length + 2) deepest [] writable
    (by omega) (by rintro c ⟨⟩)
  rw [List.append_nil] at read
  simp [ofText?, Json.read, readPassing, render, read, whole?, skip, writable.isWhole]

end SliceScheduler.Json
