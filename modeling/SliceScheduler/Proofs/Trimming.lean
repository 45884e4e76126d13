import Mathlib.Data.List.Basic
import SliceScheduler.Text.Blank
/-!
# What trimming leaves

1. `Trimmed` says what the text without the blanks at either end is;
2. `stripChars_eq_iff` is that trimming gives this text and no other;
3. `stripChars_of_bareEnds` leaves a text alone that has no blanks at its ends, and
   `stripChars_eq_nil_iff` says which texts have nothing but blanks.
-/
namespace SliceScheduler.Text

/-- No blank stands at either end. -/
structure BareEnds (core : List Char) : Prop where
  front : ∀ c ∈ core.head?, isBlank c = false
  back : ∀ c ∈ core.getLast?, isBlank c = false

/-- `core` is the text without the blanks at either end. -/
structure Trimmed (cs core : List Char) : Prop where
  around : ∃ before after, cs = before ++ core ++ after ∧
    before.all isBlank = true ∧ after.all isBlank = true
  bare : BareEnds core

variable {cs core : List Char}

/-! ## One end -/

theorem dropBlanks_append {before : List Char} (blank : before.all isBlank = true)
    (rest : List Char) : dropBlanks (before ++ rest) = dropBlanks rest :=
  List.dropWhile_append_of_pos (List.all_eq_true.mp blank)

theorem dropBlanks_of_all (blank : cs.all isBlank = true) : dropBlanks cs = [] := by
  rw [← List.append_nil cs, dropBlanks_append blank]
  rfl

theorem dropBlanks_of_head? (bare : ∀ c ∈ cs.head?, isBlank c = false) : dropBlanks cs = cs := by
  cases cs with
  | nil => rfl
  | cons c cs => exact List.dropWhile_cons_of_neg (by simp [bare c rfl])

/-- The blanks that are taken off the front, and what does not start with one. -/
theorem exists_dropBlanks (cs : List Char) : ∃ before, cs = before ++ dropBlanks cs ∧
    before.all isBlank = true ∧ ∀ c ∈ (dropBlanks cs).head?, isBlank c = false := by
  refine ⟨cs.takeWhile isBlank, List.takeWhile_append_dropWhile.symm, List.all_takeWhile, ?_⟩
  intro c mem
  have stops := List.head?_dropWhile_not isBlank cs
  rw [show (cs.dropWhile isBlank).head? = some c from mem] at stops
  exact stops

/-! ## Both ends -/

/-- A text with blanks around it is trimmed to what stands between them. -/
theorem Trimmed.stripChars (trimmed : Trimmed cs core) : stripChars cs = core := by
  obtain ⟨⟨before, after, rfl, front, back⟩, bare⟩ := trimmed
  have reversed : after.reverse.all isBlank = true := by rwa [List.all_reverse]
  have inner : dropBlanks core.reverse = core.reverse :=
    dropBlanks_of_head? fun c mem => bare.back c (List.head?_reverse ▸ mem)
  rw [Text.stripChars, List.append_assoc, dropBlanks_append front]
  cases core with
  | nil => rw [List.nil_append, dropBlanks_of_all back]; rfl
  | cons c core =>
    have outer : dropBlanks (c :: core ++ after) = c :: core ++ after :=
      dropBlanks_of_head? bare.front
    rw [outer, List.reverse_append, dropBlanks_append reversed, inner, List.reverse_reverse]

theorem trimmed_stripChars (cs : List Char) : Trimmed cs (stripChars cs) := by
  obtain ⟨before, front, blank, bare⟩ := exists_dropBlanks cs
  obtain ⟨after, back, blank', bare'⟩ := exists_dropBlanks (dropBlanks cs).reverse
  have inner : dropBlanks cs = stripChars cs ++ after.reverse := by
    rw [← List.reverse_reverse (dropBlanks cs), back, List.reverse_append]
    rfl
  refine ⟨⟨before, after.reverse, ?_, blank, by rwa [List.all_reverse]⟩, ⟨fun c mem => ?_, ?_⟩⟩
  · rw [List.append_assoc, ← inner, ← front]
  · refine bare c ?_
    rw [inner, List.head?_append, show (stripChars cs).head? = some c from mem]
    rfl
  · rw [stripChars, List.getLast?_reverse]
    exact bare'

/-- Trimming gives the text without the blanks at either end. -/
theorem stripChars_eq_iff : stripChars cs = core ↔ Trimmed cs core :=
  ⟨fun stripped => stripped ▸ trimmed_stripChars cs, Trimmed.stripChars⟩

theorem stripChars_of_bareEnds (bare : BareEnds cs) : stripChars cs = cs :=
  Trimmed.stripChars ⟨⟨[], [], by simp, rfl, rfl⟩, bare⟩

@[simp] theorem stripChars_stripChars (cs : List Char) :
    stripChars (stripChars cs) = stripChars cs :=
  stripChars_of_bareEnds (trimmed_stripChars cs).bare

/-- Nothing is left of a text that has nothing but blanks, and of no other. -/
theorem stripChars_eq_nil_iff : stripChars cs = [] ↔ cs.all isBlank = true := by
  rw [stripChars_eq_iff]
  constructor
  · rintro ⟨⟨before, after, rfl, front, back⟩, -⟩
    simp only [List.all_append, front, back, List.all_nil, Bool.and_self]
  · exact fun blank => ⟨⟨cs, [], by simp, blank, rfl⟩, ⟨by simp, by simp⟩⟩

/-! ## Texts -/

@[simp] theorem toList_strip (s : String) : (strip s).toList = stripChars s.toList :=
  String.toList_ofList

theorem trimmed_strip (s : String) : Trimmed s.toList (strip s).toList := by
  rw [toList_strip]
  exact trimmed_stripChars s.toList

@[simp] theorem strip_strip (s : String) : strip (strip s) = strip s := by
  rw [strip, toList_strip, stripChars_stripChars]
  rfl

theorem strip_eq_empty_iff (s : String) : strip s = "" ↔ isBlankText s = true := by
  rw [← String.toList_inj, toList_strip, String.toList_empty, stripChars_eq_nil_iff]
  rfl

/-- A trimmed text has nothing but blanks only if the whole text has. -/
@[simp] theorem isBlankText_strip (s : String) : isBlankText (strip s) = isBlankText s := by
  rw [Bool.eq_iff_iff, ← strip_eq_empty_iff, ← strip_eq_empty_iff, strip_strip]

end SliceScheduler.Text
