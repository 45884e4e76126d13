/-!
# Sizes of machine words

How many values the words have that numbers are kept in. A number that is read has to fit its word.
-/
namespace SliceScheduler.Word

/-- How many values a word of 16 bits has. -/
abbrev size16 : Nat := 65536

/-- How many values a word of 32 bits has. -/
abbrev size32 : Nat := 4294967296

/-- How many values a word of 63 bits has, which are those of a signed word that are not negative. -/
abbrev size63 : Nat := 9223372036854775808

/-- How many values a word of 64 bits has. -/
abbrev size64 : Nat := 18446744073709551616

/-- How many values a word of 127 bits has. -/
abbrev size127 : Nat := 170141183460469231731687303715884105728

/-- How many values a word of 128 bits has. -/
abbrev size128 : Nat := 340282366920938463463374607431768211456

end SliceScheduler.Word
