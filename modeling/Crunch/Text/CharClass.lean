import Crunch.Text.Category

/-!
# Crunch.Text.CharClass

Properties of characters that the standard defines beside the general category.

* `isBlank`: white space.
* `isMark`: extends the grapheme before it.
* `isPrintable`: has a visible form of its own or is the space.
* `isWord`: part of a word.
* `isCased`, `isCaseIgnorable`: the context of a capital sigma.
-/

namespace Crunch
namespace Text

/-- White space. -/
def isBlank (c : Char) : Bool :=
  inRanges
  [(0x9, 0xD), (0x20, 0x20), (0x85, 0x85), (0xA0, 0xA0), (0x1680, 0x1680), (0x2000, 0x200A),
   (0x2028, 0x2029), (0x202F, 0x202F), (0x205F, 0x205F), (0x3000, 0x3000)]
    c.toNat

/-- Characters that extend a grapheme without being nonspacing or enclosing marks. -/
def otherExtenders : List (Nat × Nat) :=
  [(0x9BE, 0x9BE), (0x9D7, 0x9D7), (0xB3E, 0xB3E), (0xB57, 0xB57), (0xBBE, 0xBBE),
   (0xBD7, 0xBD7), (0xCC0, 0xCC0), (0xCC2, 0xCC2), (0xCC7, 0xCC8), (0xCCA, 0xCCB),
   (0xCD5, 0xCD6), (0xD3E, 0xD3E), (0xD57, 0xD57), (0xDCF, 0xDCF), (0xDDF, 0xDDF),
   (0x1715, 0x1715), (0x1734, 0x1734), (0x1B35, 0x1B35), (0x1B3B, 0x1B3B), (0x1B3D, 0x1B3D),
   (0x1B43, 0x1B44), (0x1BAA, 0x1BAA), (0x1BF2, 0x1BF3), (0x200C, 0x200C), (0x302E, 0x302F),
   (0xA953, 0xA953), (0xA9C0, 0xA9C0), (0xFF9E, 0xFF9F), (0x111C0, 0x111C0), (0x11235, 0x11235),
   (0x1133E, 0x1133E), (0x1134D, 0x1134D), (0x11357, 0x11357), (0x113B8, 0x113B8),
   (0x113C2, 0x113C2), (0x113C5, 0x113C5), (0x113C7, 0x113C9), (0x113CF, 0x113CF),
   (0x114B0, 0x114B0), (0x114BD, 0x114BD), (0x115AF, 0x115AF), (0x116B6, 0x116B6),
   (0x11930, 0x11930), (0x1193D, 0x1193D), (0x11F41, 0x11F41), (0x16FF0, 0x16FF1),
   (0x1D165, 0x1D166), (0x1D16D, 0x1D172), (0xE0020, 0xE007F)]

/-- Extends the grapheme of the character before it. -/
def isMark (c : Char) : Bool :=
  let k := Category.of c
  k == ⟨'M', 'n'⟩ || k == ⟨'M', 'e'⟩ || inRanges otherExtenders c.toNat

/-- Neither a control, format, surrogate, private or unassigned character nor a separator other
than the space. -/
def isPrintable (c : Char) : Bool :=
  let k := Category.of c
  c == ' ' || !(k.group == 'C' || k.group == 'Z')

/-- Alphabetic characters that are symbols, and the two joiners. -/
def otherWordChars : List (Nat × Nat) :=
  [(0x200C, 0x200D), (0x24B6, 0x24E9), (0x1F130, 0x1F149), (0x1F150, 0x1F169),
   (0x1F170, 0x1F189)]

/-- Letters, marks, decimal digits, letter numbers and connectors. -/
def isWord (c : Char) : Bool :=
  let k := Category.of c
  k.group == 'L' || k.group == 'M' || k == ⟨'N', 'd'⟩ || k == ⟨'N', 'l'⟩ || k == ⟨'P', 'c'⟩
    || inRanges otherWordChars c.toNat

/-- Cased characters that are no upper, lower or title case letters. -/
def otherCased : List (Nat × Nat) :=
  [(0xAA, 0xAA), (0xBA, 0xBA), (0x2B0, 0x2B8), (0x2C0, 0x2C1), (0x2E0, 0x2E4), (0x345, 0x345),
   (0x37A, 0x37A), (0x10FC, 0x10FC), (0x1D2C, 0x1D6A), (0x1D78, 0x1D78), (0x1D9B, 0x1DBF),
   (0x2071, 0x2071), (0x207F, 0x207F), (0x2090, 0x209C), (0x2160, 0x217F), (0x24B6, 0x24E9),
   (0x2C7C, 0x2C7D), (0xA69C, 0xA69D), (0xA770, 0xA770), (0xA7F2, 0xA7F4), (0xA7F8, 0xA7F9),
   (0xAB5C, 0xAB5F), (0xAB69, 0xAB69), (0x10780, 0x10780), (0x10783, 0x10785),
   (0x10787, 0x107B0), (0x107B2, 0x107BA), (0x1E030, 0x1E06D), (0x1F130, 0x1F149),
   (0x1F150, 0x1F169), (0x1F170, 0x1F189)]

/-- Has a case. -/
def isCased (c : Char) : Bool :=
  let k := Category.of c
  k == ⟨'L', 'u'⟩ || k == ⟨'L', 'l'⟩ || k == ⟨'L', 't'⟩ || inRanges otherCased c.toNat

/-- Punctuation inside words. -/
def midWord : List (Nat × Nat) :=
  [(0x27, 0x27), (0x2E, 0x2E), (0x3A, 0x3A), (0xB7, 0xB7), (0x387, 0x387), (0x55F, 0x55F),
   (0x5F4, 0x5F4), (0x2018, 0x2019), (0x2024, 0x2024), (0x2027, 0x2027), (0xFE13, 0xFE13),
   (0xFE52, 0xFE52), (0xFE55, 0xFE55), (0xFF07, 0xFF07), (0xFF0E, 0xFF0E), (0xFF1A, 0xFF1A)]

/-- Skipped when the letters around a capital sigma are looked at. -/
def isCaseIgnorable (c : Char) : Bool :=
  let k := Category.of c
  k == ⟨'M', 'n'⟩ || k == ⟨'M', 'e'⟩ || k == ⟨'C', 'f'⟩ || k == ⟨'L', 'm'⟩ || k == ⟨'S', 'k'⟩
    || inRanges midWord c.toNat

end Text
end Crunch
