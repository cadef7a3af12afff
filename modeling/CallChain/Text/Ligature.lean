/-
# Ligatures

Characters that share their columns with those before them. A ligature is
found from its end: its last character is a `Ligating`, which may meet a
zero-width joiner and marks before it meets its partner.

Key definitions: `Text.Ligating.ofChar?`, `Text.Ligating.before?`.
-/
import CallChain.Text.Width

namespace CallChain.Text

/-- The end of a possible ligature. -/
inductive Ligating where
  /-- An Arabic alef, for a lam before it. -/
  | alef
  /-- A Hebrew lamed, for a joined alef. -/
  | lamed
  /-- A Buginese ya, for a joined vowel sign i. -/
  | ya
  /-- A Buginese ya with a joined vowel sign i, for a vowel sign a. -/
  | yaAfterI
  /-- A Tifinagh consonant, for another one that is joined. -/
  | consonant
  /-- A Tifinagh consonant with the consonant joiner, for another one. -/
  | jointConsonant
  /-- A second tone letter of Lisu, for a first one. -/
  | tone
  /-- An Old Turkic letter i, for a joined letter. -/
  | orkhonI
  /-- A Khmer letter that has a form below the line, for the sign coeng. -/
  | coengLetter
  /-- A Kirat Rai vowel sign e, for other vowel signs. -/
  | vowelE
  /-- A Kirat Rai vowel sign ai, for a vowel sign aa. -/
  | vowelAi

/-- The letters of the joining group Alef. -/
def alefRanges : Ranges :=
  [(0x622, 0x623), (0x625, 0x625), (0x627, 0x627), (0x671, 0x673), (0x675, 0x675), (0x773, 0x774),
   (0x870, 0x882)]

/-- The letters of the joining group Lam. -/
def lamRanges : Ranges :=
  [(0x644, 0x644), (0x6B5, 0x6B8), (0x76A, 0x76A), (0x8A6, 0x8A6), (0x8C7, 0x8C7)]

/-- The Khmer letters that have a form below the line. -/
def coengLetterRanges : Ranges :=
  [(0x1780, 0x1782), (0x1784, 0x1787), (0x1789, 0x178C), (0x178E, 0x1793), (0x1795, 0x1798),
   (0x179B, 0x179D), (0x17A0, 0x17A0), (0x17A2, 0x17A2), (0x17A7, 0x17A7), (0x17AB, 0x17AC),
   (0x17AF, 0x17AF)]

/-- The consonants of Tifinagh. -/
def consonantRanges : Ranges := [(0x2D31, 0x2D65), (0x2D6F, 0x2D6F)]

/-- The marks that may stand inside a ligature. -/
def innerMarkRanges : Ranges :=
  [(0x34F, 0x34F), (0x17B4, 0x17B5), (0x180B, 0x180D), (0x180F, 0x180F), (0x200D, 0x200D),
   (0xFE00, 0xFE0F), (0xE0100, 0xE01EF)]

/-- The characters without a column that break the joining of Arabic
letters. -/
def unjoiningRanges : Ranges :=
  [(0x605, 0x605), (0x890, 0x891), (0x8E2, 0x8E2), (0x9BE, 0x9BE), (0x9D7, 0x9D7), (0xB3E, 0xB3E),
   (0xB57, 0xB57), (0xBBE, 0xBBE), (0xBD7, 0xBD7), (0xCC0, 0xCC0), (0xCC2, 0xCC2), (0xCC7, 0xCC8),
   (0xCCA, 0xCCB), (0xCD5, 0xCD6), (0xD3E, 0xD3E), (0xD4E, 0xD4E), (0xD57, 0xD57), (0xDCF, 0xDCF),
   (0xDDF, 0xDDF), (0x1160, 0x11FF), (0x1715, 0x1715), (0x1734, 0x1734), (0x180E, 0x180E),
   (0x1B35, 0x1B35), (0x1B3B, 0x1B3B), (0x1B3D, 0x1B3D), (0x1B43, 0x1B44), (0x1BAA, 0x1BAA),
   (0x1BF2, 0x1BF3), (0x200C, 0x200D), (0x2065, 0x2069), (0x302E, 0x302F), (0x3164, 0x3164),
   (0xA8FA, 0xA8FA), (0xA953, 0xA953), (0xA9C0, 0xA9C0), (0xD7B0, 0xD7C6), (0xD7CB, 0xD7FB),
   (0xFFA0, 0xFFA0), (0xFFF0, 0xFFF8), (0x111C0, 0x111C0), (0x111C2, 0x111C3), (0x11235, 0x11235),
   (0x1133E, 0x1133E), (0x1134D, 0x1134D), (0x11357, 0x11357), (0x113B8, 0x113B8),
   (0x113C2, 0x113C2), (0x113C5, 0x113C5), (0x113C7, 0x113C9), (0x113CF, 0x113CF),
   (0x113D1, 0x113D1), (0x114B0, 0x114B0), (0x114BD, 0x114BD), (0x115AF, 0x115AF),
   (0x116B6, 0x116B6), (0x11930, 0x11930), (0x1193D, 0x1193D), (0x1193F, 0x1193F),
   (0x11941, 0x11941), (0x11A84, 0x11A89), (0x11D46, 0x11D46), (0x11F02, 0x11F02),
   (0x11F41, 0x11F41), (0x16FF0, 0x16FF1), (0x1D165, 0x1D166), (0x1D16D, 0x1D172),
   (0x1D250, 0x1D25A), (0xE0000, 0xE0000), (0xE0002, 0xE001F), (0xE0080, 0xE00FF),
   (0xE01F0, 0xE0FFF)]

/-- The end of a possible ligature that a character is. -/
def Ligating.ofChar? (c : Char) : Option Ligating :=
  if c.toNat == 0x5DC then some .lamed
  else if alefRanges.covers c then some .alef
  else if coengLetterRanges.covers c then some .coengLetter
  else if c.toNat == 0x1A10 then some .ya
  else if consonantRanges.covers c then some .consonant
  else if c.toNat == 0xA4FC || c.toNat == 0xA4FD then some .tone
  else if c.toNat == 0x10C03 then some .orkhonI
  else if c.toNat == 0x16D67 then some .vowelE
  else if c.toNat == 0x16D68 then some .vowelAi
  else none

/-- Whether a variation selector before it leaves the ligature possible. -/
def Ligating.admitsSelector : Ligating → Bool
  | vowelE | vowelAi => false
  | _ => true

/-- Whether a joiner or a mark before it leaves the ligature possible. -/
def Ligating.admitsMark : Ligating → Bool
  | alef | vowelE | vowelAi => false
  | _ => true

/-- Whether a mark without a column leaves Arabic letters joined. -/
def isTransparent (c : Char) : Bool := charColumns c == 0 && !unjoiningRanges.covers c

/-- The columns that a character adds before the end of a ligature, and the
end that it then makes with it; `none` if it takes no part. In `joined`, a
joiner came between. -/
def Ligating.before? (l : Ligating) (joined : Bool) (c : Char) : Option (Int × Option Ligating) :=
  match l with
  | alef =>
    if lamRanges.covers c then some (0, none)
    else if isTransparent c then some (0, some alef)
    else none
  | lamed => if joined && c.toNat == 0x5D0 then some (0, none) else none
  | ya => if joined && c.toNat == 0x1A17 then some (0, some yaAfterI) else none
  | yaAfterI => if c.toNat == 0x1A15 then some (0, none) else none
  | consonant =>
    if c.toNat == 0x2D7F then some (1, some jointConsonant)
    else if joined && consonantRanges.covers c then some (0, none)
    else none
  | jointConsonant => if consonantRanges.covers c then some (-1, none) else none
  | tone => if 0xA4F8 ≤ c.toNat && c.toNat ≤ 0xA4FB then some (0, none) else none
  | orkhonI => if joined && c.toNat == 0x10C32 then some (0, none) else none
  | coengLetter => if c.toNat == 0x17D2 then some (-1, none) else none
  | vowelE =>
    if c.toNat == 0x16D63 || c.toNat == 0x16D69 then some (0, none)
    else if c.toNat == 0x16D67 then some (0, some vowelAi)
    else if c.toNat == 0x16D68 then some (1, some vowelE)
    else none
  | vowelAi => if c.toNat == 0x16D63 then some (0, none) else none

end CallChain.Text
