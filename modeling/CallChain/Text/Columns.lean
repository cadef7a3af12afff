/-
# Terminal columns

How many columns of a terminal a text takes. Its characters are met from the
last to the first, each before what follows it: it adds its own columns,
unless a variation selector chooses its style or it makes a ligature or an
emoji with what follows.

Key definitions: `Text.Following.before`, `Text.columns`.
-/
import CallChain.Text.Emoji
import CallChain.Text.Ligature

namespace CallChain.Text

/-- The start of what follows a character, as far as it matters to it. -/
inductive Start where
  | plain
  /-- The end of a possible ligature, perhaps with a joiner before it. -/
  | ligating (l : Ligating) (joined : Bool)
  /-- The tail of an emoji sequence. -/
  | emoji (t : EmojiTail)

/-- What follows a character: a start, and the styles that variation
selectors before it ask for. -/
structure Following where
  start : Start
  /-- Variation selector 16: an emoji. -/
  asEmoji : Bool
  /-- Variation selector 15: not an emoji. -/
  asText : Bool
  /-- Variation selector 2: a wide quotation mark. -/
  asWide : Bool

namespace Following

/-- A start without selectors. -/
def bare (s : Start) : Following := ⟨s, false, false, false⟩

/-- Nothing that matters. -/
def nothing : Following := bare .plain

/-- What a character is for those before it. -/
def ofChar (c : Char) : Following :=
  match Ligating.ofChar? c, EmojiTail.ofChar? c with
  | some l, _ => bare (.ligating l false)
  | none, some t => bare (.emoji t)
  | none, none => nothing

/-- What stays possible before a variation selector: a ligature and, if the
selector asks for an emoji, one that is joined. -/
def behindSelector (f : Following) (emoji : Bool) : Following :=
  match f.start with
  | .ligating l _ => if l.admitsSelector then f else nothing
  | .emoji (.joined _) => if emoji then f else nothing
  | _ => nothing

/-- An emoji style that a character has not taken is forgotten, and with it
the emoji that it would have joined. -/
def withoutEmojiStyle (f : Following) : Following :=
  if f.asEmoji then { f.behindSelector false with asEmoji := false } else f

/-- Whether a character is a quotation mark that may be wide. -/
def isQuote (c : Char) : Bool := c == '‘' || c == '’' || c == '“' || c == '”'

/-- The columns that a character adds before a start, and what they are
together for the character before. -/
def meet (s : Start) (c : Char) : Int × Following :=
  let alone : Int × Following := (charColumns c, ofChar c)
  match s with
  | .plain => alone
  | .emoji t => (t.before? c).elim alone fun (n, t) => (n, bare (.emoji t))
  | .ligating l joined =>
    if l.admitsMark && c == joiner then (0, bare (.ligating l true))
    else if l.admitsMark && innerMarkRanges.covers c then (0, bare s)
    else
      match l.before? joined c with
      | none => alone
      | some (n, none) => (n, nothing)
      | some (n, some l) => (n, bare (.ligating l false))

/-- The columns that a character adds before what follows it, and what they
are together for the character before. A style counts for one character: it
is taken or forgotten, unless one more selector comes. -/
def before (f : Following) (c : Char) : Int × Following :=
  if f.asEmoji && emojiStyleRanges.covers c then
    match f.start with
    | .emoji _ => (0, bare (.emoji .emoji))
    | _ => (2, bare (.emoji .emoji))
  else
    let f := f.withoutEmojiStyle
    if c.toNat ≤ 0xA0 then (1, nothing)
    else if c.toNat == 0xFE0F then (0, { f.behindSelector true with asEmoji := true })
    else if c.toNat == 0xFE0E then (0, { f.behindSelector false with asText := true })
    else if c.toNat == 0xFE01 then (0, { f.behindSelector false with asWide := true })
    else if f.asText && textStyleRanges.covers c then (1, nothing)
    else if f.asWide && isQuote c then (2, nothing)
    else meet f.start c

end Following

/-- The columns of characters, and what they are for a character before
them. -/
def measure (cs : List Char) : Int × Following :=
  cs.foldr (fun c (n, f) => let (m, f) := f.before c; (m + n, f)) (0, .nothing)

/-- The columns of a text. -/
def columns (s : String) : Nat := (measure s.toList).1.toNat

example : columns "ab" = 2 ∧ columns "日本" = 4 ∧ columns "größe" = 5 := by decide +kernel

example : columns "👍🏽" = 2 ∧ columns "❤️" = 2 ∧ columns "لا" = 1 := by decide +kernel

end CallChain.Text
