import MarketReplay.Random.ChaCha
import MarketReplay.Width

/-!
# Random numbers

A stream of words from a seed, and numbers drawn from it. The words are those of the ChaCha blocks
in order; their key comes from the seed by a short recurrence. Numbers are drawn by rejection: a
candidate that falls outside the range is thrown away and the next words are tried. A draw gives up
after a fixed count of candidates, each of which is outside with a chance of about a half at most.

The limit on the candidates makes the draws recursive functions that end, and is the one place where
they are not the library's: there a draw never gives up. A thousand candidates in a row fail with a
chance of one in 2^1000.
-/

set_option autoImplicit false

namespace MarketReplay

/-- Draws of numbers with states of type `γ`. What draws from it can be defined and reasoned about
for any source of numbers, and takes the state along as a value. -/
structure Sampler (α γ : Type) where
  /-- A number from `low` on and below `high`, if that is a range of finite width. -/
  uniform : γ → α → α → Option (α × γ)
  /-- A whole number from `low` on and below `high`. -/
  count : γ → Nat → Nat → Nat × γ

/-- A stream of words: those left of a block, and the number of the next block. Blocks are computed
when the words before them are used up. -/
structure RandomStream where
  key : List UInt32
  next : UInt64
  words : List UInt32

namespace RandomStream

def rotr (x : UInt32) (n : UInt32) : UInt32 :=
  if n = 0 then x else (x >>> n) ||| (x <<< (32 - n))

/-- The words of a key from the state of the recurrence. -/
def keyWords : Nat → UInt64 → List UInt32
  | 0, _ => []
  | n + 1, state =>
    let state := state * 6364136223846793005 + 11634580027462260723
    let mixed := (((state >>> 18) ^^^ state) >>> 27).toUInt32
    rotr mixed (state >>> 59).toUInt32 :: keyWords n state

def ofSeed (seed : UInt64) : RandomStream := ⟨keyWords 8 seed, 0, []⟩

def nextWord (s : RandomStream) : UInt32 × RandomStream :=
  match s.words with
  | w :: rest => (w, { s with words := rest })
  | [] =>
    match ChaCha.block s.key s.next with
    | w :: rest => (w, { s with next := s.next + 1, words := rest })
    | [] => (0, s)

/-- Two words as one, the first one low. The words of a pair may come from two blocks. -/
def nextPair (s : RandomStream) : UInt64 × RandomStream :=
  let (low, s) := s.nextWord
  let (high, s) := s.nextWord
  (low.toUInt64 ||| (high.toUInt64 <<< 32), s)

/-- The number of candidates a draw looks at. A candidate is refused no more often than it is taken,
so that a thousand refusals in a row do not occur; the bound makes the recursion end. -/
def patience : Nat := 1000

/-- A number from `low` on and below `high`: the upper bits of a word as the fraction of a number
between one and two, of which one is taken off. Rounding can carry the result onto `high`, which is
rejected. -/
def drawBelow (scale low high : Float) : Nat → RandomStream → Float × RandomStream
  | 0, s => (low, s)
  | fuel + 1, s =>
    let (bits, s) := s.nextPair
    let unit := Float.ofBits ((bits >>> 12) ||| 0x3FF0000000000000) - 1
    let x := unit * scale + low
    if x < high then (x, s) else drawBelow scale low high fuel s

def uniform? (s : RandomStream) (low high : Float) : Option (Float × RandomStream) :=
  if low < high ∧ (high - low).isFinite then some (drawBelow (high - low) low high patience s)
  else none

def drawCount (width low : Nat) (zone : Nat) : Nat → RandomStream → Nat × RandomStream
  | 0, s => (low, s)
  | fuel + 1, s =>
    let (bits, s) := s.nextPair
    let product := bits.toNat * width
    if product % twoTo 64 ≤ zone then (low + product / twoTo 64, s)
    else drawCount width low zone fuel s

/-- A whole number: the high half of a 64-bit draw times the width of the range, accepted when the
low half is below the largest multiple of the width that a shift reaches. -/
def count (s : RandomStream) (low high : Nat) : Nat × RandomStream :=
  let width := high - low
  if width = 0 then (low, s)
  else drawCount width low (width * twoTo (63 - width.log2) - 1) patience s

def sampler : Sampler Float RandomStream where
  uniform := uniform?
  count := count

end RandomStream

end MarketReplay
