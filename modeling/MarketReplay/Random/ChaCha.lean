/-!
# The ChaCha block function

A key of eight words and a block counter give sixteen words. The state is a square of four by four
words: four constants, the key, the counter in two words, and two zeros. A double round mixes its
columns and then its diagonals; after six double rounds the state before them is added.

The program takes its random words from an outside library, whose generator is this block function
with twelve rounds. No theorem is about these words: what is proved of made-up series holds for any
draws in their ranges, and the words are only there so that a seed gives the series it gives.
-/

set_option autoImplicit false

namespace MarketReplay.ChaCha

def rotl (x : UInt32) (n : UInt32) : UInt32 := (x <<< n) ||| (x >>> (32 - n))

/-- Mixes the words at four places of a state. Sums of words wrap, which `UInt32` does of itself. -/
def quarterRound (s : Array UInt32) (a b c d : Nat) : Array UInt32 :=
  let word := fun (i : Nat) => s.getD i 0
  let xa := word a + word b
  let xd := rotl (word d ^^^ xa) 16
  let xc := word c + xd
  let xb := rotl (word b ^^^ xc) 12
  let xa := xa + xb
  let xd := rotl (xd ^^^ xa) 8
  let xc := xc + xd
  let xb := rotl (xb ^^^ xc) 7
  (((s.setIfInBounds a xa).setIfInBounds b xb).setIfInBounds c xc).setIfInBounds d xd

/-- The places mixed by a double round: columns, then diagonals. The state is a square of four by
four words. -/
def quarters : List (Nat × Nat × Nat × Nat) := [
  (0, 4, 8, 12), (1, 5, 9, 13), (2, 6, 10, 14), (3, 7, 11, 15),
  (0, 5, 10, 15), (1, 6, 11, 12), (2, 7, 8, 13), (3, 4, 9, 14)]

def doubleRound (s : Array UInt32) : Array UInt32 :=
  quarters.foldl (fun s q => quarterRound s q.1 q.2.1 q.2.2.1 q.2.2.2) s

def doubleRounds : Nat → Array UInt32 → Array UInt32
  | 0, s => s
  | n + 1, s => doubleRounds n (doubleRound s)

/-- The words of "expand 32-byte k". -/
def constants : List UInt32 := [0x61707865, 0x3320646e, 0x79622d32, 0x6b206574]

def initial (key : List UInt32) (counter : UInt64) : Array UInt32 :=
  (constants ++ key.take 8 ++ [counter.toUInt32, (counter >>> 32).toUInt32, 0, 0]).toArray

/-- The block of a key and a counter, with twelve rounds. Adding the state before the rounds keeps
them from being undone. -/
def block (key : List UInt32) (counter : UInt64) : List UInt32 :=
  let start := initial key counter
  List.zipWith (· + ·) (doubleRounds 6 start).toList start.toList

end MarketReplay.ChaCha
