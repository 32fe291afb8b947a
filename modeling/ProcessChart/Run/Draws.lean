/-!
The random draws of a run. A seed is expanded to a key of eight words by a
multiplicative generator whose outputs are rotated by their own top bits. The
key then drives a block cipher of twelve rounds that encrypts a counter: every
block gives sixteen words, and every draw takes two of them. Draw number `i`
therefore depends on the seed and on `i` alone.
-/
namespace ProcessChart.Draws

/-- The next state of the generator that expands a seed. -/
def nextState (state : UInt64) : UInt64 := state * 6364136223846793005 + 11634580027462260723

def rotateRight (x n : UInt32) : UInt32 := (x >>> n) ||| (x <<< (32 - n))

def rotateLeft (x n : UInt32) : UInt32 := (x <<< n) ||| (x >>> (32 - n))

def stateWord (state : UInt64) : UInt32 :=
  rotateRight (((state >>> 18) ^^^ state) >>> 27).toUInt32 (state >>> 59).toUInt32

/-- The words that the generator gives from a state on. -/
def stateWords (state : UInt64) : Nat → List UInt32
  | 0 => []
  | count + 1 => let next := nextState state; stateWord next :: stateWords next count

def key (seed : UInt64) : List UInt32 := stateWords seed 8

abbrev Block := Vector UInt32 16

/-- Four words of the block are added, combined and rotated in turn. -/
def quarterRound (s : Block) (a b c d : Fin 16) : Block :=
  let s := s.set a (s[a] + s[b])
  let s := s.set d (rotateLeft (s[d] ^^^ s[a]) 16)
  let s := s.set c (s[c] + s[d])
  let s := s.set b (rotateLeft (s[b] ^^^ s[c]) 12)
  let s := s.set a (s[a] + s[b])
  let s := s.set d (rotateLeft (s[d] ^^^ s[a]) 8)
  let s := s.set c (s[c] + s[d])
  s.set b (rotateLeft (s[b] ^^^ s[c]) 7)

/-- A round over the columns of the block and one over its diagonals. -/
def doubleRound (s : Block) : Block :=
  let s := quarterRound s 0 4 8 12
  let s := quarterRound s 1 5 9 13
  let s := quarterRound s 2 6 10 14
  let s := quarterRound s 3 7 11 15
  let s := quarterRound s 0 5 10 15
  let s := quarterRound s 1 6 11 12
  let s := quarterRound s 2 7 8 13
  quarterRound s 3 4 9 14

/-- Four fixed words, the key, and the counter in two words. -/
def initialBlock (key : List UInt32) (counter : UInt64) : Block :=
  let word (i : Nat) : UInt32 := key.getD i 0
  #v[0x61707865, 0x3320646E, 0x79622D32, 0x6B206574,
     word 0, word 1, word 2, word 3, word 4, word 5, word 6, word 7,
     counter.toUInt32, (counter >>> 32).toUInt32, 0, 0]

def block (key : List UInt32) (counter : UInt64) : Block :=
  let start := initialBlock key counter
  let mixed := (List.range 6).foldl (fun s _ => doubleRound s) start
  Vector.zipWith (· + ·) mixed start

/-- Two consecutive words, the lower one first. -/
def word64 (key : List UInt32) (index : Nat) : UInt64 :=
  let words := (block key (UInt64.ofNat (index / 8))).toList
  let position := 2 * (index % 8)
  (words.getD position 0).toUInt64 ||| ((words.getD (position + 1) 0).toUInt64 <<< 32)

/-- A number from zero up to but not including one, of 52 random bits. -/
def unit (seed : Nat) (index : Nat) : Float :=
  (word64 (key (UInt64.ofNat seed)) index >>> 12).toFloat / 4503599627370496

end ProcessChart.Draws
