import QuditSynth.Scalar

namespace QuditSynth

/-! # Seed streams

Starting points are drawn from a stream of words that a seed determines. The
seed is stretched into a 256-bit key, and the words are the blocks of a
twelve-round stream cipher under that key.
-/

namespace SeedStream

def rotateLeft (x count : UInt32) : UInt32 := (x <<< count) ||| (x >>> (32 - count))

def rotateRight (x count : UInt32) : UInt32 := (x >>> count) ||| (x <<< (32 - count))

/-- Advances the generator that stretches a seed. -/
def advance (state : UInt64) : UInt64 := state * 6364136223846793005 + 11634580027462260723

/-- The word that the stretching generator puts out in a state. -/
def output (state : UInt64) : UInt32 :=
  rotateRight (((state >>> 18) ^^^ state) >>> 27).toUInt32 (state >>> 59).toUInt32

/-- The given number of key words, from a state on. -/
def keyWords : Nat → UInt64 → List UInt32
  | 0, _ => []
  | count + 1, state =>
      let state := advance state
      output state :: keyWords count state

def key (seed : UInt64) : List UInt32 := keyWords 8 seed

/-- The words at the start of every block. -/
def constants : List UInt32 := [0x61707865, 0x3320646e, 0x79622d32, 0x6b206574]

/-- The state from which a block is computed. -/
def initial (key : List UInt32) (counter : UInt64) : Array UInt32 :=
  (constants ++ key ++ [counter.toUInt32, (counter >>> 32).toUInt32, 0, 0]).toArray

/-- Mixes four words of a state. -/
def quarterRound (state : Array UInt32) (a b c d : Nat) : Array UInt32 :=
  let x := state.getD a 0
  let y := state.getD b 0
  let z := state.getD c 0
  let w := state.getD d 0
  let x := x + y
  let w := rotateLeft (w ^^^ x) 16
  let z := z + w
  let y := rotateLeft (y ^^^ z) 12
  let x := x + y
  let w := rotateLeft (w ^^^ x) 8
  let z := z + w
  let y := rotateLeft (y ^^^ z) 7
  (((state.set! a x).set! b y).set! c z).set! d w

/-- The columns and then the diagonals of a state. -/
def lanes : List (Nat × Nat × Nat × Nat) :=
  [(0, 4, 8, 12), (1, 5, 9, 13), (2, 6, 10, 14), (3, 7, 11, 15),
    (0, 5, 10, 15), (1, 6, 11, 12), (2, 7, 8, 13), (3, 4, 9, 14)]

def doubleRound (state : Array UInt32) : Array UInt32 :=
  lanes.foldl (fun state (a, b, c, d) => quarterRound state a b c d) state

/-- Six double rounds, added to the state they started from. -/
def block (key : List UInt32) (counter : Nat) : List UInt32 :=
  let start := initial key counter.toUInt64
  let mixed := Nat.repeat doubleRound 6 start
  (start.zipWith (· + ·) mixed).toList

/-- The first words of a stream, at least as many as asked for. -/
def words (seed : UInt64) (count : Nat) : List UInt32 :=
  let key := key seed
  (List.range ((count + 15) / 16)).flatMap (block key)

/-- Pairs of words, the low half first. -/
def pairs : List UInt32 → List UInt64
  | low :: high :: rest => (low.toUInt64 ||| (high.toUInt64 <<< 32)) :: pairs rest
  | _ => []

variable {R : Type} [Scalar R]

/-- The angle between minus and plus a half turn at which the upper 52 bits of a word point. The
largest word still stays below a half turn. -/
def angle (word : UInt64) : R :=
  let share : R := Scalar.ofNat (word >>> 12).toNat / Scalar.ofNat (Nat.pow 2 52)
  share * (Scalar.pi - -Scalar.pi) + -Scalar.pi

/-- The first angles of the stream of a seed. -/
def angles (seed : UInt64) (count : Nat) : List R :=
  ((pairs (words seed (2 * count))).take count).map angle

/-- The seed of a restart. Odd factors keep different layers, and different restarts, apart. -/
def restartSeed (seed : UInt64) (layers restart : Nat) : UInt64 :=
  seed ^^^ layers.toUInt64 * 0x9e3779b97f4a7c15 ^^^ (restart.toUInt64 + 1) * 0xc2b2ae3d27d4eb4f

end SeedStream
end QuditSynth
