namespace SpecRecovery.Random

-- Anything that hands out 32-bit numbers one after another.
class Supply (σ : Type) where
  next : σ → UInt32 × σ

structure Quad where
  a : UInt32
  b : UInt32
  c : UInt32
  d : UInt32
deriving Inhabited

namespace Quad

-- Shifts take their amount modulo 32, so that a rotation by none keeps the word.
def rotateWord (word amount : UInt32) : UInt32 := (word <<< amount) ||| (word >>> (32 - amount))

def add (left right : Quad) : Quad :=
  ⟨left.a + right.a, left.b + right.b, left.c + right.c, left.d + right.d⟩

def mix (left right : Quad) (amount : UInt32) : Quad :=
  ⟨rotateWord (left.a ^^^ right.a) amount, rotateWord (left.b ^^^ right.b) amount,
    rotateWord (left.c ^^^ right.c) amount, rotateWord (left.d ^^^ right.d) amount⟩

def turn : Quad → Quad
  | ⟨a, b, c, d⟩ => ⟨b, c, d, a⟩

def words (quad : Quad) : List UInt32 := [quad.a, quad.b, quad.c, quad.d]

end Quad

structure Block where
  first : Quad
  second : Quad
  third : Quad
  fourth : Quad
deriving Inhabited

namespace Block

def add (left right : Block) : Block :=
  ⟨left.first.add right.first, left.second.add right.second, left.third.add right.third,
    left.fourth.add right.fourth⟩

def halfRound (block : Block) (early late : UInt32) : Block :=
  let first := block.first.add block.second
  let fourth := block.fourth.mix first early
  let third := block.third.add fourth
  ⟨first, block.second.mix third late, third, fourth⟩

def columnRound (block : Block) : Block := (block.halfRound 16 12).halfRound 8 7

def skew (block : Block) : Block :=
  ⟨block.first, block.second.turn, block.third.turn.turn, block.fourth.turn.turn.turn⟩

def unskew (block : Block) : Block :=
  ⟨block.first, block.second.turn.turn.turn, block.third.turn.turn, block.fourth.turn⟩

def doubleRound (block : Block) : Block := block.columnRound.skew.columnRound.unskew

def words (block : Block) : List UInt32 :=
  block.first.words ++ (block.second.words ++ (block.third.words ++ block.fourth.words))

end Block

-- The ChaCha stream with twelve rounds: the words of block after block, under a key of eight words.
structure Stream where
  low : Quad
  high : Quad
  block : UInt64
  waiting : List UInt32
deriving Inhabited

namespace Stream

def constants : Quad := ⟨0x61707865, 0x3320646E, 0x79622D32, 0x6B206574⟩

def blockWords (stream : Stream) : List UInt32 :=
  let counter : Quad := ⟨stream.block.toUInt32, (stream.block >>> 32).toUInt32, 0, 0⟩
  let start : Block := ⟨constants, stream.low, stream.high, counter⟩
  let mixed :=
    start.doubleRound.doubleRound.doubleRound.doubleRound.doubleRound.doubleRound
  (mixed.add start).words

def next (stream : Stream) : UInt32 × Stream :=
  match stream.waiting with
  | word :: rest => (word, { stream with waiting := rest })
  | [] =>
      match stream.blockWords with
      | word :: rest => (word, { stream with block := stream.block + 1, waiting := rest })
      | [] => (0, { stream with block := stream.block + 1 })

instance : Supply Stream := ⟨next⟩

def advance (state : UInt64) : UInt64 := state * 6364136223846793005 + 11634580027462260723

-- A key word from a state of the congruence, whose high bits choose a rotation to the right.
def keyWord (state : UInt64) : UInt32 :=
  let folded := (((state >>> 18) ^^^ state) >>> 27).toUInt32
  let amount := (state >>> 59).toUInt32
  Quad.rotateWord folded (32 - amount)

def keyQuad (state : UInt64) : Quad × UInt64 :=
  let first := advance state
  let second := advance first
  let third := advance second
  let fourth := advance third
  (⟨keyWord first, keyWord second, keyWord third, keyWord fourth⟩, fourth)

def ofSeed (seed : UInt64) : Stream :=
  let (low, state) := keyQuad seed
  ⟨low, (keyQuad state).1, 0, []⟩

end Stream

end SpecRecovery.Random
