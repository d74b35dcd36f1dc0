namespace SpecRecovery.Keccak

structure Row where
  a : UInt64
  b : UInt64
  c : UInt64
  d : UInt64
  e : UInt64
deriving Inhabited

structure State where
  first : Row
  second : Row
  third : Row
  fourth : Row
  fifth : Row
deriving Inhabited

def rateBytes : Nat := 136

def roundConstants : List UInt64 :=
  [0x0000000000000001, 0x0000000000008082, 0x800000000000808A, 0x8000000080008000,
   0x000000000000808B, 0x0000000080000001, 0x8000000080008081, 0x8000000000008009,
   0x000000000000008A, 0x0000000000000088, 0x0000000080008009, 0x000000008000000A,
   0x000000008000808B, 0x800000000000008B, 0x8000000000008089, 0x8000000000008003,
   0x8000000000008002, 0x8000000000000080, 0x000000000000800A, 0x800000008000000A,
   0x8000000080008081, 0x8000000000008080, 0x0000000080000001, 0x8000000080008008]

-- Shifts take their amount modulo 64, so that a rotation by none keeps the lane.
def rotateLeft (lane amount : UInt64) : UInt64 := (lane <<< amount) ||| (lane >>> (64 - amount))

namespace Row

def zero : Row := ⟨0, 0, 0, 0, 0⟩

def add (left right : Row) : Row :=
  ⟨left.a ^^^ right.a, left.b ^^^ right.b, left.c ^^^ right.c, left.d ^^^ right.d,
    left.e ^^^ right.e⟩

def rotate (row amounts : Row) : Row :=
  ⟨rotateLeft row.a amounts.a, rotateLeft row.b amounts.b, rotateLeft row.c amounts.c,
    rotateLeft row.d amounts.d, rotateLeft row.e amounts.e⟩

def combine (row : Row) : Row :=
  ⟨row.a ^^^ (~~~row.b &&& row.c), row.b ^^^ (~~~row.c &&& row.d),
    row.c ^^^ (~~~row.d &&& row.e), row.d ^^^ (~~~row.e &&& row.a),
    row.e ^^^ (~~~row.a &&& row.b)⟩

end Row

namespace State

def zero : State := ⟨.zero, .zero, .zero, .zero, .zero⟩

def add (left right : State) : State :=
  ⟨left.first.add right.first, left.second.add right.second, left.third.add right.third,
    left.fourth.add right.fourth, left.fifth.add right.fifth⟩

def diffuse (state : State) : State :=
  let parity :=
    (((state.first.add state.second).add state.third).add state.fourth).add state.fifth
  let change : Row :=
    ⟨parity.e ^^^ rotateLeft parity.b 1, parity.a ^^^ rotateLeft parity.c 1,
      parity.b ^^^ rotateLeft parity.d 1, parity.c ^^^ rotateLeft parity.e 1,
      parity.d ^^^ rotateLeft parity.a 1⟩
  ⟨state.first.add change, state.second.add change, state.third.add change,
    state.fourth.add change, state.fifth.add change⟩

def rotate (state : State) : State :=
  ⟨state.first.rotate ⟨0, 1, 62, 28, 27⟩, state.second.rotate ⟨36, 44, 6, 55, 20⟩,
    state.third.rotate ⟨3, 10, 43, 25, 39⟩, state.fourth.rotate ⟨41, 45, 15, 21, 8⟩,
    state.fifth.rotate ⟨18, 2, 61, 56, 14⟩⟩

def disperse : State → State
  | ⟨p, q, r, s, t⟩ =>
      ⟨⟨p.a, q.b, r.c, s.d, t.e⟩, ⟨p.d, q.e, r.a, s.b, t.c⟩, ⟨p.b, q.c, r.d, s.e, t.a⟩,
        ⟨p.e, q.a, r.b, s.c, t.d⟩, ⟨p.c, q.d, r.e, s.a, t.b⟩⟩

def combine (state : State) : State :=
  ⟨state.first.combine, state.second.combine, state.third.combine, state.fourth.combine,
    state.fifth.combine⟩

def round (state : State) (constant : UInt64) : State :=
  let mixed := state.diffuse.rotate.disperse.combine
  { mixed with first := { mixed.first with a := mixed.first.a ^^^ constant } }

def permute (state : State) : State := roundConstants.foldl round state

end State

def laneOfBytes : List UInt8 → UInt64
  | [] => 0
  | byte :: rest => laneOfBytes rest <<< 8 ||| byte.toUInt64

def bytesOfLane (lane : UInt64) : List UInt8 :=
  [lane.toUInt8, (lane >>> 8).toUInt8, (lane >>> 16).toUInt8, (lane >>> 24).toUInt8,
    (lane >>> 32).toUInt8, (lane >>> 40).toUInt8, (lane >>> 48).toUInt8, (lane >>> 56).toUInt8]

def Row.ofBytes (bytes : List UInt8) : Row :=
  let second := bytes.drop 8
  let third := second.drop 8
  let fourth := third.drop 8
  ⟨laneOfBytes (bytes.take 8), laneOfBytes (second.take 8), laneOfBytes (third.take 8),
    laneOfBytes (fourth.take 8), laneOfBytes ((fourth.drop 8).take 8)⟩

def State.ofBlock (block : List UInt8) : State :=
  let second := block.drop 40
  let third := second.drop 40
  let fourth := third.drop 40
  ⟨.ofBytes block, .ofBytes second, .ofBytes third, .ofBytes fourth, .ofBytes (fourth.drop 40)⟩

-- Fills the last block with a one bit, zeros and a one bit.
def pad (bytes : List UInt8) : List UInt8 :=
  let missing := rateBytes - bytes.length % rateBytes
  if missing = 1 then bytes ++ [0x81]
  else bytes ++ (0x01 :: (List.replicate (missing - 2) 0 ++ [0x80]))

def absorb : (blocks : Nat) → State → List UInt8 → State
  | 0, state, _ => state
  | blocks + 1, state, bytes =>
      absorb blocks (state.add (.ofBlock (bytes.take rateBytes))).permute (bytes.drop rateBytes)

def hash (bytes : List UInt8) : List UInt8 :=
  let padded := pad bytes
  let state := absorb (padded.length / rateBytes) .zero padded
  [state.first.a, state.first.b, state.first.c, state.first.d].flatMap bytesOfLane

end SpecRecovery.Keccak
