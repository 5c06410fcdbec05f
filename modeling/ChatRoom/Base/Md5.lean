import ChatRoom.Base.Bytes
import ChatRoom.Lib.Blocks

/-!
# `MD5`

The class keeps a count of bits, a buffer for the unfinished block and the
state.  `digest` pads the input in the object itself and puts the state and the
count back, but not the buffer.
-/

namespace ChatRoom

/-- `_state`. -/
structure MD5State where
  a : UInt32
  b : UInt32
  c : UInt32
  d : UInt32
  deriving DecidableEq

/-- `_count` has its low-order word first. -/
structure MD5 where
  state : MD5State
  low : UInt32
  high : UInt32
  buffer : Str
  finished : Bool
  digestBytes : Str
  deriving DecidableEq

namespace MD5

/-! ## `transform` -/

def fF (x y z : UInt32) : UInt32 := (x &&& y) ||| (~~~x &&& z)

def fG (x y z : UInt32) : UInt32 := (x &&& z) ||| (y &&& ~~~z)

def fH (x y z : UInt32) : UInt32 := x ^^^ y ^^^ z

def fI (x y z : UInt32) : UInt32 := y ^^^ (x ||| ~~~z)

def rotateLeft (x n : UInt32) : UInt32 := (x <<< n) ||| (x >>> (32 - n))

/-- A call of `FF`, `GG`, `HH` or `II`: the word of the block, the shift and
the constant. -/
structure Operation where
  x : ℕ
  s : UInt32
  ac : UInt32

/-- The calls of a round take turns with the four shifts. -/
def operations (shifts : List UInt32) (words : List (ℕ × UInt32)) :
    List Operation :=
  words.zipIdx.map fun ((x, ac), turn) => ⟨x, shifts.getD (turn % 4) 0, ac⟩

def round1 : List Operation :=
  operations [7, 12, 17, 22]
    [(0, 0xd76aa478), (1, 0xe8c7b756), (2, 0x242070db), (3, 0xc1bdceee),
      (4, 0xf57c0faf), (5, 0x4787c62a), (6, 0xa8304613), (7, 0xfd469501),
      (8, 0x698098d8), (9, 0x8b44f7af), (10, 0xffff5bb1), (11, 0x895cd7be),
      (12, 0x6b901122), (13, 0xfd987193), (14, 0xa679438e), (15, 0x49b40821)]

def round2 : List Operation :=
  operations [5, 9, 14, 20]
    [(1, 0xf61e2562), (6, 0xc040b340), (11, 0x265e5a51), (0, 0xe9b6c7aa),
      (5, 0xd62f105d), (10, 0x2441453), (15, 0xd8a1e681), (4, 0xe7d3fbc8),
      (9, 0x21e1cde6), (14, 0xc33707d6), (3, 0xf4d50d87), (8, 0x455a14ed),
      (13, 0xa9e3e905), (2, 0xfcefa3f8), (7, 0x676f02d9), (12, 0x8d2a4c8a)]

def round3 : List Operation :=
  operations [4, 11, 16, 23]
    [(5, 0xfffa3942), (8, 0x8771f681), (11, 0x6d9d6122), (14, 0xfde5380c),
      (1, 0xa4beea44), (4, 0x4bdecfa9), (7, 0xf6bb4b60), (10, 0xbebfbc70),
      (13, 0x289b7ec6), (0, 0xeaa127fa), (3, 0xd4ef3085), (6, 0x4881d05),
      (9, 0xd9d4d039), (12, 0xe6db99e5), (15, 0x1fa27cf8), (2, 0xc4ac5665)]

def round4 : List Operation :=
  operations [6, 10, 15, 21]
    [(0, 0xf4292244), (7, 0x432aff97), (14, 0xab9423a7), (5, 0xfc93a039),
      (12, 0x655b59c3), (3, 0x8f0ccc92), (10, 0xffeff47d), (1, 0x85845dd1),
      (8, 0x6fa87e4f), (15, 0xfe2ce6e0), (6, 0xa3014314), (13, 0x4e0811a1),
      (4, 0xf7537e82), (11, 0xbd3af235), (2, 0x2ad7d2bb), (9, 0xeb86d391)]

/-- One call; the variables then change their places, `d` becoming the first
argument of the next call. -/
def apply (f : UInt32 → UInt32 → UInt32 → UInt32) (x : List UInt32)
    (vars : MD5State) (operation : Operation) : MD5State :=
  let a := vars.a + (f vars.b vars.c vars.d + x.getD operation.x 0 + operation.ac)
  ⟨vars.d, rotateLeft a operation.s + vars.b, vars.b, vars.c⟩

/-- `decode`: words with their low-order byte first. -/
def decode : Str → List UInt32
  | byte0 :: byte1 :: byte2 :: byte3 :: rest =>
      (byte0.toUInt32 ||| (byte1.toUInt32 <<< 8) ||| (byte2.toUInt32 <<< 16) |||
        (byte3.toUInt32 <<< 24)) :: decode rest
  | _ => []

/-- `encode`. -/
def encode (words : List UInt32) : Str :=
  words.flatMap fun (word : UInt32) =>
    [(word &&& 0xff).toUInt8, ((word >>> 8) &&& 0xff).toUInt8,
      ((word >>> 16) &&& 0xff).toUInt8, ((word >>> 24) &&& 0xff).toUInt8]

def transform (state : MD5State) (block : Str) : MD5State :=
  let x := decode block
  let vars := round1.foldl (apply fF x) state
  let vars := round2.foldl (apply fG x) vars
  let vars := round3.foldl (apply fH x) vars
  let vars := round4.foldl (apply fI x) vars
  ⟨state.a + vars.a, state.b + vars.b, state.c + vars.c, state.d + vars.d⟩

/-! ## The object -/

def initial : MD5State := ⟨0x67452301, 0xefcdab89, 0x98badcfe, 0x10325476⟩

/-- `reset`; the buffer and the digest of a new object hold anything. -/
def reset (m : MD5) : MD5 :=
  { m with state := initial, low := 0, high := 0, finished := false }

/-- `memcpy` into the buffer. -/
def overwrite (buffer : Str) (index : ℕ) (bytes : Str) : Str :=
  buffer.take index ++ bytes ++ buffer.drop (index + bytes.length)

/-- The number of bytes in the buffer. -/
def index (m : MD5) : ℕ := ((m.low >>> 3) &&& 0x3f).toNat

/-- The number of bits, with the carry from one word to the other. -/
def count (m : MD5) (length : ℕ) : UInt32 × UInt32 :=
  let bits := UInt32.ofNat length <<< 3
  let low := m.low + bits
  let high := if low < bits then m.high + 1 else m.high
  (low, high + (UInt32.ofNat length >>> 29))

/-- `update`, for inputs on whose length its `uint32_t` index does not
overflow. -/
def update (m : MD5) (input : Str) : MD5 :=
  let index := m.index
  let (low, high) := m.count input.length
  let partLen := 64 - index
  if input.length ≥ partLen then
    let buffer := overwrite m.buffer index (input.take partLen)
    let state := transform m.state buffer
    match Lib.Incremental.read (Lib.Blocks.move 64 transform) state
        (input.drop partLen) with
    | .wait state rest =>
        { m with
          state := state
          low := low
          high := high
          buffer := overwrite buffer 0 rest
          finished := false }
    | .out result _ _ => nomatch result
    | .fail error => nomatch error
  else
    { m with
      low := low
      high := high
      buffer := overwrite m.buffer index input
      finished := false }

/-- `PADDING`. -/
def padding : Str := 0x80 :: List.replicate 63 0

def final (m : MD5) : MD5 :=
  let bits := encode [m.low, m.high]
  let padLen := if m.index < 56 then 56 - m.index else 120 - m.index
  let padded := (m.update (padding.take padLen)).update bits
  { padded with
    digestBytes := encode [padded.state.a, padded.state.b, padded.state.c,
      padded.state.d]
    state := m.state
    low := m.low
    high := m.high }

/-- `digest`: the object, and what it returns. -/
def digest (m : MD5) : MD5 × Str :=
  let m := if m.finished then m else { m with finished := true }.final
  (m, m.digestBytes)

/-- `HEX`. -/
def hex : Str := ascii "0123456789abcdef"

def bytesToHexString (input : Str) : Str :=
  input.flatMap fun byte =>
    [hex.getD (byte.toNat / 16) 0, hex.getD (byte.toNat % 16) 0]

def toString (m : MD5) : MD5 × Str :=
  let (m, bytes) := m.digest
  (m, bytesToHexString bytes)

/-- A new object, in memory that held `buffer` and `digestBytes`. -/
def create (buffer digestBytes : Str) : MD5 :=
  reset ⟨initial, 0, 0, buffer, false, digestBytes⟩

end MD5

end ChatRoom
