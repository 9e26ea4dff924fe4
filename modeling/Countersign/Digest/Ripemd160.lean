import Countersign.Bytes.Basic

/-!
# `Countersign.Digest.Ripemd160`: the RIPEMD-160 digest

Two lines of eighty steps each run over every block of sixteen words; their results are added
crosswise into a chain of five words. Words, and the length at the end, are little-endian.
-/

set_option autoImplicit false

namespace Countersign.Ripemd160

/-- The five chaining words. -/
structure Chain where
  a : UInt32
  b : UInt32
  c : UInt32
  d : UInt32
  e : UInt32

/-- The chain before the first block. -/
def Chain.initial : Chain :=
  ⟨0x67452301, 0xefcdab89, 0x98badcfe, 0x10325476, 0xc3d2e1f0⟩

/-- Rotation to the left, for a distance between 1 and 31. -/
def rotl (x n : UInt32) : UInt32 :=
  (x <<< n) ||| (x >>> (32 - n))

/-- One step of a line: the word it reads and the distance it rotates by. -/
structure Step where
  word : Nat
  shift : UInt32

/-- The mixing function and the constant of sixteen consecutive steps. -/
structure Round where
  mix : UInt32 → UInt32 → UInt32 → UInt32
  constant : UInt32
  steps : List Step

/-- The five mixing functions, in the order in which the left line uses them. -/
def mixParity (x y z : UInt32) : UInt32 := x ^^^ y ^^^ z

/-- Chooses between `y` and `z` by the bits of `x`. -/
def mixChoose (x y z : UInt32) : UInt32 := (x &&& y) ||| ((~~~ x) &&& z)

/-- The third mixing function. -/
def mixOrNot (x y z : UInt32) : UInt32 := (x ||| (~~~ y)) ^^^ z

/-- Chooses between `x` and `y` by the bits of `z`. -/
def mixChooseLast (x y z : UInt32) : UInt32 := (x &&& z) ||| (y &&& (~~~ z))

/-- The fifth mixing function. -/
def mixNotOr (x y z : UInt32) : UInt32 := x ^^^ (y ||| (~~~ z))

/-- Pairs word numbers with distances. -/
def steps (ws : List Nat) (shifts : List UInt32) : List Step :=
  List.zipWith Step.mk ws shifts

/-- The rounds of the left line. -/
def leftLine : List Round :=
  [⟨mixParity, 0x00000000, steps [0, 1, 2, 3, 4, 5, 6, 7, 8, 9, 10, 11, 12, 13, 14, 15]
      [11, 14, 15, 12, 5, 8, 7, 9, 11, 13, 14, 15, 6, 7, 9, 8]⟩,
   ⟨mixChoose, 0x5a827999, steps [7, 4, 13, 1, 10, 6, 15, 3, 12, 0, 9, 5, 2, 14, 11, 8]
      [7, 6, 8, 13, 11, 9, 7, 15, 7, 12, 15, 9, 11, 7, 13, 12]⟩,
   ⟨mixOrNot, 0x6ed9eba1, steps [3, 10, 14, 4, 9, 15, 8, 1, 2, 7, 0, 6, 13, 11, 5, 12]
      [11, 13, 6, 7, 14, 9, 13, 15, 14, 8, 13, 6, 5, 12, 7, 5]⟩,
   ⟨mixChooseLast, 0x8f1bbcdc, steps [1, 9, 11, 10, 0, 8, 12, 4, 13, 3, 7, 15, 14, 5, 6, 2]
      [11, 12, 14, 15, 14, 15, 9, 8, 9, 14, 5, 6, 8, 6, 5, 12]⟩,
   ⟨mixNotOr, 0xa953fd4e, steps [4, 0, 5, 9, 7, 12, 2, 10, 14, 1, 3, 8, 11, 6, 15, 13]
      [9, 15, 5, 11, 6, 8, 13, 12, 5, 12, 13, 14, 11, 8, 5, 6]⟩]

/-- The rounds of the right line, which uses the mixing functions in the opposite order. -/
def rightLine : List Round :=
  [⟨mixNotOr, 0x50a28be6, steps [5, 14, 7, 0, 9, 2, 11, 4, 13, 6, 15, 8, 1, 10, 3, 12]
      [8, 9, 9, 11, 13, 15, 15, 5, 7, 7, 8, 11, 14, 14, 12, 6]⟩,
   ⟨mixChooseLast, 0x5c4dd124, steps [6, 11, 3, 7, 0, 13, 5, 10, 14, 15, 8, 12, 4, 9, 1, 2]
      [9, 13, 15, 7, 12, 8, 9, 11, 7, 7, 12, 7, 6, 15, 13, 11]⟩,
   ⟨mixOrNot, 0x6d703ef3, steps [15, 5, 1, 3, 7, 14, 6, 9, 11, 8, 12, 2, 10, 0, 4, 13]
      [9, 7, 15, 11, 8, 6, 6, 14, 12, 13, 5, 14, 13, 13, 7, 5]⟩,
   ⟨mixChoose, 0x7a6d76e9, steps [8, 6, 4, 1, 3, 11, 15, 0, 5, 12, 2, 13, 9, 7, 10, 14]
      [15, 5, 8, 11, 14, 14, 6, 14, 6, 9, 12, 9, 12, 5, 15, 8]⟩,
   ⟨mixParity, 0x00000000, steps [12, 15, 10, 4, 1, 5, 8, 7, 6, 2, 13, 14, 0, 3, 9, 11]
      [8, 5, 12, 9, 12, 5, 14, 6, 8, 13, 6, 5, 15, 13, 11, 11]⟩]

/-- One step of a line. -/
def Chain.step (words : List UInt32) (round : Round) (s : Chain) (st : Step) : Chain :=
  let t := rotl (s.a + round.mix s.b s.c s.d + words.getD st.word 0 + round.constant) st.shift + s.e
  ⟨s.e, t, s.b, rotl s.c 10, s.d⟩

/-- Runs a whole line. -/
def Chain.run (words : List UInt32) (line : List Round) (s : Chain) : Chain :=
  line.foldl (fun s round => round.steps.foldl (Chain.step words round) s) s

/-- Little-endian words; a rest shorter than a word is dropped. -/
def words : Bytes → List UInt32
  | a :: b :: c :: d :: rest =>
    (a.toUInt32 ||| (b.toUInt32 <<< 8) ||| (c.toUInt32 <<< 16) ||| (d.toUInt32 <<< 24)) :: words rest
  | _ => []

/-- Mixes one block into the chain. -/
def Chain.absorb (s : Chain) (block : Bytes) : Chain :=
  let ws := words block
  let l := s.run ws leftLine
  let r := s.run ws rightLine
  ⟨s.b + l.c + r.d, s.c + l.d + r.e, s.d + l.e + r.a, s.e + l.a + r.b, s.a + l.b + r.c⟩

/-- Mixes the first `n` blocks of sixty-four bytes into the chain. -/
def Chain.absorbBlocks : (n : Nat) → Bytes → Chain → Chain
  | 0, _, s => s
  | n + 1, data, s => absorbBlocks n (data.drop 64) (s.absorb (data.take 64))

/-- The chaining words in order, each with its least significant byte first. -/
def Chain.toBytes (s : Chain) : Bytes :=
  [s.a, s.b, s.c, s.d, s.e].flatMap fun w => Bytes.ofNatLE 4 w.toNat

/-- The message, a closing bit, zeros, and the message's length in bits. -/
def pad (message : Bytes) : Bytes :=
  message ++ (0x80 :: (List.replicate ((119 - message.length % 64) % 64) 0
    ++ Bytes.ofNatLE 8 (8 * message.length)))

/-- The 20-byte digest of a message. -/
def digest (message : Bytes) : Bytes :=
  let padded := pad message
  (Chain.initial.absorbBlocks (padded.length / 64) padded).toBytes

/-- Padding fills whole blocks, so no byte of the message is left out. -/
theorem length_pad_mod (message : Bytes) : (pad message).length % 64 = 0 := by
  simp only [pad, List.length_append, List.length_cons, List.length_replicate,
    Bytes.length_ofNatLE]
  omega

/-- A digest has five words of four bytes. -/
@[simp] theorem length_digest (message : Bytes) : (digest message).length = 20 := by
  simp [digest, Chain.toBytes]

end Countersign.Ripemd160
