import Reckoner.Text.Quoted

/-!
# The MD5 digest

`md5` is the message digest of a text's UTF-8 bytes: the message is padded to whole blocks of 64
bytes, and each block stirs a state of four 32 bit words in 64 steps.  The digest is written in
hexadecimal digits.
-/

set_option autoImplicit false

namespace Reckoner.Text

namespace Digest

/-- The state: four words. -/
structure State where
  a : UInt32
  b : UInt32
  c : UInt32
  d : UInt32
  deriving DecidableEq, Repr

/-- The state before the first block. -/
def State.start : State := ⟨0x67452301, 0xefcdab89, 0x98badcfe, 0x10325476⟩

/-- The additive constant of each step: the leading 32 bits of the fraction of `|sin (i + 1)|`. -/
def constants : Array UInt32 := #[
  0xd76aa478, 0xe8c7b756, 0x242070db, 0xc1bdceee, 0xf57c0faf, 0x4787c62a, 0xa8304613, 0xfd469501,
  0x698098d8, 0x8b44f7af, 0xffff5bb1, 0x895cd7be, 0x6b901122, 0xfd987193, 0xa679438e, 0x49b40821,
  0xf61e2562, 0xc040b340, 0x265e5a51, 0xe9b6c7aa, 0xd62f105d, 0x02441453, 0xd8a1e681, 0xe7d3fbc8,
  0x21e1cde6, 0xc33707d6, 0xf4d50d87, 0x455a14ed, 0xa9e3e905, 0xfcefa3f8, 0x676f02d9, 0x8d2a4c8a,
  0xfffa3942, 0x8771f681, 0x6d9d6122, 0xfde5380c, 0xa4beea44, 0x4bdecfa9, 0xf6bb4b60, 0xbebfbc70,
  0x289b7ec6, 0xeaa127fa, 0xd4ef3085, 0x04881d05, 0xd9d4d039, 0xe6db99e5, 0x1fa27cf8, 0xc4ac5665,
  0xf4292244, 0x432aff97, 0xab9423a7, 0xfc93a039, 0x655b59c3, 0x8f0ccc92, 0xffeff47d, 0x85845dd1,
  0x6fa87e4f, 0xfe2ce6e0, 0xa3014314, 0x4e0811a1, 0xf7537e82, 0xbd3af235, 0x2ad7d2bb, 0xeb86d391]

/-- The rotations of a round of sixteen steps repeat after four. -/
def rotations : Array (Array UInt32) :=
  #[#[7, 12, 17, 22], #[5, 9, 14, 20], #[4, 11, 16, 23], #[6, 10, 15, 21]]

/-- Rotation to the left. -/
def rotate (x by_ : UInt32) : UInt32 := (x <<< by_) ||| (x >>> (32 - by_))

/-- The word function of step `i`, and the index of the message word it takes. -/
def mix (s : State) (i : Nat) : UInt32 × Nat :=
  match i / 16 with
  | 0 => ((s.b &&& s.c) ||| (~~~s.b &&& s.d), i)
  | 1 => ((s.d &&& s.b) ||| (~~~s.d &&& s.c), (5 * i + 1) % 16)
  | 2 => (s.b ^^^ s.c ^^^ s.d, (3 * i + 5) % 16)
  | _ => (s.c ^^^ (s.b ||| ~~~s.d), (7 * i) % 16)

/-- Step `i` with the words of a block. -/
def step (words : Array UInt32) (s : State) (i : Nat) : State :=
  let (f, k) := mix s i
  let sum := s.a + f + constants.getD i 0 + words.getD k 0
  ⟨s.d, s.b + rotate sum ((rotations.getD (i / 16) #[]).getD (i % 4) 0), s.b, s.c⟩

/-- A number of which byte `i` is the `i`-th byte of the list, lowest first. -/
def littleEndian (bytes : List UInt8) : Nat := bytes.foldr (fun b n => b.toNat + 256 * n) 0

/-- The lowest `count` bytes of a number, lowest first. -/
def bytesOf : Nat → Nat → List UInt8
  | 0, _ => []
  | count + 1, n => UInt8.ofNat (n % 256) :: bytesOf count (n / 256)

/-- The words of a block. -/
def blockWords (block : List UInt8) : Array UInt32 :=
  ((List.range 16).map fun i =>
    UInt32.ofNat (littleEndian ((block.drop (4 * i)).take 4))).toArray

/-- Stirs one block into the state. -/
def absorb (s : State) (block : List UInt8) : State :=
  let t := (List.range 64).foldl (step (blockWords block)) s
  ⟨s.a + t.a, s.b + t.b, s.c + t.c, s.d + t.d⟩

/-- The message with a mark, zeros up to eight bytes short of a whole block, and its length in
bits. -/
def pad (message : List UInt8) : List UInt8 :=
  let marked := message ++ [0x80]
  marked ++ List.replicate ((120 - marked.length % 64) % 64) 0 ++
    bytesOf 8 (8 * message.length)

/-- Stirs all blocks of a padded message in. -/
def absorbAll (s : State) (message : List UInt8) : State :=
  (List.range (message.length / 64)).foldl
    (fun s i => absorb s ((message.drop (64 * i)).take 64)) s

end Digest

open Digest in
/-- The digest of a text, as 32 hexadecimal digits. -/
def md5 (s : String) : String :=
  let state := absorbAll State.start (pad s.toUTF8.toList)
  let bytes := [state.a, state.b, state.c, state.d].flatMap fun w => bytesOf 4 w.toNat
  String.ofList (bytes.flatMap fun b => hexDigits 2 b.toNat)

end Reckoner.Text
