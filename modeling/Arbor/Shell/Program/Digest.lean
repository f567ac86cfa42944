import Arbor.Shell.Program.Text
import Arbor.Text.Hex
import Arbor.Text.Utf8

/-! # Checksums and digests

A digest is a fold over blocks of a message that has been filled up: a bit, zeros, and the length.
Words of four bytes are added and turned modulo their size. -/

namespace Arbor.Shell.Program

namespace Digest

/-- Bytes filled up to whole blocks of 64 bytes: a one, zeros, and the length in bits in `tail`. -/
def padded (tail : Nat → List UInt8) (bytes : List UInt8) : List UInt8 :=
  let zeros := (119 - bytes.length % 64) % 64
  bytes ++ 0x80 :: List.replicate zeros 0 ++ tail (8 * bytes.length)

/-- The bytes of a number, the last one first. -/
def littleEndian : Nat → Nat → List UInt8
  | 0, _ => []
  | count + 1, n => UInt8.ofNat n :: littleEndian count (n / 256)

/-- The bytes of a number, the first one first. -/
def bigEndian (count n : Nat) : List UInt8 := (littleEndian count n).reverse

/-- Lists of at most `size` bytes each. -/
def blocks (size : Nat) : Nat → List UInt8 → List (List UInt8)
  | 0, _ => []
  | _, [] => []
  | fuel + 1, xs => xs.take size :: blocks size fuel (xs.drop size)

/-- The number of bytes, the first one first. -/
def number (bytes : List UInt8) : Nat := bytes.foldl (fun n b => n * 256 + b.toNat) 0

/-- The words of a block. -/
def words (order : List UInt8 → List UInt8) (block : List UInt8) : Array UInt32 :=
  ((blocks 4 (block.length + 1) block).map fun w => UInt32.ofNat (number (order w))).toArray

/-- A word of a list of words. -/
def cell (ws : Array UInt32) (i : Nat) : UInt32 := (ws[i]?).getD 0

/-- Turns a word to the left. -/
def rotl (x : UInt32) (n : UInt32) : UInt32 := (x <<< n) ||| (x >>> (32 - n))

/-- Turns a word to the right. -/
def rotr (x : UInt32) (n : UInt32) : UInt32 := (x >>> n) ||| (x <<< (32 - n))

/-- The text of words. -/
def text (order : List UInt8 → List UInt8) (ws : List UInt32) : String :=
  String.ofList (ws.flatMap fun w =>
    (order (bigEndian 4 w.toNat)).flatMap fun b => Text.hexDigits 2 b.toNat)

/-! ### Four words -/

/-- How far each round of a group of sixteen turns. -/
def turns : List (List UInt32) :=
  [[7, 12, 17, 22], [5, 9, 14, 20], [4, 11, 16, 23], [6, 10, 15, 21]]

/-- The constant of a round: the whole part of 2³² times the size of a sine. -/
def sines : Array UInt32 :=
  ((List.range 64).map fun i =>
    ((Float.ofNat (i + 1)).sin.abs * 4294967296.0).floor.toUInt32).toArray

/-- One round over four words. -/
def round4 (ws : Array UInt32) (s : UInt32 × UInt32 × UInt32 × UInt32) (i : Nat) :
    UInt32 × UInt32 × UInt32 × UInt32 :=
  let (a, b, c, d) := s
  let (f, g) := match i / 16 with
    | 0 => ((b &&& c) ||| (~~~b &&& d), i)
    | 1 => ((d &&& b) ||| (~~~d &&& c), (5 * i + 1) % 16)
    | 2 => (b ^^^ c ^^^ d, (3 * i + 5) % 16)
    | _ => (c ^^^ (b ||| ~~~d), (7 * i) % 16)
  let n := ((turns[i / 16]?).bind fun t => t[i % 4]?).getD 0
  (d, b + rotl (a + f + cell sines i + cell ws g) n, b, c)

/-- The digest of four words. -/
def md5 (bytes : List UInt8) : String :=
  let message := padded (littleEndian 8) bytes
  let start : UInt32 × UInt32 × UInt32 × UInt32 := (0x67452301, 0xefcdab89, 0x98badcfe, 0x10325476)
  let (a, b, c, d) := (blocks 64 (message.length + 1) message).foldl (fun s block =>
    let r := (List.range 64).foldl (round4 (words List.reverse block)) s
    (s.1 + r.1, s.2.1 + r.2.1, s.2.2.1 + r.2.2.1, s.2.2.2 + r.2.2.2)) start
  text List.reverse [a, b, c, d]

/-! ### Five and eight words -/

/-- More words behind those of a block, each made from those before. -/
def extended (next : Array UInt32 → Nat → UInt32) (count : Nat) (ws : Array UInt32) :
    Array UInt32 :=
  (List.range' 16 (count - 16)).foldl (fun ws i => ws.push (next ws i)) ws

/-- One round over five words. -/
def round5 (ws : Array UInt32) (s : UInt32 × UInt32 × UInt32 × UInt32 × UInt32) (i : Nat) :
    UInt32 × UInt32 × UInt32 × UInt32 × UInt32 :=
  let (a, b, c, d, e) := s
  let (f, k) : UInt32 × UInt32 := match i / 20 with
    | 0 => ((b &&& c) ||| (~~~b &&& d), 0x5a827999)
    | 1 => (b ^^^ c ^^^ d, 0x6ed9eba1)
    | 2 => ((b &&& c) ||| (b &&& d) ||| (c &&& d), 0x8f1bbcdc)
    | _ => (b ^^^ c ^^^ d, 0xca62c1d6)
  (rotl a 5 + f + e + k + cell ws i, a, rotl b 30, c, d)

/-- The digest of five words. -/
def sha1 (bytes : List UInt8) : String :=
  let message := padded (bigEndian 8) bytes
  let next := fun (ws : Array UInt32) (i : Nat) =>
    rotl (cell ws (i - 3) ^^^ cell ws (i - 8) ^^^ cell ws (i - 14) ^^^ cell ws (i - 16)) 1
  let start : UInt32 × UInt32 × UInt32 × UInt32 × UInt32 :=
    (0x67452301, 0xefcdab89, 0x98badcfe, 0x10325476, 0xc3d2e1f0)
  let (a, b, c, d, e) := (blocks 64 (message.length + 1) message).foldl (fun s block =>
    let r := (List.range 80).foldl (round5 (extended next 80 (words id block))) s
    (s.1 + r.1, s.2.1 + r.2.1, s.2.2.1 + r.2.2.1, s.2.2.2.1 + r.2.2.2.1,
      s.2.2.2.2 + r.2.2.2.2)) start
  text id [a, b, c, d, e]

/-- The first primes. -/
def primes (count : Nat) : List Nat :=
  ((List.range 320).filter fun n => 2 ≤ n && (List.range n).all fun d =>
    d < 2 || n % d ≠ 0).take count

/-- The greatest number whose power is at most `n`, between `low` and `high`. -/
def root (power n : Nat) : Nat → Nat → Nat → Nat
  | 0, low, _ => low
  | fuel + 1, low, high =>
    if high ≤ low + 1 then low
    else
      let middle := (low + high) / 2
      if Nat.pow middle power ≤ n then root power n fuel middle high
        else root power n fuel low middle

/-- The first 32 bits of the fraction of a root of a prime. -/
def fraction (power prime : Nat) : UInt32 :=
  UInt32.ofNat (root power (prime * Nat.pow 2 (32 * power)) 64 0 (Nat.pow 2 40))

/-- The constants of the rounds over eight words. -/
def cubes : Array UInt32 := ((primes 64).map (fraction 3)).toArray

/-- One round over eight words. -/
def round8 (ws : Array UInt32) (s : Array UInt32) (i : Nat) : Array UInt32 :=
  let a := cell s 0
  let b := cell s 1
  let c := cell s 2
  let e := cell s 4
  let choice := (e &&& cell s 5) ^^^ (~~~e &&& cell s 6)
  let major := (a &&& b) ^^^ (a &&& c) ^^^ (b &&& c)
  let t := cell s 7 + (rotr e 6 ^^^ rotr e 11 ^^^ rotr e 25) + choice + cell cubes i + cell ws i
  let u := (rotr a 2 ^^^ rotr a 13 ^^^ rotr a 22) + major
  #[t + u, a, b, c, cell s 3 + t, e, cell s 5, cell s 6]

/-- The digest of eight words. -/
def sha256 (bytes : List UInt8) : String :=
  let message := padded (bigEndian 8) bytes
  let next := fun (ws : Array UInt32) (i : Nat) =>
    let x := cell ws (i - 15)
    let y := cell ws (i - 2)
    cell ws (i - 16) + (rotr x 7 ^^^ rotr x 18 ^^^ (x >>> 3)) + cell ws (i - 7) +
      (rotr y 17 ^^^ rotr y 19 ^^^ (y >>> 10))
  let start := ((primes 8).map (fraction 2)).toArray
  let final := (blocks 64 (message.length + 1) message).foldl (fun s block =>
    let r := (List.range 64).foldl (round8 (extended next 64 (words id block))) s
    ((List.range 8).map fun i => cell s i + cell r i).toArray) start
  text id final.toList

/-! ### Checksums -/

/-- One byte into a remainder of polynomials. -/
def crcByte (crc : UInt32) (b : UInt8) : UInt32 :=
  (List.range 8).foldl (fun crc _ =>
    if crc >>> 31 = 1 then (crc <<< 1) ^^^ 0x04c11db7 else crc <<< 1)
    (crc ^^^ (UInt32.ofNat b.toNat <<< 24))

/-- The bytes of a length, the last one first, without zeros behind. -/
def lengthBytes : Nat → Nat → List UInt8
  | 0, _ => []
  | fuel + 1, n => if n = 0 then [] else UInt8.ofNat n :: lengthBytes fuel (n / 256)

/-- The remainder of a message and its length. -/
def crc (bytes : List UInt8) : Nat :=
  (~~~((bytes ++ lengthBytes 16 bytes.length).foldl crcByte 0)).toNat

/-- The sum of bytes that is turned by a bit before each. -/
def turnedSum (bytes : List UInt8) : Nat :=
  bytes.foldl (fun n b => (n / 2 + n % 2 * 0x8000 + b.toNat) % 0x10000) 0

end Digest

/-- The options of a program for digests. -/
def digestUsage (program : String) : Usage where
  program := program
  code := 1
  letters := "bctw"
  names := [("binary", 'b'), ("check", 'c'), ("tag", 'T'), ("text", 't'), ("quiet", 'Q'),
    ("status", 'S'), ("strict", 'X'), ("warn", 'w')]

/-- Writes the digests of files. -/
def digests (program tag : String) (digest : List UInt8 → String) : Program :=
  (digestUsage program).checked fun a => do
    for name in sources a.words do
      match ← source name with
      | .ok s => do
        let sum := digest (← whole s)
        Sh.say (if a.has 'T' then tag ++ " (" ++ name ++ ") = " ++ sum ++ "\n"
          else sum ++ (if a.has 'b' then " *" else "  ") ++ name ++ "\n")
      | .error e => fail 1 (program ++ ": " ++ Names.shown name ++ ": " ++ e.reason)

/-- Tells whether files have the digests that a list says. -/
def checkDigests (program : String) (digest : List UInt8 → String) (a : Arguments) : Sh Unit := do
  let lines := Stream.lines (← inputOf program 1 a.words)
  let mut failed := 0
  for line in lines do
    let cs := octets line
    let sum := cs.takeWhile (· != ' ')
    let name := String.ofList (Text.decode (ofOctets (cs.drop (sum.length + 2))))
    match ← source name with
    | .ok s => do
      let good := digest (← whole s) = String.ofList sum
      if !good then failed := failed + 1
      Sh.say (name ++ (if good then ": OK\n" else ": FAILED\n"))
    | .error e => do
      fail 1 (program ++ ": " ++ Names.shown name ++ ": " ++ e.reason)
      Sh.say (name ++ ": FAILED open or read\n")
  if failed ≠ 0 then
    fail 1 (program ++ ": WARNING: " ++ Nat.repr failed ++
      (if failed = 1 then " computed checksum did NOT match"
        else " computed checksums did NOT match"))

/-- Writes the digests of files, or checks them. -/
def digestProgram (program tag : String) (digest : List UInt8 → String) : Program := fun args =>
  match (digestUsage program).read args with
  | .ok a =>
    if a.has 'c' then (digestUsage program).checked (checkDigests program digest) args
    else digests program tag digest args
  | .error _ => digests program tag digest args

/-- Writes a checksum and a size for each file. -/
def checksums (program : String) (line : List UInt8 → String) : Program :=
  ({ optionless program with letters := "rs" } : Usage).checked fun a => do
    for name in sources a.words do
      match ← source name with
      | .ok s => do
        Sh.say (line (← whole s) ++ (if a.words.isEmpty then "" else " " ++ name) ++ "\n")
      | .error e => fail 1 (program ++ ": " ++ Names.shown name ++ ": " ++ e.reason)

/-- Remainders of polynomials. -/
def cksum : Program :=
  checksums "cksum" fun bytes => Nat.repr (Digest.crc bytes) ++ " " ++ Nat.repr bytes.length

/-- Sums of bytes, with the number of blocks of 1024. -/
def sum : Program :=
  checksums "sum" fun bytes =>
    let digits := Nat.repr (Digest.turnedSum bytes)
    String.ofList (List.replicate (5 - digits.length) '0') ++ digits ++ " " ++
      rightAligned 5 ((bytes.length + 1023) / 1024)

end Arbor.Shell.Program
