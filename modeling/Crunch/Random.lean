/-!
# Crunch.Random

The generator behind `random`: a stream cipher of twelve rounds run as a counter, keyed from a
64-bit seed.

* `Random.ofSeed`: the generator of a seed.
* `Random.word64`: the next 64 bits, low word first.
* `Random.unit`: a double in `[0, 1)` from the upper 53 bits.
* `Random.below`: an unbiased natural below a bound; draws whose product with the bound falls in
  the incomplete last stretch are thrown away.
-/

namespace Crunch

/-- Key, number of the next block, and the words of the current block not yet given out. -/
structure Random where
  key : List UInt32
  counter : UInt64
  pending : List UInt32
deriving Repr

namespace Random

/-- Rotation to the left. -/
def rotateLeft (x : UInt32) (n : UInt32) : UInt32 := x <<< n ||| x >>> (32 - n)

/-- Four words mixed by addition, exclusive or and rotation. -/
def quarter (w : Array UInt32) (a b c d : Nat) : Array UInt32 :=
  let x := w.getD a 0
  let y := w.getD b 0
  let z := w.getD c 0
  let t := w.getD d 0
  let x := x + y
  let t := rotateLeft (t ^^^ x) 16
  let z := z + t
  let y := rotateLeft (y ^^^ z) 12
  let x := x + y
  let t := rotateLeft (t ^^^ x) 8
  let z := z + t
  let y := rotateLeft (y ^^^ z) 7
  (((w.setIfInBounds a x).setIfInBounds b y).setIfInBounds c z).setIfInBounds d t

/-- A column round and a diagonal round. -/
def doubleRound (w : Array UInt32) : Array UInt32 :=
  let w := quarter w 0 4 8 12
  let w := quarter w 1 5 9 13
  let w := quarter w 2 6 10 14
  let w := quarter w 3 7 11 15
  let w := quarter w 0 5 10 15
  let w := quarter w 1 6 11 12
  let w := quarter w 2 7 8 13
  quarter w 3 4 9 14

/-- Six double rounds. -/
def rounds (w : Array UInt32) : Array UInt32 := (List.range 6).foldl (fun w _ => doubleRound w) w

/-- The four fixed words of every block. -/
def constants : List UInt32 := [0x61707865, 0x3320646e, 0x79622d32, 0x6b206574]

/-- The sixteen words of block `counter`. -/
def block (key : List UInt32) (counter : UInt64) : List UInt32 :=
  let start := (constants ++ key ++ [counter.toUInt32, (counter >>> 32).toUInt32, 0, 0]).toArray
  (Array.zipWith (· + ·) start (rounds start)).toList

/-- Multiplier and increment of the generator that spreads the seed over the key. -/
def seedFactor : UInt64 := 6364136223846793005
def seedStep : UInt64 := 11634580027462260723

/-- One key word from the state of the seed's generator. -/
def seedWord (s : UInt64) : UInt32 :=
  let x := (((s >>> 18) ^^^ s) >>> 27).toUInt32
  let n := (s >>> 59).toUInt32
  x >>> n ||| x <<< ((32 - n) % 32)

/-- The next `n` key words. -/
def keyWords : Nat → UInt64 → List UInt32
  | 0, _ => []
  | n + 1, s =>
    let s := s * seedFactor + seedStep
    seedWord s :: keyWords n s

/-- The generator of a seed. -/
def ofSeed (seed : UInt64) : Random := ⟨keyWords 8 seed, 0, []⟩

/-- The next word. -/
def word32 (r : Random) : UInt32 × Random :=
  match r.pending with
  | w :: rest => (w, { r with pending := rest })
  | [] =>
    match block r.key r.counter with
    | w :: rest => (w, { r with counter := r.counter + 1, pending := rest })
    | [] => (0, r)

/-- The next two words as one, low word first. -/
def word64 (r : Random) : UInt64 × Random :=
  let (low, r) := r.word32
  let (high, r) := r.word32
  (high.toUInt64 <<< 32 ||| low.toUInt64, r)

/-- A double in `[0, 1)`. -/
def unit (r : Random) : Float × Random :=
  let (w, r) := r.word64
  ((w >>> 11).toFloat * Float.ofScientific 11102230246251565404236316680908203125 true 53, r)

/-- Draws until one is accepted. Every second draw is, on average, so the number of draws is only
bounded to have a bound. -/
def draw (bound zone : Nat) : Nat → Random → Nat × Random
  | 0, r => (0, r)
  | tries + 1, r =>
    let (w, r) := r.word64
    let product := w.toNat * bound
    if product % UInt64.size ≤ zone then (product / UInt64.size, r) else draw bound zone tries r

/-- A natural below `bound`, which is positive and less than `2 ^ 64`. -/
def below (bound : Nat) (r : Random) : Nat × Random :=
  let zone := bound * Nat.pow 2 (63 - Nat.log2 bound) - 1
  draw bound zone 4096 r

end Random
end Crunch
