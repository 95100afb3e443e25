import TextGrammar.Random.Draws

/-!
The Mersenne Twister with 624 words of 32 bits, seeded by an integer of any size.
-/

namespace TextGrammar

/-- The words of the state and how many of them have been given out. -/
structure Twister where
  words : Array UInt32
  used : Nat

namespace Twister

/-- The number of words of the state. -/
def size : Nat := 624

/-- The words that one starting word gives. -/
def fill (start : UInt32) : Array UInt32 :=
  (List.range (size - 1)).foldl (fun (words : Array UInt32) k =>
    let last := words.getD k 0
    words.push ((last ^^^ (last >>> 30)) * 1812433253 + UInt32.ofNat (k + 1))) #[start]

/-- A state while a key is mixed into it: its words, the place of the last word that was mixed, and
the place in the key. -/
structure Mixing where
  words : Array UInt32
  place : Nat
  keyPlace : Nat

/-- The word at a place replaced by a mixture of it and the one before, and the next place; behind
the last place the first word repeats the last one. -/
def Mixing.step (mixing : Mixing) (keyLength : Nat) (mix : UInt32 → UInt32 → UInt32) : Mixing :=
  let before := mixing.words.getD (mixing.place - 1) 0
  let word := mix (mixing.words.getD mixing.place 0) (before ^^^ (before >>> 30))
  let words := mixing.words.setIfInBounds mixing.place word
  let keyPlace := if mixing.keyPlace + 1 = keyLength then 0 else mixing.keyPlace + 1
  if mixing.place + 1 = size then ⟨words.setIfInBounds 0 word, 1, keyPlace⟩
  else ⟨words, mixing.place + 1, keyPlace⟩

/-- The state that a key of words gives. -/
def ofKey (key : Array UInt32) : Twister :=
  let first := (List.range (max size key.size)).foldl (fun (mixing : Mixing) _ =>
    mixing.step key.size fun word before =>
      (word ^^^ (before * 1664525)) + key.getD mixing.keyPlace 0 + UInt32.ofNat mixing.keyPlace)
    ⟨fill 19650218, 1, 0⟩
  let second := (List.range (size - 1)).foldl (fun (mixing : Mixing) _ =>
    mixing.step key.size fun word before =>
      (word ^^^ (before * 1566083941)) - UInt32.ofNat mixing.place) first
  ⟨second.words.setIfInBounds 0 0x80000000, size⟩

/-- The words of a number, the least significant first; zero has one word. -/
def keyOf (n : Nat) : Array UInt32 :=
  let count := max 1 ((n.log2 + 32) / 32)
  ((List.range count).map fun k => UInt32.ofNat (n / Nat.pow 2 (32 * k))).toArray

/-- The state that a seed gives; the sign of the seed does not count. -/
def ofSeed (seed : Int) : Twister := ofKey (keyOf seed.natAbs)

/-- The next 624 words from those that have been given out. -/
def regenerate (words : Array UInt32) : Array UInt32 :=
  (List.range size).foldl (fun words k =>
    let y := (words.getD k 0 &&& 0x80000000) ||| (words.getD ((k + 1) % size) 0 &&& 0x7FFFFFFF)
    let twist : UInt32 := if y &&& 1 = 0 then 0 else 0x9908B0DF
    words.setIfInBounds k (words.getD ((k + 397) % size) 0 ^^^ (y >>> 1) ^^^ twist)) words

/-- A word of the state as it is given out. -/
def temper (y : UInt32) : UInt32 :=
  let y := y ^^^ (y >>> 11)
  let y := y ^^^ ((y <<< 7) &&& 0x9D2C5680)
  let y := y ^^^ ((y <<< 15) &&& 0xEFC60000)
  y ^^^ (y >>> 18)

/-- The next 32 random bits. -/
def next (twister : Twister) : UInt32 × Twister :=
  let ⟨words, used⟩ := twister
  if used < size then (temper (words.getD used 0), ⟨words, used + 1⟩)
  else
    let words := regenerate words
    (temper (words.getD 0 0), ⟨words, 1⟩)

/-- Whole words of random bits, the least significant word first. -/
def wholeWords : Nat → Twister → Nat × Twister
  | 0, twister => (0, twister)
  | count + 1, twister =>
    let (low, twister) := twister.next
    let (high, twister) := wholeWords count twister
    (low.toNat + high * Nat.pow 2 32, twister)

/-- So many random bits: whole words, and the upper bits of one more word. -/
def bits (count : Nat) (twister : Twister) : Nat × Twister :=
  let (low, twister) := wholeWords (count / 32) twister
  if count % 32 = 0 then (low, twister)
  else
    let (word, twister) := twister.next
    let high := word.toNat / Nat.pow 2 (32 - count % 32)
    (low + high * Nat.pow 2 (32 * (count / 32)), twister)

/-- How often a draw that is too large is repeated. Each repetition is needed with a chance of at
most one half. -/
def maxTries : Nat := 4096

/-- A number below a bound: as many bits as the bound has, drawn again until they make a number
below it. -/
def belowFrom (bound : Nat) (positive : 0 < bound) : Nat → Twister → Fin bound × Twister
  | 0, twister => (⟨0, positive⟩, twister)
  | tries + 1, twister =>
    let (drawn, twister) := twister.bits (bound.log2 + 1)
    if small : drawn < bound then (⟨drawn, small⟩, twister)
    else belowFrom bound positive tries twister

/-- A floating-point number from zero up to one, with 53 random bits. -/
def unit (twister : Twister) : Binary64 × Twister :=
  let (a, twister) := twister.next
  let (b, twister) := twister.next
  (.ofQuotient false ((a >>> 5).toNat * 67108864 + (b >>> 6).toNat) (Nat.pow 2 53), twister)

instance : Draws Twister where
  below bound positive twister := belowFrom bound positive maxTries twister
  unit := unit

instance : Seeded Twister := ⟨ofSeed⟩

end Twister

end TextGrammar
