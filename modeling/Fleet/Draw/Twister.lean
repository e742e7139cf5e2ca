/-! The 32-bit Mersenne Twister, seeded by an array of words. -/

set_option autoImplicit false

namespace Fleet.Draw

structure Twister where
  words : Array UInt32
  position : Nat

namespace Twister

def size : Nat := 624

def word (words : Array UInt32) (position : Nat) : UInt32 := words.getD position 0

def mix (previous : UInt32) : UInt32 := previous ^^^ (previous >>> 30)

def linear (seed : UInt32) : Array UInt32 :=
  (List.range (size - 1)).foldl (fun words position =>
    words.push (1812433253 * mix (word words position) + (position + 1).toUInt32)) #[seed]

/-- The position after this one; past the end the last word moves to the front. -/
def advance (words : Array UInt32) (position : Nat) : Array UInt32 × Nat :=
  if position + 1 < size then (words, position + 1)
  else (words.setIfInBounds 0 (word words (size - 1)), 1)

/-- Stirs the words of the key in, as often as the longer of both arrays has words. -/
def stirKey (key : Array UInt32) : Nat → Nat → Nat → Array UInt32 → Array UInt32 × Nat
  | 0, position, _, words => (words, position)
  | rounds + 1, position, keyPosition, words =>
      let value := (word words position ^^^ (mix (word words (position - 1)) * 1664525)) +
        word key keyPosition + keyPosition.toUInt32
      let (words, next) := advance (words.setIfInBounds position value) position
      stirKey key rounds next (if keyPosition + 1 < key.size then keyPosition + 1 else 0) words

def stir : Nat → Nat → Array UInt32 → Array UInt32
  | 0, _, words => words
  | rounds + 1, position, words =>
      let value := (word words position ^^^ (mix (word words (position - 1)) * 1566083941)) -
        position.toUInt32
      let (words, next) := advance (words.setIfInBounds position value) position
      stir rounds next words

def ofKey (key : Array UInt32) : Twister :=
  let (words, position) := stirKey key (max size key.size) 1 0 (linear 19650218)
  ⟨(stir (size - 1) position words).setIfInBounds 0 0x80000000, size⟩

def digits (value : Nat) : List UInt32 :=
  if value < UInt32.size then [value.toUInt32]
  else value.toUInt32 :: digits (value / UInt32.size)
termination_by value
decreasing_by
  simp only [UInt32.size] at *
  omega

/-- The generator of an integer seed; its sign does not count. -/
def ofSeed (seed : Int) : Twister := ofKey (digits seed.natAbs).toArray

def twist (upper lower far : UInt32) : UInt32 :=
  let joined := (upper &&& 0x80000000) ||| (lower &&& 0x7fffffff)
  far ^^^ (joined >>> 1) ^^^ (if joined &&& 1 = 1 then 0x9908b0df else 0)

def regenerate (words : Array UInt32) : Array UInt32 :=
  (List.range size).foldl (fun words position =>
    words.setIfInBounds position
      (twist (word words position) (word words ((position + 1) % size))
        (word words ((position + 397) % size)))) words

def temper (value : UInt32) : UInt32 :=
  let value := value ^^^ (value >>> 11)
  let value := value ^^^ ((value <<< 7) &&& 0x9d2c5680)
  let value := value ^^^ ((value <<< 15) &&& 0xefc60000)
  value ^^^ (value >>> 18)

def next (twister : Twister) : UInt32 × Twister :=
  let current := if twister.position < size then twister else ⟨regenerate twister.words, 0⟩
  (temper (word current.words current.position), { current with position := current.position + 1 })

/-- A multiple of `2 ^ -53` in `[0, 1)`, made from 27 and 26 bits of two words. -/
def unit (twister : Twister) : Float × Twister :=
  let (first, twister) := twister.next
  let (second, twister) := twister.next
  let high := Float.ofNat (first >>> 5).toNat
  let low := Float.ofNat (second >>> 6).toNat
  ((high * 67108864.0 + low) * (1.0 / 9007199254740992.0), twister)

end Twister

end Fleet.Draw
