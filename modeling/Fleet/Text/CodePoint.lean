/-! Texts as lists of code points, halves of surrogate pairs among them.

A half that stands alone is a code point, but no character. A string holds it as a mark and the private
character whose code lies `0x100000` above that of the half. The mark is the last character there is; where
the text has this character, the string has it twice. So the code points of a string are those that it was
made of, and strings of two texts are joined by joining the strings.
-/

set_option autoImplicit false

namespace Fleet.Text

def isHalf (code : Nat) : Bool := 0xD800 ≤ code && code < 0xE000

def mark : Char := Char.ofNat 0x10FFFF

def written (code : Nat) : List Char :=
  if isHalf code then [mark, Char.ofNat (0x100000 + code)]
  else if code = 0x10FFFF then [mark, mark]
  else [Char.ofNat code]

def ofCodes (codes : List Nat) : String := String.ofList (codes.flatMap written)

def marked (c : Char) : Nat := if c = mark then 0x10FFFF else c.toNat - 0x100000

def readCodes : List Char → List Nat
  | [] => []
  | c :: rest =>
      if c = mark then
        match rest with
        | [] => [0x10FFFF]
        | next :: rest => marked next :: readCodes rest
      else c.toNat :: readCodes rest

def codes (text : String) : List Nat := readCodes text.toList

/-- Whether half of a surrogate pair stands alone in the text. -/
def hasHalf (text : String) : Bool := (codes text).any isHalf

theorem toNat_ofNat {code : Nat} (valid : code.isValidChar) : (Char.ofNat code).toNat = code := by
  rw [Char.ofNat, dif_pos valid]
  rfl

theorem ofNat_ne_mark {code : Nat} (valid : code.isValidChar) (different : code ≠ 0x10FFFF) :
    Char.ofNat code ≠ mark := by
  intro same
  apply different
  rw [← toNat_ofNat valid, same]
  rfl

theorem readCodes_written {code : Nat} (bound : code < 0x110000) (rest : List Char) :
    readCodes (written code ++ rest) = code :: readCodes rest := by
  unfold written
  by_cases half : isHalf code = true
  · simp only [isHalf, Bool.and_eq_true, decide_eq_true_eq] at half
    have valid : (0x100000 + code).isValidChar := Or.inr ⟨by omega, by omega⟩
    have unmarked := ofNat_ne_mark valid (by omega)
    rw [if_pos (by simp [isHalf, half])]
    simp [readCodes, marked, unmarked, toNat_ofNat valid]
  · rw [if_neg half]
    simp only [isHalf, Bool.and_eq_true, decide_eq_true_eq, not_and, Nat.not_lt] at half
    by_cases last : code = 0x10FFFF
    · subst last
      simp [readCodes, marked]
    · have valid : code.isValidChar := by
        by_cases low : code < 0xD800
        · exact Or.inl low
        · exact Or.inr ⟨Nat.lt_of_lt_of_le (by decide) (half (Nat.not_lt.mp low)), bound⟩
      rw [if_neg last, List.singleton_append, readCodes.eq_def]
      simp only [if_neg (ofNat_ne_mark valid last), toNat_ofNat valid]

/-- Nothing is lost by holding a text as a string. -/
theorem codes_ofCodes (points : List Nat) (bound : ∀ code ∈ points, code < 0x110000) :
    codes (ofCodes points) = points := by
  rw [codes, ofCodes, String.toList_ofList]
  induction points with
  | nil => rfl
  | cons code rest ih =>
    rw [List.flatMap_cons, readCodes_written (bound code (List.mem_cons_self ..)),
      ih fun other member => bound other (List.mem_cons_of_mem _ member)]

end Fleet.Text
