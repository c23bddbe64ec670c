import Mathlib.Data.Nat.Digits.Lemmas
import Mathlib.Data.List.TakeWhile

/-!
# C strings and decimal numbers

Text is a list of bytes; a C string carries the proof that it holds no NUL, so that its length
is the position of its terminator. `decimal` prints a number without leading zeros, `atoi` reads
one the way `strtol` does on a 32-bit target, where the result saturates.
-/
namespace CString

/-- The bytes in front of the terminator. -/
@[ext] structure Text where
  bytes : List UInt8
  noNul : 0 ∉ bytes
  deriving DecidableEq

/-- What a `const char *` into these bytes denotes. -/
def ofMemory (memory : List UInt8) : Text where
  bytes := memory.takeWhile (· ≠ 0)
  noNul h := by simpa using List.mem_takeWhile_imp h

def empty : Text := ⟨[], by simp⟩

@[simp] theorem ofMemory_bytes (t : Text) : ofMemory t.bytes = t := by
  obtain ⟨bytes, noNul⟩ := t
  simp only [ofMemory, Text.mk.injEq]
  refine List.takeWhile_eq_self_iff.mpr fun b hb => ?_
  have hb0 : b ≠ 0 := by
    rintro rfl
    exact noNul hb
  simpa using hb0

/-- A pointer to `w` denotes `w` as soon as a terminator follows it. -/
theorem ofMemory_append {w : List UInt8} (hw : 0 ∉ w) (more : List UInt8) :
    (ofMemory (w ++ 0 :: more)).bytes = w := by
  have hall : ∀ b ∈ w, decide (b ≠ 0) = true := fun b hb => by
    have hb0 : b ≠ 0 := by
      rintro rfl
      exact hw hb
    simpa using hb0
  simp only [ofMemory]
  rw [List.takeWhile_append_of_pos hall]
  simp

/-! ## Decimal digits -/

def isDigit (b : UInt8) : Bool := 48 ≤ b && b ≤ 57
def digit (d : Nat) : UInt8 := UInt8.ofNat (48 + d)

/-- The value of a run of digits, most significant first. -/
def value (digits : List UInt8) : Nat := digits.foldl (fun n b => 10 * n + (b.toNat - 48)) 0

/-- The decimal text of a number. -/
def decimal (n : Nat) : List UInt8 :=
  if n = 0 then [digit 0] else ((Nat.digits 10 n).map digit).reverse

theorem toNat_digit {d : Nat} (h : d < 10) : (digit d).toNat = 48 + d := by
  simp [digit]; omega

theorem isDigit_digit {d : Nat} (h : d < 10) : isDigit (digit d) = true := by
  have := toNat_digit h
  simp only [isDigit, Bool.and_eq_true, decide_eq_true_eq, UInt8.le_iff_toNat_le, this]
  exact ⟨Nat.le_add_right 48 d, by simp; omega⟩

theorem isDigit_decimal {n : Nat} : ∀ b ∈ decimal n, isDigit b = true := by
  intro b hb
  unfold decimal at hb
  split at hb
  · simp only [List.mem_singleton] at hb
    exact hb ▸ isDigit_digit (by omega)
  · simp only [List.mem_reverse, List.mem_map] at hb
    obtain ⟨d, hd, rfl⟩ := hb
    exact isDigit_digit (Nat.digits_lt_base (by omega) hd)

theorem decimal_ne_nil (n : Nat) : decimal n ≠ [] := by
  unfold decimal
  split
  · simp
  · simp [Nat.digits_ne_nil_iff_ne_zero, *]

theorem foldr_digit (digits : List Nat) (h : ∀ d ∈ digits, d < 10) :
    (digits.map digit).foldr (fun b n => 10 * n + (b.toNat - 48)) 0 = Nat.ofDigits 10 digits := by
  induction digits with
  | nil => simp
  | cons d ds ih =>
    have hd := toNat_digit (h d (by simp))
    rw [List.map_cons, List.foldr_cons, ih fun e he => h e (by simp [he]), Nat.ofDigits_cons, hd]
    omega

/-- Printing and reading back. -/
@[simp] theorem value_decimal (n : Nat) : value (decimal n) = n := by
  unfold value decimal
  split
  · subst n; decide
  · rw [List.foldl_reverse, foldr_digit _ fun d hd => Nat.digits_lt_base (by omega) hd,
      Nat.ofDigits_digits]

theorem isDigit_ne_zero {b : UInt8} (h : isDigit b = true) : b ≠ 0 := by
  rintro rfl
  simp [isDigit] at h

theorem zero_notMem_decimal (n : Nat) : 0 ∉ decimal n :=
  fun h => isDigit_ne_zero (isDigit_decimal 0 h) rfl

/-- A number below `10 ^ k` has at most `k` digits. -/
theorem length_decimal_le {n k : Nat} (hk : k ≠ 0) (h : n < 10 ^ k) : (decimal n).length ≤ k := by
  unfold decimal
  split
  · simp; omega
  · simpa using (Nat.digits_length_le_iff (by omega) n).mpr h

def ofNat (n : Nat) : Text := ⟨decimal n, zero_notMem_decimal n⟩

/-- The text of a signed number. -/
def ofInt (n : Int) : Text where
  bytes := if n < 0 then 45 :: decimal n.natAbs else decimal n.natAbs
  noNul := by split <;> simp [zero_notMem_decimal]

/-! ## Reading a number -/

def isSpace (b : UInt8) : Bool := b == 32 || (9 ≤ b && b ≤ 13)

def clamp (n : Int) : Int := max (-2 ^ 31) (min (2 ^ 31 - 1) n)

/-- `atoi`: blanks, an optional sign, digits up to the first other byte. -/
def atoi (text : List UInt8) : Int :=
  match text.dropWhile isSpace with
  | 45 :: rest => clamp (-(value (rest.takeWhile isDigit)))
  | 43 :: rest => clamp (value (rest.takeWhile isDigit))
  | rest => clamp (value (rest.takeWhile isDigit))

theorem isDigit_not_isSpace {b : UInt8} (h : isDigit b = true) : isSpace b = false := by
  simp only [isDigit, isSpace, Bool.and_eq_true, decide_eq_true_eq, UInt8.le_iff_toNat_le] at *
  have : b.toNat ≠ 32 := by have : (48 : UInt8).toNat = 48 := rfl; omega
  simp only [Bool.or_eq_false_iff, beq_eq_false_iff_ne, Bool.and_eq_false_iff,
    decide_eq_false_iff_not, ne_eq, UInt8.ext_iff]
  have : (48 : UInt8).toNat = 48 := rfl
  have : (13 : UInt8).toNat = 13 := rfl
  have : (32 : UInt8).toNat = 32 := rfl
  omega

/-- The number that `atoi` reads, before it is fitted into an `int`. -/
def readInt (text : List UInt8) : Int :=
  match text.dropWhile isSpace with
  | 45 :: rest => -(value (rest.takeWhile isDigit))
  | 43 :: rest => value (rest.takeWhile isDigit)
  | rest => value (rest.takeWhile isDigit)

theorem atoi_eq_clamp (text : List UInt8) : atoi text = clamp (readInt text) := by
  unfold atoi readInt
  split <;> rfl

theorem readInt_digits {text : List UInt8} (h : ∀ b ∈ text, isDigit b = true) :
    readInt text = value text := by
  have hdrop : text.dropWhile isSpace = text := by
    cases text with
    | nil => rfl
    | cons b bs => simp [isDigit_not_isSpace (h b (by simp))]
  have htake : text.takeWhile isDigit = text := List.takeWhile_eq_self_iff.mpr h
  unfold readInt
  rw [hdrop]
  split
  · exact absurd (h 45 (by simp)) (by decide)
  · exact absurd (h 43 (by simp)) (by decide)
  · rw [htake]

/-- On a run of digits `atoi` reads its value, as long as an `int` can hold it. -/
theorem atoi_digits {text : List UInt8} (h : ∀ b ∈ text, isDigit b = true)
    (hv : value text < 2 ^ 31) : atoi text = value text := by
  rw [atoi_eq_clamp, readInt_digits h]
  unfold clamp
  omega

/-- A signed number is read back from its text. -/
@[simp] theorem readInt_ofInt (n : Int) : readInt (ofInt n).bytes = n := by
  unfold ofInt
  split
  · have htake : (decimal n.natAbs).takeWhile isDigit = decimal n.natAbs :=
      List.takeWhile_eq_self_iff.mpr isDigit_decimal
    simp only [readInt, List.dropWhile, (by decide : isSpace 45 = false), htake, value_decimal]
    omega
  · rw [readInt_digits isDigit_decimal, value_decimal]
    omega

end CString
