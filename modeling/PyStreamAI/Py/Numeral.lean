import Mathlib.Data.List.DropRight
import PyStreamAI.Py.Basic

/-!
# Decimal numerals in texts

Decimal digits are those of any script, as `\d` and `int` take them. A text is read as a number digit
by digit, up to 4300 of them, which undoes `str` (`value_toDigits`). What `strip` leaves is what
stands between white space (`toList_strip_eq_iff`).
-/

namespace Py

/-! ## Digits -/

/-- The digits zero of the scripts (Unicode 14). Each is followed by the digits up to nine. -/
def zeroDigits : List ℕ :=
  [0x30, 0x660, 0x6f0, 0x7c0, 0x966, 0x9e6, 0xa66, 0xae6, 0xb66, 0xbe6, 0xc66, 0xce6, 0xd66, 0xde6,
   0xe50, 0xed0, 0xf20, 0x1040, 0x1090, 0x17e0, 0x1810, 0x1946, 0x19d0, 0x1a80, 0x1a90, 0x1b50,
   0x1bb0, 0x1c40, 0x1c50, 0xa620, 0xa8d0, 0xa900, 0xa9d0, 0xa9f0, 0xaa50, 0xabf0, 0xff10, 0x104a0,
   0x10d30, 0x11066, 0x110f0, 0x11136, 0x111d0, 0x112f0, 0x11450, 0x114d0, 0x11650, 0x116c0,
   0x11730, 0x118e0, 0x11950, 0x11c50, 0x11d50, 0x11da0, 0x16a60, 0x16ac0, 0x16b50, 0x1d7ce,
   0x1d7d8, 0x1d7e2, 0x1d7ec, 0x1d7f6, 0x1e140, 0x1e2f0, 0x1e950, 0x1fbf0]

/-- The zero of the digits that `c` is one of. -/
def zeroOf? (c : Char) : Option ℕ := zeroDigits.find? fun z => z ≤ c.toNat && c.toNat < z + 10

/-- `c.isdecimal()`. -/
def isDecimal (c : Char) : Bool := (zeroOf? c).isSome

/-- `unicodedata.decimal(c, 0)`. -/
def decimal (c : Char) : ℕ := ((zeroOf? c).map fun z => c.toNat - z).getD 0

/-- The number that digits are read as. -/
def value (ds : List Char) : ℕ := ds.foldl (fun n c => 10 * n + decimal c) 0

/-- The error for a number of `n` digits, which are too many. -/
def tooManyDigits (n : ℕ) : Error :=
  ⟨"ValueError", "Exceeds the limit (4300 digits) for integer string conversion: " ++
    s!"value has {n} digits; use sys.set_int_max_str_digits() to increase the limit"⟩

/-- `int(text)` for a text of digits. -/
def intOfDigits (ds : List Char) : Except Error ℕ :=
  if ds.length ≤ 4300 then .ok (value ds) else .error (tooManyDigits ds.length)

theorem isDecimal_iff {c : Char} :
    isDecimal c = true ↔ ∃ z ∈ zeroDigits, z ≤ c.toNat ∧ c.toNat < z + 10 := by
  unfold isDecimal zeroOf?
  rw [List.find?_isSome]
  simp only [Bool.and_eq_true, decide_eq_true_eq]

/-- A digit of the first script, which is the one that `str` writes. -/
theorem zeroOf?_of_isDigit {c : Char} (h : c.isDigit = true) : zeroOf? c = some 48 := by
  obtain ⟨hle, hlt⟩ : 48 ≤ c.toNat ∧ c.toNat ≤ 57 := by
    simpa [Char.isDigit, UInt32.le_iff_toNat_le] using h
  unfold zeroOf? zeroDigits
  rw [List.find?_cons_of_pos]
  simp only [Bool.and_eq_true, decide_eq_true_eq]
  omega

theorem isDecimal_of_isDigit {c : Char} (h : c.isDigit = true) : isDecimal c = true := by
  unfold isDecimal
  rw [zeroOf?_of_isDigit h]
  rfl

theorem decimal_of_isDigit {c : Char} (h : c.isDigit = true) : decimal c = c.toNat - 48 := by
  unfold decimal
  rw [zeroOf?_of_isDigit h]
  rfl

theorem isDecimal_of_mem_toDigits {n : ℕ} {c : Char} (h : c ∈ Nat.toDigits 10 n) :
    isDecimal c = true :=
  isDecimal_of_isDigit (Nat.isDigit_of_mem_toDigits (by decide) (by decide) h)

theorem foldl_decimal {ds : List Char} (h : ∀ c ∈ ds, c.isDigit = true) (n : ℕ) :
    ds.foldl (fun n c => 10 * n + decimal c) n = Nat.ofDigitChars 10 ds n := by
  induction ds generalizing n with
  | nil => rfl
  | cons d ds ih =>
    obtain ⟨hd, hds⟩ := List.forall_mem_cons.mp h
    rw [List.foldl_cons, Nat.ofDigitChars_cons, decimal_of_isDigit hd]
    exact ih hds _

/-- The text of a number is read as that number. -/
theorem value_toDigits (n : ℕ) : value (Nat.toDigits 10 n) = n := by
  unfold value
  rw [foldl_decimal fun c hc => Nat.isDigit_of_mem_toDigits (by decide) (by decide) hc]
  exact Nat.ofDigitChars_ten_toDigits

/-- No digits of a script have white space among them. -/
theorem zeroDigits_apart : ∀ z ∈ zeroDigits, 32 < z ∧ (z + 10 ≤ 0x85 ∨ 0xa0 < z) ∧
    (z + 10 ≤ 0x1680 ∨ 0x1680 < z) ∧ (z + 10 ≤ 0x2000 ∨ 0x3000 < z) := by decide

/-- A digit is no white space. -/
theorem isSpace_of_isDecimal {c : Char} (h : isDecimal c = true) : isSpace c = false := by
  obtain ⟨z, hz, hle, hlt⟩ := isDecimal_iff.mp h
  have hapart := zeroDigits_apart z hz
  apply Bool.eq_false_iff.mpr
  intro hspace
  unfold isSpace at hspace
  simp only [Bool.or_eq_true, Bool.and_eq_true, decide_eq_true_eq, beq_iff_eq] at hspace
  omega

/-! ## White space -/

theorem toList_strip (s : String) :
    (strip s).toList = (s.toList.dropWhile isSpace).rdropWhile isSpace := String.toList_ofList

/-- What `strip` leaves does not end in white space. -/
theorem isSpace_of_toList_strip {s : String} {t : List Char} {d : Char}
    (h : (strip s).toList = t ++ [d]) : isSpace d = false := by
  rw [toList_strip] at h
  have hne : (s.toList.dropWhile isSpace).rdropWhile isSpace ≠ [] := by
    rw [h]
    exact List.append_ne_nil_of_right_ne_nil t (List.cons_ne_nil d [])
  have hlast := List.rdropWhile_last_not _ _ hne
  simp only [h, List.getLast_append_singleton] at hlast
  exact Bool.eq_false_iff.mpr hlast

/-- What `strip` leaves stands between white space. -/
theorem toList_strip_eq_iff {s : String} {t t' t'' : List Char} {c d : Char} (hhead : t = c :: t')
    (hc : isSpace c = false) (hlast : t = t'' ++ [d]) (hd : isSpace d = false) :
    (strip s).toList = t ↔ ∃ w w', (∀ x ∈ w, isSpace x = true) ∧ (∀ x ∈ w', isSpace x = true) ∧
      s.toList = w ++ t ++ w' := by
  rw [toList_strip]
  constructor
  · intro h
    refine ⟨s.toList.takeWhile isSpace, (s.toList.dropWhile isSpace).rtakeWhile isSpace,
      fun x hx => List.mem_takeWhile_imp hx, fun x hx => List.mem_rtakeWhile_imp hx, ?_⟩
    rw [← h, List.append_assoc, List.rdropWhile_append_rtakeWhile, List.takeWhile_append_dropWhile]
  · rintro ⟨w, w', hw, hw', hs⟩
    have hright : (t ++ w').dropWhile isSpace = t ++ w' := by
      rw [hhead, List.cons_append, List.dropWhile_cons_of_neg (by rw [hc]; decide)]
    have hleft : t.rdropWhile isSpace = t := by
      rw [hlast]
      exact List.rdropWhile_concat_neg _ _ _ (by rw [hd]; decide)
    have hreverse : (t ++ w').rdropWhile isSpace = t.rdropWhile isSpace := by
      unfold List.rdropWhile
      rw [List.reverse_append, List.dropWhile_append_of_pos fun x hx =>
        hw' x (List.mem_reverse.mp hx)]
    rw [hs, List.append_assoc, List.dropWhile_append_of_pos hw, hright, hreverse, hleft]

end Py
