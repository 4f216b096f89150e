import Mathlib

/-!
# Decimal numbers of Go's `strconv`

`parseInt` is `strconv.ParseInt(s, 10, 64)` with its error discarded, and `formatInt` is
`strconv.FormatInt(n, 10)` (and `strconv.Itoa`). A text that is no number reads as `0`; a number
out of range reads as the nearest 64-bit integer, and it does so as soon as the digits read so
far leave the unsigned range, whatever follows them. `parse_format` is the round trip.
-/

namespace UniShare.Lib

/-- What `strconv.ParseUint` reports: a number, a text that is no number, or a number that
leaves the 64-bit range. -/
inductive Scan where
  | value (n : Nat)
  | invalid
  | outOfRange
  deriving DecidableEq, Repr

/-- The digit loop of `ParseUint`, with the number read so far. -/
def scanDigits : Nat → List Char → Scan
  | n, [] => .value n
  | n, c :: rest =>
      if c.isDigit then
        if 10 * n + (c.toNat - '0'.toNat) < 2 ^ 64 then
          scanDigits (10 * n + (c.toNat - '0'.toNat)) rest
        else .outOfRange
      else .invalid

/-- `strconv.ParseUint(s, 10, 64)`. -/
def parseUint : List Char → Scan
  | [] => .invalid
  | c :: rest => scanDigits 0 (c :: rest)

/-- The sign of a number and the characters after it. -/
def splitSign : List Char → Bool × List Char
  | '+' :: rest => (false, rest)
  | '-' :: rest => (true, rest)
  | rest => (false, rest)

/-- Limit a scanned magnitude to the signed range, as `ParseInt` does. -/
def signedValue (neg : Bool) : Scan → Int64
  | .invalid => 0
  | .outOfRange => if neg then Int64.minValue else Int64.maxValue
  | .value n =>
      if neg then
        if 2 ^ 63 < n then Int64.minValue else Int64.ofInt (-n)
      else
        if 2 ^ 63 ≤ n then Int64.maxValue else Int64.ofNat n

/-- The magnitude that `ParseInt` scans in a text. -/
def scanText (text : String) : Scan :=
  parseUint (splitSign text.toList).2

/-- `strconv.ParseInt(text, 10, 64)`, its error discarded. -/
def parseInt (text : String) : Int64 :=
  signedValue (splitSign text.toList).1 (scanText text)

/-- `strconv.FormatInt(n, 10)`. -/
def formatInt (n : Int64) : String :=
  n.toInt.repr

/-- An optional sign followed by at least one digit and nothing else. -/
def IsDecimal (text : String) : Prop :=
  (splitSign text.toList).2 ≠ [] ∧ ∀ c ∈ (splitSign text.toList).2, c.isDigit

instance (text : String) : Decidable (IsDecimal text) :=
  decidable_of_iff ((splitSign text.toList).2 ≠ [] ∧ (splitSign text.toList).2.all Char.isDigit)
    (by rw [List.all_eq_true, IsDecimal])

/-- A text of digits whose number fits is scanned to that number. -/
theorem scan_digits_eq (n : Nat) (digits : List Char) (hdigits : ∀ c ∈ digits, c.isDigit)
    (hfit : Nat.ofDigitChars 10 digits n < 2 ^ 64) :
    scanDigits n digits = .value (Nat.ofDigitChars 10 digits n) := by
  induction digits generalizing n with
  | nil => simp [scanDigits]
  | cons c rest ih =>
      have hc : c.isDigit := hdigits c (by simp)
      rw [Nat.ofDigitChars_cons] at hfit ⊢
      have hle : 10 * n + (c.toNat - '0'.toNat) ≤
          Nat.ofDigitChars 10 rest (10 * n + (c.toNat - '0'.toNat)) := by
        rw [Nat.ofDigitChars_eq_ofDigitChars_zero]
        exact le_trans (Nat.le_mul_of_pos_left _ (Nat.pow_pos (by decide))) (Nat.le_add_right _ _)
      rw [scanDigits, if_pos hc, if_pos (lt_of_le_of_lt hle hfit)]
      exact ih _ (fun d hd => hdigits d (by simp [hd])) hfit

/-- The digits of a natural number scan back to it. -/
theorem parse_uint_repr (n : Nat) (h : n < 2 ^ 64) : parseUint n.repr.toList = .value n := by
  rw [Nat.toList_repr]
  have hdigits : ∀ c ∈ Nat.toDigits 10 n, c.isDigit :=
    fun c hc => Nat.isDigit_of_mem_toDigits (by decide) (by decide) hc
  have hscan := scan_digits_eq 0 (Nat.toDigits 10 n) hdigits (by simpa using h)
  rw [Nat.ofDigitChars_ten_toDigits] at hscan
  cases hlist : Nat.toDigits 10 n with
  | nil => exact absurd hlist Nat.toDigits_ne_nil
  | cons c rest => rw [parseUint, ← hlist, hscan]

/-- A text that starts with a digit has no sign. -/
theorem split_sign_digit {text : List Char} (h : ∀ c ∈ text, c.isDigit) :
    splitSign text = (false, text) := by
  cases text with
  | nil => rfl
  | cons c rest =>
      have hc : c.isDigit := h c (by simp)
      unfold splitSign
      split
      · simp_all
      · simp_all
      · rfl

/-- Reading back a formatted number yields the number. -/
@[simp] theorem parse_format (n : Int64) : parseInt (formatInt n) = n := by
  have hlow : -2 ^ 63 ≤ n.toInt := Int64.le_toInt n
  have hhigh : n.toInt < 2 ^ 63 := Int64.toInt_lt n
  unfold parseInt scanText formatInt
  rw [Int.repr_eq_if]
  split
  · rename_i hnonneg
    have hdigits : ∀ c ∈ n.toInt.toNat.repr.toList, c.isDigit := by
      rw [Nat.toList_repr]
      exact fun c hc => Nat.isDigit_of_mem_toDigits (by decide) (by decide) hc
    rw [split_sign_digit hdigits, parse_uint_repr _ (by omega)]
    simp only [signedValue, Bool.false_eq_true, if_false]
    rw [if_neg (by omega), ← Int64.toInt_inj, Int64.toInt_ofNat_of_lt (by omega)]
    omega
  · rename_i hneg
    have hsplit : splitSign ("-" ++ (-n.toInt).toNat.repr).toList =
        (true, (-n.toInt).toNat.repr.toList) := by
      simp [String.toList_append, splitSign]
    rw [hsplit, parse_uint_repr _ (by omega)]
    simp only [signedValue, if_true]
    rw [if_neg (by omega), ← Int64.toInt_inj,
      Int64.toInt_ofInt_of_le (by omega) (by omega)]
    omega

/-- A scan that neither fails nor leaves the range has read digits only. -/
theorem scan_digits_value {n m : Nat} {text : List Char} (h : scanDigits n text = .value m) :
    ∀ c ∈ text, c.isDigit := by
  induction text generalizing n with
  | nil => simp
  | cons c rest ih =>
      simp only [scanDigits] at h
      split at h
      · rename_i hc
        split at h
        · exact fun d hd => (List.mem_cons.mp hd).elim (fun heq => heq ▸ hc) (ih h d)
        · cases h
      · cases h

/-- A text that is no decimal number, and does not leave the range first, reads as zero. -/
theorem parse_int_not_decimal {text : String} (h : ¬ IsDecimal text)
    (hrange : scanText text ≠ .outOfRange) : parseInt text = 0 := by
  cases hscan : scanText text with
  | invalid => simp [parseInt, hscan, signedValue]
  | outOfRange => exact absurd hscan hrange
  | value n =>
      refine absurd ?_ h
      unfold scanText at hscan
      cases hbody : (splitSign text.toList).2 with
      | nil => simp [hbody, parseUint] at hscan
      | cons c rest =>
          rw [hbody, parseUint] at hscan
          exact ⟨by simp [hbody], by simpa [hbody] using scan_digits_value hscan⟩

/-- A formatted number is not empty. -/
theorem format_int_ne_empty (n : Int64) : formatInt n ≠ "" := by
  intro h
  have htext : (formatInt n).toList ≠ [] := by
    unfold formatInt
    rw [Int.repr_eq_if]
    split
    · rw [Nat.toList_repr]
      exact Nat.toDigits_ne_nil
    · simp [String.toList_append]
  exact htext (by simp [h])

/-- Formatting a natural number is injective. -/
theorem nat_repr_inj {n m : Nat} (h : n.repr = m.repr) : n = m := by
  have hdigits := congrArg String.toList h
  rw [Nat.toList_repr, Nat.toList_repr] at hdigits
  calc n = Nat.ofDigitChars 10 (Nat.toDigits 10 n) 0 := Nat.ofDigitChars_ten_toDigits.symm
    _ = Nat.ofDigitChars 10 (Nat.toDigits 10 m) 0 := by rw [hdigits]
    _ = m := Nat.ofDigitChars_ten_toDigits

/-- A text with a number behind it determines the number. -/
theorem numbered_inj (text : String) : Function.Injective fun n => text ++ Nat.repr n :=
  fun _ _ h => nat_repr_inj ((String.append_right_inj text).mp h)

/-- Where a text does not end in a digit, what follows it in digits does not begin earlier. -/
theorem no_earlier_digits {text more rest : List Char}
    (htext : ∀ c ∈ (text ++ more).getLast?, ¬ c.isDigit) (hdigits : ∀ c ∈ more ++ rest, c.isDigit) :
    more = [] := by
  cases hlast : more.getLast? with
  | none => exact List.getLast?_eq_none_iff.mp hlast
  | some c =>
      have hdigit := hdigits c (List.mem_append_left _ (List.mem_of_getLast? hlast))
      refine absurd hdigit (htext c ?_)
      rw [List.getLast?_append, hlast]
      rfl

/-- Texts that do not end in a digit can be told from the digits that follow them. -/
theorem append_digits_inj {text other digits rest : List Char}
    (htext : ∀ c ∈ text.getLast?, ¬ c.isDigit) (hother : ∀ c ∈ other.getLast?, ¬ c.isDigit)
    (hdigits : ∀ c ∈ digits, c.isDigit) (hrest : ∀ c ∈ rest, c.isDigit)
    (h : text ++ digits = other ++ rest) : text = other ∧ digits = rest := by
  rcases List.append_eq_append_iff.mp h with ⟨more, rfl, rfl⟩ | ⟨more, rfl, rfl⟩
  · obtain rfl := no_earlier_digits hother hdigits
    exact ⟨(List.append_nil text).symm, rfl⟩
  · obtain rfl := no_earlier_digits htext hrest
    exact ⟨List.append_nil other, rfl⟩

/-- A number behind a text that does not end in a digit determines the text, too. -/
theorem numbered_text_inj {text other : String} {n m : Nat}
    (htext : ∀ c ∈ text.toList.getLast?, ¬ c.isDigit)
    (hother : ∀ c ∈ other.toList.getLast?, ¬ c.isDigit)
    (h : text ++ Nat.repr n = other ++ Nat.repr m) : text = other ∧ n = m := by
  have hlists := congrArg String.toList h
  rw [String.toList_append, String.toList_append] at hlists
  have hdigits : ∀ k : Nat, ∀ c ∈ k.repr.toList, c.isDigit := by
    intro k c hc
    rw [Nat.toList_repr] at hc
    exact Nat.isDigit_of_mem_toDigits (by decide) (by decide) hc
  obtain ⟨hsame, hnumber⟩ := append_digits_inj htext hother (hdigits n) (hdigits m) hlists
  exact ⟨String.toList_inj.mp hsame, nat_repr_inj (String.toList_inj.mp hnumber)⟩

end UniShare.Lib
