import Mathlib.Data.List.Basic
import MicroBench.Decimal

namespace MicroBench.Decimal

/-- A numeral has a digit, and no zero in front of others. -/
def isNumeral : List Char → Bool
  | [] => false
  | c :: ds => c != '0' || ds.isEmpty

def value (ds : List Char) : Nat := Nat.ofDigitChars 10 ds 0

/-- Reads a number off the front of a text, as far as there are digits. -/
def readNatural (text : List Char) : Option (Nat × List Char) :=
  let ds := text.takeWhile Char.isDigit
  if isNumeral ds then some (value ds, text.dropWhile Char.isDigit) else none

def readInteger : List Char → Option (Int × List Char)
  | '-' :: text =>
    match readNatural text with
    | some (n + 1, rest) => some (.negSucc n, rest)
    | _ => none
  | text => (readNatural text).map fun (n, rest) ↦ (.ofNat n, rest)

variable {n m : Nat} {x : Int} {c : Char} {ds text rest : List Char}

theorem digits_eq (n : Nat) : digits n = Nat.toDigits 10 n := by
  rw [digits, Nat.toString_eq_ofList_toDigits, String.toList_ofList]

theorem digits_of_lt (h : n < 10) : digits n = [n.digitChar] := by
  rw [digits_eq, Nat.toDigits_of_lt_base h]

theorem digits_mul_add (hn : 0 < n) (hm : m < 10) :
    digits (10 * n + m) = digits n ++ [m.digitChar] := by
  rw [digits_eq, digits_eq, ← Nat.toDigits_append_toDigits (by decide) hn hm,
    Nat.toDigits_of_lt_base hm]

theorem digits_ne_nil (n : Nat) : digits n ≠ [] := by
  rw [digits_eq]
  exact Nat.toDigits_ne_nil

theorem isDigit_of_mem_digits (h : c ∈ digits n) : c.isDigit = true := by
  rw [digits_eq] at h
  exact Nat.isDigit_of_mem_toDigits (by decide) (by decide) h

theorem value_digits (n : Nat) : value (digits n) = n := by
  rw [value, digits_eq, Nat.ofDigitChars_ten_toDigits]

theorem exists_digitChar (h : c.isDigit = true) : ∃ m, m < 10 ∧ m.digitChar = c := by
  rw [Char.isDigit_iff_toNat] at h
  have hzero : '0'.toNat = 48 := rfl
  have hnine : '9'.toNat = 57 := rfl
  have hlt : c.toNat - 48 < 10 := by omega
  refine ⟨c.toNat - 48, hlt, ?_⟩
  apply Char.toNat_inj.1
  rw [Nat.toNat_digitChar_of_lt_ten hlt]
  omega

/-- Digits behind a positive number are read into it one by one. -/
theorem digits_append (hn : 0 < n) (hds : ∀ c ∈ ds, c.isDigit = true) :
    digits n ++ ds = digits (Nat.ofDigitChars 10 ds n) := by
  induction ds generalizing n with
  | nil => rw [List.append_nil, Nat.ofDigitChars_nil]
  | cons c ds ih =>
    obtain ⟨m, hm, rfl⟩ := exists_digitChar (hds c List.mem_cons_self)
    have hrest := ih (n := 10 * n + m) (by omega) fun d hd ↦ hds d (List.mem_cons_of_mem _ hd)
    rw [Nat.ofDigitChars_cons_digitChar_of_lt_ten hm, ← hrest, digits_mul_add hn hm,
      List.append_assoc, List.singleton_append]

theorem digits_value (hds : ∀ c ∈ ds, c.isDigit = true) (h : isNumeral ds = true) :
    digits (value ds) = ds := by
  cases ds with
  | nil => cases h
  | cons c ds =>
    obtain ⟨m, hm, rfl⟩ := exists_digitChar (hds c List.mem_cons_self)
    rw [value, Nat.ofDigitChars_cons_digitChar_of_lt_ten hm, Nat.mul_zero, Nat.zero_add]
    rcases Nat.eq_zero_or_pos m with rfl | hpos
    · obtain rfl : ds = [] := by simpa [isNumeral] using h
      rfl
    · rw [← digits_append hpos fun d hd ↦ hds d (List.mem_cons_of_mem _ hd), digits_of_lt hm]
      rfl

theorem head?_digits_ne (hn : 0 < n) : (digits n).head? ≠ some '0' := by
  induction n using Nat.strongRecOn with
  | ind n ih =>
    rcases Nat.lt_or_ge n 10 with hlt | hge
    · rw [digits_of_lt hlt, List.head?_cons]
      intro h
      have hzero := Nat.digitChar_eq_zero.1 (Option.some.inj h)
      omega
    · have hfront := ih (n / 10) (by omega) (by omega)
      have hsplit : n = 10 * (n / 10) + n % 10 := (Nat.div_add_mod n 10).symm
      rw [hsplit, digits_mul_add (by omega) (Nat.mod_lt n (by decide)),
        List.head?_append_of_ne_nil _ (digits_ne_nil _)]
      exact hfront

theorem isNumeral_digits (n : Nat) : isNumeral (digits n) = true := by
  rcases Nat.eq_zero_or_pos n with rfl | hpos
  · rfl
  · have hhead := head?_digits_ne hpos
    cases hd : digits n with
    | nil => exact absurd hd (digits_ne_nil n)
    | cons c ds =>
      rw [hd, List.head?_cons] at hhead
      simp [isNumeral, mt (congrArg some) hhead]

theorem span_append {p : Char → Bool} (hds : ∀ c ∈ ds, p c = true) (hc : p c = false)
    (rest : List Char) :
    (ds ++ c :: rest).takeWhile p = ds ∧ (ds ++ c :: rest).dropWhile p = c :: rest := by
  constructor
  · rw [List.takeWhile_append_of_pos hds, List.takeWhile_cons_of_neg (by simp [hc]),
      List.append_nil]
  · rw [List.dropWhile_append_of_pos hds, List.dropWhile_cons_of_neg (by simp [hc])]

theorem readNatural_append (hc : c.isDigit = false) :
    readNatural (digits n ++ c :: rest) = some (n, c :: rest) := by
  have hds : ∀ d ∈ digits n, d.isDigit = true := fun d ↦ isDigit_of_mem_digits
  obtain ⟨htake, hdrop⟩ := span_append hds hc rest
  rw [readNatural, htake, hdrop, if_pos (isNumeral_digits n), value_digits]

theorem eq_append_of_readNatural (h : readNatural text = some (n, rest)) :
    text = digits n ++ rest := by
  rw [readNatural, Option.ite_none_right_eq_some] at h
  obtain ⟨hnumeral, hread⟩ := h
  obtain ⟨rfl, rfl⟩ := Prod.mk.inj (Option.some.inj hread)
  have hds : ∀ c ∈ text.takeWhile Char.isDigit, c.isDigit = true := by
    intro c hc
    exact List.all_eq_true.1 List.all_takeWhile c hc
  rw [digits_value hds hnumeral, List.takeWhile_append_dropWhile]

theorem readInteger_of_head?_ne (h : text.head? ≠ some '-') :
    readInteger text = (readNatural text).map fun (n, rest) ↦ (.ofNat n, rest) := by
  rw [readInteger]
  rintro front rfl
  exact h rfl

theorem readInteger_minus (text : List Char) : readInteger ('-' :: text) =
    match readNatural text with
    | some (n + 1, rest) => some (.negSucc n, rest)
    | _ => none := rfl

theorem toList_toString_ofNat (n : Nat) : (toString (Int.ofNat n)).toList = digits n := rfl

theorem toList_toString_negSucc (n : Nat) :
    (toString (Int.negSucc n)).toList = '-' :: digits (n + 1) := by
  have htext : toString (Int.negSucc n) = "-" ++ toString (n + 1) := rfl
  rw [htext, String.toList_append]
  rfl

theorem readInteger_append (hc : c.isDigit = false) :
    readInteger ((toString x).toList ++ c :: rest) = some (x, c :: rest) := by
  cases x with
  | ofNat n =>
    have hhead : (digits n ++ c :: rest).head? ≠ some '-' := by
      rw [List.head?_append_of_ne_nil _ (digits_ne_nil n)]
      intro h
      have hminus := isDigit_of_mem_digits (List.mem_of_head? h)
      cases hminus
    rw [toList_toString_ofNat, readInteger_of_head?_ne hhead, readNatural_append hc]
    rfl
  | negSucc n =>
    rw [toList_toString_negSucc, List.cons_append, readInteger_minus, readNatural_append hc]

theorem eq_append_of_readInteger (h : readInteger text = some (x, rest)) :
    text = (toString x).toList ++ rest := by
  by_cases hhead : text.head? = some '-'
  · obtain ⟨front, rfl⟩ := List.head?_eq_some_iff.1 hhead
    rw [readInteger_minus] at h
    split at h
    · rename_i n rest' hread
      obtain ⟨rfl, rfl⟩ := Prod.mk.inj (Option.some.inj h)
      rw [toList_toString_negSucc, List.cons_append, eq_append_of_readNatural hread]
    · cases h
  · rw [readInteger_of_head?_ne hhead, Option.map_eq_some_iff] at h
    obtain ⟨⟨n, rest'⟩, hread, heq⟩ := h
    obtain ⟨rfl, rfl⟩ := Prod.mk.inj heq
    rw [toList_toString_ofNat]
    exact eq_append_of_readNatural hread

end MicroBench.Decimal
