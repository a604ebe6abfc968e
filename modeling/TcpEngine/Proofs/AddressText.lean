import Mathlib.Data.List.Basic
import Mathlib.Data.List.Induction
import TcpEngine.Address.Text

/-!
# The text of an address

Reading an address is the inverse of writing it: a text is read if and only if it is one that is
written, and then as the address it was written for.

* `Address.parts_eq_iff`: splitting at the dots undoes joining by dots.
* `Address.toDigits_value`, `Address.head?_toDigits`: a decimal text without a leading zero is that
  of its value, and the text of a number is one without a leading zero.
* `Address.octet?_eq_some_iff`: the text of an octet is its decimal digits.
* `Address.parse?_eq_some_iff`: the text of an address is what it is written as.
-/

namespace TcpEngine

namespace Address

/-! ## Parts -/

theorem parts_eq_splitOn (s : List Char) : parts s = s.splitOn '.' := by
  induction s with
  | nil => simp [parts]
  | cons c s ih =>
    rw [parts, List.splitOn_cons_eq_if_modifyHead, ih]
    by_cases hc : c = '.'
    · simp [hc]
    · cases hs : s.splitOn '.' with
      | nil => exact absurd hs (List.splitOn_ne_nil _ _)
      | cons p ps => simp [hc]

/-- The parts of a text are those that it is joined of, if there is no dot in them. -/
theorem parts_eq_iff {s : List Char} {ps : List (List Char)} (hne : ps ≠ [])
    (hps : ∀ p ∈ ps, '.' ∉ p) : parts s = ps ↔ s = ['.'].intercalate ps := by
  rw [parts_eq_splitOn]
  constructor
  · rintro rfl
    rw [List.intercalate_splitOn]
  · rintro rfl
    exact List.splitOn_intercalate '.' hps hne

/-! ## Decimal numbers -/

theorem digit_lt {c : Char} (hc : c.isDigit = true) : c.toNat - '0'.toNat < 10 := by
  have hrange : 48 ≤ c.toNat ∧ c.toNat ≤ 57 := Char.isDigit_iff_toNat.mp hc
  have hzero : '0'.toNat = 48 := rfl
  omega

/-- A digit is the text of its value. -/
theorem toDigits_digit {c : Char} (hc : c.isDigit = true) :
    Nat.toDigits 10 (c.toNat - '0'.toNat) = [c] := by
  have hrange : 48 ≤ c.toNat ∧ c.toNat ≤ 57 := Char.isDigit_iff_toNat.mp hc
  have hzero : '0'.toNat = 48 := rfl
  have hchar : Nat.digitChar (c.toNat - '0'.toNat) = c := by
    apply Char.toNat_inj.mp
    rw [Nat.toNat_digitChar_of_lt_ten (digit_lt hc)]
    omega
  rw [Nat.toDigits_of_lt_base (digit_lt hc), hchar]

theorem value_snoc (s : List Char) (c : Char) :
    value (s ++ [c]) = 10 * value s + (c.toNat - '0'.toNat) := by
  simp [value]

theorem value_toDigits (n : Nat) : value (Nat.toDigits 10 n) = n := by
  have h := Nat.ofDigitChars_ten_toDigits (n := n)
  rwa [Nat.ofDigitChars_eq_foldl] at h

/-- Only 0 is written with a zero in front. -/
theorem head?_toDigits {n : Nat} (hn : 0 < n) : (Nat.toDigits 10 n).head? ≠ some '0' := by
  induction n using Nat.strongRecOn with
  | ind n ih =>
    by_cases hlt : n < 10
    · rw [Nat.toDigits_of_lt_base hlt]
      intro h
      exact Nat.ne_of_gt hn (Nat.digitChar_eq_zero.mp (Option.some.inj h))
    · rw [Nat.toDigits_of_base_le (by decide) (Nat.le_of_not_lt hlt),
        List.head?_append_of_ne_nil _ Nat.toDigits_ne_nil]
      exact ih (n / 10) (by omega) (by omega)

/-- A decimal text without a leading zero is the text of its value. -/
theorem toDigits_value {s : List Char} (hne : s ≠ []) (hd : ∀ c ∈ s, c.isDigit = true)
    (hz : s.head? = some '0' → s.length = 1) : Nat.toDigits 10 (value s) = s := by
  induction s using List.reverseRecOn with
  | nil => exact absurd rfl hne
  | append_singleton s c ih =>
    have hc : c.isDigit = true := hd c (by simp)
    rw [value_snoc]
    by_cases hs : s = []
    · subst hs
      have hzero : value [] = 0 := rfl
      rw [hzero, Nat.mul_zero, Nat.zero_add, toDigits_digit hc]
      rfl
    · have hhead : s.head? ≠ some '0' := by
        intro h
        rw [List.head?_append_of_ne_nil _ hs] at hz
        have hlen := hz h
        rw [List.length_append, List.length_singleton] at hlen
        exact hs (List.length_eq_zero_iff.mp (by omega))
      have hdigits : Nat.toDigits 10 (value s) = s :=
        ih hs (fun d hmem => hd d (List.mem_append_left _ hmem)) fun h => absurd h hhead
      -- The digits before the last one are not only zeros, so they are written.
      have hpos : 0 < value s := by
        rw [Nat.pos_iff_ne_zero]
        intro h
        rw [h, Nat.toDigits_zero] at hdigits
        rw [← hdigits] at hhead
        exact hhead rfl
      rw [← Nat.toDigits_append_toDigits (by decide) hpos (digit_lt hc), hdigits,
        toDigits_digit hc]

/-! ## Octets -/

/-- The decimal text of an octet. -/
def digits (x : UInt8) : List Char := Nat.toDigits 10 x.toNat

theorem isDigit_digits {x : UInt8} {c : Char} (hc : c ∈ digits x) : c.isDigit = true :=
  Nat.isDigit_of_mem_toDigits (by decide) (Nat.le_refl 10) hc

theorem octet?_digits (x : UInt8) : octet? (digits x) = some x := by
  have hx := x.toNat_lt
  have hvalue : value (digits x) = x.toNat := value_toDigits x.toNat
  have hlen : (digits x).length ≤ 3 :=
    (Nat.length_toDigits_le_iff (by decide) (by decide)).mpr (by omega)
  have hzero : (digits x).head? = some '0' → (digits x).length = 1 := by
    intro h
    have hx : x.toNat = 0 := by
      by_contra hne
      exact head?_toDigits (Nat.pos_of_ne_zero hne) h
    rw [digits, hx, Nat.toDigits_zero]
    rfl
  unfold octet?
  rw [if_pos ⟨List.all_eq_true.mpr fun c hc => isDigit_digits hc, Nat.length_toDigits_pos, hlen,
    hzero, by omega⟩, hvalue, UInt8.ofNat_toNat]

theorem octet?_eq_some_iff {s : List Char} {x : UInt8} : octet? s = some x ↔ s = digits x := by
  constructor
  · intro h
    unfold octet? at h
    split at h
    · rename_i hs
      obtain ⟨hd, hpos, -, hz, hmax⟩ := hs
      cases h
      have hvalue : (UInt8.ofNat (value s)).toNat = value s := by
        rw [UInt8.toNat_ofNat']
        omega
      rw [digits, hvalue,
        toDigits_value (List.ne_nil_of_length_pos hpos) (List.all_eq_true.mp hd) hz]
    · cases h
  · rintro rfl
    exact octet?_digits x

/-! ## Addresses -/

theorem toList_toString_octet (x : UInt8) : (toString x).toList = digits x := by
  show (toString x.toNat).toList = _
  rw [Nat.toString_eq_ofList_toDigits, String.toList_ofList, digits]

/-- An address is written as the texts of its octets, joined by dots. -/
theorem toList_toString (a : Address) : (toString a).toList =
    ['.'].intercalate [digits a.a, digits a.b, digits a.c, digits a.d] := by
  show (toString a.a ++ "." ++ toString a.b ++ "." ++ toString a.c ++ "." ++ toString a.d).toList = _
  simp only [String.toList_append, toList_toString_octet]
  simp [List.intercalate]

/-- A text is read as an address if and only if its parts are the texts of the octets. -/
theorem parse?_eq_some_parts {s : String} {a : Address} : parse? s = some a ↔
    parts s.toList = [digits a.a, digits a.b, digits a.c, digits a.d] := by
  unfold parse?
  split
  · rename_i p q r t hparts
    rw [hparts]
    constructor
    · intro h
      simp only [Option.bind_eq_bind, Option.bind_eq_some_iff, octet?_eq_some_iff,
        Option.pure_def, Option.some.injEq] at h
      obtain ⟨x, rfl, y, rfl, z, rfl, w, rfl, rfl⟩ := h
      rfl
    · intro h
      cases h
      simp only [octet?_digits]
      rfl
  · rename_i hparts
    exact iff_of_false nofun (hparts _ _ _ _)

/-- A text is read as an address if and only if it is what the address is written as. So each
address has one text, and each text that is read has one address. -/
theorem parse?_eq_some_iff (s : String) (a : Address) : parse? s = some a ↔ s = toString a := by
  have hdots : ∀ p ∈ [digits a.a, digits a.b, digits a.c, digits a.d], '.' ∉ p := by
    intro p hp hdot
    obtain ⟨x, rfl⟩ : ∃ x, p = digits x := by
      simp only [List.mem_cons, List.not_mem_nil, or_false] at hp
      rcases hp with rfl | rfl | rfl | rfl <;> exact ⟨_, rfl⟩
    exact absurd (isDigit_digits hdot) (by decide)
  calc parse? s = some a
    _ ↔ parts s.toList = [digits a.a, digits a.b, digits a.c, digits a.d] := parse?_eq_some_parts
    _ ↔ s.toList = (toString a).toList := by
      rw [parts_eq_iff (List.cons_ne_nil _ _) hdots, toList_toString]
    _ ↔ s = toString a := String.toList_inj

/-- A zero in front of a number is not read. -/
example : parse? "203.0.113.9" = some ⟨203, 0, 113, 9⟩ ∧ parse? "203.0.113.09" = none := by
  decide +kernel

end Address

end TcpEngine
