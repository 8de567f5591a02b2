import ProseLint.Number.Decimal

/-! The written form of a whole number names it: its digits are digits, the first is zero for
zero only, and their value is the number. -/

namespace ProseLint.Decimal

theorem toNat_digitChar {d : Nat} (h : d < 10) : (digitChar d).toNat = 48 + d := by
  have hAll : ∀ d < 10, (digitChar d).toNat = 48 + d := by decide
  exact hAll d h

theorem digits_ne_nil (n : Nat) : digits n ≠ [] := by
  rw [digits]
  split <;> simp

theorem isDigit_of_mem_digits {n : Nat} {c : Char} (h : c ∈ digits n) : isDigit c = true := by
  have hChar : ∀ d < 10, isDigit (digitChar d) = true := by decide
  induction n using digits.induct with
  | case1 n hSmall =>
      rw [digits, if_pos hSmall, List.mem_singleton] at h
      rw [h]
      exact hChar n hSmall
  | case2 n hLarge ih =>
      rw [digits, if_neg hLarge, List.mem_append, List.mem_singleton] at h
      rcases h with hFirst | rfl
      · exact ih hFirst
      · exact hChar _ (Nat.mod_lt n (by omega))

theorem value_concat (t : Text) (c : Char) : value (t ++ [c]) = 10 * value t + (c.toNat - 48) := by
  rw [value, List.foldl_append]
  rfl

theorem value_digits (n : Nat) : value (digits n) = n := by
  induction n using digits.induct with
  | case1 n hSmall =>
      rw [digits, if_pos hSmall, ← List.nil_append [digitChar n], value_concat,
        toNat_digitChar hSmall]
      simp [value]
  | case2 n hLarge ih =>
      rw [digits, if_neg hLarge, value_concat, ih, toNat_digitChar (Nat.mod_lt n (by omega))]
      omega

/-- Only zero is written with a zero in front. -/
theorem head_digits_ne_zero {n : Nat} (h : n ≠ 0) : (digits n).head? ≠ some '0' := by
  have hChar : ∀ d < 10, d ≠ 0 → digitChar d ≠ '0' := by decide
  induction n using digits.induct with
  | case1 n hSmall =>
      rw [digits, if_pos hSmall]
      simpa using hChar n hSmall h
  | case2 n hLarge ih =>
      obtain ⟨c, rest, hFirst⟩ := List.exists_cons_of_ne_nil (digits_ne_nil (n / 10))
      rw [digits, if_neg hLarge, hFirst, List.cons_append, List.head?_cons]
      have hHead := ih (by omega)
      rwa [hFirst, List.head?_cons] at hHead

end ProseLint.Decimal
