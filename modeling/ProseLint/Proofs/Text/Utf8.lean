import ProseLint.Text.Utf8

/-! The bytes of a text are read as the text again. A character is read from its bytes alone, so
what stands behind them does not matter. -/

namespace ProseLint.Utf8

theorem toNat_ofNat {n : Nat} (h : n < 256) : (UInt8.ofNat n).toNat = n := by
  rw [UInt8.toNat_ofNat']
  omega

theorem decodeFrom_between (i : Nat) (byte : UInt8) (rest : List UInt8) :
    decodeFrom .between i (byte :: rest) =
      if byte.toNat < 0x80 then (decodeFrom .between (i + 1) rest).map (Char.ofNat byte.toNat :: ·)
      else match lead? byte.toNat with
        | some (bits, owed) => decodeFrom (.inside i bits owed) (i + 1) rest
        | none => .error ⟨i, .invalidStart⟩ := rfl

theorem decodeFrom_inside (start bits count low high i : Nat) (byte : UInt8)
    (rest : List UInt8) :
    decodeFrom (.inside start bits ⟨count, low, high⟩) i (byte :: rest) =
      if byte.toNat < low ∨ high < byte.toNat then .error ⟨start, .invalidContinuation⟩
      else if count ≤ 1 then
        (decodeFrom .between (i + 1) rest).map (Char.ofNat (bits * 64 + (byte.toNat - 0x80)) :: ·)
      else
        decodeFrom (.inside start (bits * 64 + (byte.toNat - 0x80)) ⟨count - 1, 0x80, 0xBF⟩)
          (i + 1) rest := rfl

/-- A byte between characters that starts one. -/
theorem decodeFrom_lead {n i bits : Nat} {owed : Tail} {rest : List UInt8} (h : n < 256)
    (hLead : lead? n = some (bits, owed)) (hHigh : 0x80 ≤ n) :
    decodeFrom .between i (UInt8.ofNat n :: rest) = decodeFrom (.inside i bits owed) (i + 1) rest := by
  simp only [decodeFrom_between, toNat_ofNat h, hLead]
  rw [if_neg (by omega)]

/-- A byte inside a character that others follow. -/
theorem decodeFrom_inner {n start bits count low high i : Nat} {rest : List UInt8} (h : n < 64)
    (hLow : low ≤ 0x80 + n) (hHigh : 0x80 + n ≤ high) (hMore : 1 < count) :
    decodeFrom (.inside start bits ⟨count, low, high⟩) i (UInt8.ofNat (0x80 + n) :: rest) =
      decodeFrom (.inside start (bits * 64 + n) ⟨count - 1, 0x80, 0xBF⟩) (i + 1) rest := by
  rw [decodeFrom_inside, toNat_ofNat (show 0x80 + n < 256 by omega), if_neg (by omega),
    if_neg (by omega), Nat.add_sub_cancel_left]

/-- The last byte of a character. -/
theorem decodeFrom_last {n start bits low high i : Nat} {rest : List UInt8} (h : n < 64)
    (hLow : low ≤ 0x80 + n) (hHigh : 0x80 + n ≤ high) :
    decodeFrom (.inside start bits ⟨1, low, high⟩) i (UInt8.ofNat (0x80 + n) :: rest) =
      (decodeFrom .between (i + 1) rest).map (Char.ofNat (bits * 64 + n) :: ·) := by
  rw [decodeFrom_inside, toNat_ofNat (show 0x80 + n < 256 by omega), if_neg (by omega),
    if_pos (Nat.le_refl 1), Nat.add_sub_cancel_left]

/-- The first of two bytes. -/
theorem lead?_two {n : Nat} (hLow : 0x80 ≤ n) (hHigh : n < 0x800) :
    lead? (0xC0 + n / 64) = some (n / 64, ⟨1, 0x80, 0xBF⟩) := by
  rw [lead?, if_pos (by omega), Nat.add_sub_cancel_left]

/-- The first of three bytes. The second one is in the bounds that the first one sets, since no
character is a surrogate. -/
theorem lead?_three {n : Nat} (hLow : 0x800 ≤ n) (hHigh : n < 0x10000)
    (hValid : n < 0xD800 ∨ 0xDFFF < n) :
    ∃ low high, lead? (0xE0 + n / 4096) = some (n / 4096, ⟨2, low, high⟩) ∧
      low ≤ 0x80 + n / 64 % 64 ∧ 0x80 + n / 64 % 64 ≤ high := by
  unfold lead?
  rw [if_neg (by omega)]
  split
  · next hLeast => exact ⟨0xA0, 0xBF, by simp; omega, by omega, by omega⟩
  · split
    · next hSurrogate => exact ⟨0x80, 0x9F, by simp; omega, by omega, by omega⟩
    · rw [if_pos (by omega), Nat.add_sub_cancel_left]
      exact ⟨0x80, 0xBF, rfl, by omega, by omega⟩

/-- The first of four bytes. -/
theorem lead?_four {n : Nat} (hLow : 0x10000 ≤ n) (hHigh : n < 0x110000) :
    ∃ low high, lead? (0xF0 + n / 262144) = some (n / 262144, ⟨3, low, high⟩) ∧
      low ≤ 0x80 + n / 4096 % 64 ∧ 0x80 + n / 4096 % 64 ≤ high := by
  unfold lead?
  rw [if_neg (by omega), if_neg (by omega), if_neg (by omega), if_neg (by omega)]
  split
  · next hLeast => exact ⟨0x90, 0xBF, by simp; omega, by omega, by omega⟩
  · split
    · next hLast => exact ⟨0x80, 0x8F, by simp; omega, by omega, by omega⟩
    · rw [if_pos (by omega), Nat.add_sub_cancel_left]
      exact ⟨0x80, 0xBF, rfl, by omega, by omega⟩

/-- A character is read from its bytes, whatever stands behind them. -/
theorem decodeFrom_encodeChar (c : Char) (i : Nat) (rest : List UInt8) :
    ∃ j, decodeFrom .between i ((encodeChar c).map UInt8.ofNat ++ rest) =
      (decodeFrom .between j rest).map (c :: ·) := by
  have hChar : ∀ n, n = c.toNat → Char.ofNat n = c := by
    rintro n rfl
    exact Char.ofNat_toNat c
  have hValid : c.toNat < 0xD800 ∨ 0xDFFF < c.toNat ∧ c.toNat < 0x110000 := c.valid
  unfold encodeChar
  simp only
  generalize c.toNat = n at hChar hValid
  split
  · next hOne =>
      refine ⟨i + 1, ?_⟩
      simp only [List.map_cons, List.map_nil, List.cons_append, List.nil_append]
      rw [decodeFrom_between, toNat_ofNat (show n < 256 by omega), if_pos hOne, hChar n rfl]
  · split
    · next hTwo =>
        refine ⟨i + 1 + 1, ?_⟩
        simp only [List.map_cons, List.map_nil, List.cons_append, List.nil_append]
        rw [decodeFrom_lead (by omega) (lead?_two (by omega) hTwo) (by omega),
          decodeFrom_last (by omega) (by omega) (by omega), hChar _ (by omega)]
    · split
      · next hThree =>
          obtain ⟨low, high, hLead, hLow, hTop⟩ :=
            lead?_three (n := n) (by omega) hThree (by omega)
          refine ⟨i + 1 + 1 + 1, ?_⟩
          simp only [List.map_cons, List.map_nil, List.cons_append, List.nil_append]
          rw [decodeFrom_lead (by omega) hLead (by omega),
            decodeFrom_inner (by omega) hLow hTop (by omega),
            decodeFrom_last (by omega) (by omega) (by omega), hChar _ (by omega)]
      · obtain ⟨low, high, hLead, hLow, hTop⟩ := lead?_four (n := n) (by omega) (by omega)
        refine ⟨i + 1 + 1 + 1 + 1, ?_⟩
        simp only [List.map_cons, List.map_nil, List.cons_append, List.nil_append]
        rw [decodeFrom_lead (by omega) hLead (by omega),
          decodeFrom_inner (by omega) hLow hTop (by omega),
          decodeFrom_inner (by omega) (by omega) (by omega) (by omega),
          decodeFrom_last (by omega) (by omega) (by omega), hChar _ (by omega)]

theorem decodeFrom_encode (t : Text) (i : Nat) : decodeFrom .between i (encode t) = .ok t := by
  induction t generalizing i with
  | nil => rfl
  | cons c t ih =>
      obtain ⟨j, hRest⟩ := decodeFrom_encodeChar c i (encode t)
      rw [encode, List.flatMap_cons, List.map_append]
      exact hRest.trans (by rw [ih]; rfl)

theorem decode_encode (t : Text) : decode (encode t) = .ok t :=
  decodeFrom_encode t 0

end ProseLint.Utf8
