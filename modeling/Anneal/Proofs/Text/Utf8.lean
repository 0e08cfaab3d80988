import Anneal.Text.Utf8
import Mathlib.Tactic.IntervalCases

/-! Text that was written as bytes is read back as the same text, strictly or not. -/

namespace Anneal.Text

theorem lead_one {k : Nat} (hk : k < 0x80) :
    Lead.ofByte? (UInt8.ofNat k) = some ⟨k, 0, 0x80, 0xBF⟩ := by
  have hn : (UInt8.ofNat k).toNat = k := by
    rw [UInt8.toNat_ofNat']
    omega
  rw [Lead.ofByte?, hn, if_pos hk]

theorem lead_two {k : Nat} (hk : 2 ≤ k) (hk' : k < 32) :
    Lead.ofByte? (UInt8.ofNat (k + 0xC0)) = some ⟨k, 1, 0x80, 0xBF⟩ := by
  interval_cases k <;> rfl

theorem lead_three {k : Nat} (hk : k < 16) :
    Lead.ofByte? (UInt8.ofNat (k + 0xE0)) =
      some ⟨k, 2, if k = 0 then 0xA0 else 0x80, if k = 13 then 0x9F else 0xBF⟩ := by
  interval_cases k <;> rfl

theorem lead_four {k : Nat} (hk : k ≤ 4) :
    Lead.ofByte? (UInt8.ofNat (k + 0xF0)) =
      some ⟨k, 3, if k = 0 then 0x90 else 0x80, if k = 4 then 0x8F else 0xBF⟩ := by
  interval_cases k <;> rfl

theorem followers_six {bits low high count : Nat} {bs : Bytes} (v : Nat)
    (hl : low ≤ v % 64 + 128) (hh : v % 64 + 128 ≤ high) :
    followers bits low high (count + 1) (UInt8.ofNat (v % 64 + 128) :: bs) =
      followers (bits * 64 + v % 64) 0x80 0xBF count bs := by
  have hn : (UInt8.ofNat (v % 64 + 128)).toNat = v % 64 + 128 := by
    rw [UInt8.toNat_ofNat']
    omega
  have hb : (v % 64 + 128) % 64 = v % 64 := by omega
  rw [followers, if_pos (by omega), hn, hb]

theorem firstUnit_encodeChar (c : Char) (bs : Bytes) :
    ∃ b rest, String.utf8EncodeChar c = b :: rest ∧ firstUnit b (rest ++ bs) = (some c, bs) := by
  have hc : c.toNat < 0xD800 ∨ 0xDFFF < c.toNat ∧ c.toNat < 0x110000 := c.valid
  have hv : c.val.toNat = c.toNat := rfl
  have hend (n : Nat) (hn : n = c.toNat) :
      (Option.map Char.ofNat (some n), bs) = (some c, bs) := by
    rw [hn, Option.map_some, Char.ofNat_toNat]
  unfold String.utf8EncodeChar
  simp only [hv]
  split
  next h =>
    refine ⟨_, _, rfl, ?_⟩
    rw [firstUnit, lead_one (by omega)]
    exact hend _ rfl
  next h =>
    split
    next h' =>
      have hk : c.toNat / 64 % 32 = c.toNat / 64 := by omega
      refine ⟨_, _, rfl, ?_⟩
      rw [firstUnit, hk, lead_two (by omega) (by omega)]
      simp only [List.cons_append, List.nil_append]
      rw [followers_six _ (by omega) (by omega)]
      exact hend _ (by omega)
    next h' =>
      split
      next h'' =>
        have hk : c.toNat / 4096 % 16 = c.toNat / 4096 := by omega
        refine ⟨_, _, rfl, ?_⟩
        rw [firstUnit, hk, lead_three (by omega)]
        simp only [List.cons_append, List.nil_append]
        rw [followers_six _ (by split <;> omega) (by split <;> omega),
          followers_six _ (by omega) (by omega)]
        exact hend _ (by omega)
      next h'' =>
        have hk : c.toNat / 262144 % 8 = c.toNat / 262144 := by omega
        refine ⟨_, _, rfl, ?_⟩
        rw [firstUnit, hk, lead_four (by omega)]
        simp only [List.cons_append, List.nil_append]
        rw [followers_six _ (by split <;> omega) (by split <;> omega),
          followers_six _ (by omega) (by omega), followers_six _ (by omega) (by omega)]
        exact hend _ (by omega)

theorem units_append_char (c : Char) (bs : Bytes) :
    units (String.utf8EncodeChar c ++ bs) = some c :: units bs := by
  obtain ⟨b, rest, hb, hu⟩ := firstUnit_encodeChar c bs
  rw [hb, List.cons_append, units, hu]

theorem units_encode (s : String) : units (encode s) = s.toList.map some := by
  unfold encode
  induction s.toList with
  | nil => rw [List.flatMap_nil, units, List.map_nil]
  | cons c cs ih => rw [List.flatMap_cons, units_append_char, ih, List.map_cons]

theorem decodeLossy_encode (s : String) : decodeLossy (encode s) = s := by
  rw [decodeLossy, units_encode, List.map_map]
  simp

theorem decode?_encode (s : String) : decode? (encode s) = some s := by
  have h : (s.toList.map some).mapM id = some s.toList := by
    rw [List.mapM_map]
    have hp : s.toList.mapM (fun c => (pure c : Option Char)) = pure (s.toList.map fun c => c) :=
      List.mapM_pure
    rwa [List.map_id'] at hp
  rw [decode?, units_encode, h, Option.map_some, String.ofList_toList]

theorem encode_append (s t : String) : encode (s ++ t) = encode s ++ encode t := by
  rw [encode, String.toList_append, List.flatMap_append]
  rfl

end Anneal.Text
