import Toolchain.Ty.Encoding

namespace Toolchain.Encoding

theorem text_eq_flatMap (s : String) : text s = s.toList.flatMap String.utf8EncodeChar := by
  have hbytes : s.toByteArray = (s.toList.flatMap String.utf8EncodeChar).toByteArray :=
    String.utf8Encode_toList.symm
  rw [text, hbytes, List.toList_data_toByteArray]

theorem toNat_lt_of_lt {c d : Char} (h : c < d) : c.val.toNat < d.val.toNat :=
  UInt32.lt_iff_toNat_lt.mp (Char.lt_def.mp h)

theorem toNat_lt_bound (c : Char) : c.val.toNat < 0x110000 := by
  rcases c.valid with h | ⟨_, h⟩
  · exact Nat.lt_trans h (by decide)
  · exact h

theorem ofNat_lt_ofNat {m n : Nat} (hn : n < 256) (h : m < n) : UInt8.ofNat m < UInt8.ofNat n := by
  rw [UInt8.lt_iff_toNat_lt, UInt8.toNat_ofNat', UInt8.toNat_ofNat']
  omega

/-- The first byte tells how many follow, and the bytes are digits of the character's number; so
the first byte in which two characters differ decides, whatever comes after them. -/
theorem encodeChar_append_lt {c d : Char} (h : c < d) (xs ys : List UInt8) :
    String.utf8EncodeChar c ++ xs < String.utf8EncodeChar d ++ ys := by
  have hlt := toNat_lt_of_lt h
  have hd := toNat_lt_bound d
  have step {m n : Nat} {as bs : List UInt8} (hn : n < 256) (hm : m ≤ n)
      (htail : m = n → as < bs) : UInt8.ofNat m :: as < UInt8.ofNat n :: bs := by
    rcases Nat.lt_or_eq_of_le hm with hmn | rfl
    · exact List.cons_lt_cons_iff.mpr (.inl (ofNat_lt_ofNat hn hmn))
    · exact List.cons_lt_cons_iff.mpr (.inr ⟨rfl, htail rfl⟩)
  simp only [String.utf8EncodeChar]
  repeat' split
  -- A goal is left for each pair of lengths; it is closed at the first byte that must differ.
  iterate 5 all_goals first | omega | refine step (by omega) (by omega) fun _ => ?_

theorem flatMap_encodeChar_lt {cs ds : List Char} (h : cs < ds) :
    cs.flatMap String.utf8EncodeChar < ds.flatMap String.utf8EncodeChar := by
  induction ds generalizing cs with
  | nil => exact absurd h (List.not_lt_nil cs)
  | cons d ds ih =>
      cases cs with
      | nil =>
          obtain ⟨b, bs, hb⟩ := List.exists_cons_of_ne_nil (String.utf8EncodeChar_ne_nil (c := d))
          simp [hb]
      | cons c cs =>
          rw [List.flatMap_cons, List.flatMap_cons]
          rcases List.cons_lt_cons_iff.mp h with hcd | ⟨rfl, hrest⟩
          · exact encodeChar_append_lt hcd _ _
          · exact List.append_left_lt (ih hrest)

theorem text_lt_text {s t : String} (h : s < t) : text s < text t := by
  rw [text_eq_flatMap, text_eq_flatMap]
  exact flatMap_encodeChar_lt (String.lt_iff.mp h)

end Toolchain.Encoding
