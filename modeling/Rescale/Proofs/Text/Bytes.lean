import Mathlib.Data.String.Basic
import Mathlib.Tactic.SplitIfs

/-!
# The Order of Texts

Texts are ordered by their characters, and just as well by their bytes.

Tables with texts for keys are listed in the order of the texts. What a store
compares are not characters but the bytes of their encoding, and a character
takes up to four of them. UTF-8 is made so that this does not matter: the first
byte grows with the number of bytes, and bytes of one place grow with the part of
the character that they hold. So of two different characters the smaller one has
the smaller byte at the first place where they differ, and no encoding is the
start of another one.

## Main definitions

* `Text.bytes`: The bytes of a text.

## Theorems

* `encode_append_lt`: The smaller character comes first, whatever follows.
* `lt_iff_bytes_lt`: The order of texts is that of their bytes.
-/

namespace Rescale

namespace Text

/-- The bytes of a text, in UTF-8. -/
def bytes (s : String) : List UInt8 := s.toUTF8.data.toList

theorem bytes_eq_flatMap (s : String) : bytes s = s.toList.flatMap String.utf8EncodeChar := by
  rw [bytes, String.toUTF8_eq_toByteArray, ← String.utf8Encode_toList, List.utf8Encode,
    List.toList_data_toByteArray]

/-- What has the smaller first byte comes first, and with the same one it depends
    on the rest. -/
theorem ofNat_cons_lt {m n : Nat} {l r : List UInt8} (hm : m < 256) (hn : n < 256)
    (hle : m ≤ n) (hrest : m = n → l < r) : UInt8.ofNat m :: l < UInt8.ofNat n :: r := by
  rcases Nat.lt_or_eq_of_le hle with hlt | rfl
  · exact List.cons_lt_cons_iff.2 (Or.inl ((UInt8.ofNat_lt_iff_lt hm hn).2 hlt))
  · exact List.cons_lt_cons_iff.2 (Or.inr ⟨rfl, hrest rfl⟩)

/-- The encoding of the smaller of two characters comes first, whatever
    follows. -/
theorem encode_append_lt {c d : Char} (h : c < d) (l r : List UInt8) :
    String.utf8EncodeChar c ++ l < String.utf8EncodeChar d ++ r := by
  have hlt : c.val.toNat < d.val.toNat := h
  have hmax : d.val.toNat < 0x110000 := by
    rcases d.valid with hd | hd <;> omega
  unfold String.utf8EncodeChar
  generalize c.val.toNat = m at *
  generalize d.val.toNat = n at *
  -- One case for each pair of widths. The bytes of the smaller one are at most
  -- those of the other one as long as all before them agree, and not all agree.
  dsimp only
  split_ifs
  all_goals
    simp only [List.cons_append, List.nil_append]
    repeat' refine ofNat_cons_lt (by omega) (by omega) (by omega) fun _ => ?_
    omega

/-- By the first place where two texts differ. -/
theorem flatMap_encode_lt {cs ds : List Char} (h : cs < ds) :
    cs.flatMap String.utf8EncodeChar < ds.flatMap String.utf8EncodeChar := by
  induction h with
  | @nil d ds =>
      rw [List.flatMap_nil, List.flatMap_cons]
      rcases List.exists_cons_of_ne_nil (String.utf8EncodeChar_ne_nil (c := d)) with ⟨b, bs, hd⟩
      rw [hd]
      exact List.Lex.nil
  | @rel c cs d ds hlt =>
      rw [List.flatMap_cons, List.flatMap_cons]
      exact encode_append_lt hlt _ _
  | @cons c cs ds _ ih =>
      rw [List.flatMap_cons, List.flatMap_cons]
      exact List.append_left_lt ih

/-- The order of texts is that of their bytes. -/
theorem lt_iff_bytes_lt {s t : String} : s < t ↔ bytes s < bytes t := by
  have hmono : ∀ {s t : String}, s < t → bytes s < bytes t := by
    intro s t h
    rw [bytes_eq_flatMap, bytes_eq_flatMap]
    exact flatMap_encode_lt (String.lt_iff_toList_lt.1 h)
  refine ⟨hmono, fun h => ?_⟩
  rcases lt_trichotomy s t with hlt | rfl | hgt
  · exact hlt
  · exact absurd h (List.lt_irrefl _)
  · exact absurd h (List.lt_asymm (hmono hgt))

/-- Texts that compare as smaller have the smaller bytes. -/
theorem compare_eq_lt_iff {s t : String} : compare s t = .lt ↔ bytes s < bytes t :=
  Std.LawfulLTCmp.eq_lt_iff_lt.trans lt_iff_bytes_lt

end Text

end Rescale
